import DeviceDriverTest.TestLogVerdict
import Mathlib.Data.List.Induction

/-! The framebuffer user tests: what each case reports to the test log for the
answers of the driver, and the number the program ends with. -/

namespace DeviceDriverTest

namespace FbUserTests

open TestLog ProcessLogic

inductive Flag
  | O_RDONLY
  | O_WRONLY
  | O_RDWR
  | O_CREAT

def Flag.name : Flag → String
  | .O_RDONLY => "O_RDONLY"
  | .O_WRONLY => "O_WRONLY"
  | .O_RDWR => "O_RDWR"
  | .O_CREAT => "O_CREAT"

inductive Case
  | badIoctlCmd
  | screeninfo
  | cmap
  | writeCmap
  | writeScreeninfo
  | writeData

/-- What `mmap` returns; `failed` is `MAP_FAILED`. -/
inductive Mapping
  | null
  | failed
  | mapped
  deriving DecidableEq

/-- The answers to the calls of the program. `reopen` and `reclose` are the calls of
`main`, the ioctls of a case are numbered. -/
structure Outcomes where
  open_ : Flag → Int
  close : Flag → Int
  reopen : Int
  reclose : Int
  ioctl : Case → Nat → Int
  red : Nat
  green : Nat
  blue : Nat
  xres : Int
  yres : Int
  mmap : Mapping
  strerror : Text

/-- What the macros with `_f` make of a format with one argument at its end. -/
def formatted (format : String) (arg : Text) : Text := snprintf LOG_BUFF_SIZE (format.toList ++ arg)

def Outcomes.errorLine (o : Outcomes) : Text := o.strerror ++ ['\n']

/-- The checks of a case that goes on to the next one after a failure. -/
def checks (l : Log) : List (Bool × Text) → Process Log (Log × Nat)
  | [] => .running l
  | (failed, msg) :: rest => (if failed then case_fail l msg else .running l).andThen fun l => checks l rest

/-- A case that passes when none of its checks has failed. -/
def checkedCase (l : Log) (cs : List (Bool × Text)) (msg : Text) : Process Log (Log × Nat) :=
  (checks l cs).andThen fun l => if cs.any (·.1) then .running l else case_pass l msg

def screeninfoChecks (o : Outcomes) : List (Bool × Text) :=
  [(o.ioctl .screeninfo 0 != 0, formatted "call_test_ioctl - FBIOGET_FSCREENINFO: " o.errorLine),
    (o.ioctl .screeninfo 1 == 0, formatted "call_test_ioctl - FBIOGET_FSCREENINFO with null: " o.errorLine),
    (o.ioctl .screeninfo 2 != 0, formatted "call_test_ioctl - FBIOGET_VSCREENINFO\n:" o.strerror),
    (o.ioctl .screeninfo 3 == 0, formatted "call_test_ioctl - FBIOGET_VSCREENINFO with null: " o.errorLine)]

def cmapChecks (o : Outcomes) : List (Bool × Text) :=
  [(o.ioctl .cmap 0 != 0, formatted "call_test_ioctl - FBIOGETCMAP: " o.errorLine),
    (o.ioctl .cmap 1 == 0, formatted "call_test_ioctl - FBIOGETCMAP with null: " o.errorLine)]

def call_test_ioctl (l : Log) (o : Outcomes) : Case → Process Log (Log × Nat)
  | .badIoctlCmd =>
    (checks l [(o.ioctl .badIoctlCmd 0 != -1, "ioctl with command did not fail\n".toList)]).andThen fun l =>
      -- whatever has been reported
      case_pass l "test for invalid ioctl cmd".toList
  | .screeninfo => checkedCase l (screeninfoChecks o) "test for screeninfo ioctl".toList
  | .cmap => checkedCase l (cmapChecks o) "test for colormap ioctl".toList
  | _ => case_fail l "Switch statement in call_test_ioctl: Should never have reached here. \n".toList

def call_test_write (l : Log) (o : Outcomes) : Case → Process Log (Log × Nat)
  | .writeCmap =>
    if o.ioctl .writeCmap 0 ≠ 0 then
      case_fail l (formatted "call_test_write - Could not get current color map:" o.errorLine)
    else if o.ioctl .writeCmap 1 ≠ 0 then
      case_fail l (formatted "call_test_write - Could not update color map\n" [])
    else if o.ioctl .writeCmap 2 ≠ 0 then
      case_fail l (formatted "call_test_write - Could not get updated color map:" o.errorLine)
    else if o.red ≠ 0x2000 ∨ o.green ≠ 0x200 ∨ o.blue ≠ 0x20 then
      case_fail l (formatted "call_test_write - Update to color map was allowed unexpectedly:" o.errorLine)
    else case_pass l "write test for colormap".toList
  | .writeScreeninfo =>
    if o.ioctl .writeScreeninfo 0 ≠ 0 then test_fail l "unable to read fixed screen info".toList
    else if o.ioctl .writeScreeninfo 1 ≠ 0 then
      case_fail l (formatted "call_test_write - Could not get var screen info for write:" o.errorLine)
    else if o.ioctl .writeScreeninfo 2 ≠ 0 then
      case_fail l (formatted "call_test_write -  Could not put var screen info for write: " o.errorLine)
    else case_pass l "write test for screen info".toList
  | .writeData =>
    if o.ioctl .writeData 0 ≠ 0 then test_fail l "unable to read fixed screen info".toList
    else if o.ioctl .writeData 1 ≠ 0 then
      case_fail l (formatted "call_test_write - Could not get var screen info for write: " o.errorLine)
    else
      match o.mmap with
      | .null => case_fail l (formatted "call_test_write - Unable to mmap: " o.errorLine)
      -- `data <= 0` lets `MAP_FAILED` through, and the first byte that is written is a fault
      | .failed => if 0 < o.yres ∧ 0 < o.xres then .aborted else case_pass l "write test for framebuffer".toList
      | .mapped => case_pass l "write test for framebuffer".toList
  | _ => test_fail l "Switch statement in call_test_write: Should never have reached here. \n".toList

def call_test_open (l : Log) (o : Outcomes) (flag : Flag) : Process Log (Log × Nat) :=
  let err_case := false
  let opened := "call_test_open - Open of /dev/fb0 file with flag: " ++ flag.name
  let fd := toString (o.open_ flag)
  let ret := toString (o.close flag)
  (if o.open_ flag = -1 ∧ err_case = false then case_fail l (formatted (opened ++ ", failed with: " ++ fd) ['\n'])
  else if err_case = true ∧ o.open_ flag ≠ -1 then
    case_fail l (formatted (opened ++ ", should have returned a -1, but it returned: " ++ fd) ".\n".toList)
  else case_pass l "open test".toList).andThen fun l =>
    if o.close flag ≠ 0 then test_fail l (formatted ("call_test_open - Problem closing /dev/fb0: " ++ ret) ".\n".toList)
    else .running l

def startCase (l : Log) (name : String) (test : Log → Process Log (Log × Nat)) : Process Log (Log × Nat) :=
  (case_start l name.toList).andThen test

def openTests (l : Log) (o : Outcomes) : Process Log (Log × Nat) :=
  (((startCase l "open device file O_RDONLY" fun l => call_test_open l o .O_RDONLY).andThen fun l =>
    startCase l "open device file O_WRONLY" fun l => call_test_open l o .O_WRONLY).andThen fun l =>
    startCase l "open device file O_RDWR" fun l => call_test_open l o .O_RDWR).andThen fun l =>
    startCase l "open device file O_CREAT" fun l => call_test_open l o .O_CREAT

def ioctlTests (l : Log) (o : Outcomes) : Process Log (Log × Nat) :=
  (((((startCase l "test for invalid ioctl command" fun l => call_test_ioctl l o .badIoctlCmd).andThen fun l =>
    startCase l "test for screeninfo ioctls" fun l => call_test_ioctl l o .screeninfo).andThen fun l =>
    startCase l "test for colormap ioctls" fun l => call_test_ioctl l o .cmap).andThen fun l =>
    startCase l "write test for colormap" fun l => call_test_write l o .writeCmap).andThen fun l =>
    startCase l "write test for screeninfo" fun l => call_test_write l o .writeScreeninfo).andThen fun l =>
    startCase l "write test  for framebuffer" fun l => call_test_write l o .writeData

/-- The program, run as root where `uname` works. -/
def main (o : Outcomes) (udata : Utsname) : Process Log (Log × Nat) :=
  ((test_init test_create "Starting User Space tests for Framebuffer".toList true udata).andThen fun l =>
    openTests l o).andThen fun l =>
    if o.reopen = -1 then test_error_exit l (formatted "Open of /dev/fb0 file failed with: -1" ".\n".toList)
    else
      (ioctlTests l o).andThen fun l =>
        if o.reclose ≠ 0 then
          test_fail l (formatted ("Problem closing /dev/fb0: " ++ toString o.reclose) ".\n".toList)
        else test_exit l "Completed User Space tests for Framebuffer".toList

/-- Whether a case is open after a record; `none` after a report of no open case, or
when a case starts before the one before it has been reported. -/
def track (opened : Option Bool) (c : Call) : Option Bool :=
  match c.type with
  | .CASE_START => if opened = some false then some true else none
  | .PASS | .FAIL => if opened = some true then some false else none
  | _ => opened

def fails (calls : List Call) : Nat := calls.countP fun c => c.type == .FAIL

/-- The records before the verdict: each case is reported once before the next one
starts. The status is zero unless a case failed or `lost` holds. -/
structure Ended (lost : Prop) (r : Log × Nat) : Prop where
  protocol : ∃ before verdict last, r.1.calls = before ++ [verdict, last] ∧
    before.foldl track (some false) = some false ∧ (r.2 ≠ 0 ↔ 0 < fails before ∨ lost)

def DeviceLost (o : Outcomes) : Prop := (∀ flag, o.close flag = 0) ∧ o.reopen = -1

def Reopened (o : Outcomes) : Prop := (∀ flag, o.close flag = 0) ∧ o.reopen ≠ -1

/-- No case has two things to report: the bad command is refused, at most one check of
a case fails, and a mapping that has failed is not written to. -/
structure ReportsOnce (o : Outcomes) : Prop where
  badIoctlCmd : o.ioctl .badIoctlCmd 0 = -1
  screeninfo : (screeninfoChecks o).countP (·.1) ≤ 1
  cmap : (cmapChecks o).countP (·.1) ≤ 1
  mmap : o.ioctl .writeScreeninfo 0 = 0 → o.ioctl .writeData 0 = 0 → o.ioctl .writeData 1 = 0 →
    o.mmap = .failed → ¬ (0 < o.yres ∧ 0 < o.xres)

/-- Between the tests: the cases before have been reported, at most `n` as failed. -/
structure Well (opened : Bool) (n : Nat) (l : Log) : Prop where
  logging : l.logging = true
  flag : l.case_start = opened
  errors : l.errors = 0
  failures : l.failures = Int32.ofNat (fails l.calls)
  bound : fails l.calls ≤ n
  tracked : l.calls.foldl track (some false) = some opened

variable {n : Nat} {l : Log} {opened : Bool} {lost : Prop} {final : Log × Nat → Prop}

theorem Well.mono (h : Well opened n l) {m : Nat} (hm : n ≤ m) : Well opened m l :=
  { h with bound := Nat.le_trans h.bound hm }

theorem fails_append (calls : List Call) (c : Call) :
    fails (calls ++ [c]) = fails calls + if c.type = .FAIL then 1 else 0 := by
  rw [fails, List.countP_append, List.countP_singleton]
  simp [fails]

/-- A record after `l`, where it keeps to the order of the reports and is counted. -/
theorem log_meets {type : MsgType} {msg : Text} {dlevel : Int} (hlogging : l.logging = true) (herrors : l.errors = 0)
    (hfailures : l.failures = Int32.ofNat (fails (l.calls ++ [⟨type, msg, dlevel⟩])))
    (hbound : fails (l.calls ++ [⟨type, msg, dlevel⟩]) ≤ n)
    (htracked : track (l.calls.foldl track (some false)) ⟨type, msg, dlevel⟩ = some l.case_start) :
    (l.log type msg dlevel).Meets (Well l.case_start n) final := by
  rw [Log.log, if_pos hlogging]
  refine ⟨hlogging, rfl, herrors, hfailures, hbound, ?_⟩
  rw [List.foldl_append]
  exact htracked

theorem log_other_meets {type : MsgType} {msg : Text} {dlevel : Int} (htype : type ≠ .FAIL)
    (hlogging : l.logging = true) (herrors : l.errors = 0) (hfailures : l.failures = Int32.ofNat (fails l.calls))
    (hbound : fails l.calls ≤ n)
    (htracked : track (l.calls.foldl track (some false)) ⟨type, msg, dlevel⟩ = some l.case_start) :
    (l.log type msg dlevel).Meets (Well l.case_start n) final := by
  have hsame : fails (l.calls ++ [⟨type, msg, dlevel⟩]) = fails l.calls := by
    rw [fails_append, if_neg htype, Nat.add_zero]
  rw [← hsame] at hfailures hbound
  exact log_meets hlogging herrors hfailures hbound htracked

theorem case_start_meets (h : Well false n l) (name : Text) : (case_start l name).Meets (Well true n) final := by
  refine log_other_meets (l := { l with case_start := true }) ?_ h.logging h.errors h.failures h.bound ?_
  · exact nofun
  · rw [h.tracked]
    rfl

theorem case_pass_meets (h : Well true n l) (msg : Text) : (case_pass l msg).Meets (Well false n) final := by
  rw [case_pass, if_pos h.flag]
  refine log_other_meets (l := { l with passes := l.passes + 1, case_start := false }) ?_ h.logging h.errors
    h.failures h.bound ?_
  · exact nofun
  · rw [h.tracked]
    rfl

theorem case_fail_meets (h : Well true n l) (msg : Text) : (case_fail l msg).Meets (Well false (n + 1)) final := by
  have hmore : fails (l.calls ++ [⟨.FAIL, msg, ERROR⟩]) = fails l.calls + 1 := fails_append _ _
  rw [case_fail, if_pos h.flag]
  apply log_meets (l := { l with case_start := false, failures := l.failures + 1 }) h.logging h.errors
  · rw [hmore]
    exact counter_succ h.failures
  · rw [hmore]
    exact Nat.succ_le_succ h.bound
  · rw [h.tracked]
    rfl

/-- The counters that `test_exit` logs are not reports. -/
theorem info_neutral {counters : List Call} (h : ∀ c ∈ counters, c.type = .INFO) (calls : List Call) :
    fails (calls ++ counters) = fails calls ∧
      (calls ++ counters).foldl track (some false) = calls.foldl track (some false) := by
  induction counters using List.reverseRecOn with
  | nil => rw [List.append_nil]; exact ⟨rfl, rfl⟩
  | append_singleton counters c ih =>
    obtain ⟨hfails, htrack⟩ := ih fun c' hc' => h c' (List.mem_append_left _ hc')
    have hinfo : c.type = .INFO := h c (List.mem_append_right _ List.mem_cons_self)
    rw [← List.append_assoc, fails_append, hfails, List.foldl_append, htrack, hinfo]
    refine ⟨rfl, ?_⟩
    show track _ c = _
    rw [track, hinfo]

theorem test_exit_ended (errors : Nat) (hlogging : l.logging = true) (herrors : l.errors = Int32.ofNat errors)
    (hfailures : l.failures = Int32.ofNat (fails l.calls)) (hsmall : fails l.calls + errors < 256)
    (htracked : l.calls.foldl track (some false) = some false) (hlost : lost ↔ 0 < errors) (msg : Text) :
    (test_exit l msg).Meets (fun _ => False) (Ended lost) := by
  obtain ⟨counters, hinfo, hexit⟩ := test_exit_eq hlogging msg
  obtain ⟨hfails, htrack⟩ := info_neutral hinfo l.calls
  rw [hexit, hfailures, herrors, status_eq, Nat.mod_eq_of_lt hsmall]
  refine ⟨l.calls ++ counters, _, _, rfl, htrack.trans htracked, ?_⟩
  rw [hfails, hlost]
  omega

theorem exit_meets (h : Well false n l) (hn : n < 256) (hlost : ¬ lost) (msg : Text) :
    (test_exit l msg).Meets (fun _ => False) (Ended lost) :=
  test_exit_ended 0 h.logging h.errors h.failures (Nat.lt_of_le_of_lt h.bound hn) h.tracked
    (iff_of_false hlost (Nat.lt_irrefl 0)) msg

/-- `test_fail` reports the case that is open before it exits. -/
theorem fail_meets (h : Well opened n l) (hn : n + 1 < 256) (hlost : ¬ lost) (msg : Text) {post : Log → Prop} :
    (test_fail l msg).Meets post (Ended lost) := by
  have hexit : (test_fail l msg).Meets (fun _ => False) (Ended lost) := by
    rw [test_fail, h.flag]
    cases opened with
    | true => exact (case_fail_meets h msg).andThen fun l' h' => exit_meets h' hn hlost msg
    | false => exact exit_meets h (Nat.lt_of_succ_lt hn) hlost msg
  exact hexit.mono (fun _ => False.elim) fun _ hr => hr

theorem error_exit_meets (h : Well false n l) (hn : n + 1 < 256) (hlost : lost) (msg : Text) :
    (test_error_exit l msg).Meets (fun _ => False) (Ended lost) := by
  have hsame : fails (l.calls ++ [⟨.ERRORL, msg, ERROR⟩]) = fails l.calls := fails_append _ _
  have herror : test_error l msg =
      .running { l with errors := l.errors + 1, calls := l.calls ++ [⟨.ERRORL, msg, ERROR⟩] } := if_pos h.logging
  have hfailures : l.failures = Int32.ofNat (fails (l.calls ++ [⟨.ERRORL, msg, ERROR⟩])) := by
    rw [hsame]
    exact h.failures
  have hsmall : fails (l.calls ++ [⟨.ERRORL, msg, ERROR⟩]) + 1 < 256 := by
    rw [hsame]
    have hbound := h.bound
    omega
  have htracked : (l.calls ++ [(⟨.ERRORL, msg, ERROR⟩ : Call)]).foldl track (some false) = some false := by
    rw [List.foldl_append, h.tracked]
    rfl
  rw [test_error_exit, herror]
  exact test_exit_ended (l := { l with errors := l.errors + 1, calls := l.calls ++ [⟨.ERRORL, msg, ERROR⟩] }) 1
    h.logging (counter_succ h.errors) hfailures hsmall htracked (iff_of_true hlost Nat.one_pos) msg

theorem checks_passing {cs : List (Bool × Text)} (h : ∀ c ∈ cs, c.1 = false) (l : Log) :
    checks l cs = .running l := by
  induction cs with
  | nil => rfl
  | cons c rest ih =>
    have hc : c.1 = false := h c List.mem_cons_self
    rw [checks, hc]
    exact ih fun c' hc' => h c' (List.mem_cons_of_mem c hc')

/-- Where at most one check fails, the case is reported at most once. -/
theorem checks_meets {cs : List (Bool × Text)} (hone : cs.countP (·.1) ≤ 1) (h : Well true n l) :
    (checks l cs).Meets (fun l => if cs.any (·.1) then Well false (n + 1) l else Well true n l) final := by
  induction cs with
  | nil => exact h
  | cons c rest ih =>
    rw [List.countP_cons] at hone
    rw [checks]
    by_cases hc : c.1 = true
    · have hrest : ∀ c' ∈ rest, c'.1 = false := by
        intro c' hc'
        have hzero : rest.countP (·.1) = 0 := by
          rw [if_pos hc] at hone
          omega
        simpa using List.countP_eq_zero.mp hzero c' hc'
      have hany : (c :: rest).any (·.1) = true := by simp [hc]
      rw [if_pos hc, hany]
      refine (case_fail_meets h c.2).andThen fun l' h' => ?_
      rw [checks_passing hrest]
      exact h'
    · have hany : (c :: rest).any (·.1) = rest.any (·.1) := by simp [hc]
      rw [if_neg hc, hany]
      exact ih (by rwa [if_neg hc] at hone)

theorem checkedCase_meets {cs : List (Bool × Text)} (hone : cs.countP (·.1) ≤ 1) (h : Well true n l) (msg : Text) :
    (checkedCase l cs msg).Meets (Well false (n + 1)) final := by
  rw [checkedCase]
  refine (checks_meets hone h).andThen fun l' h' => ?_
  cases hany : cs.any (·.1) with
  | true =>
    rw [hany] at h'
    exact h'
  | false =>
    rw [hany] at h'
    exact (case_pass_meets (h'.mono (Nat.le_succ n)) msg)

theorem badIoctlCmd_meets {o : Outcomes} (hbad : o.ioctl .badIoctlCmd 0 = -1) (h : Well true n l) :
    (call_test_ioctl l o .badIoctlCmd).Meets (Well false (n + 1)) final := by
  have hrefused : checks l [(o.ioctl .badIoctlCmd 0 != -1, "ioctl with command did not fail\n".toList)] = .running l :=
    checks_passing (by simp [hbad]) l
  rw [call_test_ioctl, hrefused]
  exact case_pass_meets (h.mono (Nat.le_succ n)) _

theorem writeCmap_meets (o : Outcomes) (h : Well true n l) :
    (call_test_write l o .writeCmap).Meets (Well false (n + 1)) final := by
  rw [call_test_write]
  split_ifs
  · exact case_fail_meets h _
  · exact case_fail_meets h _
  · exact case_fail_meets h _
  · exact case_fail_meets h _
  · exact case_pass_meets (h.mono (Nat.le_succ n)) _

theorem writeScreeninfo_meets (o : Outcomes) (h : Well true n l) (hn : n + 1 < 256) (hlost : ¬ lost) :
    (call_test_write l o .writeScreeninfo).Meets
      (fun l => o.ioctl .writeScreeninfo 0 = 0 ∧ Well false (n + 1) l) (Ended lost) := by
  rw [call_test_write]
  split_ifs with h0
  · exact fail_meets h hn hlost _
  · exact (case_fail_meets h _).and_fact (not_not.mp h0)
  · exact (case_fail_meets h _).and_fact (not_not.mp h0)
  · exact (case_pass_meets (h.mono (Nat.le_succ n)) _).and_fact (not_not.mp h0)

theorem writeData_meets {o : Outcomes} (hmmap : o.ioctl .writeData 0 = 0 → o.ioctl .writeData 1 = 0 →
      o.mmap = .failed → ¬ (0 < o.yres ∧ 0 < o.xres)) (h : Well true n l) (hn : n + 1 < 256) (hlost : ¬ lost) :
    (call_test_write l o .writeData).Meets (Well false (n + 1)) (Ended lost) := by
  rw [call_test_write]
  by_cases h0 : o.ioctl .writeData 0 ≠ 0
  · rw [if_pos h0]
    exact fail_meets h hn hlost _
  · rw [if_neg h0]
    by_cases h1 : o.ioctl .writeData 1 ≠ 0
    · rw [if_pos h1]
      exact case_fail_meets h _
    · rw [if_neg h1]
      cases hmapping : o.mmap with
      | null => exact case_fail_meets h _
      | mapped => exact case_pass_meets (h.mono (Nat.le_succ n)) _
      | failed =>
        dsimp only
        rw [if_neg (hmmap (not_not.mp h0) (not_not.mp h1) hmapping)]
        exact case_pass_meets (h.mono (Nat.le_succ n)) _

theorem call_test_open_meets (o : Outcomes) (flag : Flag) (h : Well true n l) (hn : n + 2 < 256)
    (hlost : o.close flag ≠ 0 → ¬ lost) :
    (call_test_open l o flag).Meets (fun l => o.close flag = 0 ∧ Well false (n + 1) l) (Ended lost) := by
  have hreport : ∀ msg good, (if o.open_ flag = -1 ∧ false = false then case_fail l msg
      else if false = true ∧ o.open_ flag ≠ -1 then case_fail l good
      else case_pass l "open test".toList).Meets (Well false (n + 1)) (Ended lost) := by
    intro msg good
    split_ifs
    · exact case_fail_meets h msg
    · exact case_fail_meets h good
    · exact case_pass_meets (h.mono (Nat.le_succ n)) _
  rw [call_test_open]
  refine (hreport _ _).andThen fun l' h' => ?_
  split_ifs with hclose
  · exact fail_meets h' hn (hlost hclose) _
  · exact ⟨not_not.mp hclose, h'⟩

theorem startCase_meets (h : Well false n l) (name : String) {test : Log → Process Log (Log × Nat)}
    {post : Log → Prop} (htest : ∀ l, Well true n l → (test l).Meets post final) :
    (startCase l name test).Meets post final :=
  (case_start_meets h name.toList).andThen htest

theorem openTests_meets (o : Outcomes) (h : Well false 0 l) :
    (openTests l o).Meets (fun l => (∀ flag, o.close flag = 0) ∧ Well false 4 l) (Ended (DeviceLost o)) := by
  have hopen : ∀ (flag : Flag) (name : String) (n : Nat) (l : Log), n + 2 < 256 → Well false n l →
      (startCase l name fun l => call_test_open l o flag).Meets
        (fun l => o.close flag = 0 ∧ Well false (n + 1) l) (Ended (DeviceLost o)) := by
    intro flag name n l hn hl
    exact startCase_meets hl name fun l' h' =>
      call_test_open_meets o flag h' hn fun hclose hlost => hclose (hlost.1 flag)
  have hfirst := hopen .O_RDONLY "open device file O_RDONLY" 0 l (by decide) h
  have hsecond := hfirst.andThen fun l' h' =>
    (hopen .O_WRONLY "open device file O_WRONLY" 1 l' (by decide) h'.2).and_fact h'.1
  have hthird := hsecond.andThen fun l' h' =>
    (hopen .O_RDWR "open device file O_RDWR" 2 l' (by decide) h'.2.2).and_fact (And.intro h'.1 h'.2.1)
  have hfourth := hthird.andThen fun l' h' =>
    (hopen .O_CREAT "open device file O_CREAT" 3 l' (by decide) h'.2.2).and_fact (And.intro h'.1 h'.2.1)
  refine hfourth.mono (fun l' h' => ⟨fun flag => ?_, h'.2.2⟩) fun _ hr => hr
  cases flag with
  | O_RDONLY => exact h'.1.1.1
  | O_WRONLY => exact h'.1.1.2
  | O_RDWR => exact h'.1.2
  | O_CREAT => exact h'.2.1

theorem ioctlTests_meets {o : Outcomes} (hreports : ReportsOnce o) (hlost : ¬ lost) (h : Well false 4 l) :
    (ioctlTests l o).Meets (Well false 10) (Ended lost) := by
  have hbad : (startCase l "test for invalid ioctl command" fun l => call_test_ioctl l o .badIoctlCmd).Meets
      (Well false 5) (Ended lost) :=
    startCase_meets h _ fun _ h' => badIoctlCmd_meets hreports.badIoctlCmd h'
  have hscreeninfo := hbad.andThen fun _ h' => startCase_meets h' "test for screeninfo ioctls"
    fun _ h' => checkedCase_meets hreports.screeninfo h' "test for screeninfo ioctl".toList
  have hcmap := hscreeninfo.andThen fun _ h' => startCase_meets h' "test for colormap ioctls"
    fun _ h' => checkedCase_meets hreports.cmap h' "test for colormap ioctl".toList
  have hwriteCmap := hcmap.andThen fun _ h' => startCase_meets h' "write test for colormap"
    fun _ h' => writeCmap_meets o h'
  have hwriteScreeninfo := hwriteCmap.andThen fun _ h' => startCase_meets h' "write test for screeninfo"
    fun _ h' => writeScreeninfo_meets o h' (by decide) hlost
  exact hwriteScreeninfo.andThen fun _ h' => startCase_meets h'.2 "write test  for framebuffer"
    fun _ h'' => writeData_meets (hreports.mmap h'.1) h'' (by decide) hlost

theorem test_init_well (name : Text) (udata : Utsname) :
    ∃ l, test_init test_create name true udata = .running l ∧ Well false 0 l :=
  ⟨_, rfl, rfl, rfl, rfl, rfl, Nat.le_refl 0, rfl⟩

theorem main_meets {o : Outcomes} (hreports : Reopened o → ReportsOnce o) (udata : Utsname) :
    (main o udata).Meets (fun _ => False) (Ended (DeviceLost o)) := by
  obtain ⟨l, hinit, h⟩ := test_init_well "Starting User Space tests for Framebuffer".toList udata
  rw [main, hinit]
  refine (openTests_meets o h).andThen fun l' h' => ?_
  by_cases hreopen : o.reopen = -1
  · rw [if_pos hreopen]
    exact error_exit_meets h'.2 (by decide) ⟨h'.1, hreopen⟩ _
  · rw [if_neg hreopen]
    have hlost : ¬ DeviceLost o := fun hlost => hreopen hlost.2
    refine (ioctlTests_meets (hreports ⟨h'.1, hreopen⟩) hlost h'.2).andThen fun l'' h'' => ?_
    split_ifs
    · exact fail_meets h'' (by decide) hlost _
    · exact exit_meets h'' (by decide) hlost _

/-- Where no case has two things to report, every case is reported once, and the
program ends with zero unless a case failed or the device cannot be opened again. -/
theorem main_ended {o : Outcomes} (hreports : Reopened o → ReportsOnce o) (udata : Utsname) :
    ∃ r, main o udata = .exited r ∧ Ended (DeviceLost o) r :=
  (main_meets hreports udata).exited

/-- Every answer is good, and `reopen` and the bad command are as given. -/
def answers (reopen badIoctlCmd : Int) : Outcomes where
  open_ := fun _ => 3
  close := fun _ => 0
  reopen := reopen
  reclose := 0
  ioctl := fun c k =>
    match c, k with
    | .badIoctlCmd, _ => badIoctlCmd
    | .screeninfo, 1 | .screeninfo, 3 | .cmap, 1 => -1
    | _, _ => 0
  red := 0x2000
  green := 0x200
  blue := 0x20
  xres := 150
  yres := 329
  mmap := .mapped
  strerror := []

theorem main_ended_good :
    ∃ r, main (answers 3 (-1)) ⟨[], [], [], []⟩ = .exited r ∧ Ended (DeviceLost (answers 3 (-1))) r :=
  main_ended (fun _ => ⟨rfl, by decide, by decide, fun _ _ _ h => absurd h (by decide)⟩) ⟨[], [], [], []⟩

/-- Without any failed case, the program ends with one when it cannot open the device again. -/
theorem device_lost_without_failed_case :
    ¬ ∃ r, main (answers (-1) (-1)) ⟨[], [], [], []⟩ = .exited r ∧ Ended False r := by
  rintro ⟨r, hrun, hended⟩
  obtain ⟨l, hmain, htypes⟩ : ∃ l, main (answers (-1) (-1)) ⟨[], [], [], []⟩ = .exited (l, 1) ∧
      l.calls.map Call.type = [.START, .SYSINFO, .SYSINFO, .SYSINFO, .SYSINFO, .SYSINFO, .CASE_START, .PASS,
        .CASE_START, .PASS, .CASE_START, .PASS, .CASE_START, .PASS, .ERRORL, .INFO, .INFO, .INFO] ++ [.FAIL, .END] :=
    ⟨_, rfl, rfl⟩
  rw [hmain] at hrun
  obtain rfl : (l, 1) = r := Process.exited.inj hrun
  obtain ⟨before, verdict, last, hcalls, -, hstatus⟩ := hended.protocol
  have hbefore := htypes
  rw [hcalls, List.map_append] at hbefore
  have hpassed := List.append_inj_left' hbefore rfl
  have hfails : fails before = (before.map Call.type).countP (· == .FAIL) := by
    rw [List.countP_map]
    rfl
  rw [hpassed] at hfails
  obtain hfailed | hlost := hstatus.mp Nat.one_ne_zero
  · rw [hfails] at hfailed
    exact absurd hfailed (by decide)
  · exact hlost

end FbUserTests

end DeviceDriverTest
