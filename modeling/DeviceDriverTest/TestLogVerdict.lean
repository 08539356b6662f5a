import Mathlib.Algebra.Group.Nat.Defs
import Mathlib.Algebra.Ring.Int.Defs
import Mathlib.Data.Int.Basic
import DeviceDriverTest.TestLog

/-! The verdict of a test that keeps to the protocol of the logging library. -/

namespace DeviceDriverTest

namespace TestLog

inductive Op
  | case_start (name : Text)
  | case_pass (msg : Text)
  | case_fail (msg : Text)
  | test_error (msg : Text)
  | test_warn (msg : Text)
  | test_info (msg : Text)

def call (l : Log) : Op → Process
  | .case_start name => case_start l name
  | .case_pass msg => case_pass l msg
  | .case_fail msg => case_fail l msg
  | .test_error msg => test_error l msg
  | .test_warn msg => test_warn l msg
  | .test_info msg => test_info l msg

def callAll (l : Log) : List Op → Process
  | [] => .running l
  | op :: rest => (call l op).andThen fun l => callAll l rest

/-- Whether a case is open after the call; `none` where the protocol forbids the call. -/
def Op.next (opened : Bool) : Op → Option Bool
  | .case_start _ => if opened then none else some true
  | .case_pass _ => if opened then some false else none
  | .case_fail _ => if opened then some false else none
  | _ => some opened

/-- Every case that is started passes or fails once, before the next one starts. -/
def Respects (opened : Bool) : List Op → Prop
  | [] => opened = false
  | op :: rest => ∃ opened', op.next opened = some opened' ∧ Respects opened' rest

/-- A test that keeps to the protocol, with what it passes to `test_init` and `test_exit`. -/
structure Program where
  name : Text
  uname : Bool
  udata : Utsname
  ops : List Op
  msg : Text
  respects : Respects false ops

def Program.run (p : Program) : Process :=
  ((test_init test_create p.name p.uname p.udata).andThen fun l => callAll l p.ops).andThen fun l =>
    test_exit l p.msg

def Op.starts (op : Op) : Bool := op matches .case_start _
def Op.passes (op : Op) : Bool := op matches .case_pass _
def Op.fails (op : Op) : Bool := op matches .case_fail _
def Op.errs (op : Op) : Bool := op matches .test_error _

def Program.started (p : Program) : Nat := p.ops.countP Op.starts
def Program.passes (p : Program) : Nat := p.ops.countP Op.passes
def Program.failures (p : Program) : Nat := p.ops.countP Op.fails

/-- The calls to `test_error`, with the one of `test_init` when `uname` fails. -/
def Program.errors (p : Program) : Nat := (if p.uname then 0 else 1) + p.ops.countP Op.errs

def Program.Failed (p : Program) : Prop := p.uname = false ∨ ∃ op ∈ p.ops, op.fails = true ∨ op.errs = true

/-- What the reader of the log and the caller of the test are told. -/
structure Told (p : Program) (l : Log) (status : Nat) : Prop where
  final : l.calls.dropLast.getLast? = some ⟨.PASS, "TESTPASSED".toList, ERROR⟩ ↔ ¬ p.Failed
  status : status = 0 ↔ ¬ p.Failed
  cases : l.passes.toInt + l.failures.toInt = p.started

def VerdictSound (p : Program) : Prop := ∃ l status, p.run = .exited (l, status) ∧ Told p l status

/-- The counters hold the number of calls, and the caller's eight bits their sum. -/
structure Countable (p : Program) : Prop where
  passes : p.passes < 2 ^ 31
  failures : p.failures < 2 ^ 31
  errors : p.failures = 0 → p.errors % 2 ^ 32 < 2 ^ 31
  sum : (p.failures + p.errors) % 256 = 0 → p.failures + p.errors = 0

theorem toInt_ofNat_eq (n : Nat) : (Int32.ofNat n).toInt =
    if n % 2 ^ 32 < 2 ^ 31 then ((n % 2 ^ 32 : Nat) : Int) else ((n % 2 ^ 32 : Nat) : Int) - 2 ^ 32 := by
  rw [Int32.toInt_ofNat', Int.bmod_def]
  simp only [Int32.size]
  omega

theorem counter_succ {counter : Int32} {n : Nat} (h : counter = Int32.ofNat n) :
    counter + 1 = Int32.ofNat (n + 1) := by
  rw [h, Int32.ofNat_add]
  rfl

/-- The log after some calls: `passes`, `failures` and `errors` of them counted. -/
structure Counted (l : Log) (opened : Bool) (passes failures errors : Nat) : Prop where
  logging : l.logging = true
  case_start : l.case_start = opened
  passes : l.passes = Int32.ofNat passes
  failures : l.failures = Int32.ofNat failures
  errors : l.errors = Int32.ofNat errors

theorem Counted.log {l : Log} {opened : Bool} {passes failures errors : Nat}
    (h : Counted l opened passes failures errors) (type : MsgType) (msg : Text) (dlevel : Int) :
    ∃ l', l.log type msg dlevel = .running l' ∧ Counted l' opened passes failures errors :=
  ⟨_, if_pos h.logging, h.logging, h.case_start, h.passes, h.failures, h.errors⟩

theorem Counted.test_error {l : Log} {opened : Bool} {passes failures errors : Nat}
    (h : Counted l opened passes failures errors) (msg : Text) :
    ∃ l', TestLog.test_error l msg = .running l' ∧ Counted l' opened passes failures (errors + 1) := by
  have hcounted : Counted { l with errors := l.errors + 1 } opened passes failures (errors + 1) :=
    ⟨h.logging, h.case_start, h.passes, h.failures, counter_succ h.errors⟩
  exact hcounted.log _ _ _

theorem call_counted {l : Log} {op : Op} {opened opened' : Bool} {passes failures errors : Nat}
    (h : Counted l opened passes failures errors) (hop : op.next opened = some opened') :
    ∃ l', call l op = .running l' ∧ Counted l' opened' (passes + if op.passes then 1 else 0)
      (failures + if op.fails then 1 else 0) (errors + if op.errs then 1 else 0) := by
  cases op with
  | case_start name =>
    cases opened with
    | true => contradiction
    | false =>
      obtain rfl : true = opened' := Option.some.inj hop
      have hstarted : Counted { l with case_start := true } true passes failures errors :=
        ⟨h.logging, rfl, h.passes, h.failures, h.errors⟩
      exact hstarted.log _ _ _
  | case_pass msg =>
    cases opened with
    | false => contradiction
    | true =>
      obtain rfl : false = opened' := Option.some.inj hop
      have hpassed : Counted { l with passes := l.passes + 1, case_start := false } false (passes + 1) failures errors :=
        ⟨h.logging, rfl, counter_succ h.passes, h.failures, h.errors⟩
      obtain ⟨l', hlog, hl'⟩ := hpassed.log .PASS msg INFORMATION
      exact ⟨l', (if_pos h.case_start).trans hlog, hl'⟩
  | case_fail msg =>
    cases opened with
    | false => contradiction
    | true =>
      obtain rfl : false = opened' := Option.some.inj hop
      have hfailed : Counted { l with case_start := false, failures := l.failures + 1 } false passes (failures + 1) errors :=
        ⟨h.logging, rfl, h.passes, counter_succ h.failures, h.errors⟩
      obtain ⟨l', hlog, hl'⟩ := hfailed.log .FAIL msg ERROR
      exact ⟨l', (if_pos h.case_start).trans hlog, hl'⟩
  | test_error msg =>
    obtain rfl : opened = opened' := Option.some.inj hop
    exact h.test_error msg
  | test_warn msg =>
    obtain rfl : opened = opened' := Option.some.inj hop
    exact h.log _ _ _
  | test_info msg =>
    obtain rfl : opened = opened' := Option.some.inj hop
    exact h.log _ _ _

theorem callAll_counted {l : Log} {ops : List Op} {opened : Bool} {passes failures errors : Nat}
    (h : Counted l opened passes failures errors) (hops : Respects opened ops) :
    ∃ l', callAll l ops = .running l' ∧ Counted l' false (passes + ops.countP Op.passes)
      (failures + ops.countP Op.fails) (errors + ops.countP Op.errs) := by
  induction ops generalizing l opened passes failures errors with
  | nil =>
    obtain rfl : opened = false := hops
    exact ⟨l, rfl, h⟩
  | cons op rest ih =>
    obtain ⟨opened', hop, hrest⟩ := hops
    obtain ⟨l₁, hcall, h₁⟩ := call_counted h hop
    obtain ⟨l₂, hall, h₂⟩ := ih h₁ hrest
    refine ⟨l₂, ?_, ?_⟩
    · rw [callAll, hcall]
      exact hall
    · rw [List.countP_cons, List.countP_cons, List.countP_cons]
      rw [Nat.add_assoc, Nat.add_assoc, Nat.add_assoc] at h₂
      rw [Nat.add_comm (rest.countP Op.passes), Nat.add_comm (rest.countP Op.fails), Nat.add_comm (rest.countP Op.errs)]
      exact h₂

theorem respects_count {opened : Bool} {ops : List Op} (h : Respects opened ops) :
    ops.countP Op.passes + ops.countP Op.fails = ops.countP Op.starts + if opened then 1 else 0 := by
  induction ops generalizing opened with
  | nil =>
    obtain rfl : opened = false := h
    rfl
  | cons op rest ih =>
    obtain ⟨opened', hop, hrest⟩ := h
    have hcount := ih hrest
    have hstep : (if op.passes then 1 else 0) + (if op.fails then 1 else 0) + (if opened' then 1 else 0) =
        (if op.starts then 1 else 0) + if opened then 1 else 0 := by
      cases op <;> cases opened <;> simp [Op.next] at hop <;> subst hop <;> rfl
    rw [List.countP_cons, List.countP_cons, List.countP_cons]
    omega

theorem test_init_counted (name : Text) (uname : Bool) (udata : Utsname) :
    ∃ l, test_init test_create name uname udata = .running l ∧
      Counted l false 0 0 (if uname then 0 else 1) := by
  cases uname with
  | true => exact ⟨_, rfl, rfl, rfl, rfl, rfl, rfl⟩
  | false => exact ⟨_, rfl, rfl, rfl, rfl, rfl, rfl⟩

/-- `test_exit` logs the three counters, the verdict and the end. -/
theorem test_exit_eq {l : Log} (hlogging : l.logging = true) (msg : Text) :
    ∃ counters : List Call, (∀ c ∈ counters, c.type = .INFO) ∧
      test_exit l msg = .exited
        ({ l with calls := l.calls ++ counters ++ [verdict l, ⟨.END, msg, INFORMATION⟩] },
          ((l.failures + l.errors).toInt % 256).toNat) := by
  obtain ⟨passes, failures, errors, logging, case_start, calls⟩ := l
  obtain rfl : logging = true := hlogging
  let line (format : String) (n : Int32) : Call :=
    ⟨.INFO, snprintf (STRSIZE - 1) (format.toList ++ (toString n.toInt).toList), ERROR⟩
  refine ⟨[line "CASES PASSED : " passes, line "CASES FAILED : " failures, line "ERRORS : " errors], ?_, ?_⟩
  · simp [line]
  · have happend : ∀ a b c d e : Call, calls ++ [a, b, c] ++ [d, e] = calls ++ [a] ++ [b] ++ [c] ++ [d] ++ [e] := by
      simp
    rw [happend]
    rfl

theorem Program.failed_iff (p : Program) : p.Failed ↔ 0 < p.failures ∨ 0 < p.errors := by
  rw [Program.Failed, Program.failures, Program.errors, List.countP_pos_iff]
  have herrors : 0 < (if p.uname then 0 else 1) + p.ops.countP Op.errs ↔
      p.uname = false ∨ ∃ op ∈ p.ops, op.errs = true := by
    rw [← List.countP_pos_iff]
    cases p.uname with
    | true => simp
    | false =>
      rw [if_neg Bool.false_ne_true]
      exact iff_of_true (by omega) (Or.inl rfl)
  rw [herrors, or_left_comm]
  simp only [and_or_left, exists_or]

/-- Every run comes to `test_exit`, with its calls counted. -/
theorem Program.run_exits (p : Program) : ∃ l before,
    p.run = .exited ({ l with calls := before ++ [verdict l, ⟨.END, p.msg, INFORMATION⟩] },
      ((l.failures + l.errors).toInt % 256).toNat) ∧
      Counted l false p.passes p.failures p.errors := by
  obtain ⟨l₁, hinit, h₁⟩ := test_init_counted p.name p.uname p.udata
  obtain ⟨l₂, hall, h₂⟩ := callAll_counted h₁ p.respects
  rw [Nat.zero_add, Nat.zero_add] at h₂
  obtain ⟨counters, -, hexit⟩ := test_exit_eq h₂.logging p.msg
  refine ⟨l₂, l₂.calls ++ counters, ?_, h₂⟩
  rw [Program.run, hinit]
  show ((callAll l₁ p.ops).andThen fun l => test_exit l p.msg) = _
  rw [hall]
  exact hexit

theorem verdict_iff (l : Log) : verdict l = ⟨.PASS, "TESTPASSED".toList, ERROR⟩ ↔
    l.failures.toInt ≤ 0 ∧ l.errors.toInt ≤ 0 := by
  rw [verdict]
  split
  · rename_i h
    apply iff_of_false
    · exact nofun
    · omega
  · rename_i h
    apply iff_of_true rfl
    omega

theorem status_eq (failures errors : Nat) :
    ((Int32.ofNat failures + Int32.ofNat errors).toInt % 256).toNat = (failures + errors) % 256 := by
  rw [← Int32.ofNat_add, toInt_ofNat_eq]
  split
  · omega
  · omega

theorem counts_iff (passes failures errors : Nat) :
    (((Int32.ofNat failures).toInt ≤ 0 ∧ (Int32.ofNat errors).toInt ≤ 0 ↔ ¬ (0 < failures ∨ 0 < errors)) ∧
        ((failures + errors) % 256 = 0 ↔ ¬ (0 < failures ∨ 0 < errors)) ∧
        (Int32.ofNat passes).toInt + (Int32.ofNat failures).toInt = ((passes + failures : Nat) : Int)) ↔
      passes < 2 ^ 31 ∧ failures < 2 ^ 31 ∧ (failures = 0 → errors % 2 ^ 32 < 2 ^ 31) ∧
        ((failures + errors) % 256 = 0 → failures + errors = 0) := by
  have hpasses := toInt_ofNat_eq passes
  have hfailures := toInt_ofNat_eq failures
  have herrors := toInt_ofNat_eq errors
  constructor
  · rintro ⟨hfinal, hstatus, hcases⟩
    have hp : passes < 2 ^ 31 := by omega
    have hf : failures < 2 ^ 31 := by omega
    exact ⟨hp, hf, by omega, by omega⟩
  · rintro ⟨hp, hf, herr, hsum⟩
    exact ⟨by omega, by omega, by omega⟩

theorem told_iff_countable (p : Program) : VerdictSound p ↔ Countable p := by
  obtain ⟨l, before, hrun, hcounted⟩ := p.run_exits
  have hstarted : p.passes + p.failures = p.started := respects_count p.respects
  have hfinal : (before ++ [verdict l, ⟨.END, p.msg, INFORMATION⟩]).dropLast.getLast? = some (verdict l) := by
    rw [List.dropLast_append_of_ne_nil (by simp)]
    simp
  have hcounts := counts_iff p.passes p.failures p.errors
  have hverdict := verdict_iff l
  have hstatus := status_eq p.failures p.errors
  rw [← p.failed_iff, ← hcounted.failures, ← hcounted.errors, ← hcounted.passes, ← hverdict, hstarted] at hcounts
  rw [← hcounted.failures, ← hcounted.errors] at hstatus
  rw [← hstatus] at hcounts
  constructor
  · rintro ⟨l', status, hrun', htold⟩
    rw [hrun] at hrun'
    obtain ⟨rfl, rfl⟩ := Prod.mk.inj (ProcessLogic.Process.exited.inj hrun')
    have htoldFinal := htold.final
    rw [hfinal, Option.some.injEq] at htoldFinal
    obtain ⟨hp, hf, he, hs⟩ := hcounts.mp ⟨htoldFinal, htold.status, htold.cases⟩
    exact ⟨hp, hf, he, by rwa [hstatus] at hs⟩
  · intro h
    have hsum := h.sum
    rw [← hstatus] at hsum
    obtain ⟨htoldFinal, htoldStatus, hcases⟩ := hcounts.mpr ⟨h.passes, h.failures, h.errors, hsum⟩
    refine ⟨_, _, hrun, ?_, htoldStatus, hcases⟩
    rw [hfinal, Option.some.injEq]
    exact htoldFinal

theorem Program.exit_status {p : Program} {l : Log} {status : Nat} (hrun : p.run = .exited (l, status)) :
    status = (p.failures + p.errors) % 256 := by
  obtain ⟨l', before, hexit, hcounted⟩ := p.run_exits
  rw [hexit] at hrun
  obtain ⟨-, rfl⟩ := Prod.mk.inj (ProcessLogic.Process.exited.inj hrun)
  rw [hcounted.failures, hcounted.errors, status_eq]

def failingCases (n : Nat) : List Op := (List.replicate n [Op.case_start [], Op.case_fail []]).flatten

theorem failingCases_succ (n : Nat) : failingCases (n + 1) = .case_start [] :: .case_fail [] :: failingCases n := rfl

theorem respects_failingCases (n : Nat) : Respects false (failingCases n) := by
  induction n with
  | zero => rfl
  | succ n ih => exact ⟨true, rfl, false, rfl, ih⟩

theorem countP_failingCases (n : Nat) :
    (failingCases n).countP Op.fails = n ∧ (failingCases n).countP Op.errs = 0 := by
  induction n with
  | zero => exact ⟨rfl, rfl⟩
  | succ n ih =>
    simp [failingCases_succ, List.countP_cons, ih.1, ih.2, Op.fails, Op.errs]

/-- The status has counted to 256 and is zero again. -/
theorem all_of_256_cases_fail :
    ¬ VerdictSound ⟨[], true, ⟨[], [], [], []⟩, failingCases 256, [], respects_failingCases 256⟩ := by
  rintro ⟨l, status, hrun, htold⟩
  obtain ⟨hfails, herrs⟩ := countP_failingCases 256
  have hstatus := Program.exit_status hrun
  simp only [Program.failures, Program.errors, hfails, herrs, if_true] at hstatus
  have hfailed : ∃ op ∈ failingCases 256, op.fails = true ∨ op.errs = true := by
    rw [failingCases_succ]
    exact ⟨.case_fail [], List.mem_cons_of_mem _ List.mem_cons_self, Or.inl rfl⟩
  exact htold.status.mp hstatus (Or.inr hfailed)

end TestLog

end DeviceDriverTest
