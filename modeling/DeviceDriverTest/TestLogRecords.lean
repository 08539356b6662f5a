import DeviceDriverTest.TestLog
import Mathlib.Data.List.Induction
import Mathlib.Algebra.Order.BigOperators.Group.List
import Mathlib.Algebra.Order.Ring.Nat

/-! The lines that the attached files of a test log receive. -/

namespace DeviceDriverTest

namespace TestLog

/-- A message that fits into the buffer of the macros, on one line. -/
structure Message where
  text : Text
  fits : text.length < LOG_BUFF_SIZE
  oneLine : '\n' ∉ text

/-- A call to `log`, with the time it reads. -/
structure LogCall where
  type : MsgType
  msg : Message
  dlevel : Int
  clock : Nat → Text
  oneLine : '\n' ∉ clock 0

def runLog (files : List LFile) (calls : List LogCall) : Outputs :=
  calls.foldl (fun out c => log files c.clock c.type.code c.msg.text c.dlevel out) fun _ => []

def LogCall.line (c : LogCall) : Text :=
  c.clock 0 ++ DLIMITOR :: (c.type.text ++ DLIMITOR :: (c.msg.text ++ ['\n']))

def taken (f : LFile) (calls : List LogCall) : List LogCall := calls.filter fun c => c.dlevel ≤ f.loglevel

def IsLine (str : Text) : Prop := ∃ body, str = body ++ ['\n'] ∧ '\n' ∉ body

/-- Every attached file receives one complete line for each call it takes, in the
order of the calls; nothing else receives anything. -/
structure RecordsSound (files : List LFile) (calls : List LogCall) : Prop where
  attached : ∀ f ∈ files, runLog files calls f.fd = (taken f calls).flatMap LogCall.line
  others : ∀ fd, (∀ f ∈ files, f.fd ≠ fd) → runLog files calls fd = []
  lines : ∀ c ∈ calls, IsLine c.line

/-- A message that some file takes fits into the scratch buffer, with the delimiter
and the newline, and that file is attached once. -/
def FitScratch (files : List LFile) (calls : List LogCall) : Prop :=
  ∀ c ∈ calls, ∀ f ∈ files, c.dlevel ≤ f.loglevel →
    c.msg.text.length + 2 < STRSIZE ∧ (files.map LFile.fd).count f.fd = 1

/-- What a file really receives for a call. -/
def LogCall.written (c : LogCall) : Text := c.clock 0 ++ DLIMITOR :: (c.type.text ++ tail c.msg.text)

theorem typeText_code (t : MsgType) : typeText t.code = some t.text := by
  cases t <;> rfl

theorem mywrite_self (out : Outputs) (fd : Nat) (str : Text) : mywrite out fd str fd = out fd ++ str :=
  Function.update_self fd _ out

theorem mywrite_of_ne {fd fd' : Nat} (h : fd' ≠ fd) (out : Outputs) (str : Text) : mywrite out fd str fd' = out fd' :=
  Function.update_of_ne h _ out

theorem writeRecord_self (time text msg : Text) (fd : Nat) (out : Outputs) :
    writeRecord time text msg fd out fd = out fd ++ (time ++ DLIMITOR :: (text ++ tail msg)) := by
  simp only [writeRecord, mywrite_self, List.append_assoc]
  rfl

theorem writeRecord_of_ne {fd fd' : Nat} (h : fd' ≠ fd) (time text msg : Text) (out : Outputs) :
    writeRecord time text msg fd out fd' = out fd' := by
  simp only [writeRecord, mywrite_of_ne h]

/-- How often `fd` is attached with a level that takes the message. -/
def takers (files : List LFile) (fd : Nat) (dlevel : Int) : Nat :=
  files.countP fun f => f.fd = fd ∧ dlevel ≤ f.loglevel

theorem walk_at (time text msg : Text) (dlevel : Int) (files : List LFile) (out : Outputs) (fd : Nat) :
    walk time text msg dlevel files out fd =
      out fd ++ (List.replicate (takers files fd dlevel) (time ++ DLIMITOR :: (text ++ tail msg))).flatten := by
  induction files generalizing out with
  | nil => exact (List.append_nil _).symm
  | cons f rest ih =>
    rw [walk, ih, takers, takers, List.countP_cons]
    by_cases hlevel : dlevel ≤ f.loglevel
    · rw [if_pos hlevel]
      by_cases hfd : f.fd = fd
      · subst hfd
        rw [writeRecord_self, if_pos (by simp [hlevel]), Nat.add_comm, List.replicate_add, List.flatten_append]
        simp
      · rw [writeRecord_of_ne (Ne.symm hfd), if_neg (by simp [hfd]), Nat.add_zero]
    · rw [if_neg hlevel, if_neg (by simp [hlevel]), Nat.add_zero]

theorem log_eq_walk (files : List LFile) (c : LogCall) (out : Outputs) :
    log files c.clock c.type.code c.msg.text c.dlevel out =
      walk (c.clock 0) c.type.text c.msg.text c.dlevel files out := by
  rw [log, typeText_code]

theorem runLog_concat (files : List LFile) (calls : List LogCall) (c : LogCall) :
    runLog files (calls ++ [c]) = walk (c.clock 0) c.type.text c.msg.text c.dlevel files (runLog files calls) := by
  rw [← log_eq_walk, runLog, List.foldl_append]
  rfl

theorem runLog_at (files : List LFile) (calls : List LogCall) (fd : Nat) :
    runLog files calls fd = calls.flatMap fun c => (List.replicate (takers files fd c.dlevel) c.written).flatten := by
  induction calls using List.reverseRecOn with
  | nil => rfl
  | append_singleton calls c ih =>
    rw [runLog_concat, walk_at, ih, List.flatMap_append]
    congr 1
    rw [List.flatMap_singleton]
    rfl

theorem runLog_others {files : List LFile} {fd : Nat} (h : ∀ f ∈ files, f.fd ≠ fd) (calls : List LogCall) :
    runLog files calls fd = [] := by
  rw [runLog_at, List.flatMap_eq_nil_iff]
  intro c _
  have hnone : takers files fd c.dlevel = 0 := List.countP_eq_zero.mpr fun f hf => by simp [h f hf]
  rw [hnone]
  rfl

theorem taken_flatMap (f : LFile) (calls : List LogCall) :
    (taken f calls).flatMap LogCall.line = calls.flatMap fun c => if c.dlevel ≤ f.loglevel then c.line else [] := by
  induction calls with
  | nil => rfl
  | cons c rest ih =>
    rw [List.flatMap_cons, ← ih, taken, taken, List.filter_cons]
    by_cases hlevel : c.dlevel ≤ f.loglevel
    · simp [hlevel]
    · simp [hlevel]

theorem line_isLine (c : LogCall) : IsLine c.line := by
  refine ⟨c.clock 0 ++ DLIMITOR :: (c.type.text ++ DLIMITOR :: c.msg.text), by simp [LogCall.line], ?_⟩
  have htext : '\n' ∉ c.type.text := by cases c.type <;> decide
  have hdelimiter : '\n' ≠ DLIMITOR := by decide
  simp [c.oneLine, c.msg.oneLine, htext, hdelimiter]

theorem tail_length (msg : Text) : (tail msg).length = min (STRSIZE - 1) (msg.length + 2) := by
  simp [tail, snprintf]

theorem written_length_le (c : LogCall) : c.written.length ≤ c.line.length := by
  simp only [LogCall.written, LogCall.line, List.length_append, List.length_cons, List.length_nil, tail_length]
  omega

theorem written_length_eq_iff (c : LogCall) : c.written.length = c.line.length ↔ c.msg.text.length + 2 < STRSIZE := by
  simp only [LogCall.written, LogCall.line, List.length_append, List.length_cons, List.length_nil, tail_length, STRSIZE]
  omega

theorem written_eq_line {c : LogCall} (h : c.msg.text.length + 2 < STRSIZE) : c.written = c.line := by
  have htail : tail c.msg.text = DLIMITOR :: (c.msg.text ++ ['\n']) := by
    apply List.take_of_length_le
    simp only [List.length_append, List.length_cons, List.length_nil]
    omega
  rw [LogCall.written, htail]
  rfl

theorem line_length_lt (c : LogCall) : c.line.length < 2 * c.written.length := by
  have hfits := c.msg.fits
  have htype : 3 ≤ c.type.text.length := by cases c.type <;> decide
  simp only [LogCall.written, LogCall.line, List.length_append, List.length_cons, List.length_nil, tail_length,
    STRSIZE, LOG_BUFF_SIZE] at hfits ⊢
  omega

theorem takers_le_count (files : List LFile) (fd : Nat) (dlevel : Int) :
    takers files fd dlevel ≤ (files.map LFile.fd).count fd := by
  rw [takers, List.count_eq_countP, List.countP_map]
  apply List.countP_mono_left
  intro f _ htakes
  simp only [decide_eq_true_eq] at htakes
  simp [htakes.1]

theorem takers_perm {files : List LFile} {f : LFile} {rest : List LFile} (hperm : files.Perm (f :: rest))
    (dlevel : Int) :
    takers files f.fd dlevel = takers rest f.fd dlevel + if dlevel ≤ f.loglevel then 1 else 0 := by
  rw [takers, hperm.countP_eq, List.countP_cons, takers]
  simp

theorem count_perm {files : List LFile} {f : LFile} {rest : List LFile} (hperm : files.Perm (f :: rest)) :
    (files.map LFile.fd).count f.fd = (rest.map LFile.fd).count f.fd + 1 := by
  rw [(hperm.map LFile.fd).count_eq, List.map_cons, List.count_cons_self]

theorem exists_perm {files : List LFile} {f : LFile} (hf : f ∈ files) : ∃ rest, files.Perm (f :: rest) := by
  obtain ⟨before, after, rfl⟩ := List.append_of_mem hf
  exact ⟨before ++ after, List.perm_middle⟩

theorem takers_once {files : List LFile} {f : LFile} (hf : f ∈ files)
    (hone : (files.map LFile.fd).count f.fd = 1) (dlevel : Int) :
    takers files f.fd dlevel = if dlevel ≤ f.loglevel then 1 else 0 := by
  obtain ⟨rest, hperm⟩ := exists_perm hf
  have hrest := takers_le_count rest f.fd dlevel
  rw [count_perm hperm] at hone
  rw [takers_perm hperm]
  omega

/-- A descriptor that is attached more than once receives a record for each time. -/
theorem takers_twice {files : List LFile} {f : LFile} (hf : f ∈ files)
    (hmore : (files.map LFile.fd).count f.fd ≠ 1) :
    ∃ g ∈ files, g.fd = f.fd ∧ ∀ dlevel : Int,
      (if dlevel ≤ f.loglevel then 1 else 0) + (if dlevel ≤ g.loglevel then 1 else 0) ≤ takers files f.fd dlevel := by
  obtain ⟨rest, hperm⟩ := exists_perm hf
  rw [count_perm hperm] at hmore
  have hagain : f.fd ∈ rest.map LFile.fd := List.count_pos_iff.mp (by omega)
  obtain ⟨g, hg, hfd⟩ := List.mem_map.mp hagain
  refine ⟨g, hperm.mem_iff.mpr (List.mem_cons_of_mem f hg), hfd, fun dlevel => ?_⟩
  rw [takers_perm hperm]
  by_cases hlevel : dlevel ≤ g.loglevel
  · have hpos : 0 < takers rest f.fd dlevel := List.countP_pos_iff.mpr ⟨g, hg, by simp [hfd, hlevel]⟩
    rw [if_pos hlevel]
    omega
  · rw [if_neg hlevel]
    omega

def owed (f : LFile) (c : LogCall) : Nat := (if c.dlevel ≤ f.loglevel then 1 else 0) * c.line.length

def received (files : List LFile) (fd : Nat) (c : LogCall) : Nat := takers files fd c.dlevel * c.written.length

theorem sum_received {files : List LFile} {calls : List LogCall} {f : LFile}
    (h : runLog files calls f.fd = (taken f calls).flatMap LogCall.line) :
    (calls.map (received files f.fd)).sum = (calls.map (owed f)).sum := by
  have hlength := congrArg List.length h
  rw [runLog_at, taken_flatMap, List.length_flatMap, List.length_flatMap] at hlength
  have hreceived : ∀ c : LogCall,
      ((List.replicate (takers files f.fd c.dlevel) c.written).flatten).length = received files f.fd c :=
    fun c => by simp [received]
  have howed : ∀ c : LogCall, (if c.dlevel ≤ f.loglevel then c.line else []).length = owed f c := by
    intro c
    rw [owed]
    by_cases hlevel : c.dlevel ≤ f.loglevel
    · rw [if_pos hlevel, if_pos hlevel, Nat.one_mul]
    · rw [if_neg hlevel, if_neg hlevel, Nat.zero_mul, List.length_nil]
  simpa only [hreceived, howed] using hlength

theorem attached_once {files : List LFile} {calls : List LogCall}
    (h : ∀ f ∈ files, runLog files calls f.fd = (taken f calls).flatMap LogCall.line) {c : LogCall} (hc : c ∈ calls)
    {f : LFile} (hf : f ∈ files) (hlevel : c.dlevel ≤ f.loglevel) : (files.map LFile.fd).count f.fd = 1 := by
  by_contra hmore
  obtain ⟨g, hg, hfd, htakers⟩ := takers_twice hf hmore
  have hfsum := sum_received (h f hf)
  have hgsum := sum_received (h g hg)
  rw [hfd] at hgsum
  -- the two files are owed as much as is written twice, and that is more than their lines
  have hlines : ∀ c : LogCall, owed f c + owed g c ≤ takers files f.fd c.dlevel * c.line.length := by
    intro c
    rw [owed, owed, ← Nat.add_mul]
    exact Nat.mul_le_mul_right _ (htakers c.dlevel)
  have htwice : ∀ c : LogCall, received files f.fd c + received files f.fd c =
      takers files f.fd c.dlevel * (2 * c.written.length) := by
    intro c
    rw [received, Nat.two_mul, Nat.mul_add]
  have hle : ∀ c : LogCall, owed f c + owed g c ≤ received files f.fd c + received files f.fd c := by
    intro c
    rw [htwice]
    exact (hlines c).trans (Nat.mul_le_mul_left _ (Nat.le_of_lt (line_length_lt c)))
  have hpos : 0 < takers files f.fd c.dlevel := List.countP_pos_iff.mpr ⟨f, hf, by simp [hlevel]⟩
  have hlt : owed f c + owed g c < received files f.fd c + received files f.fd c := by
    rw [htwice]
    exact (hlines c).trans_lt (Nat.mul_lt_mul_of_pos_left (line_length_lt c) hpos)
  have hsum := List.sum_lt_sum (fun c => owed f c + owed g c)
    (fun c => received files f.fd c + received files f.fd c) (fun c _ => hle c) ⟨c, hc, hlt⟩
  rw [List.sum_map_add, List.sum_map_add] at hsum
  omega

theorem fitScratch_of_attached {files : List LFile} {calls : List LogCall}
    (h : ∀ f ∈ files, runLog files calls f.fd = (taken f calls).flatMap LogCall.line) : FitScratch files calls := by
  intro c hc f hf hlevel
  have hone := attached_once h hc hf hlevel
  refine ⟨?_, hone⟩
  by_contra hlong
  have hreceived : ∀ c : LogCall, received files f.fd c = (if c.dlevel ≤ f.loglevel then 1 else 0) * c.written.length :=
    fun c => by rw [received, takers_once hf hone]
  have hle : ∀ c : LogCall, received files f.fd c ≤ owed f c := by
    intro c
    rw [hreceived]
    exact Nat.mul_le_mul_left _ (written_length_le c)
  have hlt : received files f.fd c < owed f c := by
    have hshorter := written_length_le c
    have hne : c.written.length ≠ c.line.length := fun heq => hlong ((written_length_eq_iff c).mp heq)
    rw [hreceived, owed, if_pos hlevel, Nat.one_mul, Nat.one_mul]
    omega
  have hsum := List.sum_lt_sum _ _ (fun c _ => hle c) ⟨c, hc, hlt⟩
  exact absurd (sum_received (h f hf)) (Nat.ne_of_lt hsum)

theorem attached_of_fitScratch {files : List LFile} {calls : List LogCall} (h : FitScratch files calls) {f : LFile}
    (hf : f ∈ files) : runLog files calls f.fd = (taken f calls).flatMap LogCall.line := by
  rw [runLog_at, taken_flatMap]
  apply List.flatMap_congr
  intro c hc
  by_cases hlevel : c.dlevel ≤ f.loglevel
  · obtain ⟨hfits, hone⟩ := h c hc f hf hlevel
    rw [takers_once hf hone, if_pos hlevel, if_pos hlevel, written_eq_line hfits]
    simp
  · have hnone : takers files f.fd c.dlevel = 0 := by
      by_contra htaken
      obtain ⟨g, hg, htakes⟩ := List.countP_pos_iff.mp (Nat.pos_of_ne_zero htaken)
      obtain ⟨hfd, hglevel⟩ := of_decide_eq_true htakes
      have hone := (h c hc g hg hglevel).2
      rw [hfd] at hone
      exact htaken ((takers_once hf hone c.dlevel).trans (if_neg hlevel))
    rw [hnone, if_neg hlevel]
    rfl

theorem recordsSound_iff (files : List LFile) (calls : List LogCall) :
    RecordsSound files calls ↔ FitScratch files calls := by
  constructor
  · intro h
    exact fitScratch_of_attached h.attached
  · intro h
    exact ⟨fun f hf => attached_of_fitScratch h hf, fun fd hfd => runLog_others hfd calls, fun c _ => line_isLine c⟩

def longMessage : Message where
  text := List.replicate 254 'a'
  fits := by
    rw [List.length_replicate]
    decide
  oneLine := fun h => absurd (List.eq_of_mem_replicate h) (by decide)

/-- On the standard output, the newline of a message of 254 characters is lost. -/
theorem newline_lost : ¬ RecordsSound [⟨1, VERBOSE⟩]
    [⟨.INFO, longMessage, INFORMATION, fun _ => [], List.not_mem_nil⟩] := by
  intro h
  have hfits := (fitScratch_of_attached h.attached _ List.mem_cons_self _ List.mem_cons_self (by decide)).1
  have hlength : longMessage.text.length = 254 := List.length_replicate
  rw [hlength] at hfits
  exact absurd hfits (by decide)

end TestLog

end DeviceDriverTest
