import DeviceDriverTest.HandlerCmd
import DeviceDriverTest.PositionalArithmetic
import DeviceDriverTest.ScheduledRun

/-! The handler that runs two commands with different priorities side by side and compares the processor
time the kernel has counted for their executors, which is to come to it through files. -/

namespace DeviceDriverTest

namespace PriorityComparison

open HandlerCmd (echo)
open PositionalArithmetic
open TestRunner (Word)
open TestRunnerOptions (expand)

inductive Instance
  | one
  | two
  deriving DecidableEq

/-- What `$HPPR_OPERATION_CURRENT` may hold. -/
inductive Operation
  | add
  | assign

/-- What `$HPPR_COMMAND_PRIORITY_HIGHER` may hold. -/
inductive Higher
  | number (i : Instance)
  | equal

/-- The files of the handler. Those of the scheduler hold the third field of a line of the kernel, if any. -/
structure Files where
  HPPR_COMMAND_LINE : Instance → Option Word
  HPPR_COMMAND_PRIORITY : Instance → Option Int
  HPPR_COMMAND_PRIORITY_HIGHER : Option Higher
  HPPR_OPERATION_CURRENT : Option Operation
  HPPR_PROCFS_PID_SCHED_START : Instance → Option Decimal
  HPPR_PROCFS_PID_SCHED_CURRENT : Instance → Option Decimal

structure World where
  errors : HandlerError.Files String
  files : Files

/-- What the scripts find: the names that the words of a command stand for, whether the kernel has the
file of the scheduler, whether `LOCAL_OPERATION` is in the environment of the handler, what `sum_exec_runtime`
is for an executor at its start and at its end, and what an executor comes to that evaluates its line
once more: the value of `LOCAL_OPERATION` in its shell, and a status. -/
structure Host where
  names : Word → List Word
  sched : Bool
  exported : Bool
  atStart : Instance → Decimal
  atEnd : Instance → Decimal
  eval : Instance → Word → Nat → Word → Word × Nat

def add (host : Host) (number : Instance) (line : Word) (priority : Int) (w : World) : World :=
  if (HandlerError.test w.errors).exit = 1 then w
  else if !host.sched then
    { w with errors := HandlerError.log w.errors HandlerError.failed .halt "handlerProcessPriority.sh" }
  else
    { w with files :=
      { w.files with
        HPPR_COMMAND_LINE :=
          Function.update w.files.HPPR_COMMAND_LINE number (some (echo false (expand host.names line)))
        HPPR_COMMAND_PRIORITY := Function.update w.files.HPPR_COMMAND_PRIORITY number (some priority)
        HPPR_OPERATION_CURRENT := some .add } }

/-! An executor, from one access to the files to the next. -/

inductive Place
  | begins
  | repeats
  | ends
  | finished
  | failed
  deriving DecidableEq

structure Executor where
  place : Place
  LOCAL_COMMAND_LINE : Word
  LOCAL_OPERATION : Word
  LOCAL_COUNT : Nat

/-- The handler and its executors, between `execute` and the end of its `wait`. -/
structure System where
  files : Files
  executors : Instance → Executor

def System.put (s : System) (i : Instance) (e : Executor) : System :=
  { s with executors := Function.update s.executors i e }

def System.writeStart (s : System) (i : Instance) (reading : Decimal) : System :=
  { s with files := { s.files with
    HPPR_PROCFS_PID_SCHED_START := Function.update s.files.HPPR_PROCFS_PID_SCHED_START i (some reading) } }

def System.writeCurrent (s : System) (i : Instance) (reading : Decimal) : System :=
  { s with files := { s.files with
    HPPR_PROCFS_PID_SCHED_CURRENT := Function.update s.files.HPPR_PROCFS_PID_SCHED_CURRENT i (some reading) } }

def evaluate (host : Host) (i : Instance) (e : Executor) : Executor :=
  let r := host.eval i e.LOCAL_COMMAND_LINE e.LOCAL_COUNT e.LOCAL_OPERATION
  if r.2 = 0 then { e with LOCAL_OPERATION := r.1, LOCAL_COUNT := e.LOCAL_COUNT + 1 }
  else { e with LOCAL_OPERATION := r.1, place := .failed }

/-- The next step of an executor. It asks for `LOCAL_OPERATION`; what it was started with is
`LOCAL_COMMAND_OPERATION`. -/
def step (host : Host) (repeatability : Nat) (s : System) (i : Instance) : System :=
  let e := s.executors i
  match e.place with
  | .begins =>
    let s := s.put i { e with place := .repeats }
    if e.LOCAL_OPERATION = "add".toList then s.writeStart i (host.atStart i) else s
  | .repeats =>
    if e.LOCAL_COUNT < repeatability then s.put i (evaluate host i e) else s.put i { e with place := .ends }
  | .ends =>
    let s := s.put i { e with place := .finished }
    if e.LOCAL_OPERATION = "add".toList then s.writeCurrent i (host.atEnd i) else s
  | .finished => s
  | .failed => s

/-! The handler. -/

/-- Where a file is missing `test` reports an error, and nothing is written. -/
def writeHigher (files : Files) : Files :=
  match files.HPPR_COMMAND_PRIORITY .one, files.HPPR_COMMAND_PRIORITY .two with
  | some tempPriorityValue1, some tempPriorityValue2 =>
    if tempPriorityValue1 < tempPriorityValue2 then { files with HPPR_COMMAND_PRIORITY_HIGHER := some (.number .one) }
    else if tempPriorityValue2 < tempPriorityValue1 then
      { files with HPPR_COMMAND_PRIORITY_HIGHER := some (.number .two) }
    else { files with HPPR_COMMAND_PRIORITY_HIGHER := some .equal }
  | _, _ => files

/-- An executor has a `LOCAL_OPERATION` only from the environment, and there the handler has set its own. -/
def inherited (host : Host) : Word := if host.exported then "execute".toList else []

/-- The two executors are started, the one with the higher priority first; a schedule may begin with either. -/
def start (host : Host) (files : Files) : System where
  files := writeHigher files
  executors i := ⟨.begins, (files.HPPR_COMMAND_LINE i).getD [], inherited host, 0⟩

def run (host : Host) (repeatability : Nat) (files : Files) (schedule : List Instance) : System :=
  schedule.foldl (step host repeatability) (start host files)

/-- `execute`, where the executors take their steps in the order of the schedule. After an `assign` the
executors of the list are started instead. -/
def execute (host : Host) (repeatability : Nat) (schedule : List Instance) (w : World) : World :=
  if (HandlerError.test w.errors).exit = 1 then w
  else
    match w.files.HPPR_OPERATION_CURRENT with
    | some .add => { w with files := (run host repeatability w.files schedule).files }
    | some .assign => w
    | none => w

structure Report where
  fvalue1 : Decimal
  fvalue2 : Decimal
  status : Nat

/-- What `bc` makes of `$val2-$val1`, where `val1` is zero; without a value it is `-0`. -/
def fvalue (val2 : Option Decimal) : Decimal :=
  match val2 with
  | some val2 => val2.sub (.ofInt 0)
  | none => .ofInt 0

/-- `verify`; nothing is compared where an error has been latched. -/
def verify (w : World) : Option Report :=
  if (HandlerError.test w.errors).exit = 1 then none
  else
    let fvalue1 := fvalue (w.files.HPPR_PROCFS_PID_SCHED_CURRENT .one)
    let fvalue2 := fvalue (w.files.HPPR_PROCFS_PID_SCHED_CURRENT .two)
    match w.files.HPPR_COMMAND_PRIORITY_HIGHER with
    | some (.number .one) => some ⟨fvalue1, fvalue2, if fvalue2.lt fvalue1 then 0 else 1⟩
    | some (.number .two) => some ⟨fvalue1, fvalue2, if fvalue1.lt fvalue2 then 0 else 1⟩
    | some .equal => some ⟨fvalue1, fvalue2, 0⟩
    | none => some ⟨fvalue1, fvalue2, 0⟩

/-! A comparison from its first `add` on. -/

structure Comparison where
  line : Instance → Word
  priority : Instance → Int
  repeatability : Nat

def Comparison.added (c : Comparison) (host : Host) (w : World) : World :=
  add host .two (c.line .two) (c.priority .two) (add host .one (c.line .one) (c.priority .one) w)

def Complete (s : System) : Prop := ∀ i, (s.executors i).place = .finished ∨ (s.executors i).place = .failed

def Instance.other : Instance → Instance
  | .one => .two
  | .two => .one

/-- `setpriority` takes the lower number for the higher priority. -/
def Comparison.higher (c : Comparison) : Instance := if c.priority .one < c.priority .two then .one else .two

/-- The readings of this run are compared, and the status tells whether the higher priority has the larger. -/
structure Right (host : Host) (c : Comparison) (r : Report) : Prop where
  first : r.fvalue1.value = (host.atEnd .one).value
  second : r.fvalue2.value = (host.atEnd .two).value
  status : r.status = 0 ↔ (host.atEnd c.higher.other).value < (host.atEnd c.higher).value

def AsClaimed (host : Host) (c : Comparison) (w : World) : Prop :=
  ∀ schedule, Complete (run host c.repeatability (c.added host w).files schedule) →
    ∃ r, verify (execute host c.repeatability schedule (c.added host w)) = some r ∧ Right host c r

def command (host : Host) (c : Comparison) (i : Instance) : Word := echo false (expand host.names (c.line i))

/-- `LOCAL_OPERATION` in the shell of an executor, after some of the repetitions. -/
def operationAfter (host : Host) (c : Comparison) (i : Instance) : Nat → Word
  | 0 => inherited host
  | n + 1 => (host.eval i (command host c i) n (operationAfter host c i n)).1

def Succeeds (host : Host) (c : Comparison) : Prop :=
  ∀ i, ∀ n < c.repeatability, (host.eval i (command host c i) n (operationAfter host c i n)).2 = 0

/-- The command itself has set the variable that the executor asks for. -/
def Recorded (host : Host) (c : Comparison) (i : Instance) : Prop :=
  operationAfter host c i c.repeatability = "add".toList

instance (host : Host) (c : Comparison) (i : Instance) : Decidable (Recorded host c i) :=
  inferInstanceAs (Decidable (_ = _))

def worth (file : Option Decimal) : ℚ :=
  match file with
  | some reading => reading.value
  | none => 0

/-! An executor alone. -/

variable {host : Host} {c : Comparison} {i : Instance}

theorem inherited_ne_add (host : Host) : inherited host ≠ "add".toList := by
  unfold inherited
  split
  · decide
  · decide

/-- An executor with the file that takes its reading. -/
def view (i : Instance) (s : System) : Executor × Option Decimal :=
  (s.executors i, s.files.HPPR_PROCFS_PID_SCHED_CURRENT i)

def advance (host : Host) (repeatability : Nat) (i : Instance) (v : Executor × Option Decimal) :
    Executor × Option Decimal :=
  match v.1.place with
  | .begins => ({ v.1 with place := .repeats }, v.2)
  | .repeats =>
    if v.1.LOCAL_COUNT < repeatability then (evaluate host i v.1, v.2) else ({ v.1 with place := .ends }, v.2)
  | .ends => ({ v.1 with place := .finished }, if v.1.LOCAL_OPERATION = "add".toList then some (host.atEnd i) else v.2)
  | .finished => v
  | .failed => v

variable {s : System} {j : Instance}

@[simp] theorem view_put_self (e : Executor) : view i (s.put i e) = (e, (view i s).2) := by
  simp [view, System.put]

@[simp] theorem view_put_other (h : j ≠ i) (e : Executor) : view i (s.put j e) = view i s := by
  simp [view, System.put, h.symm]

@[simp] theorem view_writeStart (reading : Decimal) : view i (s.writeStart j reading) = view i s := rfl

@[simp] theorem view_writeCurrent_self (reading : Decimal) :
    view i (s.writeCurrent i reading) = ((view i s).1, some reading) := by
  simp [view, System.writeCurrent]

@[simp] theorem view_writeCurrent_other (h : j ≠ i) (reading : Decimal) : view i (s.writeCurrent j reading) = view i s := by
  simp [view, System.writeCurrent, h.symm]

theorem view_step_self (host : Host) (repeatability : Nat) (i : Instance) (s : System) :
    view i (step host repeatability s i) = advance host repeatability i (view i s) := by
  have hexecutor : (view i s).1 = s.executors i := rfl
  rw [step, advance, hexecutor]
  dsimp only
  cases (s.executors i).place with
  | begins =>
    dsimp only
    split
    · simp
    · simp
  | repeats =>
    dsimp only
    split
    · simp
    · simp
  | ends =>
    dsimp only
    split
    · simp
    · simp
  | finished => rfl
  | failed => rfl

/-- What a step may do: it moves its executor on, and may write the file of one of the two readings. -/
theorem step_cases (host : Host) (repeatability : Nat) (s : System) (j : Instance) :
    step host repeatability s j = s ∨ ∃ e, step host repeatability s j = s.put j e ∨
      step host repeatability s j = (s.put j e).writeStart j (host.atStart j) ∨
      step host repeatability s j = (s.put j e).writeCurrent j (host.atEnd j) := by
  rw [step]
  dsimp only
  cases (s.executors j).place with
  | begins =>
    dsimp only
    split
    · exact Or.inr ⟨_, Or.inr (Or.inl rfl)⟩
    · exact Or.inr ⟨_, Or.inl rfl⟩
  | repeats =>
    dsimp only
    split
    · exact Or.inr ⟨_, Or.inl rfl⟩
    · exact Or.inr ⟨_, Or.inl rfl⟩
  | ends =>
    dsimp only
    split
    · exact Or.inr ⟨_, Or.inr (Or.inr rfl)⟩
    · exact Or.inr ⟨_, Or.inl rfl⟩
  | finished => exact Or.inl rfl
  | failed => exact Or.inl rfl

theorem view_step_other (host : Host) (repeatability : Nat) (s : System) (h : j ≠ i) :
    view i (step host repeatability s j) = view i s := by
  obtain heq | ⟨e, heq | heq | heq⟩ := step_cases host repeatability s j
  · rw [heq]
  · rw [heq, view_put_other h]
  · rw [heq, view_writeStart, view_put_other h]
  · rw [heq, view_writeCurrent_other h, view_put_other h]

theorem step_higher (host : Host) (repeatability : Nat) (s : System) (i : Instance) :
    (step host repeatability s i).files.HPPR_COMMAND_PRIORITY_HIGHER = s.files.HPPR_COMMAND_PRIORITY_HIGHER := by
  obtain heq | ⟨e, heq | heq | heq⟩ := step_cases host repeatability s i
  · rw [heq]
  · rw [heq]
    rfl
  · rw [heq]
    rfl
  · rw [heq]
    rfl

/-- Where an executor is after `n` steps, with the file of its reading, whose commands all succeed. -/
def stage (host : Host) (c : Comparison) (i : Instance) (before : Option Decimal) (n : Nat) : Executor × Option Decimal :=
  if n = 0 then (⟨.begins, command host c i, operationAfter host c i 0, 0⟩, before)
  else if n ≤ c.repeatability + 1 then (⟨.repeats, command host c i, operationAfter host c i (n - 1), n - 1⟩, before)
  else
    let operation := operationAfter host c i c.repeatability
    if n = c.repeatability + 2 then (⟨.ends, command host c i, operation, c.repeatability⟩, before)
    else (⟨.finished, command host c i, operation, c.repeatability⟩,
      if operation = "add".toList then some (host.atEnd i) else before)

theorem stage_repeats (before : Option Decimal) {n : Nat} (h : n ≤ c.repeatability) :
    stage host c i before (n + 1) = (⟨.repeats, command host c i, operationAfter host c i n, n⟩, before) := by
  rw [stage, if_neg (Nat.succ_ne_zero n)]
  exact if_pos (Nat.add_le_add_right h 1)

theorem stage_ends (before : Option Decimal) : stage host c i before (c.repeatability + 2) =
    (⟨.ends, command host c i, operationAfter host c i c.repeatability, c.repeatability⟩, before) := by
  rw [stage, if_neg (by omega), if_neg (by omega)]
  exact if_pos rfl

theorem stage_finished (before : Option Decimal) {n : Nat} (h : c.repeatability + 3 ≤ n) :
    stage host c i before n = (⟨.finished, command host c i, operationAfter host c i c.repeatability, c.repeatability⟩,
      if operationAfter host c i c.repeatability = "add".toList then some (host.atEnd i) else before) := by
  rw [stage, if_neg (by omega), if_neg (by omega)]
  exact if_neg (by omega)

theorem stage_cases (repeatability n : Nat) : n = 0 ∨ (∃ k, n = k + 1 ∧ k < repeatability) ∨ n = repeatability + 1 ∨
    n = repeatability + 2 ∨ repeatability + 3 ≤ n := by
  obtain rfl | hpos := Nat.eq_zero_or_pos n
  · exact Or.inl rfl
  by_cases hrepeats : n ≤ repeatability
  · exact Or.inr (Or.inl ⟨n - 1, by omega, by omega⟩)
  · omega

theorem advance_stage (hsucceeds : Succeeds host c) (i : Instance) (before : Option Decimal) (n : Nat) :
    advance host c.repeatability i (stage host c i before n) = stage host c i before (n + 1) := by
  obtain rfl | ⟨k, rfl, hk⟩ | rfl | rfl | hfinished := stage_cases c.repeatability n
  · exact (stage_repeats before (Nat.zero_le _)).symm
  · have hstatus := hsucceeds i k hk
    rw [stage_repeats before hk.le, stage_repeats before hk, advance]
    dsimp only
    rw [if_pos hk, evaluate]
    dsimp only
    rw [if_pos hstatus, operationAfter]
  · rw [stage_repeats before le_rfl, stage_ends, advance]
    exact if_neg (lt_irrefl _)
  · rw [stage_ends, stage_finished before le_rfl]
    rfl
  · rw [stage_finished before hfinished, stage_finished before (Nat.le_succ_of_le hfinished)]
    rfl

theorem iterate_advance (hsucceeds : Succeeds host c) (i : Instance) (before : Option Decimal) (n : Nat) :
    (advance host c.repeatability i)^[n] (stage host c i before 0) = stage host c i before n := by
  induction n with
  | zero => rfl
  | succ n ih => rw [Function.iterate_succ_apply', ih, advance_stage hsucceeds]

theorem stage_place_iff (before : Option Decimal) (n : Nat) :
    ((stage host c i before n).1.place = .finished ∨ (stage host c i before n).1.place = .failed) ↔
      c.repeatability + 3 ≤ n := by
  obtain rfl | ⟨k, rfl, hk⟩ | rfl | rfl | hfinished := stage_cases c.repeatability n
  · simp [stage]
  · rw [stage_repeats before hk.le]
    exact iff_of_false (by simp) (by omega)
  · rw [stage_repeats before le_rfl]
    exact iff_of_false (by simp) (by omega)
  · rw [stage_ends]
    exact iff_of_false (by simp) (by omega)
  · rw [stage_finished before hfinished]
    exact iff_of_true (Or.inl rfl) hfinished

/-- No reading gets through while a command leaves the variable alone. -/
theorem not_recorded (h : ∀ n operation, (host.eval i (command host c i) n operation).1 = operation) :
    ¬ Recorded host c i := by
  have hinherited : ∀ n, operationAfter host c i n = inherited host := by
    intro n
    induction n with
    | zero => rfl
    | succ n ih => rw [operationAfter, h, ih]
  rw [Recorded, hinherited]
  exact inherited_ne_add host

/-! The run of the two. -/

variable {w : World}

theorem added_eq (hhalt : w.errors.halt = none) (hsched : host.sched = true) : c.added host w = { w with files :=
    { w.files with
      HPPR_COMMAND_LINE := fun i => some (command host c i)
      HPPR_COMMAND_PRIORITY := fun i => some (c.priority i)
      HPPR_OPERATION_CURRENT := some .add } } := by
  have hpass := (HandlerError.test_exit_ne_iff w.errors).mpr hhalt
  have hline : Function.update (Function.update w.files.HPPR_COMMAND_LINE .one (some (command host c .one))) .two
      (some (command host c .two)) = fun i => some (command host c i) := by
    funext i
    cases i with
    | one => rfl
    | two => rfl
  have hpriority : Function.update (Function.update w.files.HPPR_COMMAND_PRIORITY .one (some (c.priority .one))) .two
      (some (c.priority .two)) = fun i => some (c.priority i) := by
    funext i
    cases i with
    | one => rfl
    | two => rfl
  have hkernel : (!host.sched) ≠ true := by simp [hsched]
  rw [Comparison.added, add, add, if_neg hpass, if_neg hkernel]
  dsimp only
  rw [if_neg hpass, if_neg hkernel]
  rw [← hline, ← hpriority]
  rfl

theorem writeHigher_current (files : Files) :
    (writeHigher files).HPPR_PROCFS_PID_SCHED_CURRENT = files.HPPR_PROCFS_PID_SCHED_CURRENT := by
  unfold writeHigher
  split
  · split
    · rfl
    split
    · rfl
    · rfl
  · rfl

theorem run_view (hsucceeds : Succeeds host c) (hhalt : w.errors.halt = none) (hsched : host.sched = true)
    (schedule : List Instance) (i : Instance) : view i (run host c.repeatability (c.added host w).files schedule) =
      stage host c i (w.files.HPPR_PROCFS_PID_SCHED_CURRENT i) (schedule.count i) := by
  have hbegin : view i (start host (c.added host w).files) =
      stage host c i (w.files.HPPR_PROCFS_PID_SCHED_CURRENT i) 0 := by
    rw [added_eq hhalt hsched, view, start, writeHigher_current]
    rfl
  rw [run, ScheduledRun.foldl_view (view i) (advance host c.repeatability i) (view_step_self host _ i)
    (fun s j hj => view_step_other host _ s hj), hbegin, iterate_advance hsucceeds]

theorem complete_iff (hsucceeds : Succeeds host c) (hhalt : w.errors.halt = none) (hsched : host.sched = true)
    (schedule : List Instance) : Complete (run host c.repeatability (c.added host w).files schedule) ↔
      ∀ i, c.repeatability + 3 ≤ schedule.count i := by
  apply forall_congr'
  intro i
  rw [← @stage_place_iff host c i (w.files.HPPR_PROCFS_PID_SCHED_CURRENT i),
    ← run_view hsucceeds hhalt hsched]
  rfl

theorem complete_exists (hsucceeds : Succeeds host c) (hhalt : w.errors.halt = none) (hsched : host.sched = true) :
    ∃ schedule, Complete (run host c.repeatability (c.added host w).files schedule) := by
  refine ⟨List.replicate (c.repeatability + 3) .one ++ List.replicate (c.repeatability + 3) .two, ?_⟩
  rw [complete_iff hsucceeds hhalt hsched]
  intro i
  cases i with
  | one => simp
  | two => simp [List.count_replicate]

def reading (host : Host) (c : Comparison) (w : World) (i : Instance) : Option Decimal :=
  if Recorded host c i then some (host.atEnd i) else w.files.HPPR_PROCFS_PID_SCHED_CURRENT i

theorem current_run (hsucceeds : Succeeds host c) (hhalt : w.errors.halt = none) (hsched : host.sched = true)
    {schedule : List Instance} (h : Complete (run host c.repeatability (c.added host w).files schedule)) (i : Instance) :
    (run host c.repeatability (c.added host w).files schedule).files.HPPR_PROCFS_PID_SCHED_CURRENT i =
      reading host c w i := by
  have hview := run_view hsucceeds hhalt hsched schedule i
  rw [stage_finished _ ((complete_iff hsucceeds hhalt hsched schedule).mp h i)] at hview
  exact congrArg Prod.snd hview

theorem higher_run (hhalt : w.errors.halt = none) (hsched : host.sched = true)
    (hpriority : c.priority .one ≠ c.priority .two) (schedule : List Instance) :
    (run host c.repeatability (c.added host w).files schedule).files.HPPR_COMMAND_PRIORITY_HIGHER =
      some (.number c.higher) := by
  have hkept := ScheduledRun.foldl_view (fun s : System => s.files.HPPR_COMMAND_PRIORITY_HIGHER) id (a := .one)
    (fun s => step_higher host c.repeatability s .one) (fun s j _ => step_higher host c.repeatability s j)
    (start host (c.added host w).files) schedule
  rw [Function.iterate_id] at hkept
  rw [run, hkept, added_eq hhalt hsched, start, writeHigher, Comparison.higher]
  dsimp only
  split
  · rfl
  · rw [if_pos (by omega)]
    rfl

theorem value_fvalue (file : Option Decimal) : (fvalue file).value = worth file := by
  cases file with
  | none => simp [fvalue, worth]
  | some reading => simp [fvalue, worth, Number.value_sub]

theorem test_run (hhalt : w.errors.halt = none) (hsched : host.sched = true) (schedule : List Instance) :
    execute host c.repeatability schedule (c.added host w) =
      ⟨w.errors, (run host c.repeatability (c.added host w).files schedule).files⟩ := by
  have hadded := added_eq (c := c) hhalt hsched
  have hpass : (HandlerError.test (c.added host w).errors).exit ≠ 1 := by
    rw [hadded]
    exact (HandlerError.test_exit_ne_iff w.errors).mpr hhalt
  have hoperation : (c.added host w).files.HPPR_OPERATION_CURRENT = some .add := by rw [hadded]
  have herrors : (c.added host w).errors = w.errors := by rw [hadded]
  rw [execute, if_neg hpass, hoperation, ← herrors]

theorem verify_run (hsucceeds : Succeeds host c) (hhalt : w.errors.halt = none) (hsched : host.sched = true)
    (hpriority : c.priority .one ≠ c.priority .two) {schedule : List Instance}
    (h : Complete (run host c.repeatability (c.added host w).files schedule)) : ∃ status,
    verify (execute host c.repeatability schedule (c.added host w)) =
      some ⟨fvalue (reading host c w .one), fvalue (reading host c w .two), status⟩ ∧
    (status = 0 ↔ worth (reading host c w c.higher.other) < worth (reading host c w c.higher)) := by
  rw [test_run hhalt hsched, verify, if_neg ((HandlerError.test_exit_ne_iff w.errors).mpr hhalt),
    higher_run hhalt hsched hpriority, current_run hsucceeds hhalt hsched h, current_run hsucceeds hhalt hsched h]
  cases c.higher with
  | one =>
    refine ⟨_, rfl, ?_⟩
    rw [Instance.other, ← value_fvalue, ← value_fvalue, ← Number.lt_iff]
    split
    next hlt => exact iff_of_true rfl hlt
    next hlt => exact iff_of_false Nat.one_ne_zero hlt
  | two =>
    refine ⟨_, rfl, ?_⟩
    rw [Instance.other, ← value_fvalue, ← value_fvalue, ← Number.lt_iff]
    split
    next hlt => exact iff_of_true rfl hlt
    next hlt => exact iff_of_false Nat.one_ne_zero hlt

/-- The readings get through just where the command has set the variable, or a file of an earlier run
has the same value already. -/
theorem verify_right_iff (hsucceeds : Succeeds host c) (hhalt : w.errors.halt = none) (hsched : host.sched = true)
    (hpriority : c.priority .one ≠ c.priority .two) : AsClaimed host c w ↔
      ∀ i, Recorded host c i ∨ worth (w.files.HPPR_PROCFS_PID_SCHED_CURRENT i) = (host.atEnd i).value := by
  have hreading : ∀ i, worth (reading host c w i) = (host.atEnd i).value ↔
      Recorded host c i ∨ worth (w.files.HPPR_PROCFS_PID_SCHED_CURRENT i) = (host.atEnd i).value := by
    intro i
    rw [reading]
    split
    next h => exact iff_of_true rfl (Or.inl h)
    next h => exact (or_iff_right h).symm
  simp only [← hreading]
  constructor
  · intro h i
    obtain ⟨schedule, hcomplete⟩ := complete_exists hsucceeds hhalt hsched
    obtain ⟨r, hr, hright⟩ := h schedule hcomplete
    obtain ⟨status, hreport, -⟩ := verify_run hsucceeds hhalt hsched hpriority hcomplete
    obtain rfl := Option.some.inj (hreport.symm.trans hr)
    cases i with
    | one => exact (value_fvalue _).symm.trans hright.first
    | two => exact (value_fvalue _).symm.trans hright.second
  · intro h schedule hcomplete
    obtain ⟨status, hreport, hstatus⟩ := verify_run hsucceeds hhalt hsched hpriority hcomplete
    refine ⟨_, hreport, (value_fvalue _).trans (h .one), (value_fvalue _).trans (h .two), ?_⟩
    rw [hstatus, h, h]

/-- Commands that leave the shell of their executor alone; the first executor gets the more time. -/
def quiet : Host where
  names word := [word]
  sched := true
  exported := false
  atStart _ := .ofInt 0
  atEnd
    | .one => ⟨12500000, 6⟩
    | .two => ⟨3250000, 6⟩
  eval _ _ _ operation := (operation, 0)

def copies : Comparison where
  line _ := "dd if=/dev/urandom of=file bs=1M count=50".toList
  priority
    | .one => -20
    | .two => 20
  repeatability := 1

/-- Nothing has latched an error, and the files of the readings are these. -/
def worldWith (current : Instance → Option Decimal) : World where
  errors := HandlerError.clean
  files := ⟨fun _ => none, fun _ => none, none, none, fun _ => none, current⟩

theorem quiet_succeeds : Succeeds quiet copies := fun _ _ _ => rfl

theorem verify_right_old : AsClaimed quiet copies (worldWith fun i => some (quiet.atEnd i)) :=
  (verify_right_iff quiet_succeeds rfl rfl (by decide)).mpr fun _ => Or.inr rfl

def inTurn : List Instance := [.one, .one, .one, .one, .two, .two, .two, .two]

/-- Without files of an earlier run two zeros are compared. -/
theorem readings_lost : Succeeds quiet copies ∧ copies.priority .one ≠ copies.priority .two ∧
    ¬ AsClaimed quiet copies (worldWith fun _ => none) := by
  refine ⟨quiet_succeeds, by decide, ?_⟩
  intro h
  have hcomplete : Complete (run quiet 1 (copies.added quiet (worldWith fun _ => none)).files inTurn) := by
    intro i
    cases i with
    | one => exact Or.inl rfl
    | two => exact Or.inl rfl
  obtain ⟨r, hr, hright⟩ := h inTurn hcomplete
  obtain rfl : (⟨.ofInt 0, .ofInt 0, 1⟩ : Report) = r := Option.some.inj hr
  have hfirst := hright.first
  norm_num [quiet, Number.value, Number.ofInt] at hfirst

end PriorityComparison

end DeviceDriverTest
