import Mathlib.Data.List.Induction
import Mathlib.Tactic.Cases

/-! The error latch that the handlers share: two files that hold the name of the
handler that reported an error. -/

namespace DeviceDriverTest

namespace HandlerError

variable {Handler : Type*}

inductive Flag
  | halt
  | continue_
  deriving DecidableEq

inductive Operation (Handler : Type*)
  | clean
  | log (error : Fin 256) (flag : Flag) (handler : Handler)
  | test

/-- What `$HE_ERROR_FILE_HALT` and `$HE_ERROR_FILE_CONTINUE` hold, where they exist. -/
structure Files (Handler : Type*) where
  halt : Option Handler
  continue_ : Option Handler

structure Report (Handler : Type*) where
  exit : Nat
  handler : Option Handler

def clean : Files Handler := ⟨none, none⟩

def log (files : Files Handler) (error : Fin 256) (flag : Flag) (handler : Handler) : Files Handler :=
  if error = 1 then
    match flag with
    | .halt => { files with halt := some handler }
    | .continue_ => { files with continue_ := some handler }
  else files

/-- The status with which the handlers log errors of their own. -/
def failed : Fin 256 := 1

def test (files : Files Handler) : Report Handler :=
  match files.halt with
  | some handler => ⟨1, some handler⟩
  | none =>
    match files.continue_ with
    | some handler => ⟨0, some handler⟩
    | none => ⟨0, none⟩

def invoke (files : Files Handler) : Operation Handler → Files Handler
  | .clean => clean
  | .log error flag handler => log files error flag handler
  | .test => files

def run (ops : List (Operation Handler)) : Files Handler := ops.foldl invoke clean

/-- An invocation that decides what a latch for the statuses `counts` shows. -/
def Operation.Decides (counts : Fin 256 → Prop) : Operation Handler → Prop
  | .clean => True
  | .log error .halt _ => counts error
  | .log _ .continue_ _ => False
  | .test => False

/-- `handler` made the last `log` with flag `halt` and a status in `counts` since
the last `clean`. -/
def LoggedLast (counts : Fin 256 → Prop) (ops : List (Operation Handler)) (handler : Handler) : Prop :=
  ∃ before error after, ops = before ++ .log error .halt handler :: after ∧ counts error ∧
    ∀ op ∈ after, ¬ op.Decides counts

theorem loggedLast_concat {counts : Fin 256 → Prop} {ops : List (Operation Handler)}
    {op : Operation Handler} {handler : Handler} :
    LoggedLast counts (ops ++ [op]) handler ↔
      (∃ error, op = .log error .halt handler ∧ counts error) ∨
        ¬ op.Decides counts ∧ LoggedLast counts ops handler := by
  constructor
  · rintro ⟨before, error, after, hops, herror, hafter⟩
    obtain rfl | ⟨between, last, rfl⟩ := List.eq_nil_or_concat after
    · have hlast := List.append_inj_right' hops rfl
      exact Or.inl ⟨error, List.head_eq_of_cons_eq hlast, herror⟩
    · rw [List.concat_eq_append, ← List.cons_append, ← List.append_assoc] at hops
      have hlast := List.head_eq_of_cons_eq (List.append_inj_right' hops rfl)
      rw [hlast]
      have hbetween : ∀ x ∈ between, ¬ x.Decides counts :=
        fun x hx => hafter x (by simp [hx])
      exact Or.inr ⟨hafter last (by simp),
        before, error, between, List.append_inj_left' hops rfl, herror, hbetween⟩
  · rintro (⟨error, rfl, herror⟩ | ⟨hop, before, error, after, rfl, herror, hafter⟩)
    · exact ⟨ops, error, [], rfl, herror, by simp⟩
    · refine ⟨before, error, after ++ [op], by simp, herror, fun x hx => ?_⟩
      obtain hx | hx := List.mem_append.mp hx
      · exact hafter x hx
      · rw [List.mem_singleton.mp hx]
        exact hop

theorem run_concat (ops : List (Operation Handler)) (op : Operation Handler) :
    run (ops ++ [op]) = invoke (run ops) op := by
  rw [run, List.foldl_append]
  rfl

/-- The file of the fatal errors follows the logs whose status is one. -/
theorem halt_iff (ops : List (Operation Handler)) (handler : Handler) :
    (run ops).halt = some handler ↔ LoggedLast (· = 1) ops handler := by
  induction ops using List.reverseRecOn with
  | nil => simp [run, clean, LoggedLast]
  | append_singleton ops op ih =>
    rw [run_concat, loggedLast_concat, ← ih]
    cases op with
    | clean => simp [invoke, clean, Operation.Decides]
    | test => simp [invoke, Operation.Decides]
    | log error flag other =>
      by_cases herror : error = 1
      · cases flag <;> simp [invoke, log, Operation.Decides, herror]
      · cases flag <;> simp [invoke, log, Operation.Decides, herror]

theorem log_failed_halt (files : Files Handler) (handler : Handler) :
    log files failed .halt handler = { files with halt := some handler } := rfl

theorem test_exit_iff (files : Files Handler) : (test files).exit = 1 ↔ ∃ handler, files.halt = some handler := by
  obtain ⟨_ | handler, _ | _⟩ := files <;> simp [test]

theorem test_exit_ne_iff (files : Files Handler) : (test files).exit ≠ 1 ↔ files.halt = none := by
  obtain ⟨_ | handler, _ | _⟩ := files <;> simp [test]

theorem test_names {files : Files Handler} {handler : Handler} (h : files.halt = some handler) :
    (test files).handler = some handler := by
  rw [test, h]

theorem test_exit_otherwise (files : Files Handler) : (test files).exit = 1 ∨ (test files).exit = 0 := by
  obtain ⟨_ | handler, _ | _⟩ := files <;> simp [test]

/-- A `test` after `ops` halts the caller exactly for an error that is to halt it,
and names the handler that logged the last one. -/
structure TestAccurate (ops : List (Operation Handler)) : Prop where
  halts : (test (run ops)).exit = 1 ↔ ∃ handler, LoggedLast (· ≠ 0) ops handler
  names : ∀ handler, LoggedLast (· ≠ 0) ops handler → (test (run ops)).handler = some handler
  otherwise : (¬ ∃ handler, LoggedLast (· ≠ 0) ops handler) → (test (run ops)).exit = 0

/-- Since the last `clean`, the last halting error is as well the last of status one. -/
def LastErrorIsOne (ops : List (Operation Handler)) : Prop :=
  ∀ handler, LoggedLast (· ≠ 0) ops handler ↔ LoggedLast (· = 1) ops handler

theorem testAccurate_iff (ops : List (Operation Handler)) : TestAccurate ops ↔ LastErrorIsOne ops := by
  have hexit : (test (run ops)).exit = 1 ↔ ∃ handler, LoggedLast (· = 1) ops handler := by
    simp only [test_exit_iff, halt_iff]
  constructor
  · intro h handler
    constructor
    · intro hlast
      obtain ⟨other, hone⟩ := hexit.mp (h.halts.mpr ⟨handler, hlast⟩)
      have hname := test_names ((halt_iff ops other).mpr hone)
      rw [h.names handler hlast, Option.some.injEq] at hname
      rw [hname]
      exact hone
    · intro hone
      obtain ⟨other, hlast⟩ := h.halts.mp (hexit.mpr ⟨handler, hone⟩)
      have hname := test_names ((halt_iff ops handler).mpr hone)
      rw [h.names other hlast, Option.some.injEq] at hname
      rw [← hname]
      exact hlast
  · intro h
    have hhalts : (test (run ops)).exit = 1 ↔ ∃ handler, LoggedLast (· ≠ 0) ops handler := by
      rw [hexit]
      exact exists_congr fun handler => (h handler).symm
    refine ⟨hhalts, fun handler hlast => ?_, fun hnone => ?_⟩
    · exact test_names ((halt_iff ops handler).mpr ((h handler).mp hlast))
    · obtain hone | hzero := test_exit_otherwise (run ops)
      · exact absurd (hhalts.mp hone) hnone
      · exact hzero

/-- A status other than one, as a raw `$?` may be, is dropped. -/
theorem status_two_dropped : ¬ TestAccurate [.log 2 .halt "handlerMmmcsdBlock"] := by
  intro h
  have hlast : LoggedLast (· ≠ 0) [.log 2 .halt "handlerMmmcsdBlock"] "handlerMmmcsdBlock" :=
    ⟨[], 2, [], rfl, by decide, by simp⟩
  exact absurd (h.halts.mpr ⟨_, hlast⟩) (by decide)

end HandlerError

end DeviceDriverTest
