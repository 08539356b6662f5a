import Mathlib.Data.List.Basic
import Mathlib.Logic.Function.Iterate

/-! Runs of a system under a schedule: what holds in every state that a run
visits, and what every step of it meets. -/

namespace ScheduledRun

variable {State Actor : Type*}

/-- `P` holds in every state the run visits, the first and the last included. -/
def Throughout (next : State → Actor → State) (P : State → Prop) : State → List Actor → Prop
  | s, [] => P s
  | s, a :: rest => P s ∧ Throughout next P (next s a) rest

def StepsMeet (next : State → Actor → State) (ok : State → Actor → Prop) : State → List Actor → Prop
  | _, [] => True
  | s, a :: rest => ok s a ∧ StepsMeet next ok (next s a) rest

variable {next : State → Actor → State} {Inv P : State → Prop} {ok : State → Actor → Prop}

instance StepsMeet.decidable [∀ s a, Decidable (ok s a)] :
    ∀ (s : State) (schedule : List Actor), Decidable (StepsMeet next ok s schedule)
  | _, [] => .isTrue trivial
  | s, a :: rest =>
    have := StepsMeet.decidable (next s a) rest
    inferInstanceAs (Decidable (ok s a ∧ StepsMeet next ok (next s a) rest))

theorem stepsMeet_append {s : State} {before after : List Actor} :
    StepsMeet next ok s (before ++ after) ↔
      StepsMeet next ok s before ∧ StepsMeet next ok (before.foldl next s) after := by
  induction before generalizing s with
  | nil => simp [StepsMeet]
  | cons a before ih => simp only [List.cons_append, StepsMeet, List.foldl_cons, ih, and_assoc]

theorem stepsMeet_concat {s : State} {before : List Actor} {a : Actor} :
    StepsMeet next ok s (before ++ [a]) ↔ StepsMeet next ok s before ∧ ok (before.foldl next s) a := by
  rw [stepsMeet_append, StepsMeet, StepsMeet, and_true]

theorem throughout_head {s : State} {schedule : List Actor} (h : Throughout next P s schedule) : P s := by
  cases schedule with
  | nil => exact h
  | cons a rest => exact h.1

theorem throughout_foldl {s : State} {schedule : List Actor} (h : Throughout next P s schedule) :
    P (schedule.foldl next s) := by
  induction schedule generalizing s with
  | nil => exact h
  | cons a rest ih => exact ih h.2

theorem throughout_of_stepsMeet (hprop : ∀ s, Inv s → P s)
    (hkeep : ∀ s a, Inv s → ok s a → Inv (next s a)) {s : State} (h : Inv s) {schedule : List Actor}
    (hok : StepsMeet next ok s schedule) : Throughout next P s schedule := by
  induction schedule generalizing s with
  | nil => exact hprop s h
  | cons a rest ih => exact ⟨hprop s h, ih (hkeep s a h hok.1) hok.2⟩

/-- When a step that does not meet `ok` breaks the property at once, the
property holds throughout exactly the runs whose steps all meet it. -/
theorem throughout_iff_stepsMeet (hprop : ∀ s, Inv s → P s)
    (hkeep : ∀ s a, Inv s → ok s a → Inv (next s a))
    (hbreak : ∀ s a, Inv s → ¬ ok s a → ¬ P (next s a)) {s : State} (h : Inv s) (schedule : List Actor) :
    Throughout next P s schedule ↔ StepsMeet next ok s schedule := by
  refine ⟨fun hall => ?_, throughout_of_stepsMeet hprop hkeep h⟩
  induction schedule generalizing s with
  | nil => trivial
  | cons a rest ih =>
    have hok : ok s a := by
      by_contra hnot
      exact hbreak s a h hnot (throughout_head hall.2)
    exact ⟨hok, ih (hkeep s a h hok) hall.2⟩

/-- A part of the state that only the steps of one actor change, and in a way of its own, is where as
many of these have brought it. -/
theorem foldl_view [DecidableEq Actor] {View : Type*} (view : State → View) (own : View → View) {a : Actor}
    (hown : ∀ s, view (next s a) = own (view s)) (hother : ∀ s b, b ≠ a → view (next s b) = view s) (s : State)
    (schedule : List Actor) : view (schedule.foldl next s) = own^[schedule.count a] (view s) := by
  induction schedule generalizing s with
  | nil => rfl
  | cons b schedule ih =>
    rw [List.foldl_cons, ih]
    by_cases hb : b = a
    · rw [hb, List.count_cons_self, hown, Function.iterate_succ_apply]
    · rw [List.count_cons_of_ne hb, hother s b hb]

end ScheduledRun
