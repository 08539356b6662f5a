import Mathlib.Data.List.Induction
import Mathlib.Logic.Function.Basic

/-! A store of independent cells and a sequence of events, each of which
changes only the cell it is addressed to. A cell then depends on its own
events alone, in their order. -/

namespace KeyedFold

variable {Key Cell Event : Type*} [DecidableEq Key]

def deliver (key : Event → Key) (act : Cell → Event → Cell) (s : Key → Cell) (e : Event) : Key → Cell :=
  Function.update s (key e) (act (s (key e)) e)

def addressed (key : Event → Key) (k : Key) (es : List Event) : List Event :=
  es.filter (fun e => key e = k)

@[simp] theorem addressed_nil (key : Event → Key) (k : Key) : addressed key k [] = [] := rfl

@[simp] theorem mem_addressed {key : Event → Key} {k : Key} {es : List Event} {e : Event} :
    e ∈ addressed key k es ↔ e ∈ es ∧ key e = k := by
  simp [addressed]

theorem foldl_deliver_apply (key : Event → Key) (act : Cell → Event → Cell) (es : List Event)
    (s : Key → Cell) (k : Key) :
    es.foldl (deliver key act) s k = (addressed key k es).foldl act (s k) := by
  induction es generalizing s with
  | nil => rfl
  | cons e es ih =>
    rw [List.foldl_cons, ih]
    by_cases h : key e = k
    · subst h
      simp [addressed, deliver]
    · simp [addressed, deliver, h, Ne.symm h]

/-- When every event overwrites what a projection reads, the last one decides.
What is written may depend on a part of the cell that no event changes. -/
theorem foldl_project_last {Value : Type*} {act : Cell → Event → Cell} (Fixed : Cell → Prop)
    (value : Cell → Value) (written : Event → Value) (hf : ∀ c e, Fixed c → Fixed (act c e))
    (h : ∀ c e, Fixed c → value (act c e) = written e) (es : List Event) {c : Cell} (hc : Fixed c) :
    value (es.foldl act c) = (es.getLast?.map written).getD (value c) := by
  have hk : Fixed (es.foldl act c) ∧
      value (es.foldl act c) = (es.getLast?.map written).getD (value c) := by
    induction es using List.reverseRecOn with
    | nil => exact ⟨hc, rfl⟩
    | append_singleton es e ih =>
      rw [List.foldl_append, List.foldl_cons, List.foldl_nil]
      exact ⟨hf _ _ ih.1, by simp [h _ _ ih.1]⟩
  exact hk.2

theorem foldl_project_const {Value : Type*} {act : Cell → Event → Cell} {value : Cell → Value}
    (h : ∀ c e, value (act c e) = value c) (es : List Event) (c : Cell) :
    value (es.foldl act c) = value c := by
  induction es generalizing c with
  | nil => rfl
  | cons e es ih => rw [List.foldl_cons, ih, h]

end KeyedFold
