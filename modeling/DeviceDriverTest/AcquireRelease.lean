import Mathlib.Algebra.GroupWithZero.Nat
import Mathlib.Data.List.Count
import Mathlib.Tactic.TypeStar

/-! Traces whose events acquire keys or give them back: what is held after a
trace, and when every key is given back as often as it was acquired. -/

namespace AcquireRelease

inductive Effect (Key : Type*)
  | acquires (k : Key)
  | releases (k : Key)
  | neither
  deriving DecidableEq

variable {Event Key : Type*} [DecidableEq Key] (effect : Event → Effect Key)

def acquired (k : Key) (tr : List Event) : Nat := tr.countP fun e => effect e = .acquires k

def released (k : Key) (tr : List Event) : Nat := tr.countP fun e => effect e = .releases k

/-- At no point has a key been given back more often than it was acquired. -/
def Safe (tr : List Event) : Prop :=
  ∀ before after, tr = before ++ after → ∀ k, released effect k before ≤ acquired effect k before

/-- The keys acquired and not given back, after a safe trace. -/
structure Holds (tr : List Event) (held : List Key) : Prop where
  safe : Safe effect tr
  count : ∀ k, acquired effect k tr = released effect k tr + held.count k

def Balanced (tr : List Event) : Prop := Holds effect tr []

variable {effect} {tr : List Event} {held : List Key} {e : Event} {k : Key}

theorem acquired_concat (k : Key) :
    acquired effect k (tr ++ [e]) = acquired effect k tr + if effect e = .acquires k then 1 else 0 := by
  simp [acquired, List.countP_append, List.countP_cons]

theorem released_concat (k : Key) :
    released effect k (tr ++ [e]) = released effect k tr + if effect e = .releases k then 1 else 0 := by
  simp [released, List.countP_append, List.countP_cons]

theorem Safe.concat (h : Safe effect tr)
    (he : ∀ k, released effect k (tr ++ [e]) ≤ acquired effect k (tr ++ [e])) : Safe effect (tr ++ [e]) := by
  intro before after hsplit
  obtain rfl | ⟨init, last, rfl⟩ := List.eq_nil_or_concat after
  · rw [List.append_nil] at hsplit
    rw [← hsplit]
    exact he
  · rw [List.concat_eq_append, ← List.append_assoc] at hsplit
    exact h before init (List.append_inj_left' hsplit rfl)

theorem holds_nil : Holds effect [] [] := by
  refine ⟨fun before after hsplit k => ?_, fun k => rfl⟩
  rw [(List.append_eq_nil_iff.mp hsplit.symm).1]
  exact Nat.zero_le _

theorem Holds.concat {held' : List Key} (h : Holds effect tr held)
    (hcount : ∀ k, acquired effect k (tr ++ [e]) = released effect k (tr ++ [e]) + held'.count k) :
    Holds effect (tr ++ [e]) held' :=
  ⟨h.safe.concat fun k => (hcount k).symm ▸ Nat.le_add_right _ _, hcount⟩

theorem Holds.acquire (h : Holds effect tr held) (he : effect e = .acquires k) :
    Holds effect (tr ++ [e]) (held ++ [k]) := by
  refine h.concat fun j => ?_
  rw [acquired_concat, released_concat, h.count, he, List.count_append, List.count_singleton]
  by_cases hj : k = j
  · simp [hj, Nat.add_assoc]
  · simp [hj]

theorem Holds.release (h : Holds effect tr (k :: held)) (he : effect e = .releases k) :
    Holds effect (tr ++ [e]) held := by
  refine h.concat fun j => ?_
  rw [acquired_concat, released_concat, h.count, he, List.count_cons]
  by_cases hj : k = j
  · simp only [hj, beq_self_eq_true, if_true, reduceCtorEq, if_false]
    omega
  · simp [hj]

theorem Holds.other (h : Holds effect tr held) (he : effect e = .neither) : Holds effect (tr ++ [e]) held := by
  refine h.concat fun j => ?_
  rw [acquired_concat, released_concat, h.count, he]
  simp

theorem Holds.others {es : List Event} (h : Holds effect tr held) (hes : ∀ e ∈ es, effect e = .neither) :
    Holds effect (tr ++ es) held := by
  induction es generalizing tr with
  | nil => simpa using h
  | cons e es ih =>
    have hnext := ih (h.other (hes e (by simp))) fun x hx => hes x (by simp [hx])
    simpa only [List.append_assoc, List.singleton_append] using hnext

theorem balanced_others {es : List Event} (hes : ∀ e ∈ es, effect e = .neither) : Balanced effect es :=
  holds_nil.others hes

theorem balanced_bracket {a b : Event} {mid : List Event} (ha : effect a = .acquires k)
    (hmid : ∀ e ∈ mid, effect e = .neither) (hb : effect b = .releases k) :
    Balanced effect (a :: mid ++ [b]) :=
  ((holds_nil.acquire ha).others hmid).release hb

/-- Giving back a key that is not held is never made up for. -/
theorem Holds.not_safe (h : Holds effect tr held) (hk : k ∉ held) (he : effect e = .releases k)
    (after : List Event) : ¬ Safe effect (tr ++ e :: after) := by
  intro hsafe
  have hsplit : tr ++ e :: after = (tr ++ [e]) ++ after := by simp
  have hle := hsafe (tr ++ [e]) after hsplit k
  rw [released_concat, acquired_concat, h.count, he, List.count_eq_zero_of_not_mem hk, if_pos rfl] at hle
  simp only [reduceCtorEq, if_false] at hle
  omega

/-! Traces made of segments, one for each item of a list. -/

section Segments

variable {Item : Type*} {segment : Item → List Event} {items : List Item}

theorem acquired_append (k : Key) (xs ys : List Event) :
    acquired effect k (xs ++ ys) = acquired effect k xs + acquired effect k ys := List.countP_append

theorem released_append (k : Key) (xs ys : List Event) :
    released effect k (xs ++ ys) = released effect k xs + released effect k ys := List.countP_append

theorem Balanced.counts (h : Balanced effect tr) (k : Key) : acquired effect k tr = released effect k tr := by
  simpa using h.count k

theorem Balanced.append {tr' : List Event} (h : Balanced effect tr) (h' : Balanced effect tr') :
    Balanced effect (tr ++ tr') := by
  refine ⟨fun before after hsplit k => ?_, fun k => ?_⟩
  · rcases List.append_eq_append_iff.mp hsplit with ⟨mid, hbefore, htr'⟩ | ⟨mid, htr, -⟩
    · have hmid := h'.safe mid after htr' k
      have hcounts := h.counts k
      rw [hbefore, released_append, acquired_append]
      omega
    · exact h.safe before mid htr k
  · rw [acquired_append, released_append, h.counts, h'.counts]
    rfl

theorem Balanced.flatMap (h : ∀ x ∈ items, Balanced effect (segment x)) :
    Balanced effect (items.flatMap segment) := by
  induction items with
  | nil => exact holds_nil
  | cons x rest ih =>
    rw [List.flatMap_cons]
    exact (h x (by simp)).append (ih fun y hy => h y (by simp [hy]))

theorem acquired_flatMap (k : Key) :
    acquired effect k (items.flatMap segment) = (items.map fun x => acquired effect k (segment x)).sum :=
  List.countP_flatMap

theorem released_flatMap (k : Key) :
    released effect k (items.flatMap segment) = (items.map fun x => released effect k (segment x)).sum :=
  List.countP_flatMap

theorem sum_map_le {f g : Item → Nat} (hle : ∀ x ∈ items, f x ≤ g x) :
    (items.map f).sum ≤ (items.map g).sum := by
  induction items with
  | nil => exact Nat.le_refl _
  | cons x rest ih =>
    simp only [List.map_cons, List.sum_cons]
    exact Nat.add_le_add (hle x (by simp)) (ih fun y hy => hle y (by simp [hy]))

theorem eq_of_sum_map_eq {f g : Item → Nat} (hle : ∀ x ∈ items, f x ≤ g x)
    (hsum : (items.map f).sum = (items.map g).sum) : ∀ x ∈ items, f x = g x := by
  induction items with
  | nil => simp
  | cons x rest ih =>
    have hrest : ∀ y ∈ rest, f y ≤ g y := fun y hy => hle y (by simp [hy])
    have hx := hle x (by simp)
    have hle' := sum_map_le hrest
    simp only [List.map_cons, List.sum_cons] at hsum
    intro y hy
    rcases List.mem_cons.mp hy with rfl | hy
    · omega
    · exact ih hrest (by omega) y hy

/-- Where no segment gives back more than it acquires, a balanced whole has balanced counts in
every segment. -/
theorem Balanced.counts_of_released_le (h : Balanced effect (items.flatMap segment))
    (hle : ∀ x ∈ items, released effect k (segment x) ≤ acquired effect k (segment x)) :
    ∀ x ∈ items, released effect k (segment x) = acquired effect k (segment x) := by
  apply eq_of_sum_map_eq hle
  rw [← released_flatMap, ← acquired_flatMap]
  exact (h.counts k).symm

theorem Balanced.counts_of_acquired_le (h : Balanced effect (items.flatMap segment))
    (hle : ∀ x ∈ items, acquired effect k (segment x) ≤ released effect k (segment x)) :
    ∀ x ∈ items, acquired effect k (segment x) = released effect k (segment x) := by
  apply eq_of_sum_map_eq hle
  rw [← released_flatMap, ← acquired_flatMap]
  exact h.counts k

end Segments

end AcquireRelease
