import Mathlib.Data.List.Count
import Mathlib.Data.List.Nodup
import Mathlib.Logic.Function.Basic

/-! Lists that hold one entry for each index in a certain place, kept up to date
while the indices move from place to place. -/

namespace IndexedListing

variable {ι α Place : Type*}

/-- `l` holds the entries of the indices with `P`, each once and in some order. -/
def Lists (entry : ι → α) (P : ι → Prop) (l : List α) : Prop :=
  ∃ order : List ι, l = order.map entry ∧ order.Nodup ∧ ∀ i, i ∈ order ↔ P i

variable {entry : ι → α} {P Q : ι → Prop} {l : List α} {i : ι}

theorem lists_nil (h : ∀ i, ¬ P i) : Lists entry P [] :=
  ⟨[], rfl, List.nodup_nil, fun i => iff_of_false List.not_mem_nil (h i)⟩

theorem Lists.congr (h : Lists entry P l) (hPQ : ∀ i, P i ↔ Q i) : Lists entry Q l := by
  obtain ⟨order, hl, hnodup, hmem⟩ := h
  exact ⟨order, hl, hnodup, fun i => (hmem i).trans (hPQ i)⟩

theorem Lists.eq_nil_iff (h : Lists entry P l) : l = [] ↔ ∀ i, ¬ P i := by
  obtain ⟨order, rfl, -, hmem⟩ := h
  rw [List.map_eq_nil_iff, List.eq_nil_iff_forall_not_mem]
  exact forall_congr' fun i => not_congr (hmem i)

theorem Lists.append (h : Lists entry P l) (hi : ¬ P i) (hQ : ∀ j, Q j ↔ P j ∨ j = i) :
    Lists entry Q (l ++ [entry i]) := by
  obtain ⟨order, rfl, hnodup, hmem⟩ := h
  refine ⟨order ++ [i], by simp, ?_, fun j => ?_⟩
  · rw [List.nodup_append]
    refine ⟨hnodup, List.nodup_singleton i, fun a ha b hb => ?_⟩
    rw [List.mem_singleton.mp hb]
    rintro rfl
    exact hi ((hmem a).mp ha)
  · rw [List.mem_append, hmem, List.mem_singleton, hQ]

/-- Deleting the entries that match deletes one entry, where only one matches. -/
theorem Lists.delete (h : Lists entry P l) (hi : P i) {p : α → Bool} (hp : p (entry i) = true)
    (hone : l.countP p = 1) (hQ : ∀ j, Q j ↔ P j ∧ j ≠ i) : Lists entry Q (l.filter fun a => !p a) := by
  obtain ⟨order, rfl, hnodup, hmem⟩ := h
  rw [List.countP_map, List.countP_eq_length_filter, List.length_eq_one_iff] at hone
  obtain ⟨k, hk⟩ := hone
  have honly : ∀ j ∈ order, p (entry j) = true → j = k := by
    intro j hj hpj
    have hfiltered : j ∈ order.filter (p ∘ entry) := List.mem_filter.mpr ⟨hj, hpj⟩
    rw [hk] at hfiltered
    exact List.mem_singleton.mp hfiltered
  have hik : i = k := honly i ((hmem i).mpr hi) hp
  refine ⟨order.filter fun j => !p (entry j), ?_, hnodup.filter _, fun j => ?_⟩
  · rw [List.filter_map]
    rfl
  · rw [List.mem_filter, hmem, hQ]
    refine and_congr_right fun hj => ⟨?_, ?_⟩
    · rintro hpj rfl
      simp [hp] at hpj
    · intro hji
      have hnot : p (entry j) ≠ true := fun hpj => hji ((honly j ((hmem j).mpr hj) hpj).trans hik.symm)
      simpa using hnot

section Places

variable [DecidableEq ι] {places : ι → Place} {place : Place} {R : ι → Place → Prop}

theorem Lists.stay (h : Lists entry (fun j => R j (places j)) l) (hi : R i place ↔ R i (places i)) :
    Lists entry (fun j => R j (Function.update places i place j)) l := by
  refine h.congr fun j => ?_
  by_cases hj : j = i
  · subst hj
    rw [Function.update_self, hi]
  · rw [Function.update_of_ne hj]

theorem Lists.enter (h : Lists entry (fun j => R j (places j)) l) (hbefore : ¬ R i (places i)) (hafter : R i place) :
    Lists entry (fun j => R j (Function.update places i place j)) (l ++ [entry i]) := by
  refine h.append hbefore fun j => ?_
  by_cases hj : j = i
  · subst hj
    rw [Function.update_self]
    exact iff_of_true hafter (Or.inr rfl)
  · rw [Function.update_of_ne hj, or_iff_left hj]

theorem Lists.leave (h : Lists entry (fun j => R j (places j)) l) (hbefore : R i (places i)) (hafter : ¬ R i place)
    {p : α → Bool} (hp : p (entry i) = true) (hone : l.countP p = 1) :
    Lists entry (fun j => R j (Function.update places i place j)) (l.filter fun a => !p a) := by
  refine h.delete hbefore hp hone fun j => ?_
  by_cases hj : j = i
  · subst hj
    rw [Function.update_self]
    exact iff_of_false hafter fun hboth => hboth.2 rfl
  · rw [Function.update_of_ne hj, and_iff_left hj]

end Places

end IndexedListing
