import Mathlib.Data.List.Infix
import Mathlib.Tactic.TypeStar

/-! Where a pattern without special characters occurs in a line that is put together from parts. -/

namespace TextSearch

variable {α : Type*} {pattern text : List α} {s : α}

/-- A character that is not in the pattern parts the places where it may be. -/
theorem infix_append_cons_iff (h : s ∉ pattern) (left right : List α) :
    pattern <:+: left ++ s :: right ↔ pattern <:+: left ∨ pattern <:+: right := by
  constructor
  · rintro ⟨before, behind, heq⟩
    obtain ⟨t, hleft, -⟩ | ⟨t, hpattern, hright⟩ := List.append_eq_append_iff.mp heq
    · exact Or.inl ⟨before, t, hleft.symm⟩
    · cases t with
      | nil =>
        rw [List.append_nil] at hpattern
        exact Or.inl ⟨before, [], by rw [List.append_nil, hpattern]⟩
      | cons x t =>
        rw [List.cons_append] at hright
        obtain ⟨rfl, hbehind⟩ := List.cons.inj hright
        obtain ⟨u, -, hu⟩ | ⟨u, -, hu⟩ := List.append_eq_append_iff.mp hpattern
        · exact absurd (by rw [hu]; simp) h
        · cases u with
          | nil => exact absurd (by rw [← List.nil_append pattern, ← hu]; exact List.mem_cons_self) h
          | cons y u =>
            rw [List.cons_append] at hu
            obtain ⟨-, hu⟩ := List.cons.inj hu
            exact Or.inr ⟨u, behind, by rw [hbehind, hu]⟩
  · intro hpart
    obtain hpart | hpart := hpart
    · exact List.infix_append_of_infix_left hpart
    · exact List.infix_append_of_infix_right (List.infix_cons hpart)

theorem concat_suffix_concat_iff {left right : List α} :
    left ++ [s] <:+ right ++ [s] ↔ left <:+ right := by
  rw [← List.reverse_prefix, List.reverse_concat, List.reverse_concat, List.cons_prefix_cons, and_iff_right rfl,
    List.reverse_prefix]

theorem not_infix_of_notMem (hs : s ∈ pattern) (h : s ∉ text) :
    ¬ pattern <:+: text := fun hpart => h (hpart.subset hs)

end TextSearch
