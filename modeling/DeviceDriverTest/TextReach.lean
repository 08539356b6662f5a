import Mathlib.Data.List.DropRight
import Mathlib.Data.List.TakeWhile
import DeviceDriverTest.FieldSplitting

/-! How far a text goes until a character stops it. What takes characters away, or puts one in the
place of several, does not take the stop further away. -/

namespace TextReach

open FieldSplitting

variable {α β : Type*} {p : α → Bool} {c : α}

def reach (p : α → Bool) (text : List α) : Nat := (text.takeWhile p).length

theorem reach_nil : reach p [] = 0 := rfl

theorem reach_cons_pass (hc : p c = true) (text : List α) : reach p (c :: text) = reach p text + 1 := by
  rw [reach, List.takeWhile_cons_of_pos hc, List.length_cons, reach]

theorem reach_cons_stop (hc : p c = false) (text : List α) : reach p (c :: text) = 0 := by
  rw [reach, List.takeWhile_cons_of_neg (ne_true_of_eq_false hc), List.length_nil]

theorem reach_all (text : List α) : reach (fun _ => true) text = text.length := by
  rw [reach, List.takeWhile_eq_self_iff.mpr fun _ _ => rfl]

theorem reach_le_length (p : α → Bool) (text : List α) : reach p text ≤ text.length :=
  (List.takeWhile_prefix p).length_le

theorem reach_map (p : β → Bool) (f : α → β) (text : List α) : reach p (text.map f) = reach (fun c => p (f c)) text := by
  rw [reach, List.takeWhile_map, List.length_map]
  rfl

theorem reach_append_le (p : α → Bool) (left right : List α) :
    reach p (left ++ right) ≤ left.length + reach p right := by
  induction left with
  | nil => simp
  | cons c left ih =>
    rw [List.cons_append]
    cases hc : p c with
    | true =>
      rw [reach_cons_pass hc, List.length_cons]
      omega
    | false =>
      rw [reach_cons_stop hc]
      apply Nat.zero_le

theorem reach_append_pass {left : List α} (h : ∀ c ∈ left, p c = true) (right : List α) :
    reach p (left ++ right) = left.length + reach p right := by
  rw [reach, List.takeWhile_append_of_pos h, List.length_append, reach]

theorem reach_append_stop {left : List α} (hmem : c ∈ left) (hc : p c = false) (right : List α) :
    reach p (left ++ right) = reach p left := by
  induction left with
  | nil => cases hmem
  | cons d left ih =>
    rw [List.cons_append]
    cases hd : p d with
    | true =>
      have hleft : c ∈ left := by
        obtain rfl | hleft := List.mem_cons.mp hmem
        · exact absurd hd (ne_true_of_eq_false hc)
        · exact hleft
      rw [reach_cons_pass hd, reach_cons_pass hd, ih hleft]
    | false => rw [reach_cons_stop hd, reach_cons_stop hd]

theorem pass_or_stop (p : α → Bool) (text : List α) : (∀ c ∈ text, p c = true) ∨ ∃ c ∈ text, p c = false := by
  by_cases h : ∀ c ∈ text, p c = true
  · exact Or.inl h
  · push Not at h
    simpa using Or.inr h

theorem reach_start_le {left text : List α} (h : left <+: text) : reach p left ≤ reach p text := by
  obtain ⟨right, rfl⟩ := h
  obtain hpass | ⟨c, hmem, hc⟩ := pass_or_stop p left
  · rw [reach_append_pass hpass]
    exact (reach_le_length p left).trans (Nat.le_add_right _ _)
  · rw [reach_append_stop hmem hc]

theorem reach_append_mono (p : α → Bool) (left : List α) {right right' : List α} (h : reach p right ≤ reach p right') :
    reach p (left ++ right) ≤ reach p (left ++ right') := by
  obtain hpass | ⟨c, hmem, hc⟩ := pass_or_stop p left
  · rw [reach_append_pass hpass, reach_append_pass hpass]
    omega
  · rw [reach_append_stop hmem hc, reach_append_stop hmem hc]

theorem reach_dropWhile_le {q : α → Bool} (h : ∀ c, q c = true → p c = true) (text : List α) :
    reach p (text.dropWhile q) ≤ reach p text := by
  induction text with
  | nil => rfl
  | cons c text ih =>
    cases hc : q c with
    | true =>
      rw [List.dropWhile_cons_of_pos hc, reach_cons_pass (h c hc)]
      omega
    | false => rw [List.dropWhile_cons_of_neg (ne_true_of_eq_false hc)]

theorem reach_rdropWhile_le (q : α → Bool) (text : List α) : reach p (text.rdropWhile q) ≤ reach p text :=
  reach_start_le (List.rdropWhile_prefix q text)

/-- The fields of the text, with one separator between each two of them. -/
theorem reach_respaced_le {sep : α → Bool} {s : α} (hs : p s = true) (hsep : ∀ c, sep c = true → p c = true)
    (text : List α) : reach p (List.intercalate [s] (fields sep text)) ≤ reach p text := by
  induction text using separated_induction sep with
  | hword word h =>
    by_cases hnil : word = []
    · rw [hnil, fields_nil, List.intercalate_nil]
    · rw [fields_word hnil h, List.intercalate_singleton]
  | hsplit left b right hleft hb hright =>
    have hcons : reach p right + 1 = reach p (b :: right) := (reach_cons_pass (hsep b hb) right).symm
    rw [fields_append hb]
    by_cases hnil : left = []
    · rw [hnil, fields_nil, List.nil_append, List.nil_append]
      omega
    · rw [fields_word hnil hleft, List.singleton_append]
      cases hfields : fields sep right with
      | nil =>
        rw [List.intercalate_singleton]
        exact reach_start_le (List.prefix_append left _)
      | cons field rest =>
        rw [List.intercalate_cons_cons, List.append_assoc, List.singleton_append, ← hfields]
        apply reach_append_mono
        rw [reach_cons_pass hs]
        omega

end TextReach
