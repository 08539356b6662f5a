import Mathlib.Data.Nat.Find

/-! Comparison of strings that end at a zero byte, over memory: where it stops,
what it returns there and how far it has read. -/

namespace CString

/-- The loop at position `i`: the difference that stopped it and the bytes read
of each string, `none` when the fuel does not see its end. -/
def strcmpFrom (cs ct : Nat → UInt8) (i : Nat) : Nat → Option (Int × Nat)
  | 0 => none
  | fuel + 1 =>
    if cs i ≠ ct i then some ((cs i).toNat - (ct i).toNat, i + 1)
    else if cs i = 0 then some (0, i + 1)
    else strcmpFrom cs ct (i + 1) fuel

def strcmp (cs ct : Nat → UInt8) (fuel : Nat) : Option (Int × Nat) := strcmpFrom cs ct 0 fuel

/-- The first position where the strings differ or end. -/
structure StopsAt (cs ct : Nat → UInt8) (i k : Nat) : Prop where
  le : i ≤ k
  before : ∀ j, i ≤ j → j < k → cs j = ct j ∧ cs j ≠ 0
  stop : cs k ≠ ct k ∨ cs k = 0

variable {cs ct : Nat → UInt8} {i k fuel : Nat} {r : Int} {reads : Nat}

theorem StopsAt.here (h : cs i ≠ ct i ∨ cs i = 0) : StopsAt cs ct i i :=
  ⟨Nat.le_refl i, fun _ hle hlt => absurd hlt (Nat.not_lt.mpr hle), h⟩

theorem StopsAt.later (h : StopsAt cs ct (i + 1) k) (heq : cs i = ct i) (hne : cs i ≠ 0) : StopsAt cs ct i k := by
  refine ⟨by have := h.le; omega, fun j hle hlt => ?_, h.stop⟩
  rcases Nat.eq_or_lt_of_le hle with rfl | hlt'
  · exact ⟨heq, hne⟩
  · exact h.before j hlt' hlt

theorem difference_eq_zero {a b : UInt8} : (a.toNat : Int) - b.toNat = 0 ↔ a = b := by
  rw [← UInt8.toNat_inj]
  omega

theorem strcmpFrom_some (h : strcmpFrom cs ct i fuel = some (r, reads)) :
    ∃ k, StopsAt cs ct i k ∧ reads = k + 1 ∧ (r = 0 ↔ cs k = ct k) := by
  induction fuel generalizing i with
  | zero => exact nomatch h
  | succ fuel ih =>
    unfold strcmpFrom at h
    split at h
    · next hne =>
      obtain ⟨rfl, rfl⟩ := Prod.mk.inj (Option.some.inj h)
      exact ⟨i, .here (.inl hne), rfl, difference_eq_zero⟩
    · next heq =>
      have heq : cs i = ct i := Decidable.not_not.mp heq
      split at h
      · next hzero =>
        obtain ⟨rfl, rfl⟩ := Prod.mk.inj (Option.some.inj h)
        exact ⟨i, .here (.inr hzero), rfl, by simp [heq]⟩
      · next hne =>
        obtain ⟨k, hstop, hreads, hr⟩ := ih h
        exact ⟨k, hstop.later heq hne, hreads, hr⟩

theorem strcmpFrom_stops (h : StopsAt cs ct i k) (hfuel : k < i + fuel) :
    ∃ r, strcmpFrom cs ct i fuel = some (r, k + 1) ∧ (r = 0 ↔ cs k = ct k) := by
  induction fuel generalizing i with
  | zero =>
    have hle := h.le
    omega
  | succ fuel ih =>
    unfold strcmpFrom
    rcases Nat.eq_or_lt_of_le h.le with rfl | hlt
    · by_cases hne : cs i ≠ ct i
      · rw [if_pos hne]
        exact ⟨_, rfl, difference_eq_zero⟩
      · have heq : cs i = ct i := Decidable.not_not.mp hne
        rw [if_neg hne, if_pos (h.stop.resolve_left hne)]
        exact ⟨0, rfl, by simp [heq]⟩
    · obtain ⟨heq, hne⟩ := h.before i (Nat.le_refl i) hlt
      rw [if_neg (Decidable.not_not.mpr heq), if_neg hne]
      exact ih ⟨hlt, fun j hle => h.before j (by omega), h.stop⟩ (by omega)

/-- The comparison ends within `n` bytes and tells whether all of them agree exactly where the first
difference, or a zero byte where there is none, is in front of every other zero byte. -/
theorem strcmp_decides_iff (n : Nat) :
    (∃ fuel r reads, strcmp cs ct fuel = some (r, reads) ∧ reads ≤ n ∧ (r = 0 ↔ ∀ i < n, cs i = ct i)) ↔
      (∃ d < n, cs d ≠ ct d ∧ ∀ i < d, cs i = ct i ∧ cs i ≠ 0) ∨
        ((∀ i < n, cs i = ct i) ∧ ∃ z < n, cs z = 0) := by
  constructor
  · rintro ⟨fuel, r, reads, hcmp, hreads, hverdict⟩
    obtain ⟨k, hstop, rfl, hr⟩ := strcmpFrom_some hcmp
    have hk : k < n := hreads
    by_cases heq : cs k = ct k
    · have hall := hverdict.mp (hr.mpr heq)
      exact .inr ⟨hall, k, hk, hstop.stop.resolve_left (Decidable.not_not.mpr heq)⟩
    · exact .inl ⟨k, hk, heq, fun i hi => hstop.before i (Nat.zero_le i) hi⟩
  · intro h
    obtain ⟨k, hk, hstop, hsame⟩ : ∃ k < n, StopsAt cs ct 0 k ∧ (cs k = ct k ↔ ∀ i < n, cs i = ct i) := by
      rcases h with ⟨d, hd, hne, hbefore⟩ | ⟨hall, hzero⟩
      · refine ⟨d, hd, ⟨Nat.zero_le d, fun i _ hi => hbefore i hi, .inl hne⟩, ?_⟩
        exact ⟨fun heq => absurd heq hne, fun hall => hall d hd⟩
      · have hex : ∃ z, z < n ∧ cs z = 0 := hzero
        obtain ⟨hz, hz0⟩ := Nat.find_spec hex
        refine ⟨Nat.find hex, hz, ⟨Nat.zero_le _, fun i _ hi => ?_, .inr hz0⟩, fun _ => hall, fun _ => hall _ hz⟩
        exact ⟨hall i (by omega), fun hi0 => Nat.find_min hex hi ⟨by omega, hi0⟩⟩
    obtain ⟨r, hcmp, hr⟩ := strcmpFrom_stops hstop (show k < 0 + (k + 1) by omega)
    exact ⟨k + 1, r, k + 1, hcmp, hk, hr.trans hsame⟩

end CString
