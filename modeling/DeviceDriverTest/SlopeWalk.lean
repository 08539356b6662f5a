import Mathlib.Algebra.Order.Ring.Int

/-! A walk of `major` steps that rises `minor` times on its way: an error term decides
after each step whether the walk rises. -/

namespace SlopeWalk

structure Walk where
  error : Int
  risen : Nat

def walk (minor major half : Int) : Nat → Walk
  | 0 => ⟨0, 0⟩
  | k + 1 =>
    let w := walk minor major half k
    if w.error + minor > half then ⟨w.error + minor - major, w.risen + 1⟩ else ⟨w.error + minor, w.risen⟩

variable {minor major half : Int}

theorem walk_succ_rise {k : Nat} (h : (walk minor major half k).error + minor > half) :
    walk minor major half (k + 1) =
      ⟨(walk minor major half k).error + minor - major, (walk minor major half k).risen + 1⟩ := if_pos h

theorem walk_succ_level {k : Nat} (h : ¬ (walk minor major half k).error + minor > half) :
    walk minor major half (k + 1) = ⟨(walk minor major half k).error + minor, (walk minor major half k).risen⟩ :=
  if_neg h

theorem walk_error (k : Nat) :
    (walk minor major half k).error = k * minor - (walk minor major half k).risen * major := by
  induction k with
  | zero => simp [walk]
  | succ k ih =>
    have hnext : ((k + 1 : Nat) : Int) * minor = k * minor + minor := by
      rw [Nat.cast_succ, Int.add_mul, Int.one_mul]
    by_cases h : (walk minor major half k).error + minor > half
    · have hrise : (((walk minor major half k).risen + 1 : Nat) : Int) * major =
          (walk minor major half k).risen * major + major := by rw [Nat.cast_succ, Int.add_mul, Int.one_mul]
      rw [walk_succ_rise h]
      dsimp only
      rw [hnext, hrise, ih]
      omega
    · rw [walk_succ_level h]
      dsimp only
      rw [hnext, ih]
      omega

theorem walk_bounds (hminor : 0 ≤ minor ∧ minor ≤ major) (hhalf : 0 ≤ half ∧ half < major) (k : Nat) :
    half - major < (walk minor major half k).error ∧ (walk minor major half k).error ≤ half := by
  induction k with
  | zero =>
    show half - major < 0 ∧ (0 : Int) ≤ half
    omega
  | succ k ih =>
    by_cases h : (walk minor major half k).error + minor > half
    · rw [walk_succ_rise h]
      exact ⟨by dsimp only; omega, by dsimp only; omega⟩
    · rw [walk_succ_level h]
      exact ⟨by dsimp only; omega, by dsimp only; omega⟩

theorem risen_succ (minor major half : Int) (k : Nat) :
    (walk minor major half (k + 1)).risen = (walk minor major half k).risen ∨
      (walk minor major half (k + 1)).risen = (walk minor major half k).risen + 1 := by
  by_cases h : (walk minor major half k).error + minor > half
  · rw [walk_succ_rise h]
    exact Or.inr rfl
  · rw [walk_succ_level h]
    exact Or.inl rfl

/-- Within its steps the walk has not risen too often. -/
theorem risen_le (hminor : 0 ≤ minor ∧ minor ≤ major) (hhalf : 0 ≤ half ∧ half < major) {k : Nat}
    (hk : (k : Int) ≤ major) :
    ((walk minor major half k).risen : Int) ≤ minor := by
  have hlow := (walk_bounds hminor hhalf k).1
  rw [walk_error] at hlow
  have hsteps : (k : Int) * minor ≤ major * minor := Int.mul_le_mul_of_nonneg_right hk hminor.1
  have hlt : ((walk minor major half k).risen : Int) * major < (minor + 1) * major :=
    calc ((walk minor major half k).risen : Int) * major < k * minor + major := by omega
      _ ≤ major * minor + major := Int.add_le_add_right hsteps major
      _ = (minor + 1) * major := by rw [Int.add_mul, Int.one_mul, Int.mul_comm]
  exact Int.lt_add_one_iff.mp (lt_of_mul_lt_mul_right hlt (by omega))

/-- The walk ends where it should. -/
theorem risen_end (hminor : 0 ≤ minor ∧ minor ≤ major) (hhalf : 0 ≤ half ∧ half < major) {k : Nat}
    (hk : (k : Int) = major) :
    ((walk minor major half k).risen : Int) = minor := by
  refine Int.le_antisymm (risen_le hminor hhalf (Int.le_of_eq hk)) ?_
  have hhigh := (walk_bounds hminor hhalf k).2
  rw [walk_error, hk] at hhigh
  have hlt : minor * major < ((walk minor major half k).risen + 1) * major :=
    calc minor * major = major * minor := Int.mul_comm _ _
      _ < (walk minor major half k).risen * major + major := by omega
      _ = ((walk minor major half k).risen + 1) * major := by rw [Int.add_mul, Int.one_mul]
  exact Int.lt_add_one_iff.mp (lt_of_mul_lt_mul_right hlt (by omega))

end SlopeWalk
