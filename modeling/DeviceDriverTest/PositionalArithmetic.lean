import Mathlib.Data.Rat.Floor
import Mathlib.Tactic.FieldSimp
import Mathlib.Tactic.Positivity
import Mathlib.Tactic.Ring

/-! Numbers with a count of digits behind the point: sums that keep all of the digits, quotients that
are cut after some of them, and the rationals they stand for. -/

namespace PositionalArithmetic

structure Number (base : Nat) where
  mantissa : Int
  scale : Nat
  deriving DecidableEq

abbrev Decimal := Number 10

namespace Number

variable {base : Nat}

def ofInt (n : Int) : Number base := ⟨n, 0⟩

/-- The mantissa with `scale` digits behind the point. -/
def rescaled (x : Number base) (scale : Nat) : Int := x.mantissa * base ^ (scale - x.scale)

def add (x y : Number base) : Number base where
  mantissa := x.rescaled (max x.scale y.scale) + y.rescaled (max x.scale y.scale)
  scale := max x.scale y.scale

def sub (x y : Number base) : Number base where
  mantissa := x.rescaled (max x.scale y.scale) - y.rescaled (max x.scale y.scale)
  scale := max x.scale y.scale

def lt (x y : Number base) : Bool :=
  decide (x.rescaled (max x.scale y.scale) < y.rescaled (max x.scale y.scale))

/-- The quotient, truncated to `scale` digits; there is none for the divisor zero. -/
def quotient (scale : Nat) (x y : Number base) : Option (Number base) :=
  if y.mantissa = 0 then none
  else some ⟨(x.rescaled (max x.scale y.scale) * base ^ scale).tdiv (y.rescaled (max x.scale y.scale)), scale⟩

/-- The product, with all of its digits. -/
def mul (x y : Number base) : Number base := ⟨x.mantissa * y.mantissa, x.scale + y.scale⟩

def pow (x : Number base) (n : Nat) : Number base := ⟨x.mantissa ^ n, x.scale * n⟩

/-- The number with `scale` digits behind the point; those that do not fit are cut off. -/
def truncated (scale : Nat) (x : Number base) : Number base :=
  ⟨(x.rescaled scale).tdiv (base ^ (x.scale - scale)), scale⟩

/-- The power with as many digits as it has, or as the number and the scale have, whichever are fewer; for an
exponent below zero the inverse of the power, which zero does not have. -/
def power (scale : Nat) (x : Number base) (exponent : Int) : Option (Number base) :=
  if exponent = 0 then some (ofInt 1)
  else if exponent < 0 then (ofInt 1).quotient scale (x.pow exponent.natAbs)
  else some ((x.pow exponent.natAbs).truncated (min (x.scale * exponent.natAbs) (max scale x.scale)))

def value (x : Number base) : ℚ := x.mantissa / base ^ x.scale

@[simp] theorem value_ofInt (n : Int) : (ofInt n : Number base).value = n := by
  simp [value, ofInt]

theorem value_mul (x y : Number base) : (x.mul y).value = x.value * y.value := by
  rw [value, value, value, mul, div_mul_div_comm, pow_add, Int.cast_mul]

theorem value_pow (x : Number base) (n : Nat) : (x.pow n).value = x.value ^ n := by
  rw [value, value, pow, div_pow, pow_mul, Int.cast_pow]

theorem floor_div {m n : Int} (hm : 0 ≤ m) (hn : 0 < n) : ⌊(m : ℚ) / n⌋ = m.tdiv n := by
  obtain ⟨d, rfl⟩ := Int.eq_ofNat_of_zero_le hn.le
  rw [Int.cast_natCast, Rat.floor_intCast_div_natCast, Int.tdiv_eq_ediv_of_nonneg hm]

variable [NeZero base]

theorem base_pow_pos (n : Nat) : (0 : ℚ) < base ^ n := pow_pos (Nat.cast_pos.mpr (NeZero.pos base)) n

theorem rescaled_eq (x : Number base) {scale : Nat} (h : x.scale ≤ scale) :
    (x.rescaled scale : ℚ) = x.value * base ^ scale := by
  have hpow := @base_pow_pos base _ x.scale
  have hscale : (base : ℚ) ^ scale = base ^ (scale - x.scale) * base ^ x.scale := by
    rw [← pow_add, Nat.sub_add_cancel h]
  rw [rescaled, value, hscale]
  push_cast
  field_simp

theorem value_mk (m : Int) (scale : Nat) (x : ℚ) (h : (m : ℚ) = x * base ^ scale) :
    (⟨m, scale⟩ : Number base).value = x := by
  rw [value, h, mul_div_assoc, div_self (base_pow_pos scale).ne', mul_one]

theorem value_add (x y : Number base) : (x.add y).value = x.value + y.value := by
  apply value_mk
  rw [Int.cast_add, rescaled_eq x (le_max_left _ _), rescaled_eq y (le_max_right _ _), add_mul]

theorem value_sub (x y : Number base) : (x.sub y).value = x.value - y.value := by
  apply value_mk
  rw [Int.cast_sub, rescaled_eq x (le_max_left _ _), rescaled_eq y (le_max_right _ _), sub_mul]

theorem lt_iff (x y : Number base) : x.lt y = true ↔ x.value < y.value := by
  rw [lt, decide_eq_true_iff, ← Int.cast_lt (R := ℚ), rescaled_eq x (le_max_left _ _), rescaled_eq y (le_max_right _ _)]
  exact mul_lt_mul_iff_left₀ (base_pow_pos _)

theorem quotient_eq_floor (scale : Nat) {x y : Number base} (hx : 0 ≤ x.value) (hy : 0 < y.value) :
    ∃ q, x.quotient scale y = some q ∧ q.value = ⌊x.value / y.value * base ^ scale⌋ / base ^ scale := by
  have hne : y.mantissa ≠ 0 := by
    intro h
    rw [value, h, Int.cast_zero, zero_div] at hy
    exact lt_irrefl _ hy
  refine ⟨_, if_neg hne, ?_⟩
  have hleft := rescaled_eq x (le_max_left x.scale y.scale)
  have hright := rescaled_eq y (le_max_right x.scale y.scale)
  generalize max x.scale y.scale = common at hleft hright ⊢
  have hcommon := @base_pow_pos base _ common
  have hscale := @base_pow_pos base _ scale
  have hdividend : ((x.rescaled common * base ^ scale : Int) : ℚ) = x.value * base ^ common * base ^ scale := by
    rw [Int.cast_mul, hleft]
    push_cast
    rfl
  have hnonneg : 0 ≤ x.rescaled common * base ^ scale := by
    rw [← Int.cast_nonneg_iff (R := ℚ), hdividend]
    positivity
  have hpos : 0 < y.rescaled common := by
    rw [← Int.cast_pos (R := ℚ), hright]
    positivity
  rw [value, ← floor_div hnonneg hpos, hdividend, hright]
  congr 3
  field_simp

/-- What is left of a quotient is less than the divisor in its last place, and has the sign of the dividend. -/
theorem quotient_rest {scale : Nat} {x y q : Number base} (h : x.quotient scale y = some q) :
    q.scale = scale ∧ |x.value - q.value * y.value| < |y.value| / base ^ scale ∧
      (0 ≤ x.value → 0 ≤ x.value - q.value * y.value) ∧ (x.value ≤ 0 → x.value - q.value * y.value ≤ 0) := by
  rw [quotient, Option.ite_none_left_eq_some, Option.some.injEq] at h
  obtain ⟨hne, rfl⟩ := h
  have hleft := rescaled_eq x (le_max_left x.scale y.scale)
  have hright := rescaled_eq y (le_max_right x.scale y.scale)
  generalize max x.scale y.scale = common at hleft hright ⊢
  have hcommon := @base_pow_pos base _ common
  have hscale := @base_pow_pos base _ scale
  set a := x.rescaled common * base ^ scale with ha
  set b := y.rescaled common with hb
  have hdividend : (a : ℚ) = x.value * base ^ common * base ^ scale := by
    rw [ha, Int.cast_mul, hleft]
    push_cast
    rfl
  have hyne : y.value ≠ 0 := div_ne_zero (Int.cast_ne_zero.mpr hne) (base_pow_pos y.scale).ne'
  have hbne : b ≠ 0 := by
    rw [← Int.cast_ne_zero (α := ℚ), hright]
    exact mul_ne_zero hyne hcommon.ne'
  -- the rest of the whole numbers, and the rest of the rationals
  have hrest : x.value - (⟨a.tdiv b, scale⟩ : Number base).value * y.value =
      (a.tmod b : ℚ) / (base ^ common * base ^ scale) := by
    have hmod : (a : ℚ) = b * a.tdiv b + a.tmod b := by exact_mod_cast (Int.mul_tdiv_add_tmod a b).symm
    rw [hdividend, hright] at hmod
    have hq : (⟨a.tdiv b, scale⟩ : Number base).value = a.tdiv b / base ^ scale := rfl
    rw [hq, eq_div_iff (mul_pos hcommon hscale).ne', sub_mul, ← mul_assoc, hmod]
    field_simp
    ring
  refine ⟨rfl, ?_, ?_, ?_⟩
  · rw [hrest, abs_div, abs_of_pos (mul_pos hcommon hscale), ← div_div]
    refine div_lt_div_of_pos_right ?_ hscale
    have hlt : |(a.tmod b : ℚ)| < |(b : ℚ)| := by
      rw [← Int.cast_abs, ← Int.cast_abs, Int.cast_lt, Int.abs_eq_natAbs, Int.abs_eq_natAbs, Int.natAbs_tmod, Int.ofNat_lt]
      exact Nat.mod_lt _ (Int.natAbs_pos.mpr hbne)
    rw [hright, abs_mul, abs_of_pos hcommon] at hlt
    exact (div_lt_iff₀ hcommon).mpr hlt
  · intro hx
    have hpos : 0 ≤ a := by
      rw [← Int.cast_nonneg_iff (R := ℚ), hdividend]
      positivity
    rw [hrest]
    exact div_nonneg (Int.cast_nonneg (Int.tmod_nonneg b hpos)) (by positivity)
  · intro hx
    have hneg : a ≤ 0 := by
      rw [← Int.cast_nonpos (R := ℚ), hdividend, mul_assoc]
      exact mul_nonpos_of_nonpos_of_nonneg hx (by positivity)
    rw [hrest]
    have hmod := Int.tmod_nonneg b (neg_nonneg.mpr hneg)
    rw [Int.neg_tmod, neg_nonneg] at hmod
    exact div_nonpos_of_nonpos_of_nonneg (Int.cast_nonpos.mpr hmod) (by positivity)

end Number

end PositionalArithmetic
