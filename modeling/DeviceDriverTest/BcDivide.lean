import DeviceDriverTest.BcMultiply
import DeviceDriverTest.SchoolbookDivision
import Mathlib.Tactic.IntervalCases

/-! The quotient of two numbers of `bc`, by long division, with the scale that is asked for, and what is left. -/

namespace DeviceDriverTest

namespace BcNumber

open DigitRows PositionalArithmetic SchoolbookDivision

open Nat (ofDigits)

/-- The digits of the multiple, and the carry for the place before them. A factor of zero clears the digits
and a factor of one copies them, which comes to the same. -/
def oneMult (num : List Nat) (digit : Nat) : List Nat × Nat :=
  let columns := (carryColumns BASE 0 (num.reverse.map (· * digit))).reverse
  (columns.tail, columns.headD 0)

/-- The scale without the zeros at the end of the fraction. -/
def significantScale : Nat → List Nat → Nat
  | scale + 1, 0 :: ds => significantScale scale ds
  | scale, _ => scale

/-- The digits of the quotient. The array of the dividend starts with a zero and ends with one. -/
def quotientDigits (n1 : BcStruct) (divisor : List Nat) (len1 extra scale : Nat) : List Nat :=
  let norm := 10 / (divisor.headD 0 + 1)
  let num1 := 0 :: n1.nValue ++ List.replicate extra 0
  let num1 := if norm ≠ 1 then (oneMult num1 norm).1 else num1
  let n2ptr := if norm ≠ 1 then (oneMult divisor norm).1 else divisor
  divideLoop BASE n2ptr (len1 + scale - divisor.length + 1) (num1 ++ [0])

/-- Nothing for the divisor zero. What is stored first for the divisor one is stored over at the end. -/
def bcDivide (n1 n2 : BcStruct) (scale : Nat) : Option BcStruct :=
  if bcIsZero n2 then none
  else
    let scale2 := significantScale n2.nScale n2.row
    let len1 := n1.nLen + scale2
    let extra := scale + scale2 - n1.nScale
    let divisor := (n2.nValue.take (n2.nLen + scale2)).dropWhile (· = 0)
    let len2 := divisor.length
    let qdigits := if len2 > len1 + scale then scale + 1 else if len2 > len1 then scale + 1 else len1 - len2 + scale + 1
    let digits :=
      if len2 > len1 + scale then List.replicate qdigits 0
      else List.replicate (len2 - len1) 0 ++ quotientDigits n1 divisor len1 extra scale
    let qval : BcStruct :=
      { nSign := signOf n1 n2
        nLen := qdigits - scale
        nScale := scale
        nValue := digits }
    some (rmLeadingZeros (if bcIsZero qval then { qval with nSign := .PLUS } else qval))

/-- The quotient and what is left of the dividend; the scale of the rest is that of the larger one. -/
def bcDivmod (num1 num2 : BcStruct) (scale : Nat) : Option (BcStruct × BcStruct) :=
  if bcIsZero num2 then none
  else do
    let rscale := max num1.nScale (num2.nScale + scale)
    let quotient ← bcDivide num1 num2 scale
    let temp ← bcMultiply quotient num2 rscale
    some (quotient, bcSub num1 temp rscale)

def bcModulo (num1 num2 : BcStruct) (scale : Nat) : Option BcStruct := (bcDivmod num1 num2 scale).map Prod.snd

variable {n1 n2 num : BcStruct} {scale : Nat} {ds : List Nat}

/-! The divisor. -/

theorem significantScale_spec (scale : Nat) (ds : List Nat) :
    ∃ k, scale = significantScale scale ds + k ∧ ds = List.replicate k 0 ++ ds.drop k := by
  fun_induction significantScale scale ds with
  | case1 scale ds ih =>
    obtain ⟨k, hscale, hds⟩ := ih
    refine ⟨k + 1, by omega, ?_⟩
    rw [List.drop_succ_cons, List.replicate_succ, List.cons_append, ← hds]
  | case2 scale ds => exact ⟨0, rfl, rfl⟩

/-- Without the zeros at the end of the fraction the divisor keeps its value at the smaller scale. -/
theorem magnitude_significant (h : num.Wf) : ∃ k, num.nScale = significantScale num.nScale num.row + k ∧
    num.magnitude = value BASE (num.nValue.take (num.nLen + significantScale num.nScale num.row)) * BASE ^ k := by
  obtain ⟨k, hscale, hrow⟩ := significantScale_spec num.nScale num.row
  refine ⟨k, hscale, ?_⟩
  have hsize := h.size
  have hkept : (num.nValue.take (num.nLen + significantScale num.nScale num.row)).reverse = num.row.drop k := by
    rw [List.reverse_take, show num.nValue.length - (num.nLen + significantScale num.nScale num.row) = k by omega]
    rfl
  have hmag : num.magnitude = ofDigits BASE (List.replicate k 0 ++ num.row.drop k) := congrArg (ofDigits BASE) hrow
  rw [hmag, Nat.ofDigits_append, Nat.ofDigits_replicate_zero, zero_add, List.length_replicate, value, hkept, Nat.mul_comm]

theorem value_replicate (k : Nat) : value BASE (List.replicate k 0) = 0 := by
  rw [value, List.reverse_replicate, Nat.ofDigits_replicate_zero]

theorem value_dropWhile (ds : List Nat) : value BASE (ds.dropWhile (· = 0)) = value BASE ds := by
  induction ds with
  | nil => rfl
  | cons d ds ih =>
    rw [List.dropWhile_cons]
    split
    case isTrue hd => rw [ih, value_cons, of_decide_eq_true hd, zero_mul, zero_add]
    case isFalse => rfl

theorem headD_dropWhile (h : value BASE ds ≠ 0) : (ds.dropWhile (· = 0)).headD 0 ≠ 0 ∧ ds.dropWhile (· = 0) ≠ [] := by
  have hne : ds.dropWhile (· = 0) ≠ [] := by
    intro hnil
    rw [← value_dropWhile, hnil] at h
    exact h rfl
  obtain ⟨d, rest, hcons⟩ := List.exists_cons_of_ne_nil hne
  have hhead := List.head_dropWhile_not (fun d => decide (d = 0)) hne
  simp only [hcons, List.head_cons, decide_eq_false_iff_not] at hhead
  rw [hcons]
  exact ⟨hhead, List.cons_ne_nil d rest⟩

theorem isRow_dropWhile (h : IsRow BASE ds) : IsRow BASE (ds.dropWhile (· = 0)) :=
  fun d hd => h d ((List.dropWhile_sublist _).mem hd)

/-! The multiple. -/

theorem value_reverse (ds : List Nat) : value BASE ds.reverse = ofDigits BASE ds := by rw [value, List.reverse_reverse]

/-- Where the multiple has no more digits there is no carry. -/
theorem oneMult_spec {factor : Nat} (h : value BASE ds * factor < BASE ^ ds.length) :
    (oneMult ds factor).1.length = ds.length ∧ IsRow BASE (oneMult ds factor).1 ∧
      value BASE (oneMult ds factor).1 = value BASE ds * factor := by
  have hlen := @length_carryColumns BASE 0 (ds.reverse.map (· * factor))
  have hvalue := @ofDigits_carryColumns BASE 0 (ds.reverse.map (· * factor))
  have hrow : IsRow BASE (carryColumns BASE 0 (ds.reverse.map (· * factor))) := by
    apply isRow_carryColumns base_pos
    rw [ofDigits_map_mul, add_zero, List.length_map, List.length_reverse, pow_succ]
    exact h.trans_le (Nat.le_mul_of_pos_right _ base_pos)
  rw [List.length_map, List.length_reverse] at hlen
  rw [ofDigits_map_mul, add_zero, ← value] at hvalue
  unfold oneMult
  generalize carryColumns BASE 0 (ds.reverse.map (· * factor)) = row at hlen hvalue hrow ⊢
  have hcons : row.reverse.length = ds.length + 1 := by rw [List.length_reverse, hlen]
  have hrow' := isRow_reverse.mpr hrow
  rw [← value_reverse] at hvalue
  obtain ⟨d, rest, hd⟩ := List.exists_cons_of_length_eq_add_one hcons
  rw [hd, isRow_cons] at hrow'
  rw [hd, value_cons] at hvalue
  rw [hd, List.length_cons, Nat.add_right_cancel_iff] at hcons
  -- a carry would be too large
  have hzero : d = 0 := by
    by_contra hne
    have hscaled := Nat.le_mul_of_pos_left (BASE ^ rest.length) (Nat.pos_of_ne_zero hne)
    rw [hcons] at hscaled hvalue
    omega
  rw [hzero, zero_mul, zero_add] at hvalue
  simp only [hd, List.tail_cons]
  exact ⟨hcons, hrow'.2, hvalue⟩

/-- Nothing is multiplied by a factor of one. -/
theorem normalize_spec {factor : Nat} (hds : IsRow BASE ds) (h : value BASE ds * factor < BASE ^ ds.length) :
    (if factor ≠ 1 then (oneMult ds factor).1 else ds).length = ds.length ∧
      IsRow BASE (if factor ≠ 1 then (oneMult ds factor).1 else ds) ∧
      value BASE (if factor ≠ 1 then (oneMult ds factor).1 else ds) = value BASE ds * factor := by
  split
  case isTrue => exact oneMult_spec h
  case isFalse hone =>
    rw [not_not.mp hone, mul_one]
    exact ⟨rfl, hds, rfl⟩

/-- The factor makes the first digit of the divisor at least half of the base. -/
theorem normalized {d : Nat} (hd : d < BASE) (hpos : 0 < d) :
    5 ≤ d * (10 / (d + 1)) ∧ (d + 1) * (10 / (d + 1)) ≤ BASE ∧ 0 < 10 / (d + 1) := by
  unfold BASE at *
  interval_cases d <;> decide

/-- A number with a first digit that is not zero, and the factor for that digit. -/
theorem value_mul_norm {d : Nat} (hrow : IsRow BASE (d :: ds)) (hpos : 0 < d) :
    5 * BASE ^ ds.length ≤ value BASE (d :: ds) * (10 / (d + 1)) ∧
      value BASE (d :: ds) * (10 / (d + 1)) < BASE ^ (d :: ds).length := by
  rw [isRow_cons] at hrow
  obtain ⟨hlow, hhigh, hnorm⟩ := normalized hrow.1 hpos
  have hlt := value_lt one_lt_base hrow.2
  generalize 10 / (d + 1) = norm at hlow hhigh hnorm ⊢
  rw [value_cons, List.length_cons, pow_succ']
  constructor
  · calc 5 * BASE ^ ds.length ≤ d * norm * BASE ^ ds.length := Nat.mul_le_mul_right _ hlow
      _ = d * BASE ^ ds.length * norm := by ring
      _ ≤ (d * BASE ^ ds.length + value BASE ds) * norm := Nat.mul_le_mul_right _ (Nat.le_add_right _ _)
  · calc (d * BASE ^ ds.length + value BASE ds) * norm < (d * BASE ^ ds.length + BASE ^ ds.length) * norm :=
        Nat.mul_lt_mul_of_pos_right (by omega) hnorm
      _ = (d + 1) * norm * BASE ^ ds.length := by ring
      _ ≤ BASE * BASE ^ ds.length := Nat.mul_le_mul_right _ hhigh

/-- A first digit below five would make the number too small. -/
theorem half_of_value {n : Nat} (hrow : IsRow BASE ds) (hlen : ds.length = n + 1) (h : 5 * BASE ^ n ≤ value BASE ds) :
    BASE ≤ 2 * ds.getD 0 0 + 1 := by
  obtain ⟨d, rest, rfl⟩ := List.exists_cons_of_length_eq_add_one hlen
  rw [List.length_cons, Nat.add_right_cancel_iff] at hlen
  rw [isRow_cons] at hrow
  have hlt := value_lt one_lt_base hrow.2
  rw [hlen] at hlt
  rw [value_cons, hlen] at h
  rw [List.getD_cons_zero]
  by_contra hsmall
  have hd : d + 1 ≤ 5 := by
    have hbase : BASE = 10 := rfl
    omega
  have hscaled := Nat.mul_le_mul_right (BASE ^ n) hd
  rw [Nat.succ_mul] at hscaled
  omega

/-- What the first digits of a longer number stand for. -/
theorem value_take {len k : Nat} (hrow : IsRow BASE ds) (h : ds.length = len + k) :
    value BASE (ds.take len) = value BASE ds / BASE ^ k := ofDigits_reverse_take hrow h

/-! The digits of the quotient. -/

theorem quotientDigits_spec {divisor : List Nat} {len1 extra e : Nat} (h1 : n1.Wf) (hdivisor : IsRow BASE divisor)
    (hhead : 0 < divisor.headD 0) (hlen : divisor.length ≤ len1 + scale)
    (hwidth : n1.nLen + n1.nScale + extra = len1 + scale + e) :
    (quotientDigits n1 divisor len1 extra scale).length = len1 + scale - divisor.length + 1 ∧
      IsRow BASE (quotientDigits n1 divisor len1 extra scale) ∧
      value BASE (quotientDigits n1 divisor len1 extra scale) =
        n1.magnitude * BASE ^ extra / (BASE ^ e * value BASE divisor) := by
  cases divisor with
  | nil => exact absurd hhead (Nat.lt_irrefl 0)
  | cons d ds =>
    rw [List.headD_cons] at hhead
    have hnorm := normalized (isRow_cons.mp hdivisor).1 hhead
    obtain ⟨hlow, hhigh⟩ := value_mul_norm hdivisor hhead
    unfold quotientDigits
    dsimp only
    rw [List.headD_cons]
    generalize 10 / (d + 1) = norm at hnorm hlow hhigh ⊢
    obtain ⟨hvlen, hvrow, hvvalue⟩ := normalize_spec hdivisor hhigh
    -- the dividend has a zero in front, which takes the carry
    have hnum1row : IsRow BASE (0 :: n1.nValue ++ List.replicate extra 0) :=
      isRow_append.mpr ⟨isRow_cons.mpr ⟨base_pos, h1.digits⟩, isRow_replicate base_pos extra⟩
    have hnum1len : (0 :: n1.nValue ++ List.replicate extra 0).length = len1 + scale + e + 1 := by
      rw [List.length_append, List.length_cons, List.length_replicate, h1.size]
      omega
    have hnum1value : value BASE (0 :: n1.nValue ++ List.replicate extra 0) = n1.magnitude * BASE ^ extra := by
      rw [value_append, List.length_replicate, value_cons, zero_mul, zero_add, value_replicate, add_zero]
      rfl
    have hmaglt : n1.magnitude * BASE ^ extra < BASE ^ (len1 + scale + e) := by
      rw [← hwidth, pow_add]
      exact Nat.mul_lt_mul_of_pos_right h1.magnitude_lt (Nat.pow_pos base_pos)
    have hfive : norm ≤ 5 := by
      have htwo : 2 * norm ≤ (d + 1) * norm := Nat.mul_le_mul_right norm (by omega)
      have hbase : BASE = 10 := rfl
      omega
    have hscaled : n1.magnitude * BASE ^ extra * norm < 5 * BASE ^ (len1 + scale + e) := by
      rw [Nat.mul_comm 5]
      exact Nat.mul_lt_mul_of_lt_of_le hmaglt hfive (by decide)
    obtain ⟨hulen, hurow, huvalue⟩ := @normalize_spec _ norm hnum1row (by
      rw [hnum1value, hnum1len, pow_succ, Nat.mul_comm (BASE ^ _)]
      exact hscaled.trans_le (Nat.mul_le_mul_right _ (by decide)))
    rw [hnum1value] at huvalue
    rw [hnum1len] at hulen
    generalize (if norm ≠ 1 then (oneMult (d :: ds) norm).1 else d :: ds) = v at hvlen hvrow hvvalue ⊢
    generalize (if norm ≠ 1 then (oneMult (0 :: n1.nValue ++ List.replicate extra 0) norm).1
      else 0 :: n1.nValue ++ List.replicate extra 0) = num1 at hulen hurow huvalue ⊢
    rw [← hvvalue] at hlow
    rw [List.length_cons] at hvlen hlen ⊢
    have htake : ∀ n, n ≤ len1 + scale + e + 1 →
        value BASE ((num1 ++ [0]).take n) = n1.magnitude * BASE ^ extra * norm / BASE ^ (len1 + scale + e + 1 - n) := by
      intro n hn
      rw [List.take_append_of_le_length (by omega), @value_take _ n (len1 + scale + e + 1 - n) hurow (by omega), huvalue]
    obtain ⟨hdigits, hquotient⟩ := @divideLoop_spec BASE v (num1 ++ [0]) one_lt_base hvrow
      (fun hnil => by rw [hnil] at hvlen; exact absurd hvlen nofun) (half_of_value hvrow hvlen hlow)
      (len1 + scale - (ds.length + 1) + 1) (isRow_append.mpr ⟨hurow, isRow_cons.mpr ⟨base_pos, isRow_nil⟩⟩)
      (by rw [List.length_append, hulen, List.length_singleton]; omega) (by
        rw [hvlen, htake _ (by omega)]
        refine lt_of_lt_of_le ?_ hlow
        rw [Nat.div_lt_iff_lt_mul (Nat.pow_pos base_pos), mul_assoc 5, ← pow_add]
        exact hscaled.trans_le (Nat.mul_le_mul_left 5 (Nat.pow_le_pow_right base_pos (by omega))))
    refine ⟨length_divideLoop _ _ _, hdigits, ?_⟩
    rw [hquotient, hvlen, htake _ (by omega), hvvalue, Nat.div_div_eq_div_mul, ← mul_assoc,
      Nat.mul_div_mul_right _ _ hnorm.2.2]
    congr 3
    omega

/-! The quotient. -/

/-- Two fractions with the same powers of the base are the same. -/
theorem div_pow_eq {a c p q p' q' : Nat} (h : p + q' = p' + q) :
    a * BASE ^ p / (BASE ^ q * c) = a * BASE ^ p' / (BASE ^ q' * c) := by
  have hpos : ∀ k, 0 < BASE ^ k := fun k => Nat.pow_pos base_pos
  rw [← Nat.mul_div_mul_right (a * BASE ^ p) _ (hpos q'), ← Nat.mul_div_mul_right (a * BASE ^ p') _ (hpos q)]
  congr 1
  · rw [mul_assoc, ← pow_add, h, pow_add, mul_assoc]
  · ring

/-- The quotient of the magnitudes, rounded down at the scale that is asked for. -/
def quotientMagnitude (n1 n2 : BcStruct) (scale : Nat) : Nat :=
  n1.magnitude * BASE ^ (n2.nScale - n1.nScale + scale) / (n2.magnitude * BASE ^ (n1.nScale - n2.nScale))

theorem bcDivide_digits (h1 : n1.Wf) (h2 : n2.Wf) (hzero : n2.magnitude ≠ 0) (scale : Nat) :
    ∃ qlen digits, bcDivide n1 n2 scale = some (rmLeadingZeros
        (if bcIsZero ⟨signOf n1 n2, qlen, scale, digits⟩ then ⟨.PLUS, qlen, scale, digits⟩
          else ⟨signOf n1 n2, qlen, scale, digits⟩)) ∧
      0 < qlen ∧ digits.length = qlen + scale ∧ IsRow BASE digits ∧ value BASE digits = quotientMagnitude n1 n2 scale := by
  obtain ⟨k, hscale, hmag⟩ := magnitude_significant h2
  unfold bcDivide
  rw [if_neg (by rw [bcIsZero_iff h2]; exact hzero)]
  dsimp only
  generalize significantScale n2.nScale n2.row = scale2 at hscale hmag ⊢
  have hkept : value BASE (n2.nValue.take (n2.nLen + scale2)) ≠ 0 := by
    intro h
    rw [h, zero_mul] at hmag
    exact hzero hmag
  obtain ⟨hhead, hne⟩ := headD_dropWhile hkept
  rw [← value_dropWhile] at hmag
  have hrow : IsRow BASE ((n2.nValue.take (n2.nLen + scale2)).dropWhile (· = 0)) := isRow_dropWhile (h2.digits.take _)
  generalize (n2.nValue.take (n2.nLen + scale2)).dropWhile (· = 0) = divisor at hhead hne hmag hrow ⊢
  have hlen2 : 0 < divisor.length := List.length_pos_iff.mpr hne
  -- the zeros that are added, and the digits that are left over, even out
  have hwidth : n1.nLen + n1.nScale + (scale + scale2 - n1.nScale) =
      n1.nLen + scale2 + scale + (n1.nScale - (scale + scale2)) := by omega
  have hvalue : n1.magnitude * BASE ^ (scale + scale2 - n1.nScale) /
      (BASE ^ (n1.nScale - (scale + scale2)) * value BASE divisor) = quotientMagnitude n1 n2 scale := by
    rw [quotientMagnitude, hmag, mul_assoc, ← pow_add, Nat.mul_comm (value BASE divisor)]
    exact div_pow_eq (by omega)
  split
  case isTrue hlong =>
    refine ⟨_, _, rfl, by omega, ?_, isRow_replicate base_pos _, ?_⟩
    · rw [List.length_replicate]
      omega
    · rw [value_replicate, ← hvalue, eq_comm, Nat.div_eq_zero_iff]
      right
      obtain ⟨d, ds, rfl⟩ := List.exists_cons_of_ne_nil hne
      rw [List.headD_cons] at hhead
      rw [List.length_cons] at hlong
      calc n1.magnitude * BASE ^ (scale + scale2 - n1.nScale)
          < BASE ^ (n1.nLen + n1.nScale) * BASE ^ (scale + scale2 - n1.nScale) :=
            Nat.mul_lt_mul_of_pos_right h1.magnitude_lt (Nat.pow_pos base_pos)
        _ = BASE ^ (n1.nScale - (scale + scale2)) * BASE ^ (n1.nLen + scale2 + scale) := by
            rw [← pow_add, ← pow_add, hwidth, Nat.add_comm]
        _ ≤ BASE ^ (n1.nScale - (scale + scale2)) * value BASE (d :: ds) := by
            refine Nat.mul_le_mul_left _ ((Nat.pow_le_pow_right base_pos (show _ ≤ ds.length by omega)).trans ?_)
            rw [value_cons]
            exact (Nat.le_mul_of_pos_left _ (Nat.pos_of_ne_zero hhead)).trans (Nat.le_add_right _ _)
  case isFalse hshort =>
    obtain ⟨hlength, hdigits, hquotient⟩ := quotientDigits_spec h1 hrow (Nat.pos_of_ne_zero hhead) (not_lt.mp hshort) hwidth
    refine ⟨_, _, rfl, ?_, ?_, isRow_append.mpr ⟨isRow_replicate base_pos _, hdigits⟩, ?_⟩
    · split <;> omega
    · rw [List.length_append, List.length_replicate, hlength]
      split <;> omega
    · rw [value_append, value_replicate, zero_mul, zero_add, hquotient, hvalue]

/-- A quotient, after a zero has lost its sign and the leading zeros are gone. -/
theorem stands_quotient {sign : Sign} {qlen : Nat} {digits : List Nat} (hpos : 0 < qlen) (hlen : digits.length = qlen + scale)
    (hrow : IsRow BASE digits) :
    let result := rmLeadingZeros
      (if bcIsZero ⟨sign, qlen, scale, digits⟩ then ⟨.PLUS, qlen, scale, digits⟩ else ⟨sign, qlen, scale, digits⟩)
    Stands result scale (if sign = .PLUS then (value BASE digits : Int) else -value BASE digits) ∧ Unsigned result := by
  have hwf : ∀ sign, (rmLeadingZeros ⟨sign, qlen, scale, digits⟩).Wf := fun _ =>
    wf_rmLeadingZeros hlen hrow fun h => absurd h hpos.ne'
  have hmag : ∀ sign, (rmLeadingZeros ⟨sign, qlen, scale, digits⟩).magnitude = value BASE digits := fun _ =>
    magnitude_rmLeadingZeros _
  have hzero : bcIsZero ⟨sign, qlen, scale, digits⟩ = true ↔ value BASE digits = 0 := bcIsZero_iff_of_size hlen
  intro result
  by_cases h : value BASE digits = 0
  · have hresult : result = rmLeadingZeros ⟨.PLUS, qlen, scale, digits⟩ := by simp only [result, if_pos (hzero.mpr h)]
    rw [hresult]
    refine ⟨⟨hwf _, nLen_rmLeadingZeros_pos hpos, rfl, ?_⟩, fun _ => rfl⟩
    rw [signed_of_pos rfl, hmag, h]
    split <;> rfl
  · have hresult : result = rmLeadingZeros ⟨sign, qlen, scale, digits⟩ := by
      simp only [result, if_neg (mt hzero.mp h)]
    rw [hresult]
    refine ⟨⟨hwf _, nLen_rmLeadingZeros_pos hpos, rfl, ?_⟩, fun hmagzero => absurd ((hmag sign).symm.trans hmagzero) h⟩
    rw [signed_eq, hmag]
    rfl

theorem signed_tdiv (n1 n2 : BcStruct) (p q : Nat) : (n1.signed * p).tdiv (n2.signed * q) =
    if signOf n1 n2 = .PLUS then ((n1.magnitude * p / (n2.magnitude * q) : Nat) : Int)
    else -((n1.magnitude * p / (n2.magnitude * q) : Nat) : Int) := by
  have hdiv : ((n1.magnitude * p / (n2.magnitude * q) : Nat) : Int) =
      ((n1.magnitude : Int) * p).tdiv ((n2.magnitude : Int) * q) := by
    rw [Int.ofNat_tdiv, Nat.cast_mul, Nat.cast_mul]
  rw [hdiv, signed_eq, signed_eq, signOf]
  cases n1.nSign <;> cases n2.nSign <;> simp [Int.neg_tdiv, Int.tdiv_neg]

/-- The quotient is the one of the rationals, cut off at the scale. -/
theorem stands_bcDivide (h1 : n1.Wf) (h2 : n2.Wf) (hzero : n2.magnitude ≠ 0) (scale : Nat) :
    ∃ result, bcDivide n1 n2 scale = some result ∧
      Stands result scale ((n1.signed * (BASE ^ (n2.nScale - n1.nScale + scale) : Nat)).tdiv
        (n2.signed * (BASE ^ (n1.nScale - n2.nScale) : Nat))) ∧
      Unsigned result := by
  obtain ⟨qlen, digits, hresult, hpos, hlen, hrow, hvalue⟩ := bcDivide_digits h1 h2 hzero scale
  obtain ⟨hstands, hunsigned⟩ := @stands_quotient _ (signOf n1 n2) _ _ hpos hlen hrow
  rw [hvalue, quotientMagnitude, ← signed_tdiv] at hstands
  exact ⟨_, hresult, hstands, hunsigned⟩

/-! What is left of a division. -/

/-- The quotient times the divisor keeps all of its digits, so that nothing is lost in the difference. -/
theorem stands_bcDivmod (h1 : n1.Wf) (h2 : n2.Wf) (hzero : n2.magnitude ≠ 0) (scale : Nat) :
    ∃ q r, bcDivmod n1 n2 scale = some (q, r) ∧
      Stands q scale ((n1.signed * (BASE ^ (n2.nScale - n1.nScale + scale) : Nat)).tdiv
        (n2.signed * (BASE ^ (n1.nScale - n2.nScale) : Nat))) ∧
      Stands r (max n1.nScale (n2.nScale + scale))
        (n1.signed * BASE ^ (n2.nScale + scale - n1.nScale) - q.signed * n2.signed * BASE ^ (n1.nScale - (n2.nScale + scale))) := by
  obtain ⟨q, hq, hstands, -⟩ := stands_bcDivide h1 h2 hzero scale
  obtain ⟨temp, htemp, hprod, -⟩ := stands_bcMultiply hstands.wf h2 (max n1.nScale (n2.nScale + scale))
  have hfull : min (scale + n2.nScale) (max (max n1.nScale (n2.nScale + scale)) (max scale n2.nScale)) = n2.nScale + scale := by
    omega
  rw [hstands.scale, hfull, Nat.add_comm scale, Nat.sub_self, pow_zero, Int.tdiv_one] at hprod
  have hrest := stands_bcSub h1 hprod.wf (max n1.nScale (n2.nScale + scale))
  rw [hprod.scale, hprod.signed, Nat.sub_self, pow_zero, mul_one, max_self] at hrest
  refine ⟨q, _, ?_, hstands, hrest⟩
  rw [bcDivmod, if_neg (by rw [bcIsZero_iff h2]; exact hzero), hq]
  simp [htemp]

namespace BcNum

variable (x y : BcNum) (scale : Nat)

theorem quotient_eq : x.toDecimal.quotient scale y.toDecimal = if y.signed = 0 then none
    else some ⟨(x.signed * (BASE ^ (y.nScale - x.nScale + scale) : Nat)).tdiv
      (y.signed * (BASE ^ (x.nScale - y.nScale) : Nat)), scale⟩ := by
  rw [Number.quotient, rescaled_left, rescaled_right, pow_add]
  push_cast
  rw [mul_assoc]
  rfl

theorem signed_eq_zero_iff (num : BcStruct) : num.signed = 0 ↔ num.magnitude = 0 := by
  rw [signed_eq]
  split <;> simp

/-- The quotient of the decimals, and none where the divisor is zero. -/
theorem toDecimal_divide : ∃ quot : Option BcNum, bcDivide x.toBcStruct y.toBcStruct scale = quot.map toBcStruct ∧
    quot.map (·.toDecimal) = x.toDecimal.quotient scale y.toDecimal := by
  rw [quotient_eq]
  by_cases hzero : y.magnitude = 0
  · refine ⟨none, if_pos ((bcIsZero_iff y.wf).mpr hzero), ?_⟩
    rw [if_pos ((signed_eq_zero_iff _).mpr hzero)]
    rfl
  · obtain ⟨result, hresult, hstands, -⟩ := stands_bcDivide x.wf y.wf hzero scale
    refine ⟨some (ofStands hstands), hresult, ?_⟩
    rw [if_neg (mt (signed_eq_zero_iff _).mp hzero), ← hstands.toDecimal]
    rfl

/-- The quotient times the divisor, and the rest, are the dividend; the rest is smaller than the divisor in
the last place of the quotient, and has the sign of the dividend. -/
theorem value_divmod (hzero : y.toDecimal.value ≠ 0) : ∃ quot rem : BcNum,
    bcDivmod x.toBcStruct y.toBcStruct scale = some (quot.toBcStruct, rem.toBcStruct) ∧
      quot.nScale = scale ∧ rem.nScale = max x.nScale (y.nScale + scale) ∧
      x.toDecimal.value = quot.toDecimal.value * y.toDecimal.value + rem.toDecimal.value ∧
      |rem.toDecimal.value| < |y.toDecimal.value| / 10 ^ scale ∧
      (0 ≤ x.toDecimal.value → 0 ≤ rem.toDecimal.value) ∧ (x.toDecimal.value ≤ 0 → rem.toDecimal.value ≤ 0) := by
  have hmag := mt y.value_eq_zero_iff.mpr hzero
  obtain ⟨q, r, hresult, hq, hr⟩ := stands_bcDivmod x.wf y.wf hmag scale
  have hquot : x.toDecimal.quotient scale y.toDecimal = some q.toDecimal := by
    rw [quotient_eq, if_neg (mt (signed_eq_zero_iff _).mp hmag), hq.toDecimal]
  have hrem : r.toDecimal.value = x.toDecimal.value - q.toDecimal.value * y.toDecimal.value := by
    rw [hr.toDecimal]
    apply Number.value_mk
    have hx := Number.rescaled_eq x.toDecimal (le_max_left x.nScale (y.nScale + scale))
    have hprod := @Number.rescaled_eq 10 _ (q.toDecimal.mul y.toDecimal) (max x.nScale (y.nScale + scale))
      (show q.nScale + y.nScale ≤ _ by rw [hq.scale]; omega)
    rw [Number.value_mul] at hprod
    rw [sub_mul, ← hx, ← hprod, Int.cast_sub]
    congr 2
    · rw [Number.rescaled, BcStruct.toDecimal, max_sub_left]
      rfl
    · rw [Number.rescaled, Number.mul, BcStruct.toDecimal, BcStruct.toDecimal, hq.scale, Nat.add_comm scale, max_sub_right]
      rfl
  obtain ⟨-, hlt, hpos, hneg⟩ := Number.quotient_rest hquot
  rw [← hrem] at hlt hpos hneg
  exact ⟨ofStands hq, ofStands hr, hresult, hq.scale, hr.scale, by rw [ofStands, ofStands]; linarith, hlt, hpos, hneg⟩

theorem divmod_one : ∃ quot rem : BcNum,
    bcDivmod one.toBcStruct one.toBcStruct 2 = some (quot.toBcStruct, rem.toBcStruct) ∧
      one.toDecimal.value = quot.toDecimal.value * one.toDecimal.value + rem.toDecimal.value := by
  obtain ⟨quot, rem, hresult, -, -, hvalue, -⟩ := value_divmod one one 2 (mt one.value_eq_zero_iff.mp (by decide))
  exact ⟨quot, rem, hresult, hvalue⟩

end BcNum

end BcNumber

end DeviceDriverTest
