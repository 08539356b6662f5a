import DeviceDriverTest.BcConstant
import Mathlib.Data.Nat.Log

/-! The output of the numbers of `bc`, in any base: the digits before the point come from divisions by the
base, and those behind it from multiplications. -/

namespace DeviceDriverTest

namespace BcNumber

open DigitRows PositionalArithmetic SchoolbookDivision

open Nat (ofDigits)

def refStr : List Char := "0123456789ABCDEF".toList

def bcOutLong (val : Int) (size : Nat) (space : Bool) : List Char :=
  let digits := (toString val).toList
  (if space then [' '] else []) ++ List.replicate (size - digits.length) '0' ++ digits

/-- The stack of the digits, where the first one is on the top. -/
def wholeDigits (limits : Limits) (base : BcStruct) : Nat → BcStruct → List Int → Option (List Int)
  | 0, _, _ => none
  | fuel + 1, intPart, digits =>
    if bcIsZero intPart then some digits
    else
      (bcModulo intPart base 0).bind fun curDig =>
        (bcDivide intPart base 0).bind fun intPart =>
          wholeDigits limits base fuel intPart (bcNum2long limits curDig :: digits)

def fractionDigits (limits : Limits) (base : BcStruct) (scale : Nat) : Nat → BcStruct → BcStruct → Option (List Int)
  | 0, _, _ => none
  | fuel + 1, tNum, fracPart =>
    if tNum.nLen ≤ scale then
      (bcMultiply fracPart base scale).bind fun fracPart =>
        (bcMultiply tNum base 0).bind fun tNum =>
          let fdigit := bcNum2long limits fracPart
          (fractionDigits limits base scale fuel tNum (bcSub fracPart (bcInt2num fdigit) 0)).map (fdigit :: ·)
    else some []

/-- The digits before the point and those behind it. Each turn at least halves the number before the point,
and at least doubles what the fraction is compared to. -/
def outDigits (limits : Limits) (num : BcStruct) (oBase : Nat) : Option (List Int × List Int) :=
  (bcDivide num one 0).bind fun intPart =>
    let fracPart := { bcSub num intPart 0 with nSign := .PLUS }
    let base := bcInt2num oBase
    (wholeDigits limits base (4 * num.nLen + 1) { intPart with nSign := .PLUS } []).bind fun digits =>
      (fractionDigits limits base num.nScale (4 * num.nScale + 1) one fracPart).map fun fraction => (digits, fraction)

def outDigit (oBase size : Nat) (space : Bool) (digit : Int) : List Char :=
  if oBase ≤ 16 then [refStr.getD digit.toNat ' '] else bcOutLong digit size space

/-- The first digit behind the point has no space in front. -/
def outFraction (oBase size : Nat) : List Int → List Char
  | [] => []
  | digit :: digits => outDigit oBase size false digit ++ digits.flatMap (outDigit oBase size true)

def bcOutNum (limits : Limits) (num : BcStruct) (oBase : Nat) : Option (List Char) :=
  if bcIsZero num ∨ oBase = 10 then some (bcOutNum10 num)
  else
    (outDigits limits num oBase).map fun (digits, fraction) =>
      let size := (bcInt2num (oBase - 1)).nLen
      (if num.nSign = .PLUS then [] else ['-']) ++ digits.flatMap (outDigit oBase size true) ++
        if num.nScale > 0 then '.' :: outFraction oBase size fraction else []

variable {limits : Limits} {num base intPart fracPart tNum : BcStruct} {b n scale : Nat}

/-! The digits before the point. -/

theorem whole_magnitude (h : Whole num n) : num.magnitude = n := by
  have hsigned := h.stands.signed
  rw [signed_of_pos h.nSign] at hsigned
  exact Int.ofNat_inj.mp hsigned

theorem whole_bcDivide (hn : Whole num n) (hb : Whole base b) (hpos : 0 < b) :
    ∃ quot, bcDivide num base 0 = some quot ∧ Whole quot (n / b) := by
  have hne : base.magnitude ≠ 0 := (whole_magnitude hb).symm ▸ hpos.ne'
  obtain ⟨quot, hquot, hstands, hunsigned⟩ := stands_bcDivide hn.stands.wf hb.stands.wf hne 0
  rw [hn.stands.scale, hb.stands.scale, hn.stands.signed, hb.stands.signed, Nat.sub_self, pow_zero, Nat.cast_one, mul_one, mul_one,
    ← Int.ofNat_tdiv] at hstands
  exact ⟨quot, hquot, hstands, nSign_of_unsigned hunsigned (hstands.signed.symm ▸ Int.natCast_nonneg _)⟩

theorem stands_bcModulo (hn : Whole num n) (hb : Whole base b) (hpos : 0 < b) :
    ∃ rem, bcModulo num base 0 = some rem ∧ Stands rem 0 ((n % b : Nat) : Int) := by
  have hne : base.magnitude ≠ 0 := (whole_magnitude hb).symm ▸ hpos.ne'
  obtain ⟨q, r, hdivmod, hq, hr⟩ := stands_bcDivmod hn.stands.wf hb.stands.wf hne 0
  rw [hn.stands.scale, hb.stands.scale, hn.stands.signed, hb.stands.signed, Nat.sub_self, pow_zero, Nat.cast_one, mul_one, mul_one,
    ← Int.ofNat_tdiv] at hq
  rw [hq.signed, hn.stands.scale, hb.stands.scale, hn.stands.signed, hb.stands.signed, Nat.add_zero, Nat.sub_self, pow_zero,
    mul_one, mul_one, max_self, ← Nat.cast_mul, ← Nat.cast_sub (Nat.div_mul_le_self n b)] at hr
  refine ⟨r, by rw [bcModulo, hdivmod, Option.map_some], ?_⟩
  rwa [Nat.mod_eq_sub_div_mul]

/-- A whole number that fits comes out as it is. -/
theorem bcNum2long_stands {value : Int} (h : Stands num 0 value) (hfit : value.natAbs ≤ limits.LONG_MAX) :
    bcNum2long limits num = value := by
  have hwhole : num.whole = value := by rw [BcStruct.whole, h.scale, h.signed, pow_zero, Int.tdiv_one]
  rw [bcNum2long_fits h.wf (hwhole.symm ▸ hfit), hwhole]

theorem wholeDigits_spec (hb : Whole base b) (htwo : 2 ≤ b) (hfit : b ≤ limits.LONG_MAX) {k : Nat} (hn : Whole intPart n)
    (hk : n < 2 ^ k) (digits : List Int) : wholeDigits limits base (k + 1) intPart digits =
      some ((Nat.digits b n).reverse.map (fun d : Nat => (d : Int)) ++ digits) := by
  induction k generalizing n intPart digits with
  | zero =>
    obtain rfl : n = 0 := Nat.lt_one_iff.mp hk
    rw [wholeDigits, if_pos ((bcIsZero_iff hn.stands.wf).mpr (whole_magnitude hn))]
    simp
  | succ k ih =>
    rw [wholeDigits]
    split
    case isTrue hzero =>
      obtain rfl : n = 0 := (whole_magnitude hn).symm.trans ((bcIsZero_iff hn.stands.wf).mp hzero)
      simp
    case isFalse hzero =>
      have hne : n ≠ 0 := fun h => hzero ((bcIsZero_iff hn.stands.wf).mpr ((whole_magnitude hn).trans h))
      obtain ⟨rem, hrem, hremStands⟩ := stands_bcModulo hn hb (by omega)
      obtain ⟨quot, hquot, hquotWhole⟩ := whole_bcDivide hn hb (by omega)
      have hmod : n % b < b := Nat.mod_lt n (by omega)
      have hdigit : bcNum2long limits rem = ((n % b : Nat) : Int) := bcNum2long_stands hremStands (by
        rw [Int.natAbs_natCast]
        omega)
      have hsmaller : n / b < 2 ^ k := by
        rw [Nat.div_lt_iff_lt_mul (by omega)]
        calc n < 2 ^ (k + 1) := hk
          _ = 2 ^ k * 2 := pow_succ 2 k
          _ ≤ 2 ^ k * b := Nat.mul_le_mul_left _ htwo
      rw [hrem, Option.bind_some, hquot, Option.bind_some, hdigit, ih hquotWhole hsmaller,
        Nat.digits_def' (by omega) (Nat.pos_of_ne_zero hne)]
      simp

/-! The digits behind the point. -/

/-- The first `k` digits of the fraction `f / m` in the base. -/
def expand (b m : Nat) : Nat → Nat → List Nat
  | 0, _ => []
  | k + 1, f => f * b / m :: expand b m k (f * b % m)

@[simp] theorem length_expand (b m k f : Nat) : (expand b m k f).length = k := by
  induction k generalizing f with
  | zero => rfl
  | succ k ih => rw [expand, List.length_cons, ih]

theorem value_expand {m : Nat} (k : Nat) {f : Nat} (hf : f < m) : value b (expand b m k f) = f * b ^ k / m := by
  have hm : 0 < m := Nat.zero_lt_of_lt hf
  induction k generalizing f with
  | zero => rw [expand, value_nil, pow_zero, Nat.mul_one, Nat.div_eq_of_lt hf]
  | succ k ih =>
    have hsplit : f * b ^ (k + 1) = f * b % m * b ^ k + f * b / m * b ^ k * m := by
      rw [pow_succ', ← Nat.mul_assoc, Nat.mul_right_comm (f * b / m), ← Nat.add_mul, Nat.mod_add_div']
    rw [expand, value_cons, length_expand, ih (Nat.mod_lt _ hm), hsplit, Nat.add_mul_div_right _ _ hm, Nat.add_comm]

theorem isRow_expand (hb : 0 < b) {m : Nat} (k : Nat) {f : Nat} (hf : f < m) : IsRow b (expand b m k f) := by
  have hm : 0 < m := Nat.zero_lt_of_lt hf
  induction k generalizing f with
  | zero => exact isRow_nil
  | succ k ih =>
    refine isRow_cons.mpr ⟨?_, ih (Nat.mod_lt _ hm)⟩
    rw [Nat.div_lt_iff_lt_mul hm, Nat.mul_comm b]
    exact Nat.mul_lt_mul_of_pos_right hf hb

theorem nLen_le_iff (h : Whole tNum n) (hscale : 0 < scale) : tNum.nLen ≤ scale ↔ n < BASE ^ scale := by
  have hmag := whole_magnitude h
  have hlt := h.stands.wf.magnitude_lt
  rw [hmag, h.stands.scale, Nat.add_zero] at hlt
  constructor
  · exact fun hle => hlt.trans_le (Nat.pow_le_pow_right base_pos hle)
  · intro hsmall
    by_contra hlong
    have hle := le_magnitude h.stands.wf (by omega)
    rw [hmag, h.stands.scale, Nat.add_zero] at hle
    exact (hsmall.trans_le (Nat.pow_le_pow_right base_pos (by omega))).not_ge hle

theorem fractionDigits_spec (hb : Whole base b) (hpos : 0 < b) (hfit : b ≤ limits.LONG_MAX) (hscale : 0 < scale) {k fuel f : Nat}
    (hfuel : k < fuel) (ht : Whole tNum n) (hbelow : ∀ i < k, n * b ^ i < BASE ^ scale) (habove : BASE ^ scale ≤ n * b ^ k)
    (hf : Stands fracPart scale f) (hlt : f < BASE ^ scale) : fractionDigits limits base scale fuel tNum fracPart =
      some ((expand b (BASE ^ scale) k f).map (fun d : Nat => (d : Int))) := by
  induction k generalizing fuel n f tNum fracPart with
  | zero =>
    obtain ⟨fuel, rfl⟩ := Nat.exists_eq_add_of_lt hfuel
    rw [pow_zero, Nat.mul_one] at habove
    rw [fractionDigits, if_neg (by rw [nLen_le_iff ht hscale]; exact habove.not_gt)]
    rfl
  | succ k ih =>
    obtain ⟨fuel, rfl⟩ : ∃ fuel', fuel = fuel' + 1 := ⟨fuel - 1, by omega⟩
    have hsmall := hbelow 0 (Nat.succ_pos k)
    rw [pow_zero, Nat.mul_one] at hsmall
    obtain ⟨prod, hprod, hprodStands, -⟩ := stands_bcMultiply hf.wf hb.stands.wf scale
    have hfull : min (scale + 0) (max scale (max scale 0)) = scale := by omega
    rw [hf.scale, hb.stands.scale, hfull, hf.signed, hb.stands.signed, Nat.add_zero, Nat.sub_self, pow_zero, Int.tdiv_one,
      ← Nat.cast_mul] at hprodStands
    obtain ⟨next, hnext, hnextWhole⟩ := whole_multiply ht hb
    -- the digit is what stands in front of the point
    have hwhole : prod.whole = ((f * b / BASE ^ scale : Nat) : Int) := by
      rw [BcStruct.whole, hprodStands.signed, hprodStands.scale, Int.ofNat_tdiv, Nat.cast_pow]
    have hdigit : f * b / BASE ^ scale < b := by
      rw [Nat.div_lt_iff_lt_mul (Nat.pow_pos base_pos), Nat.mul_comm b]
      exact Nat.mul_lt_mul_of_pos_right hlt hpos
    have hlong : bcNum2long limits prod = ((f * b / BASE ^ scale : Nat) : Int) := by
      rw [bcNum2long_fits hprodStands.wf (by rw [hwhole, Int.natAbs_natCast]; omega), hwhole]
    have hdigitStands := (whole_bcInt2num (f * b / BASE ^ scale)).stands
    have hrest := stands_bcSub hprodStands.wf hdigitStands.wf 0
    rw [hprodStands.scale, hdigitStands.scale, hprodStands.signed, hdigitStands.signed, Nat.max_zero, Nat.max_zero, Nat.zero_sub,
      Nat.sub_zero, pow_zero, mul_one, mul_one] at hrest
    have hmod : ((f * b : Nat) : Int) - ((f * b / BASE ^ scale : Nat) : Int) * BASE ^ scale =
        ((f * b % BASE ^ scale : Nat) : Int) := by
      have hsplit := Nat.mod_add_div' (f * b) (BASE ^ scale)
      rw [sub_eq_iff_eq_add]
      exact_mod_cast hsplit.symm
    rw [hmod] at hrest
    rw [fractionDigits, if_pos (by rw [nLen_le_iff ht hscale]; exact hsmall), hprod, Option.bind_some, hnext, Option.bind_some]
    dsimp only
    rw [hlong, ih (Nat.lt_of_succ_lt_succ hfuel) hnextWhole (fun i hi => by
        rw [Nat.mul_assoc, ← pow_succ']
        exact hbelow (i + 1) (Nat.succ_lt_succ hi)) (by rw [Nat.mul_assoc, ← pow_succ']; exact habove) hrest
      (Nat.mod_lt _ (Nat.pow_pos base_pos))]
    rfl

/-! The number. -/

theorem stands_positive {value : Int} (h : Stands num scale value) :
    Stands { num with nSign := .PLUS } scale ((value.natAbs : Nat) : Int) := by
  refine ⟨h.wf.withSign .PLUS, h.len_pos, h.scale, ?_⟩
  rw [signed_withSign, if_pos rfl, ← h.signed, signed_eq]
  split
  · rw [Int.natAbs_natCast]
  · rw [Int.natAbs_neg, Int.natAbs_natCast]

theorem whole_positive {value : Int} (h : Stands num 0 value) : Whole { num with nSign := .PLUS } value.natAbs :=
  ⟨stands_positive h, rfl⟩

theorem natAbs_signed (num : BcStruct) : num.signed.natAbs = num.magnitude := by
  rw [signed_eq]
  split
  · rw [Int.natAbs_natCast]
  · rw [Int.natAbs_neg, Int.natAbs_natCast]

theorem pow_ten_le (k : Nat) : BASE ^ k ≤ 2 ^ (4 * k) := by
  rw [pow_mul]
  exact Nat.pow_le_pow_left (by decide) k

theorem outDigits_spec (h : num.Wf) (htwo : 2 ≤ b) (hfit : b ≤ limits.LONG_MAX) :
    outDigits limits num b = some
      ((Nat.digits b (num.magnitude / BASE ^ num.nScale)).reverse.map (fun d : Nat => (d : Int)),
        (expand b (BASE ^ num.nScale) (Nat.clog b (BASE ^ num.nScale)) (num.magnitude % BASE ^ num.nScale)).map
          (fun d : Nat => (d : Int))) := by
  have hone : Whole one 1 := whole_bcInt2num 1
  have hb : Whole (bcInt2num b) b := whole_bcInt2num b
  obtain ⟨intPart, hintPart, hint, -⟩ := stands_bcDivide h hone.stands.wf (by rw [whole_magnitude hone]; decide) 0
  rw [hone.stands.scale, hone.stands.signed, Nat.zero_sub, Nat.add_zero, pow_zero, Nat.cast_one, mul_one, one_mul, Nat.sub_zero] at hint
  have hsub := stands_bcSub h hint.wf 0
  rw [hint.scale, hint.signed, Nat.zero_sub, Nat.sub_zero, Nat.max_zero, Nat.max_zero, Nat.zero_sub, pow_zero, mul_one, mul_one] at hsub
  have hmod : num.signed - num.signed.tdiv (BASE ^ num.nScale : Nat) * BASE ^ num.nScale =
      num.signed.tmod (BASE ^ num.nScale : Nat) := by
    rw [Int.tmod_def, Nat.cast_pow, Int.mul_comm]
  rw [hmod] at hsub
  have hwhole := whole_positive hint
  have hfraction := stands_positive hsub
  rw [Int.natAbs_tdiv, Int.natAbs_natCast, natAbs_signed] at hwhole
  rw [Int.natAbs_tmod, Int.natAbs_natCast, natAbs_signed] at hfraction
  have hk : num.magnitude / BASE ^ num.nScale < 2 ^ (4 * num.nLen) := by
    refine lt_of_lt_of_le ?_ (pow_ten_le num.nLen)
    rw [Nat.div_lt_iff_lt_mul (Nat.pow_pos base_pos), ← pow_add]
    exact h.magnitude_lt
  have hfractionDigits : fractionDigits limits (bcInt2num b) num.nScale (4 * num.nScale + 1) one
      { bcSub num intPart 0 with nSign := .PLUS } =
      some ((expand b (BASE ^ num.nScale) (Nat.clog b (BASE ^ num.nScale)) (num.magnitude % BASE ^ num.nScale)).map
        (fun d : Nat => (d : Int))) := by
    obtain hzero | hpos := Nat.eq_zero_or_pos num.nScale
    · rw [hzero, pow_zero, Nat.clog_one_right]
      rfl
    · refine fractionDigits_spec hb (by omega) hfit hpos ?_ hone ?_ ?_ hfraction (Nat.mod_lt _ (Nat.pow_pos base_pos))
      · refine Nat.lt_succ_of_le (Nat.clog_le_of_le_pow ?_)
        exact (pow_ten_le num.nScale).trans (Nat.pow_le_pow_left htwo _)
      · intro i hi
        rw [Nat.one_mul]
        exact Nat.pow_lt_of_lt_clog hi
      · rw [Nat.one_mul]
        exact Nat.le_pow_clog (by omega) _
  rw [outDigits, hintPart, Option.bind_some]
  dsimp only
  rw [wholeDigits_spec hb htwo hfit hwhole hk, Option.bind_some, hfractionDigits, Option.map_some, List.append_nil]
  rfl

namespace BcNum

theorem abs_value (x : BcNum) : |x.toDecimal.value| = x.magnitude / 10 ^ x.nScale := by
  have hpow := @Number.base_pow_pos 10 _ x.nScale
  have hmag := natAbs_signed x.toBcStruct
  rw [Number.value, BcStruct.toDecimal, abs_div, abs_of_pos hpow, ← Int.cast_abs, Int.abs_eq_natAbs, hmag]
  push_cast
  rfl

end BcNum

end BcNumber

end DeviceDriverTest
