import DeviceDriverTest.BcDivide

/-! The rest of a division, whole numbers as machine integers, and the powers of the numbers of `bc`. -/

namespace DeviceDriverTest

namespace BcNumber

open DigitRows PositionalArithmetic SchoolbookDivision

open Nat (ofDigits)

/-- The largest `long`, and what the macro `LONG_MAX` is where the number package is compiled. -/
structure Limits where
  longMax : Nat
  LONG_MAX : Nat
  le : LONG_MAX ≤ longMax

/-- A `long` that is too large goes on with the smallest one. -/
def Limits.wrap (limits : Limits) (val : Int) : Int := Int.bmod val (2 * (limits.longMax + 1))

/-- The digits that are left, and the value of those that are read. -/
def num2longLoop (limits : Limits) : Nat → Int → List Nat → Nat × Int
  | index + 1, val, d :: ds =>
    if val ≤ (limits.LONG_MAX / BASE : Nat) then num2longLoop limits index (limits.wrap (val * BASE + d)) ds
    else (index + 1, val)
  | index, val, _ => (index, val)

def bcNum2long (limits : Limits) (num : BcStruct) : Int :=
  let read := num2longLoop limits num.nLen 0 num.nValue
  let val := if read.1 > 0 then 0 else read.2
  let val := if val < 0 then 0 else val
  if num.nSign = .PLUS then val else -val

def squareWhileEven (exponent : Nat) (power : BcStruct) (pwrscale : Nat) : Option (Nat × BcStruct × Nat) :=
  if exponent ≠ 0 ∧ exponent % 2 = 0 then
    (bcMultiply power power (2 * pwrscale)).bind fun power => squareWhileEven (exponent / 2) power (2 * pwrscale)
  else some (exponent, power, pwrscale)
termination_by exponent
decreasing_by omega

def raiseLoop (exponent : Nat) (power : BcStruct) (pwrscale : Nat) (temp : BcStruct) (calcscale : Nat) : Option BcStruct :=
  if exponent > 0 then
    (bcMultiply power power (2 * pwrscale)).bind fun power =>
      if exponent % 2 = 1 then
        (bcMultiply temp power (2 * pwrscale + calcscale)).bind fun temp =>
          raiseLoop (exponent / 2) power (2 * pwrscale) temp (2 * pwrscale + calcscale)
      else raiseLoop (exponent / 2) power (2 * pwrscale) temp calcscale
  else some temp
termination_by exponent
decreasing_by all_goals omega

/-- The number to a power that is not zero. -/
def raised (num : BcStruct) (exponent : Nat) : Option BcStruct :=
  (squareWhileEven exponent num num.nScale).bind fun (exponent, power, pwrscale) =>
    raiseLoop (exponent / 2) power pwrscale power pwrscale

/-- The digits behind the scale stay in the storage, and are not part of the number any more. -/
def cutScale (num : BcStruct) (rscale : Nat) : BcStruct :=
  if num.nScale > rscale then { num with nScale := rscale, nValue := num.nValue.take (num.nLen + rscale) } else num

/-- The result, or nothing where the one that was there stays; and the messages for an exponent with a
fraction and for one that is too large. -/
structure Raise where
  result : Option BcStruct
  fraction : Bool
  tooLarge : Bool

def bcRaise (limits : Limits) (num1 num2 : BcStruct) (scale : Nat) : Raise where
  result :=
    let exponent := bcNum2long limits num2
    if exponent = 0 then some one
    else if exponent < 0 then (raised num1 exponent.natAbs).bind fun temp => bcDivide one temp scale
    else (raised num1 exponent.natAbs).map (cutScale · (min (num1.nScale * exponent.natAbs) (max scale num1.nScale)))
  fraction := num2.nScale ≠ 0
  tooLarge := bcNum2long limits num2 = 0 && (num2.nLen > 1 || num2.nValue.headD 0 ≠ 0)

variable {n1 n2 num : BcStruct} {scale : Nat} {limits : Limits}

/-! Whole numbers as machine integers. -/

/-- The number without its fraction. -/
def BcStruct.whole (num : BcStruct) : Int := num.signed.tdiv (BASE ^ num.nScale)

theorem wrap_eq {val : Nat} (h : val ≤ limits.longMax) : limits.wrap val = val := by
  rw [Limits.wrap, Int.bmod_eq_of_le] <;> omega

theorem num2longLoop_fits {ds : List Nat} {index val : Nat} (hlen : index ≤ ds.length)
    (h : val * BASE ^ index + value BASE (ds.take index) ≤ limits.LONG_MAX) :
    num2longLoop limits index val ds = (0, ((val * BASE ^ index + value BASE (ds.take index) : Nat) : Int)) := by
  induction index generalizing ds val with
  | zero => simp [num2longLoop]
  | succ index ih =>
    obtain ⟨d, ds, rfl⟩ := List.exists_cons_of_length_pos (Nat.zero_lt_of_lt hlen)
    have hlen' : index ≤ ds.length := Nat.le_of_succ_le_succ hlen
    have hshift : val * BASE ^ (index + 1) + value BASE ((d :: ds).take (index + 1)) =
        (val * BASE + d) * BASE ^ index + value BASE (ds.take index) := by
      rw [List.take_succ_cons, value_cons, List.length_take, min_eq_left hlen']
      ring
    rw [hshift] at h ⊢
    have hnext : val * BASE + d ≤ limits.LONG_MAX :=
      (Nat.le_mul_of_pos_right _ (Nat.pow_pos base_pos)).trans ((Nat.le_add_right _ _).trans h)
    have hval : val ≤ limits.LONG_MAX / BASE := (Nat.le_div_iff_mul_le base_pos).mpr ((Nat.le_add_right _ _).trans hnext)
    have hwrap : limits.wrap ((val : Int) * BASE + d) = ((val * BASE + d : Nat) : Int) := by
      rw [← wrap_eq (hnext.trans limits.le)]
      push_cast
      rfl
    rw [num2longLoop, if_pos (Int.ofNat_le.mpr hval), hwrap, ih hlen' h]

/-- A number is refused before its last digit is read. -/
theorem num2longLoop_large (hroom : limits.LONG_MAX / BASE * BASE + 9 ≤ limits.longMax) {ds : List Nat} {index val : Nat}
    (hrow : IsRow BASE ds) (hlen : index < ds.length)
    (h : limits.LONG_MAX / BASE < (val * BASE ^ (index + 1) + value BASE (ds.take (index + 1))) / BASE) :
    0 < (num2longLoop limits (index + 1) val ds).1 := by
  induction index generalizing ds val with
  | zero =>
    obtain ⟨d, ds, rfl⟩ := List.exists_cons_of_length_pos hlen
    rw [isRow_cons] at hrow
    rw [List.take_succ_cons, List.take_zero, value_cons, value_nil, List.length_nil, pow_zero, mul_one, add_zero, zero_add,
      pow_one, Nat.mul_comm, Nat.mul_add_div base_pos, Nat.div_eq_of_lt hrow.1, add_zero] at h
    rw [num2longLoop, if_neg (by rw [Int.ofNat_le]; omega)]
    exact Nat.one_pos
  | succ index ih =>
    obtain ⟨d, ds, rfl⟩ := List.exists_cons_of_length_pos (Nat.zero_lt_of_lt hlen)
    rw [isRow_cons] at hrow
    have hlen' : index < ds.length := Nat.lt_of_succ_lt_succ hlen
    have hshift : val * BASE ^ (index + 1 + 1) + value BASE ((d :: ds).take (index + 1 + 1)) =
        (val * BASE + d) * BASE ^ (index + 1) + value BASE (ds.take (index + 1)) := by
      rw [List.take_succ_cons, value_cons, List.length_take, min_eq_left hlen']
      ring
    rw [hshift] at h
    rw [num2longLoop]
    split
    case isTrue hval =>
      rw [Int.ofNat_le] at hval
      have hnext : val * BASE + d ≤ limits.longMax := by
        have hscaled := Nat.mul_le_mul_right BASE hval
        have hdigit : d < 10 := hrow.1
        omega
      have hwrap : limits.wrap ((val : Int) * BASE + d) = ((val * BASE + d : Nat) : Int) := by
        rw [← wrap_eq hnext]
        push_cast
        rfl
      rw [hwrap]
      exact ih hrow.2 hlen' h
    case isFalse => exact Nat.succ_pos _

theorem value_whole (h : num.Wf) : value BASE (num.nValue.take num.nLen) = num.magnitude / BASE ^ num.nScale :=
  value_take h.digits h.size

theorem whole_eq (num : BcStruct) : num.whole =
    if num.nSign = .PLUS then ((num.magnitude / BASE ^ num.nScale : Nat) : Int)
    else -((num.magnitude / BASE ^ num.nScale : Nat) : Int) := by
  rw [BcStruct.whole, signed_eq, Int.ofNat_tdiv, Nat.cast_pow]
  split
  · rfl
  · rw [Int.neg_tdiv]

theorem natAbs_whole (num : BcStruct) : num.whole.natAbs = num.magnitude / BASE ^ num.nScale := by
  rw [whole_eq]
  split
  · rw [Int.natAbs_natCast]
  · rw [Int.natAbs_neg, Int.natAbs_natCast]

theorem bcNum2long_fits (h : num.Wf) (hfit : num.whole.natAbs ≤ limits.LONG_MAX) : bcNum2long limits num = num.whole := by
  rw [natAbs_whole, ← value_whole h] at hfit
  have hloop := @num2longLoop_fits limits num.nValue num.nLen 0 (by rw [h.size]; omega)
    (by rw [zero_mul, zero_add]; exact hfit)
  rw [zero_mul, zero_add, Nat.cast_zero, value_whole h] at hloop
  simp only [bcNum2long, hloop, whole_eq]
  rw [if_neg (Nat.lt_irrefl 0), if_neg (Int.natCast_nonneg _).not_gt]

/-- Where the macro is below the largest `long` there is no number in between: it comes out as it is, or as zero. -/
theorem bcNum2long_large (hroom : limits.LONG_MAX / BASE * BASE + 9 ≤ limits.longMax) (h : num.Wf) (hlen : 0 < num.nLen)
    (hlarge : limits.LONG_MAX / BASE < num.whole.natAbs / BASE) : bcNum2long limits num = 0 := by
  have hsize := h.size
  rw [natAbs_whole, ← value_whole h] at hlarge
  have hloop := @num2longLoop_large limits hroom num.nValue (num.nLen - 1) 0 h.digits (by omega)
    (by rw [zero_mul, zero_add, Nat.sub_add_cancel hlen]; exact hlarge)
  rw [Nat.sub_add_cancel hlen, Nat.cast_zero] at hloop
  simp only [bcNum2long, if_pos hloop]
  split <;> simp

/-! Powers. -/

theorem stands_square {power : BcStruct} {pwrscale : Nat} {p : Int} (h : Stands power pwrscale p) :
    ∃ square, bcMultiply power power (2 * pwrscale) = some square ∧ Stands square (2 * pwrscale) (p ^ 2) := by
  obtain ⟨square, hsquare, hstands, -⟩ := stands_bcMultiply h.wf h.wf (2 * pwrscale)
  have hfull : min (pwrscale + pwrscale) (max (2 * pwrscale) (max pwrscale pwrscale)) = 2 * pwrscale := by omega
  rw [h.scale, hfull, h.signed, Nat.two_mul, Nat.sub_self, pow_zero, Int.tdiv_one, ← pow_two, ← Nat.two_mul] at hstands
  exact ⟨square, hsquare, hstands⟩

theorem stands_product {temp power : BcStruct} {calcscale pwrscale : Nat} {t p : Int} (ht : Stands temp calcscale t)
    (hp : Stands power pwrscale p) :
    ∃ product, bcMultiply temp power (pwrscale + calcscale) = some product ∧ Stands product (pwrscale + calcscale) (t * p) := by
  obtain ⟨product, hproduct, hstands, -⟩ := stands_bcMultiply ht.wf hp.wf (pwrscale + calcscale)
  have hfull : min (calcscale + pwrscale) (max (pwrscale + calcscale) (max calcscale pwrscale)) = pwrscale + calcscale := by
    omega
  rw [ht.scale, hp.scale, hfull, ht.signed, hp.signed, Nat.add_comm calcscale, Nat.sub_self, pow_zero, Int.tdiv_one] at hstands
  exact ⟨product, hproduct, hstands⟩

/-- The squares make the exponent odd. -/
theorem stands_squareWhileEven {exponent : Nat} (hpos : exponent ≠ 0) {power : BcStruct} {pwrscale : Nat} {p : Int}
    (h : Stands power pwrscale p) : ∃ k odd power', exponent = 2 ^ k * odd ∧ odd % 2 = 1 ∧
      squareWhileEven exponent power pwrscale = some (odd, power', pwrscale * 2 ^ k) ∧
      Stands power' (pwrscale * 2 ^ k) (p ^ 2 ^ k) := by
  induction exponent using Nat.strong_induction_on generalizing power pwrscale p with
  | _ exponent ih =>
    rw [squareWhileEven]
    split
    case isTrue heven =>
      obtain ⟨square, hsquare, hstands⟩ := stands_square h
      obtain ⟨k, odd, power', hexp, hodd, hrun, hpower⟩ := ih (exponent / 2) (by omega) (by omega) hstands
      refine ⟨k + 1, odd, power', ?_, hodd, ?_, ?_⟩
      · rw [pow_succ, Nat.mul_right_comm, ← hexp]
        omega
      · rw [hsquare, Option.bind_some, hrun, pow_succ', Nat.mul_left_comm, Nat.mul_assoc]
      · rw [pow_succ', pow_mul, Nat.mul_left_comm, ← Nat.mul_assoc]
        exact hpower
    case isFalse hodd =>
      refine ⟨0, exponent, power, (Nat.one_mul _).symm, by omega, ?_, ?_⟩
      · rw [pow_zero, Nat.mul_one]
      · rwa [pow_zero, Nat.mul_one, pow_one]

/-- Each turn takes the last bit of the exponent, and the power of that bit. -/
theorem stands_raiseLoop (exponent : Nat) {power temp : BcStruct} {pwrscale calcscale : Nat} {p t : Int}
    (hpower : Stands power pwrscale p) (htemp : Stands temp calcscale t) :
    ∃ result, raiseLoop exponent power pwrscale temp calcscale = some result ∧
      Stands result (calcscale + pwrscale * (2 * exponent)) (t * p ^ (2 * exponent)) := by
  induction exponent using Nat.strong_induction_on generalizing power temp pwrscale calcscale p t with
  | _ exponent ih =>
    rw [raiseLoop]
    split
    case isTrue hpos =>
      obtain ⟨square, hsquare, hstands⟩ := stands_square hpower
      rw [hsquare, Option.bind_some]
      split
      case isTrue hodd =>
        obtain ⟨product, hproduct, hprod⟩ := stands_product htemp hstands
        obtain ⟨result, hresult, hfinal⟩ := ih (exponent / 2) (by omega) hstands hprod
        refine ⟨result, by rw [hproduct, Option.bind_some, hresult], ?_⟩
        have hhalf : exponent = 2 * (exponent / 2) + 1 := by omega
        generalize exponent / 2 = half at hhalf hfinal
        subst hhalf
        convert! hfinal using 1 <;> ring
      case isFalse heven =>
        obtain ⟨result, hresult, hfinal⟩ := ih (exponent / 2) (by omega) hstands htemp
        refine ⟨result, hresult, ?_⟩
        have hhalf : exponent = 2 * (exponent / 2) := by omega
        generalize exponent / 2 = half at hhalf hfinal
        subst hhalf
        convert! hfinal using 1 <;> ring
    case isFalse hzero =>
      obtain rfl : exponent = 0 := by omega
      refine ⟨temp, rfl, ?_⟩
      rwa [Nat.mul_zero, Nat.mul_zero, pow_zero, Nat.add_zero, mul_one]

/-- The power keeps all of its digits. -/
theorem stands_raised (h : num.Wf) (hlen : 0 < num.nLen) {exponent : Nat} (hpos : exponent ≠ 0) :
    ∃ result, raised num exponent = some result ∧ Stands result (num.nScale * exponent) (num.signed ^ exponent) := by
  obtain ⟨k, odd, power, hexp, hodd, hrun, hpower⟩ := stands_squareWhileEven hpos ⟨h, hlen, rfl, rfl⟩
  obtain ⟨result, hresult, hstands⟩ := stands_raiseLoop (odd / 2) hpower hpower
  refine ⟨result, by rw [raised, hrun]; exact hresult, ?_⟩
  have hhalf : odd = 2 * (odd / 2) + 1 := by omega
  generalize odd / 2 = half at hhalf hstands
  subst hhalf hexp
  convert! hstands using 1 <;> ring

theorem stands_cutScale {value : Int} (h : Stands num scale value) (rscale : Nat) :
    Stands (cutScale num rscale) (min scale rscale) (value.tdiv (BASE ^ (scale - rscale))) := by
  have hsize := h.wf.size
  have hscale := h.scale
  have hlen := h.len_pos
  unfold cutScale
  split
  case isTrue hlong =>
    refine ⟨⟨?_, h.wf.digits.take _, ?_, fun hzero => absurd hzero hlen.ne'⟩, hlen, show rscale = min scale rscale by omega, ?_⟩
    · exact List.length_take_of_le (by omega)
    · refine h.wf.trimmed.imp_right fun hhead => ?_
      have hpos : 0 < num.nLen + rscale := by omega
      rwa [List.headD_eq_head?_getD, List.head?_take, if_neg hpos.ne', ← List.headD_eq_head?_getD]
    · have hkept : num.nValue.length = num.nLen + rscale + (scale - rscale) := by omega
      have hcut := ofDigits_reverse_take h.wf.digits hkept
      rw [← h.signed, signed_eq, signed_eq, BcStruct.magnitude, BcStruct.magnitude, BcStruct.row, BcStruct.row, hcut]
      split
      · rw [Int.ofNat_tdiv, Nat.cast_pow]
      · rw [Int.neg_tdiv, Int.ofNat_tdiv, Nat.cast_pow]
  case isFalse hshort =>
    rw [Nat.sub_eq_zero_of_le (by omega), pow_zero, Int.tdiv_one]
    exact ⟨h.wf, h.len_pos, by omega, h.signed⟩

namespace BcNum

variable (x y : BcNum) (limits : Limits)

/-- The powers are those of the decimals, for all exponents that fit. -/
theorem toDecimal_raise (scale : Nat) (hfit : y.whole.natAbs ≤ limits.LONG_MAX) : ∃ result : Option BcNum,
    (bcRaise limits x.toBcStruct y.toBcStruct scale).result = result.map toBcStruct ∧
      result.map (·.toDecimal) = x.toDecimal.power scale y.whole := by
  rw [bcRaise, bcNum2long_fits y.wf hfit, Number.power]
  dsimp only
  split
  case isTrue => exact ⟨some one, rfl, rfl⟩
  case isFalse hne =>
    obtain ⟨temp, htemp, hstands⟩ := stands_raised x.wf x.len_pos (Int.natAbs_ne_zero.mpr hne)
    have hpower : (ofStands hstands).toDecimal = x.toDecimal.pow y.whole.natAbs := hstands.toDecimal
    rw [htemp]
    split
    case isTrue =>
      rw [← hpower]
      exact toDecimal_divide one (ofStands hstands) scale
    case isFalse =>
      have hcut := stands_cutScale hstands (min (x.nScale * y.whole.natAbs) (max scale x.nScale))
      refine ⟨some (ofStands hcut), rfl, congrArg some (hcut.toDecimal.trans ?_)⟩
      have hle : min (x.nScale * y.whole.natAbs) (max scale x.nScale) ≤ x.nScale * y.whole.natAbs := min_le_left _ _
      simp only [Number.truncated, Number.rescaled, Number.pow, BcStruct.toDecimal]
      rw [min_eq_right hle, Nat.sub_eq_zero_of_le hle, pow_zero, mul_one]
      rfl

/-- One divided by one, as a power: `LONG_MAX` is the one of a machine with four bytes. -/
theorem raise_one : ∃ result : Option BcNum,
    (bcRaise ⟨0x7FFFFFFF, 0x7FFFFFFF, le_refl _⟩ one.toBcStruct one.toBcStruct 3).result = result.map toBcStruct ∧
      result.map (·.toDecimal) = one.toDecimal.power 3 1 :=
  toDecimal_raise one one _ 3 (by decide)

end BcNum

end BcNumber

end DeviceDriverTest
