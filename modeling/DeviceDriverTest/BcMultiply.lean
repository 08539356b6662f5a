import DeviceDriverTest.BcOrder

/-! The product of two numbers of `bc`: the columns of the short ones, the halves of the long ones, and the
digits that are kept. -/

namespace DeviceDriverTest

namespace BcNumber

open DigitRows PositionalArithmetic

open Nat (ofDigits)

def MUL_BASE_DIGITS : Nat := 80

def mulBaseDigits : Nat := MUL_BASE_DIGITS

def MUL_SMALL_DIGITS : Nat := mulBaseDigits / 4

/-- A number that lies in the digits of another one. -/
def newSubNum (length scale : Nat) (value : List Nat) : BcStruct := ⟨.PLUS, length, scale, value.take (length + scale)⟩

def simpMul (n1 : BcStruct) (n1len : Nat) (n2 : BcStruct) (n2len : Nat) : BcStruct where
  nSign := .PLUS
  nLen := n1len + n2len + 1
  nScale := 0
  nValue := (carryColumns BASE 0 (columns (n1.nValue.take n1len).reverse (n2.nValue.take n2len).reverse)).reverse

/-- The digits of `val` that go into the accumulator: all but a leading zero. -/
def addsubCount (val : BcStruct) : Nat := if val.nValue.headD 0 = 0 then val.nLen - 1 else val.nLen

/-- There is no result where the assertion fails. Past the digits of `val` the carry, or what is borrowed,
goes on, inside of the accumulator. -/
def shiftAddsub (accum val : BcStruct) (shift : Nat) (sub : Bool) : Option BcStruct :=
  let count := addsubCount val
  if accum.nLen + accum.nScale ≥ shift + count then
    let upper := accum.row.drop shift
    let digits := val.row.take count
    let changed := if sub then (subRow BASE 0 upper digits).1 else (addRow BASE 0 upper digits).take upper.length
    some { accum with nValue := (accum.row.take shift ++ changed).reverse }
  else none

/-- The digits from the split point on, and those before it. -/
def splitNum (u : BcStruct) (ulen n : Nat) : BcStruct × BcStruct :=
  if ulen < n then (zero, rmLeadingZeros (newSubNum ulen 0 u.nValue))
  else (rmLeadingZeros (newSubNum (ulen - n) 0 u.nValue), rmLeadingZeros (newSubNum n 0 (u.nValue.drop (ulen - n))))

/-- There is no result, either, where the calls are nested more than `fuel` deep. -/
def recMul : Nat → BcStruct → Nat → BcStruct → Nat → Option BcStruct
  | 0, _, _, _, _ => none
  | fuel + 1, u, ulen, v, vlen =>
    if ulen + vlen < mulBaseDigits ∨ ulen < MUL_SMALL_DIGITS ∨ vlen < MUL_SMALL_DIGITS then some (simpMul u ulen v vlen)
    else do
      let n := (max ulen vlen + 1) / 2
      let u1 := (splitNum u ulen n).1
      let u0 := (splitNum u ulen n).2
      let v1 := (splitNum v vlen n).1
      let v0 := (splitNum v vlen n).2
      let m1zero := bcIsZero u1 || bcIsZero v1
      let d1 := bcSub u1 u0 0
      let d2 := bcSub v0 v1 0
      let m1 ← (if m1zero then some zero else recMul fuel u1 u1.nLen v1 v1.nLen)
      let m2 ← (if bcIsZero d1 || bcIsZero d2 then some zero else recMul fuel d1 d1.nLen d2 d2.nLen)
      let m3 ← (if bcIsZero u0 || bcIsZero v0 then some zero else recMul fuel u0 u0.nLen v0 v0.nLen)
      let prod := bcNewNum (ulen + vlen + 1) 0
      let prod ← (if m1zero then some prod else (shiftAddsub prod m1 (2 * n) false).bind (shiftAddsub · m1 n false))
      let prod ← shiftAddsub prod m3 n false
      let prod ← shiftAddsub prod m3 0 false
      shiftAddsub prod m2 n (d1.nSign ≠ d2.nSign)

def bcMultiply (n1 n2 : BcStruct) (scale : Nat) : Option BcStruct :=
  let len1 := n1.nLen + n1.nScale
  let len2 := n2.nLen + n2.nScale
  let fullScale := n1.nScale + n2.nScale
  let prodScale := min fullScale (max scale (max n1.nScale n2.nScale))
  (recMul (len1 + len2 + 1) n1 len1 n2 len2).map fun pval =>
    let nLen := len2 + len1 + 1 - fullScale
    let pval := rmLeadingZeros
      { nSign := if n1.nSign = n2.nSign then .PLUS else .MINUS
        nLen := nLen
        nScale := prodScale
        nValue := pval.nValue.take (nLen + prodScale) }
    if bcIsZero pval then { pval with nSign := .PLUS } else pval

variable {u v accum val num : BcStruct} {ulen vlen n fuel shift : Nat}

/-- The first digits of a number, as a whole number. -/
def BcStruct.first (num : BcStruct) (len : Nat) : Nat := ofDigits BASE (num.nValue.take len).reverse

theorem isRow_row (h : IsRow BASE num.nValue) : IsRow BASE num.row := isRow_reverse.mpr h

/-- A product in its full width, before anything is taken off. -/
structure Wide (prod : BcStruct) (len value : Nat) : Prop where
  size : prod.nValue.length = len
  nLen : prod.nLen = len
  nScale : prod.nScale = 0
  digits : IsRow BASE prod.nValue
  magnitude : prod.magnitude = value

theorem first_lt (hu : IsRow BASE u.nValue) (hlen : ulen ≤ u.nValue.length) : u.first ulen < BASE ^ ulen := by
  have h := ofDigits_lt one_lt_base (isRow_reverse.mpr (hu.take ulen))
  rwa [List.length_reverse, List.length_take, min_eq_left hlen] at h

theorem wide_simpMul (hu : IsRow BASE u.nValue) (hv : IsRow BASE v.nValue) (hulen : ulen ≤ u.nValue.length)
    (hvlen : vlen ≤ v.nValue.length) : Wide (simpMul u ulen v vlen) (ulen + vlen + 1) (u.first ulen * v.first vlen) := by
  have hwidth : (columns (u.nValue.take ulen).reverse (v.nValue.take vlen).reverse).length = ulen + vlen := by
    simp [min_eq_left hulen, min_eq_left hvlen]
  refine ⟨?_, rfl, rfl, isRow_reverse.mpr (isRow_carryColumns base_pos ?_), ?_⟩
  · rw [simpMul, List.length_reverse, length_carryColumns, hwidth]
  · rw [ofDigits_columns, hwidth, add_zero]
    refine (Nat.mul_lt_mul'' (first_lt hu hulen) (first_lt hv hvlen)).trans_le ?_
    rw [← pow_add]
    exact Nat.pow_le_pow_right base_pos (Nat.le_succ _)
  · rw [BcStruct.magnitude, BcStruct.row, simpMul, List.reverse_reverse, ofDigits_carryColumns, ofDigits_columns]
    rfl

/-! What is added to the accumulator, or taken from it. -/

theorem ofDigits_take_addsubCount (hsize : val.nValue.length = val.nLen) :
    ofDigits BASE (val.row.take (addsubCount val)) = val.magnitude := by
  have hlen : val.row.length = val.nLen := by rw [BcStruct.row, List.length_reverse, hsize]
  unfold addsubCount
  split
  case isTrue hhead =>
    rw [BcStruct.magnitude, BcStruct.row]
    cases hvalue : val.nValue with
    | nil => simp
    | cons d ds =>
      rw [hvalue, List.headD_cons] at hhead
      rw [hvalue, List.length_cons] at hsize
      rw [hhead, List.reverse_cons, List.take_append_of_le_length (by simp; omega), Nat.ofDigits_append_zero,
        List.take_of_length_le (by simp; omega)]
  case isFalse => rw [List.take_of_length_le hlen.le, BcStruct.magnitude]

/-- Only the digits below its magnitude are counted. -/
theorem addsubCount_le {k : Nat} (hsize : val.nValue.length = val.nLen) (hlen : val.nLen ≤ k + 1)
    (h : val.magnitude < BASE ^ k) : addsubCount val ≤ k := by
  unfold addsubCount
  split
  case isTrue => omega
  case isFalse hhead =>
    by_contra hlt
    rw [BcStruct.magnitude, BcStruct.row] at h
    cases hvalue : val.nValue with
    | nil => rw [hvalue] at hhead; exact hhead rfl
    | cons d ds =>
      rw [hvalue, List.length_cons] at hsize
      rw [hvalue, Nat.ofDigits_reverse_cons, show ds.length = k by omega] at h
      rw [hvalue, List.headD_cons] at hhead
      have hle := Nat.le_mul_of_pos_right (BASE ^ k) (Nat.pos_of_ne_zero hhead)
      omega

/-- The accumulator with other digits from the shift on. -/
theorem wide_changed {len a b : Nat} {changed : List Nat} (h : Wide accum len a) (hshift : shift ≤ len)
    (hlen : changed.length = len - shift) (hrow : IsRow BASE changed)
    (hvalue : ofDigits BASE (accum.row.take shift) + BASE ^ shift * ofDigits BASE changed = b) :
    Wide { accum with nValue := (accum.row.take shift ++ changed).reverse } len b := by
  have hwidth : accum.row.length = len := by rw [BcStruct.row, List.length_reverse, h.size]
  refine ⟨?_, h.nLen, h.nScale, ?_, ?_⟩
  · rw [List.length_reverse, List.length_append, List.length_take, hwidth, hlen]
    omega
  · exact isRow_reverse.mpr (isRow_append.mpr ⟨(isRow_row h.digits).take shift, hrow⟩)
  · rw [BcStruct.magnitude, BcStruct.row, List.reverse_reverse, Nat.ofDigits_append, List.length_take, hwidth,
      min_eq_left hshift]
    exact hvalue

theorem split_row {len a : Nat} (h : Wide accum len a) (hshift : shift ≤ len) :
    ofDigits BASE (accum.row.take shift) + BASE ^ shift * ofDigits BASE (accum.row.drop shift) = a ∧
      ofDigits BASE (accum.row.take shift) < BASE ^ shift ∧ (accum.row.drop shift).length = len - shift := by
  have hwidth : accum.row.length = len := by rw [BcStruct.row, List.length_reverse, h.size]
  have hlow := ofDigits_lt one_lt_base ((isRow_row h.digits).take shift)
  have hsplit := @ofDigits_take_drop BASE shift accum.row
  rw [List.length_take, hwidth, min_eq_left hshift] at hlow hsplit
  refine ⟨hsplit.trans h.magnitude, hlow, ?_⟩
  rw [List.length_drop, hwidth]

theorem shiftAddsub_add {len a : Nat} (h : Wide accum len a) (hsize : val.nValue.length = val.nLen)
    (hrow : IsRow BASE val.nValue) (hcount : shift + addsubCount val ≤ len)
    (hfit : a + val.magnitude * BASE ^ shift < BASE ^ len) :
    ∃ result, shiftAddsub accum val shift false = some result ∧ Wide result len (a + val.magnitude * BASE ^ shift) := by
  have hwidth : accum.nLen + accum.nScale = len := by rw [h.nLen, h.nScale, add_zero]
  obtain ⟨hsplit, -, hupper⟩ := split_row h (Nat.le_of_add_right_le hcount)
  have hsum := @ofDigits_addRow BASE 0 (accum.row.drop shift) (val.row.take (addsubCount val))
  rw [ofDigits_take_addsubCount hsize, add_zero] at hsum
  have hdigits := isRow_addRow one_lt_base (Nat.zero_le 1) ((isRow_row h.digits).drop shift)
    ((isRow_row hrow).take (addsubCount val))
  refine ⟨_, if_pos (by omega), wide_changed h (Nat.le_of_add_right_le hcount) ?_ ?_ ?_⟩
  · simp only [Bool.false_eq_true, if_false, List.length_take, length_addRow, hupper]
    omega
  · simp only [Bool.false_eq_true, if_false]
    exact IsRow.take hdigits _
  · simp only [Bool.false_eq_true, if_false, hupper]
    have hlt : ofDigits BASE (accum.row.drop shift) + val.magnitude < BASE ^ (len - shift) := by
      rw [← Nat.sub_add_cancel (Nat.le_of_add_right_le hcount), pow_add, ← hsplit] at hfit
      apply lt_of_mul_lt_mul_right (a := BASE ^ shift) _ (Nat.zero_le _)
      rw [add_mul, Nat.mul_comm (ofDigits BASE (accum.row.drop shift))]
      omega
    rw [← Nat.ofDigits_mod_pow_eq_ofDigits_take _ base_pos _ hdigits, hsum, Nat.mod_eq_of_lt hlt, ← hsplit]
    ring

theorem shiftAddsub_sub {len a : Nat} (h : Wide accum len a) (hsize : val.nValue.length = val.nLen)
    (hrow : IsRow BASE val.nValue) (hcount : shift + addsubCount val ≤ len) (hle : val.magnitude * BASE ^ shift ≤ a) :
    ∃ result, shiftAddsub accum val shift true = some result ∧ Wide result len (a - val.magnitude * BASE ^ shift) := by
  have hwidth : accum.nLen + accum.nScale = len := by rw [h.nLen, h.nScale, add_zero]
  obtain ⟨hsplit, hlow, hupper⟩ := split_row h (Nat.le_of_add_right_le hcount)
  have hrow1 : IsRow BASE (accum.row.drop shift) := (isRow_row h.digits).drop shift
  have hle' : val.magnitude ≤ ofDigits BASE (accum.row.drop shift) := by
    by_contra hlt
    have hscaled := Nat.mul_le_mul_right (BASE ^ shift) (Nat.succ_le_of_lt (not_le.mp hlt))
    rw [Nat.succ_mul, Nat.mul_comm (ofDigits BASE (accum.row.drop shift))] at hscaled
    omega
  have hdiff := ofDigits_subRow_of_le one_lt_base (Nat.zero_le 1) hrow1 ((isRow_row hrow).take (addsubCount val))
    (by rw [hupper, List.length_take]; omega) (by rw [ofDigits_take_addsubCount hsize, add_zero]; exact hle')
  rw [ofDigits_take_addsubCount hsize, add_zero] at hdiff
  refine ⟨_, if_pos (by omega), wide_changed h (Nat.le_of_add_right_le hcount) ?_ ?_ ?_⟩
  · simp only [if_true, length_subRow, hupper]
  · simp only [if_true]
    exact isRow_subRow _ _ hrow1
  · simp only [if_true]
    rw [hdiff.2, Nat.mul_sub, ← hsplit, Nat.mul_comm _ val.magnitude]
    have hscaled := Nat.mul_le_mul_right (BASE ^ shift) hle'
    rw [Nat.mul_comm (ofDigits BASE (accum.row.drop shift))] at hscaled
    omega

/-! The halves. -/

/-- A whole number below a power of the base. -/
structure Part (num : BcStruct) (k value : Nat) : Prop where
  wf : num.Wf
  nScale : num.nScale = 0
  pos : 0 < k
  magnitude : num.magnitude = value
  lt : value < BASE ^ k

namespace Part

variable {k value : Nat}

theorem nLen_le (h : Part num k value) : num.nLen ≤ k := by
  by_contra hlt
  have hpos := h.pos
  have hle := le_magnitude h.wf (by omega)
  have hpow : BASE ^ k ≤ BASE ^ (num.nLen - 1 + num.nScale) := Nat.pow_le_pow_right base_pos (by omega)
  have hvalue := h.lt
  rw [h.magnitude] at hle
  omega

theorem size (h : Part num k value) : num.nValue.length = num.nLen := by
  rw [h.wf.size, h.nScale, add_zero]

theorem first_eq (h : Part num k value) : num.first num.nLen = value := by
  rw [BcStruct.first, List.take_of_length_le h.size.le]
  exact h.magnitude

end Part

theorem bcIsZero_iff_of_size (h : num.nValue.length = num.nLen + num.nScale) : bcIsZero num = true ↔ num.magnitude = 0 := by
  have hany : bcIsZero num = !num.nValue.any (· ≠ 0) := by
    rw [bcIsZero, List.take_of_length_le h.le]
    simp [List.not_any_eq_all_not]
  rw [hany, Bool.not_eq_true', ← ofDigits_eq_zero_iff]
  rfl

theorem bcIsZero_iff (h : num.Wf) : bcIsZero num = true ↔ num.magnitude = 0 := bcIsZero_iff_of_size h.size

theorem wf_zero : zero.Wf := wf_bcNewNum 0

theorem magnitude_zero : zero.magnitude = 0 := magnitude_bcNewNum 1 0

theorem part_newSubNum {value : List Nat} {len k : Nat} (hrow : IsRow BASE value) (hlen : len ≤ value.length) (hk : 0 < k)
    (hle : len ≤ k) : Part (rmLeadingZeros (newSubNum len 0 value)) k (ofDigits BASE (value.take len).reverse) := by
  have hsize : (value.take len).length = len := by rw [List.length_take, min_eq_left hlen]
  refine ⟨wf_rmLeadingZeros ?_ (hrow.take _) fun _ => rfl, rfl, hk, ?_, ?_⟩
  · exact hsize
  · rw [magnitude_rmLeadingZeros]
    rfl
  · have hlt := ofDigits_lt one_lt_base (isRow_reverse.mpr (hrow.take len))
    rw [List.length_reverse, hsize] at hlt
    exact hlt.trans_le (Nat.pow_le_pow_right base_pos hle)

/-- The two halves make up the number, and the first is zero where there are no digits for it. -/
theorem splitNum_spec (hu : IsRow BASE u.nValue) (hlen : ulen ≤ u.nValue.length) (hpos : 0 < ulen) (hn : 0 < n) :
    ∃ high low, Part (splitNum u ulen n).1 (max 1 (ulen - n)) high ∧ Part (splitNum u ulen n).2 (min n ulen) low ∧
      u.first ulen = high * BASE ^ n + low ∧ high < BASE ^ (ulen - n) ∧
      (splitNum u ulen n).1.nSign = .PLUS ∧ (splitNum u ulen n).2.nSign = .PLUS := by
  unfold splitNum
  split
  case isTrue hlt =>
    refine ⟨0, u.first ulen, ⟨wf_zero, rfl, by omega, magnitude_zero, Nat.pow_pos base_pos⟩,
      part_newSubNum hu hlen (by omega) (by omega), by rw [zero_mul, zero_add], Nat.pow_pos base_pos, rfl, rfl⟩
  case isFalse hge =>
    have hlow := @part_newSubNum _ n (min n ulen) (hu.drop (ulen - n)) (by rw [List.length_drop]; omega) (by omega) (by omega)
    refine ⟨_, _, part_newSubNum hu (by omega) (by omega) (by omega), hlow, ?_, ?_, rfl, rfl⟩
    · have hsplit : u.nValue.take ulen = u.nValue.take (ulen - n) ++ (u.nValue.drop (ulen - n)).take n := by
        rw [← List.take_add, Nat.sub_add_cancel (by omega)]
      rw [BcStruct.first, hsplit, ofDigits_reverse_append, List.length_take, List.length_drop, min_eq_left (by omega)]
      ring
    · exact first_lt hu (by omega)

/-! The sums in the accumulator. -/

theorem accumulated_lt_of_le {U1 U0 V1 V0 : Nat} (hn : 2 * n ≤ ulen + 1) (hU0 : U0 < BASE ^ n) (hV0 : V0 < BASE ^ n)
    (hu : U1 * BASE ^ n + U0 < BASE ^ ulen) (hv : V1 * BASE ^ n + V0 < BASE ^ vlen) (hV1 : V1 ≠ 0 → n < vlen) :
    U1 * V1 * (BASE ^ (2 * n) + BASE ^ n) + U0 * V0 * (BASE ^ n + 1) < BASE ^ (ulen + vlen + 1) := by
  have hdouble : BASE ^ (2 * n) = BASE ^ n * BASE ^ n := by rw [Nat.two_mul, pow_add]
  have hsquare : BASE ^ (2 * n) ≤ BASE ^ ulen * BASE := by
    rw [← pow_succ]
    exact Nat.pow_le_pow_right base_pos hn
  have hlow : U0 * (BASE ^ n + 1) ≤ BASE ^ (2 * n) := by
    rw [hdouble]
    nlinarith
  have hlow' : U0 * V0 * (BASE ^ n + 1) ≤ BASE ^ ulen * BASE * V0 := by
    calc U0 * V0 * (BASE ^ n + 1) = U0 * (BASE ^ n + 1) * V0 := by ring
      _ ≤ BASE ^ ulen * BASE * V0 := Nat.mul_le_mul_right _ (hlow.trans hsquare)
  have hwidth : BASE ^ (ulen + vlen + 1) = BASE ^ ulen * BASE * BASE ^ vlen := by rw [pow_succ, pow_add]; ring
  have hpos : 0 < BASE ^ ulen * BASE := Nat.mul_pos (Nat.pow_pos base_pos) base_pos
  rw [hwidth]
  by_cases hzero : V1 = 0
  · rw [hzero, zero_mul, zero_add] at hv
    rw [hzero, Nat.mul_zero, zero_mul, zero_add]
    exact hlow'.trans_lt (Nat.mul_lt_mul_of_pos_left hv hpos)
  · have hshort : BASE ^ n * BASE ≤ BASE ^ vlen := by
      rw [← pow_succ]
      exact Nat.pow_le_pow_right base_pos (hV1 hzero)
    have hone : 1 ≤ BASE ^ n := Nat.pow_pos base_pos
    have hhigh : U1 * V1 * (BASE ^ (2 * n) + BASE ^ n) ≤ 2 * (BASE ^ ulen * BASE ^ vlen) := by
      calc U1 * V1 * (BASE ^ (2 * n) + BASE ^ n) ≤ U1 * V1 * (2 * (BASE ^ n * BASE ^ n)) := by
            rw [hdouble]
            exact Nat.mul_le_mul_left _ (by nlinarith)
        _ = 2 * (U1 * BASE ^ n * (V1 * BASE ^ n)) := by ring
        _ ≤ 2 * (BASE ^ ulen * BASE ^ vlen) := Nat.mul_le_mul_left _ (Nat.mul_le_mul (by omega) (by omega))
    have hlast : BASE ^ ulen * BASE * V0 ≤ BASE ^ ulen * BASE ^ vlen := by
      calc BASE ^ ulen * BASE * V0 ≤ BASE ^ ulen * BASE * BASE ^ n := Nat.mul_le_mul_left _ hV0.le
        _ = BASE ^ ulen * (BASE ^ n * BASE) := by ring
        _ ≤ BASE ^ ulen * BASE ^ vlen := Nat.mul_le_mul_left _ hshort
    have hbase : BASE ^ ulen * BASE * BASE ^ vlen = 10 * (BASE ^ ulen * BASE ^ vlen) := by
      rw [Nat.mul_right_comm, Nat.mul_comm]
      rfl
    have hprod : 0 < BASE ^ ulen * BASE ^ vlen := Nat.mul_pos (Nat.pow_pos base_pos) (Nat.pow_pos base_pos)
    omega

/-- What is added before the product of the differences leaves room in the accumulator. -/
theorem accumulated_lt {U1 U0 V1 V0 : Nat} (hn : 2 * n ≤ max ulen vlen + 1) (hU0 : U0 < BASE ^ n) (hV0 : V0 < BASE ^ n)
    (hu : U1 * BASE ^ n + U0 < BASE ^ ulen) (hv : V1 * BASE ^ n + V0 < BASE ^ vlen) (hU1 : U1 ≠ 0 → n < ulen)
    (hV1 : V1 ≠ 0 → n < vlen) :
    U1 * V1 * (BASE ^ (2 * n) + BASE ^ n) + U0 * V0 * (BASE ^ n + 1) < BASE ^ (ulen + vlen + 1) := by
  obtain hle | hle := Nat.le_total vlen ulen
  · exact accumulated_lt_of_le (by omega) hU0 hV0 hu hv hV1
  · rw [Nat.mul_comm U1, Nat.mul_comm U0, Nat.add_comm ulen]
    exact accumulated_lt_of_le (by omega) hV0 hU0 hv hu hU1

/-- The product of the differences, with its sign, completes the product. -/
theorem completed {U1 U0 V1 V0 : Nat} {D1 D2 B : Int} (hD1 : D1 = U1 - U0) (hD2 : D2 = V0 - V1) :
    (U1 * V1 * (B * B + B) + U0 * V0 * (B + 1) : Int) + D1 * D2 * B = (U1 * B + U0) * (V1 * B + V0) := by
  rw [hD1, hD2]
  ring

/-! The product of long numbers. -/

theorem magnitude_eq_natAbs (num : BcStruct) : num.magnitude = num.signed.natAbs := by
  rw [signed_eq]
  split <;> simp

theorem signed_mul (n1 n2 : BcStruct) : n1.signed * n2.signed =
    if n1.nSign = n2.nSign then (n1.magnitude * n2.magnitude : Int) else -(n1.magnitude * n2.magnitude) := by
  rw [signed_eq, signed_eq]
  cases n1.nSign <;> cases n2.nSign <;> simp

theorem Part.signed {k value : Nat} (h : Part num k value) (hsign : num.nSign = .PLUS) : num.signed = value := by
  rw [signed_of_pos hsign, h.magnitude]

/-- The difference of two halves is below the same power. -/
theorem part_bcSub {x y : BcStruct} {k l m a b : Nat} (hx : Part x k a) (hy : Part y l b) (hx' : x.nSign = .PLUS)
    (hy' : y.nSign = .PLUS) (hm : 0 < m) (ha : a < BASE ^ m) (hb : b < BASE ^ m) :
    (bcSub x y 0).signed = a - b ∧ Part (bcSub x y 0) m ((a : Int) - b).natAbs := by
  have h := stands_bcSub hx.wf hy.wf 0
  rw [hx.nScale, hy.nScale, hx.signed hx', hy.signed hy'] at h
  have hsigned : (bcSub x y 0).signed = a - b := by simpa using h.signed
  refine ⟨hsigned, h.wf, by simpa using h.scale, hm, ?_, by omega⟩
  rw [magnitude_eq_natAbs, hsigned]

/-- A product of two parts, or zero. -/
structure Product (m : BcStruct) (k value : Nat) : Prop where
  size : m.nValue.length = m.nLen
  digits : IsRow BASE m.nValue
  count : addsubCount m ≤ k
  magnitude : m.magnitude = value

def Multiplies (fuel : Nat) : Prop := ∀ u ulen v vlen, IsRow BASE u.nValue → IsRow BASE v.nValue →
  ulen ≤ u.nValue.length → vlen ≤ v.nValue.length → ulen + vlen < fuel →
    ∃ prod, recMul fuel u ulen v vlen = some prod ∧ Wide prod (ulen + vlen + 1) (u.first ulen * v.first vlen)

theorem product_of_parts {x y : BcStruct} {k l a b : Nat} (ih : Multiplies fuel) (hx : Part x k a) (hy : Part y l b)
    (hfuel : k + l < fuel) :
    ∃ m, (if bcIsZero x || bcIsZero y then some zero else recMul fuel x x.nLen y y.nLen) = some m ∧
      Product m (k + l) (a * b) := by
  split
  case isTrue hzero =>
    rw [Bool.or_eq_true, bcIsZero_iff hx.wf, bcIsZero_iff hy.wf, hx.magnitude, hy.magnitude] at hzero
    refine ⟨zero, rfl, rfl, wf_zero.digits, Nat.zero_le _, ?_⟩
    rw [magnitude_zero, eq_comm, Nat.mul_eq_zero]
    exact hzero
  case isFalse hzero =>
    have hlen1 := hx.nLen_le
    have hlen2 := hy.nLen_le
    obtain ⟨m, hm, hwide⟩ := ih x x.nLen y y.nLen hx.wf.digits hy.wf.digits hx.size.ge hy.size.ge (by omega)
    have hvalue := hwide.magnitude
    rw [hx.first_eq, hy.first_eq] at hvalue
    have hlen := hwide.nLen
    refine ⟨m, hm, hwide.size.trans hlen.symm, hwide.digits, ?_, hvalue⟩
    apply addsubCount_le (hwide.size.trans hlen.symm) (by omega)
    rw [hvalue, pow_add]
    exact Nat.mul_lt_mul'' hx.lt hy.lt

theorem add_product {len a k value : Nat} (h : Wide accum len a) (hm : Product val k value) (hcount : shift + k ≤ len)
    (hfit : a + value * BASE ^ shift < BASE ^ len) :
    ∃ result, shiftAddsub accum val shift false = some result ∧ Wide result len (a + value * BASE ^ shift) := by
  have hcounted := hm.count
  rw [← hm.magnitude] at hfit ⊢
  exact shiftAddsub_add h hm.size hm.digits (by omega) hfit

theorem sub_product {len a k value : Nat} (h : Wide accum len a) (hm : Product val k value) (hcount : shift + k ≤ len)
    (hle : value * BASE ^ shift ≤ a) :
    ∃ result, shiftAddsub accum val shift true = some result ∧ Wide result len (a - value * BASE ^ shift) := by
  have hcounted := hm.count
  rw [← hm.magnitude] at hle ⊢
  exact shiftAddsub_sub h hm.size hm.digits (by omega) hle

theorem wide_bcNewNum (len : Nat) : Wide (bcNewNum len 0) len 0 :=
  ⟨by simp [bcNewNum], rfl, rfl, isRow_replicate base_pos _, magnitude_bcNewNum len 0⟩

/-- The product of the first halves goes in twice, where there is one. -/
theorem add_first_product {x y m1 : BcStruct} {k l U1 V1 len : Nat} (hx : Part x k U1) (hy : Part y l V1)
    (hm : Product m1 (k + l) (U1 * V1)) (hcount : U1 ≠ 0 → V1 ≠ 0 → 2 * n + (k + l) ≤ len)
    (hfit : U1 * V1 * (BASE ^ (2 * n) + BASE ^ n) < BASE ^ len) :
    ∃ prod, (if bcIsZero x || bcIsZero y then some (bcNewNum len 0)
        else (shiftAddsub (bcNewNum len 0) m1 (2 * n) false).bind (shiftAddsub · m1 n false)) = some prod ∧
      Wide prod len (U1 * V1 * (BASE ^ (2 * n) + BASE ^ n)) := by
  split
  case isTrue hzero =>
    rw [Bool.or_eq_true, bcIsZero_iff hx.wf, bcIsZero_iff hy.wf, hx.magnitude, hy.magnitude] at hzero
    rw [Nat.mul_eq_zero.mpr hzero, zero_mul]
    exact ⟨_, rfl, wide_bcNewNum len⟩
  case isFalse hzero =>
    rw [Bool.or_eq_true, bcIsZero_iff hx.wf, bcIsZero_iff hy.wf, hx.magnitude, hy.magnitude] at hzero
    have hlen := hcount (fun h => hzero (Or.inl h)) (fun h => hzero (Or.inr h))
    rw [mul_add] at hfit ⊢
    obtain ⟨first, hfirst, hwide⟩ := @add_product _ _ (2 * n) _ _ _ _ (wide_bcNewNum len) hm hlen (by omega)
    rw [hfirst, Option.bind_some]
    rw [zero_add] at hwide
    exact add_product hwide hm (by omega) hfit

/-- A product computed from halves is the product, and no assertion fails on the way. -/
theorem multiplies (fuel : Nat) : Multiplies fuel := by
  induction fuel with
  | zero =>
    intro u ulen v vlen _ _ _ _ hfuel
    exact absurd hfuel (Nat.not_lt_zero _)
  | succ fuel ih =>
    intro u ulen v vlen hu hv hulen hvlen hfuel
    rw [recMul]
    split
    case isTrue => exact ⟨_, rfl, wide_simpMul hu hv hulen hvlen⟩
    case isFalse hlong =>
      simp only [MUL_SMALL_DIGITS, mulBaseDigits, MUL_BASE_DIGITS, not_or, not_lt] at hlong
      obtain ⟨hsum, hlong1, hlong2⟩ := hlong
      generalize hn : (max ulen vlen + 1) / 2 = n
      obtain ⟨U1, U0, hu1, hu0, hufirst, hU1, hu1sign, hu0sign⟩ := @splitNum_spec _ _ n hu hulen (by omega) (by omega)
      obtain ⟨V1, V0, hv1, hv0, hvfirst, hV1, hv1sign, hv0sign⟩ := @splitNum_spec _ _ n hv hvlen (by omega) (by omega)
      have hufits := first_lt hu hulen
      have hvfits := first_lt hv hvlen
      rw [hufirst] at hufits
      rw [hvfirst] at hvfits
      -- the halves, and the differences of the halves, are below the powers that the widths leave room for
      have hU1' : U1 < BASE ^ min n ulen := hU1.trans_le (Nat.pow_le_pow_right base_pos (by omega))
      have hV1' : V1 < BASE ^ min n vlen := hV1.trans_le (Nat.pow_le_pow_right base_pos (by omega))
      have hU1pos : U1 ≠ 0 → n < ulen := by
        intro hne
        by_contra hle
        rw [Nat.sub_eq_zero_of_le (not_lt.mp hle), pow_zero] at hU1
        omega
      have hV1pos : V1 ≠ 0 → n < vlen := by
        intro hne
        by_contra hle
        rw [Nat.sub_eq_zero_of_le (not_lt.mp hle), pow_zero] at hV1
        omega
      obtain ⟨hd1, hpart1⟩ := part_bcSub hu1 hu0 hu1sign hu0sign (by omega) hU1' hu0.lt
      obtain ⟨hd2, hpart2⟩ := part_bcSub hv0 hv1 hv0sign hv1sign (by omega) hv0.lt hV1'
      obtain ⟨m1, hm1, hproduct1⟩ := product_of_parts ih hu1 hv1 (by omega)
      obtain ⟨m2, hm2, hproduct2⟩ := product_of_parts ih hpart1 hpart2 (by omega)
      obtain ⟨m3, hm3, hproduct3⟩ := product_of_parts ih hu0 hv0 (by omega)
      have hroom := @accumulated_lt ulen vlen n U1 U0 V1 V0 (by omega)
        (hu0.lt.trans_le (Nat.pow_le_pow_right base_pos (Nat.min_le_left _ _)))
        (hv0.lt.trans_le (Nat.pow_le_pow_right base_pos (Nat.min_le_left _ _))) hufits hvfits hU1pos hV1pos
      rw [mul_add (U0 * V0), mul_one] at hroom
      obtain ⟨p1, hp1, hwide1⟩ := @add_first_product n _ _ m1 _ _ U1 V1 (ulen + vlen + 1) hu1 hv1 hproduct1
        (fun hU hV => by have := hU1pos hU; have := hV1pos hV; omega) (by omega)
      obtain ⟨p2, hp2, hwide2⟩ := @add_product _ _ n _ _ _ _ hwide1 hproduct3 (by omega) (by omega)
      obtain ⟨p3, hp3, hwide3⟩ := @add_product _ _ 0 _ _ _ _ hwide2 hproduct3 (by omega)
        (by rw [pow_zero, mul_one]; omega)
      simp only [Option.bind_eq_bind, hm1, hm2, hm3, hp1, hp2, hp3, Option.bind_some]
      have hcomplete := @completed U1 U0 V1 V0 _ _ (BASE ^ n) hd1 hd2
      rw [signed_mul, hpart1.magnitude, hpart2.magnitude] at hcomplete
      have hdouble : BASE ^ (2 * n) = BASE ^ n * BASE ^ n := by rw [Nat.two_mul, pow_add]
      have hsum : U1 * V1 * (BASE ^ (2 * n) + BASE ^ n) + U0 * V0 * BASE ^ n + U0 * V0 * BASE ^ 0 =
          U1 * V1 * (BASE ^ n * BASE ^ n + BASE ^ n) + U0 * V0 * (BASE ^ n + 1) := by
        rw [hdouble]
        ring
      rw [hsum] at hwide3
      rw [hufirst, hvfirst]
      have hfits : (U1 * BASE ^ n + U0) * (V1 * BASE ^ n + V0) < BASE ^ (ulen + vlen + 1) := by
        refine (Nat.mul_lt_mul'' hufits hvfits).trans_le ?_
        rw [← pow_add]
        exact Nat.pow_le_pow_right base_pos (Nat.le_succ _)
      split at hcomplete
      case isTrue hsign =>
        have hvalue : U1 * V1 * (BASE ^ n * BASE ^ n + BASE ^ n) + U0 * V0 * (BASE ^ n + 1) +
            ((U1 : Int) - U0).natAbs * ((V0 : Int) - V1).natAbs * BASE ^ n = (U1 * BASE ^ n + U0) * (V1 * BASE ^ n + V0) := by
          exact_mod_cast hcomplete
        rw [← hvalue] at hfits ⊢
        rw [decide_eq_false (not_not.mpr hsign)]
        exact add_product hwide3 hproduct2 (by omega) hfits
      case isFalse hsign =>
        have hvalue : U1 * V1 * (BASE ^ n * BASE ^ n + BASE ^ n) + U0 * V0 * (BASE ^ n + 1) =
            (U1 * BASE ^ n + U0) * (V1 * BASE ^ n + V0) + ((U1 : Int) - U0).natAbs * ((V0 : Int) - V1).natAbs * BASE ^ n := by
          rw [neg_mul, ← sub_eq_add_neg, sub_eq_iff_eq_add] at hcomplete
          exact_mod_cast hcomplete
        obtain ⟨prod, hprod, hwide⟩ := @sub_product _ _ n _ _ _ _ hwide3 hproduct2 (by omega)
          (by rw [hvalue]; exact Nat.le_add_left _ _)
        rw [hvalue, Nat.add_sub_cancel] at hwide
        rw [decide_eq_true hsign]
        exact ⟨prod, hprod, hwide⟩

/-! The digits that are kept, and the sign. -/

theorem ofDigits_reverse_take {ds : List Nat} {len k : Nat} (hrow : IsRow BASE ds) (h : ds.length = len + k) :
    ofDigits BASE (ds.take len).reverse = ofDigits BASE ds.reverse / BASE ^ k := by
  rw [Nat.ofDigits_div_pow_eq_ofDigits_drop _ base_pos _ (isRow_reverse.mpr hrow), List.reverse_take, h,
    Nat.add_sub_cancel_left]

/-- The sign of a product or of a quotient. -/
def signOf (n1 n2 : BcStruct) : Sign := if n1.nSign = n2.nSign then .PLUS else .MINUS

theorem signed_signOf (n1 n2 : BcStruct) (a k : Nat) :
    (if signOf n1 n2 = .PLUS then ((a / k : Nat) : Int) else -((a / k : Nat) : Int)) =
      (if n1.nSign = n2.nSign then (a : Int) else -a).tdiv k := by
  unfold signOf
  split
  · simp
  · simp [Int.neg_tdiv]

/-- A zero has lost its sign. -/
def Unsigned (num : BcStruct) : Prop := num.magnitude = 0 → num.nSign = .PLUS

theorem stands_unsigned {scale : Nat} {value : Int} (h : Stands num scale value) :
    Stands (if bcIsZero num then { num with nSign := .PLUS } else num) scale value ∧
      Unsigned (if bcIsZero num then { num with nSign := .PLUS } else num) := by
  split
  case isTrue hzero =>
    rw [bcIsZero_iff h.wf] at hzero
    refine ⟨⟨h.wf.withSign .PLUS, h.len_pos, h.scale, ?_⟩, fun _ => rfl⟩
    have hsigned := h.signed
    rw [signed_eq, hzero] at hsigned
    rw [signed_withSign, if_pos rfl, hzero, ← hsigned]
    split <;> rfl
  case isFalse hzero =>
    rw [bcIsZero_iff h.wf] at hzero
    exact ⟨h, fun hmag => absurd hmag hzero⟩

/-- The product is cut to the scale that is asked for, or to that of the longer fraction, where it has more digits. -/
theorem stands_bcMultiply {n1 n2 : BcStruct} (h1 : n1.Wf) (h2 : n2.Wf) (scale : Nat) :
    ∃ result, bcMultiply n1 n2 scale = some result ∧
      Stands result (min (n1.nScale + n2.nScale) (max scale (max n1.nScale n2.nScale)))
        ((n1.signed * n2.signed).tdiv
          (BASE ^ (n1.nScale + n2.nScale - min (n1.nScale + n2.nScale) (max scale (max n1.nScale n2.nScale))))) ∧
      Unsigned result := by
  generalize hprod : min (n1.nScale + n2.nScale) (max scale (max n1.nScale n2.nScale)) = prodScale
  obtain ⟨pval, hpval, hwide⟩ := multiplies (n1.nLen + n1.nScale + (n2.nLen + n2.nScale) + 1) n1 (n1.nLen + n1.nScale) n2
    (n2.nLen + n2.nScale) h1.digits h2.digits h1.size.ge h2.size.ge (Nat.lt_succ_self _)
  simp only [bcMultiply, hpval, Option.map_some, hprod]
  have hlen : n2.nLen + n2.nScale + (n1.nLen + n1.nScale) + 1 - (n1.nScale + n2.nScale) = n1.nLen + n2.nLen + 1 := by omega
  have hkept : pval.nValue.length = n1.nLen + n2.nLen + 1 + prodScale + (n1.nScale + n2.nScale - prodScale) := by
    rw [hwide.size]
    omega
  rw [hlen]
  refine ⟨_, rfl, stands_unsigned ⟨wf_rmLeadingZeros ?_ (hwide.digits.take _) nofun, nLen_rmLeadingZeros_pos (Nat.succ_pos _), rfl, ?_⟩⟩
  · rw [List.length_take, min_eq_left (by omega)]
  · have hfirst : ∀ num : BcStruct, num.Wf → num.first (num.nLen + num.nScale) = num.magnitude := by
      intro num h
      rw [BcStruct.first, List.take_of_length_le h.size.le]
      rfl
    have hmag := hwide.magnitude
    rw [hfirst n1 h1, hfirst n2 h2] at hmag
    have hcut := ofDigits_reverse_take hwide.digits hkept
    have hsign := signed_signOf n1 n2 pval.magnitude (BASE ^ (n1.nScale + n2.nScale - prodScale))
    rw [hmag, Nat.cast_mul, Nat.cast_pow] at hsign
    rw [signed_eq, magnitude_rmLeadingZeros, signed_mul, BcStruct.magnitude, BcStruct.row, hcut, ← BcStruct.row,
      ← BcStruct.magnitude, hmag]
    exact hsign

namespace BcNum

variable (x y : BcNum) (scale : Nat)

/-- The product of the decimals, cut off where the larger of the scale and the two of the factors ends; and no
assertion fails on the way. -/
theorem toDecimal_multiply : ∃ prod : BcNum, bcMultiply x.toBcStruct y.toBcStruct scale = some prod.toBcStruct ∧
    prod.toDecimal =
      (x.toDecimal.mul y.toDecimal).truncated (min (x.nScale + y.nScale) (max scale (max x.nScale y.nScale))) := by
  obtain ⟨result, hresult, hstands, -⟩ := stands_bcMultiply x.wf y.wf scale
  refine ⟨ofStands hstands, hresult, hstands.toDecimal.trans ?_⟩
  have hle : min (x.nScale + y.nScale) (max scale (max x.nScale y.nScale)) - (x.nScale + y.nScale) = 0 :=
    Nat.sub_eq_zero_of_le (min_le_left _ _)
  simp only [Number.truncated, Number.rescaled, Number.mul, BcStruct.toDecimal]
  rw [hle, pow_zero, mul_one]
  rfl

end BcNum

end BcNumber

end DeviceDriverTest
