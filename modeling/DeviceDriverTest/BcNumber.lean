import DeviceDriverTest.DigitRows
import DeviceDriverTest.PositionalArithmetic

/-! The numbers of `bc`: a sign, and the digits before and behind the point, with the routines that
compare, add and subtract them. The sum and the difference of the magnitudes. -/

namespace DeviceDriverTest

namespace BcNumber

open DigitRows PositionalArithmetic

open Nat (ofDigits)

inductive Sign where
  | PLUS
  | MINUS
  deriving DecidableEq

def BASE : Nat := 10

/-- `bc_struct`, without the references to it and without its storage: `nValue` is what the pointer reaches. -/
structure BcStruct where
  nSign : Sign
  nLen : Nat
  nScale : Nat
  nValue : List Nat
  deriving DecidableEq

def bcNewNum (length scale : Nat) : BcStruct := ⟨.PLUS, length, scale, List.replicate (length + scale) 0⟩

def zero : BcStruct := bcNewNum 1 0

def one : BcStruct := { bcNewNum 1 0 with nValue := [1] }

def two : BcStruct := { bcNewNum 1 0 with nValue := [2] }

/-- The pointer moves to the first digit that is not zero, or to the last of them. -/
def trim : Nat → List Nat → Nat × List Nat
  | len + 2, 0 :: ds => trim (len + 1) ds
  | len, ds => (len, ds)

def rmLeadingZeros (num : BcStruct) : BcStruct where
  nSign := num.nSign
  nLen := (trim num.nLen num.nValue).1
  nScale := num.nScale
  nValue := (trim num.nLen num.nValue).2

/-- The loop over the digits that agree: how many are left to compare, and where the pointers are. -/
def equalRun : Nat → List Nat → List Nat → Nat × List Nat × List Nat
  | count + 1, d :: ds, e :: es => if d = e then equalRun count ds es else (count + 1, d :: ds, e :: es)
  | count, ds, es => (count, ds, es)

/-- The result `-1` is `lt`, and `1` is `gt`. -/
def doCompare (n1 n2 : BcStruct) (useSign ignoreLast : Bool) : Ordering :=
  if useSign && n1.nSign != n2.nSign then
    if n1.nSign = .PLUS then .gt else .lt
  else
    let greater := if !useSign || n1.nSign = .PLUS then Ordering.gt else .lt
    let less := if !useSign || n1.nSign = .PLUS then Ordering.lt else .gt
    if n1.nLen ≠ n2.nLen then
      if n1.nLen > n2.nLen then greater else less
    else
      let run := equalRun (n1.nLen + min n1.nScale n2.nScale) n1.nValue n2.nValue
      if ignoreLast && run.1 = 1 && n1.nScale = n2.nScale then .eq
      else if run.1 ≠ 0 then
        if run.2.1.headD 0 > run.2.2.headD 0 then greater else less
      else if n1.nScale > n2.nScale then
        if (run.2.1.take (n1.nScale - n2.nScale)).any (· ≠ 0) then greater else .eq
      else if (run.2.2.take (n2.nScale - n1.nScale)).any (· ≠ 0) then less else .eq

def bcCompare (n1 n2 : BcStruct) : Ordering := doCompare n1 n2 true false

def bcIsNeg (num : BcStruct) : Bool := num.nSign = .MINUS

def bcIsZero (num : BcStruct) : Bool := (num.nValue.take (num.nLen + num.nScale)).all (· = 0)

/-- The digits from the last one on, as the loops go through them. -/
def BcStruct.row (num : BcStruct) : List Nat := num.nValue.reverse

/-- The digits of the sum, the last one first. -/
def addedRow (n1 n2 : BcStruct) (scaleMin : Nat) : List Nat :=
  let sumScale := max n1.nScale n2.nScale
  -- the longer fraction is copied as far as the other one has no digits
  let copied := n1.row.take (n1.nScale - n2.nScale) ++ n2.row.take (n2.nScale - n1.nScale)
  List.replicate (scaleMin - sumScale) 0 ++ copied ++
    addRow BASE 0 (n1.row.drop (n1.nScale - n2.nScale)) (n2.row.drop (n2.nScale - n1.nScale))

def doAdd (n1 n2 : BcStruct) (scaleMin : Nat) : BcStruct :=
  rmLeadingZeros
    { nSign := .PLUS
      nLen := max n1.nLen n2.nLen + 1
      nScale := max (max n1.nScale n2.nScale) scaleMin
      nValue := (addedRow n1 n2 scaleMin).reverse }

/-- The digits of the difference, the last one first. -/
def subtractedRow (n1 n2 : BcStruct) (scaleMin : Nat) : List Nat :=
  let diffScale := max n1.nScale n2.nScale
  let minScale := min n1.nScale n2.nScale
  let low :=
    if n1.nScale ≠ minScale then (n1.row.take (n1.nScale - minScale), 0)
    else subRow BASE 0 (List.replicate (n2.nScale - minScale) 0) (n2.row.take (n2.nScale - minScale))
  -- the digits that both have, and then those that only the first has
  let high := subRow BASE low.2 (n1.row.drop (n1.nScale - minScale)) (n2.row.drop (n2.nScale - minScale))
  List.replicate (scaleMin - diffScale) 0 ++ low.1 ++ high.1

def doSub (n1 n2 : BcStruct) (scaleMin : Nat) : BcStruct :=
  rmLeadingZeros
    { nSign := .PLUS
      nLen := max n1.nLen n2.nLen
      nScale := max (max n1.nScale n2.nScale) scaleMin
      nValue := (subtractedRow n1 n2 scaleMin).reverse }

def bcSub (n1 n2 : BcStruct) (scaleMin : Nat) : BcStruct :=
  if n1.nSign ≠ n2.nSign then { doAdd n1 n2 scaleMin with nSign := n1.nSign }
  else
    match doCompare n1 n2 false false with
    | .lt => { doSub n2 n1 scaleMin with nSign := if n2.nSign = .PLUS then .MINUS else .PLUS }
    | .eq => bcNewNum 1 (max scaleMin (max n1.nScale n2.nScale))
    | .gt => { doSub n1 n2 scaleMin with nSign := n1.nSign }

def bcAdd (n1 n2 : BcStruct) (scaleMin : Nat) : BcStruct :=
  if n1.nSign = n2.nSign then { doAdd n1 n2 scaleMin with nSign := n1.nSign }
  else
    match doCompare n1 n2 false false with
    | .lt => { doSub n2 n1 scaleMin with nSign := n2.nSign }
    | .eq => bcNewNum 1 (max scaleMin (max n1.nScale n2.nScale))
    | .gt => { doSub n1 n2 scaleMin with nSign := n1.nSign }

namespace BcStruct

/-- What every number keeps to: the digits are there, they are digits, and no zero leads a longer number.
A number without digits before the point, a slice in the midst of a product, has none behind it either. -/
structure Wf (num : BcStruct) : Prop where
  size : num.nValue.length = num.nLen + num.nScale
  digits : IsRow BASE num.nValue
  trimmed : num.nLen ≤ 1 ∨ num.nValue.headD 0 ≠ 0
  slice : num.nLen = 0 → num.nScale = 0

/-- The digits as a whole number, without the point. -/
def magnitude (num : BcStruct) : Nat := ofDigits BASE num.row

def signed (num : BcStruct) : Int := if num.nSign = .PLUS then num.magnitude else -num.magnitude

def toDecimal (num : BcStruct) : Decimal := ⟨num.signed, num.nScale⟩

end BcStruct

/-- A number as the routines give it back. -/
structure BcNum extends BcStruct where
  wf : toBcStruct.Wf
  len_pos : 0 < nLen

variable {n1 n2 num : BcStruct} {scaleMin : Nat}

theorem one_lt_base : 1 < BASE := by decide

theorem base_pos : 0 < BASE := by decide

def BcNum.one : BcNum where
  toBcStruct := BcNumber.one
  wf := ⟨rfl, isRow_cons.mpr ⟨one_lt_base, isRow_nil⟩, Or.inl (le_refl 1), nofun⟩
  len_pos := Nat.one_pos

theorem BcStruct.Wf.row (h : num.Wf) : IsRow BASE num.row := isRow_reverse.mpr h.digits

theorem BcStruct.Wf.length_row (h : num.Wf) : num.row.length = num.nLen + num.nScale := by
  rw [BcStruct.row, List.length_reverse, h.size]

theorem BcStruct.Wf.magnitude_lt (h : num.Wf) : num.magnitude < BASE ^ (num.nLen + num.nScale) := by
  rw [← h.length_row]
  exact ofDigits_lt one_lt_base h.row

theorem le_magnitude (h : num.Wf) (hlen : 1 < num.nLen) : BASE ^ (num.nLen - 1 + num.nScale) ≤ num.magnitude := by
  obtain hle | hhead := h.trimmed
  · omega
  have hsize := h.size
  rw [BcStruct.magnitude, BcStruct.row]
  cases hvalue : num.nValue with
  | nil => rw [hvalue] at hhead; exact absurd rfl hhead
  | cons d ds =>
    rw [hvalue, List.headD_cons] at hhead
    rw [hvalue, List.length_cons] at hsize
    rw [Nat.ofDigits_reverse_cons, show num.nLen - 1 + num.nScale = ds.length by omega]
    exact (Nat.le_mul_of_pos_right _ (Nat.pos_of_ne_zero hhead)).trans (Nat.le_add_left _ _)

/-! Leading zeros. -/

theorem trim_spec (len : Nat) (ds : List Nat) :
    ∃ k, ds = List.replicate k 0 ++ (trim len ds).2 ∧ len = k + (trim len ds).1 ∧
      ((trim len ds).1 ≤ 1 ∨ (trim len ds).2.headD 0 ≠ 0 ∨ (trim len ds).2 = []) ∧ (0 < len → 0 < (trim len ds).1) := by
  fun_induction trim len ds with
  | case1 len ds ih =>
    obtain ⟨k, hds, hlen, htrim, hpos⟩ := ih
    refine ⟨k + 1, ?_, by omega, htrim, fun _ => hpos (Nat.succ_pos len)⟩
    rw [List.replicate_succ, List.cons_append, ← hds]
  | case2 len ds hzero =>
    refine ⟨0, rfl, (Nat.zero_add len).symm, ?_, id⟩
    match len, ds, hzero with
    | 0, _, _ => exact Or.inl (Nat.zero_le 1)
    | 1, _, _ => exact Or.inl (le_refl 1)
    | _ + 2, [], _ => exact Or.inr (Or.inr rfl)
    | len + 2, d :: ds, hzero => exact Or.inr (Or.inl fun hd => hzero len ds rfl (congrArg (· :: ds) hd))

theorem magnitude_rmLeadingZeros (num : BcStruct) : (rmLeadingZeros num).magnitude = num.magnitude := by
  obtain ⟨k, hds, -⟩ := trim_spec num.nLen num.nValue
  rw [BcStruct.magnitude, BcStruct.magnitude, BcStruct.row, BcStruct.row, hds, List.reverse_append, List.reverse_replicate,
    Nat.ofDigits_append_replicate_zero]
  rfl

@[simp] theorem nSign_rmLeadingZeros (num : BcStruct) : (rmLeadingZeros num).nSign = num.nSign := rfl

@[simp] theorem nScale_rmLeadingZeros (num : BcStruct) : (rmLeadingZeros num).nScale = num.nScale := rfl

theorem nLen_rmLeadingZeros_le (num : BcStruct) : (rmLeadingZeros num).nLen ≤ num.nLen := by
  obtain ⟨k, -, hlen, -⟩ := trim_spec num.nLen num.nValue
  exact hlen ▸ Nat.le_add_left _ k

theorem nLen_rmLeadingZeros_pos (h : 0 < num.nLen) : 0 < (rmLeadingZeros num).nLen := by
  obtain ⟨k, -, -, -, hpos⟩ := trim_spec num.nLen num.nValue
  exact hpos h

theorem wf_rmLeadingZeros (hsize : num.nValue.length = num.nLen + num.nScale) (hdigits : IsRow BASE num.nValue)
    (hslice : num.nLen = 0 → num.nScale = 0) : (rmLeadingZeros num).Wf := by
  obtain ⟨k, hds, hlen, htrim, hpos⟩ := trim_spec num.nLen num.nValue
  have hsize' : (trim num.nLen num.nValue).2.length = (trim num.nLen num.nValue).1 + num.nScale := by
    have hcount := congrArg List.length hds
    rw [List.length_append, List.length_replicate] at hcount
    omega
  refine ⟨hsize', ?_, ?_, ?_⟩
  · rw [hds, isRow_append] at hdigits
    exact hdigits.2
  · obtain hle | hhead | hnil := htrim
    · exact Or.inl hle
    · exact Or.inr hhead
    · rw [hnil, List.length_nil] at hsize'
      exact Or.inl (show (trim num.nLen num.nValue).1 ≤ 1 by omega)
  · intro hzero
    exact hslice (Nat.eq_zero_of_not_pos fun hlen => (hpos hlen).ne' hzero)

/-! The sum of the magnitudes. -/

/-- A copied part of the longer row, and the sum of what is left, are the sum at the scale of the longer row. -/
theorem ofDigits_addRow_drop (xs ys : List Nat) {k : Nat} (hk : k ≤ xs.length) :
    ofDigits BASE (xs.take k ++ addRow BASE 0 (xs.drop k) ys) = ofDigits BASE xs + ofDigits BASE ys * BASE ^ k := by
  have hsplit := @ofDigits_take_drop BASE k xs
  rw [List.length_take, min_eq_left hk] at hsplit
  rw [Nat.ofDigits_append, ofDigits_addRow, List.length_take, min_eq_left hk, ← hsplit]
  ring

theorem addRow_comm (c : Nat) (xs ys : List Nat) : addRow BASE c xs ys = addRow BASE c ys xs := by
  induction xs generalizing c ys with
  | nil => cases ys <;> rfl
  | cons x xs ih =>
    cases ys with
    | nil => rfl
    | cons y ys => rw [addRow, addRow, ih, Nat.add_comm x y]

theorem magnitude_doAdd (h1 : n1.Wf) (h2 : n2.Wf) : (doAdd n1 n2 scaleMin).magnitude =
    (n1.magnitude * BASE ^ (n2.nScale - n1.nScale) + n2.magnitude * BASE ^ (n1.nScale - n2.nScale)) *
      BASE ^ (scaleMin - max n1.nScale n2.nScale) := by
  have hlen1 := h1.length_row
  have hlen2 := h2.length_row
  rw [doAdd, magnitude_rmLeadingZeros, BcStruct.magnitude, BcStruct.row, List.reverse_reverse, addedRow, List.append_assoc,
    Nat.ofDigits_append, List.length_replicate, Nat.ofDigits_replicate_zero, zero_add, Nat.mul_comm]
  congr 1
  obtain hle | hle := Nat.le_total n2.nScale n1.nScale
  · rw [Nat.sub_eq_zero_of_le hle, List.take_zero, List.append_nil, List.drop_zero,
      ofDigits_addRow_drop _ _ (by omega), pow_zero, mul_one]
    rfl
  · rw [Nat.sub_eq_zero_of_le hle, List.take_zero, List.nil_append, List.drop_zero, addRow_comm,
      ofDigits_addRow_drop _ _ (by omega), pow_zero, mul_one, add_comm]
    rfl

theorem length_addedRow (h1 : n1.Wf) (h2 : n2.Wf) :
    (addedRow n1 n2 scaleMin).length = max n1.nLen n2.nLen + 1 + max (max n1.nScale n2.nScale) scaleMin := by
  have hlen1 := h1.length_row
  have hlen2 := h2.length_row
  simp only [addedRow, List.length_append, List.length_replicate, List.length_take, length_addRow, List.length_drop]
  omega

theorem isRow_addedRow (h1 : n1.Wf) (h2 : n2.Wf) : IsRow BASE (addedRow n1 n2 scaleMin) := by
  simp only [addedRow, isRow_append]
  exact ⟨⟨isRow_replicate base_pos _, h1.row.take _, h2.row.take _⟩,
    isRow_addRow one_lt_base (Nat.zero_le 1) (h1.row.drop _) (h2.row.drop _)⟩

theorem wf_doAdd (h1 : n1.Wf) (h2 : n2.Wf) : (doAdd n1 n2 scaleMin).Wf := by
  apply wf_rmLeadingZeros
  · simpa using length_addedRow h1 h2
  · exact isRow_reverse.mpr (isRow_addedRow h1 h2)
  · exact nofun

/-! The difference of the magnitudes. -/

theorem ofDigits_subRow_drop {xs ys : List Nat} {k : Nat} (hx : IsRow BASE xs) (hy : IsRow BASE ys) (hk : k ≤ xs.length)
    (hlen : ys.length ≤ xs.length - k) (h : ofDigits BASE ys * BASE ^ k ≤ ofDigits BASE xs) :
    ofDigits BASE (xs.take k ++ (subRow BASE 0 (xs.drop k) ys).1) = ofDigits BASE xs - ofDigits BASE ys * BASE ^ k := by
  have hsplit := @ofDigits_take_drop BASE k xs
  rw [List.length_take, min_eq_left hk] at hsplit
  have htake := ofDigits_lt one_lt_base (hx.take k)
  rw [List.length_take, min_eq_left hk] at htake
  have hle : ofDigits BASE ys ≤ ofDigits BASE (xs.drop k) := by
    by_contra hlt
    have hscaled := Nat.mul_le_mul_right (BASE ^ k) (Nat.succ_le_of_lt (not_le.mp hlt))
    rw [Nat.succ_mul, Nat.mul_comm (ofDigits BASE (xs.drop k))] at hscaled
    omega
  obtain ⟨-, hrest⟩ := ofDigits_subRow_of_le one_lt_base (Nat.zero_le 1) (hx.drop k) hy
    (by rw [List.length_drop]; exact hlen) (show ofDigits BASE ys + 0 ≤ _ by omega)
  have hscaled := Nat.mul_le_mul_left (BASE ^ k) hle
  rw [Nat.ofDigits_append, hrest, List.length_take, min_eq_left hk, Nat.add_zero, Nat.mul_sub, Nat.mul_comm (ofDigits BASE ys)]
  omega

/-- Digits that the first row does not have count as zeros. -/
theorem ofDigits_subRow_zeros {xs ys : List Nat} {k : Nat} (hx : IsRow BASE xs) (hy : IsRow BASE ys) (hk : k ≤ ys.length)
    (hlen : ys.length - k ≤ xs.length) (h : ofDigits BASE ys ≤ ofDigits BASE xs * BASE ^ k) :
    let low := subRow BASE 0 (List.replicate k 0) (ys.take k)
    ofDigits BASE (low.1 ++ (subRow BASE low.2 xs (ys.drop k)).1) = ofDigits BASE xs * BASE ^ k - ofDigits BASE ys := by
  intro low
  have hsplit := @ofDigits_take_drop BASE k ys
  rw [List.length_take, min_eq_left hk] at hsplit
  have hlow : ofDigits BASE low.1 + ofDigits BASE (ys.take k) + 0 = _ :=
    ofDigits_subRow base_pos (Nat.zero_le 1) (hy.take k) (by simp)
  have hone : low.2 ≤ 1 := subRow_le_one (Nat.zero_le 1) _ _
  rw [Nat.ofDigits_replicate_zero, List.length_replicate, zero_add, add_zero] at hlow
  have hlowlt := ofDigits_lt one_lt_base (isRow_subRow 0 (ys.take k) (isRow_replicate base_pos k))
  rw [length_subRow, List.length_replicate] at hlowlt
  have hle : ofDigits BASE (ys.drop k) + low.2 ≤ ofDigits BASE xs := by
    by_contra hlt
    have hscaled := Nat.mul_le_mul_left (BASE ^ k) (Nat.succ_le_of_lt (not_le.mp hlt))
    rw [Nat.mul_succ, Nat.mul_add, ← hlow, Nat.mul_comm (BASE ^ k) (ofDigits BASE xs)] at hscaled
    change ofDigits BASE low.1 < BASE ^ k at hlowlt
    omega
  obtain ⟨-, hrest⟩ := ofDigits_subRow_of_le one_lt_base hone hx (hy.drop k)
    (by rw [List.length_drop]; exact hlen) hle
  have hscaled := Nat.mul_le_mul_left (BASE ^ k) hle
  have hwidth : low.1.length = k := by simp [low]
  rw [Nat.ofDigits_append, hwidth, hrest, Nat.mul_sub, Nat.mul_add, ← hlow, Nat.mul_comm (BASE ^ k) (ofDigits BASE xs)]
  rw [Nat.mul_add, ← hlow, Nat.mul_comm (BASE ^ k) (ofDigits BASE xs)] at hscaled
  omega

/-- The magnitudes at the larger of the two scales. -/
def BcStruct.Le (n1 n2 : BcStruct) : Prop :=
  n1.magnitude * BASE ^ (n2.nScale - n1.nScale) ≤ n2.magnitude * BASE ^ (n1.nScale - n2.nScale)

/-- A smaller number has no more digits before the point. -/
theorem nLen_le (h1 : n1.Wf) (h2 : n2.Wf) (hlen : 0 < n1.nLen) (h : n2.Le n1) : n2.nLen ≤ n1.nLen := by
  by_contra hlt
  have hlow := Nat.mul_le_mul_right (BASE ^ (n1.nScale - n2.nScale)) (le_magnitude h2 (by omega))
  have hhigh := Nat.mul_lt_mul_of_pos_right h1.magnitude_lt (Nat.pow_pos base_pos (n := n2.nScale - n1.nScale))
  rw [← pow_add] at hlow hhigh
  have hexp : BASE ^ (n1.nLen + n1.nScale + (n2.nScale - n1.nScale)) ≤
      BASE ^ (n2.nLen - 1 + n2.nScale + (n1.nScale - n2.nScale)) := Nat.pow_le_pow_right base_pos (by omega)
  have hle : n2.magnitude * BASE ^ (n1.nScale - n2.nScale) ≤ n1.magnitude * BASE ^ (n2.nScale - n1.nScale) := h
  omega

theorem length_subtractedRow (h1 : n1.Wf) (h2 : n2.Wf) (hlen : n2.nLen ≤ n1.nLen) :
    (subtractedRow n1 n2 scaleMin).length = max n1.nLen n2.nLen + max (max n1.nScale n2.nScale) scaleMin := by
  have hlen1 := h1.length_row
  have hlen2 := h2.length_row
  simp only [subtractedRow, List.length_append, List.length_replicate, length_subRow, List.length_drop]
  split
  · simp only [List.length_take]
    omega
  · simp only [length_subRow, List.length_replicate]
    omega

theorem isRow_subtractedRow (h1 : n1.Wf) : IsRow BASE (subtractedRow n1 n2 scaleMin) := by
  simp only [subtractedRow, isRow_append]
  refine ⟨⟨isRow_replicate base_pos _, ?_⟩, isRow_subRow _ _ (h1.row.drop _)⟩
  split
  · exact h1.row.take _
  · exact isRow_subRow _ _ (isRow_replicate base_pos _)

theorem wf_doSub (h1 : n1.Wf) (h2 : n2.Wf) (hpos : 0 < n1.nLen) (hlen : n2.nLen ≤ n1.nLen) :
    (doSub n1 n2 scaleMin).Wf := by
  apply wf_rmLeadingZeros
  · simpa using length_subtractedRow h1 h2 hlen
  · exact isRow_reverse.mpr (isRow_subtractedRow h1)
  · intro hzero
    exact absurd (hpos.trans_le (Nat.le_max_left _ n2.nLen)) hzero.not_gt

theorem magnitude_doSub (h1 : n1.Wf) (h2 : n2.Wf) (hlen : n2.nLen ≤ n1.nLen) (h : n2.Le n1) :
    (doSub n1 n2 scaleMin).magnitude =
      (n1.magnitude * BASE ^ (n2.nScale - n1.nScale) - n2.magnitude * BASE ^ (n1.nScale - n2.nScale)) *
        BASE ^ (scaleMin - max n1.nScale n2.nScale) := by
  have hlen1 := h1.length_row
  have hlen2 := h2.length_row
  rw [doSub, magnitude_rmLeadingZeros, BcStruct.magnitude, BcStruct.row, List.reverse_reverse, subtractedRow,
    List.append_assoc, Nat.ofDigits_append, List.length_replicate, Nat.ofDigits_replicate_zero, zero_add, Nat.mul_comm]
  congr 1
  obtain hle | hlt := Nat.lt_or_ge n2.nScale n1.nScale |>.symm
  · rw [min_eq_left hle, if_neg (not_not.mpr rfl), Nat.sub_self, List.drop_zero, Nat.sub_eq_zero_of_le hle, pow_zero, mul_one]
    have hle' : n2.magnitude ≤ n1.magnitude * BASE ^ (n2.nScale - n1.nScale) := by
      simpa [BcStruct.Le, Nat.sub_eq_zero_of_le hle] using h
    exact ofDigits_subRow_zeros h1.row h2.row (by omega) (by omega) hle'
  · rw [min_eq_right hlt.le, if_pos hlt.ne', Nat.sub_self, List.drop_zero, Nat.sub_eq_zero_of_le hlt.le, pow_zero, mul_one]
    have hle' : n2.magnitude * BASE ^ (n1.nScale - n2.nScale) ≤ n1.magnitude := by
      simpa [BcStruct.Le, Nat.sub_eq_zero_of_le hlt.le] using h
    exact ofDigits_subRow_drop h1.row h2.row (by omega) (by omega) hle'

end BcNumber

end DeviceDriverTest
