import DeviceDriverTest.BcPower

/-! Numbers of `bc` as text, in base ten: the strings they are read from, and the ones they are turned into. -/

namespace DeviceDriverTest

namespace BcNumber

open DigitRows PositionalArithmetic

open Nat (ofDigits)

def BCD_CHAR (d : Nat) : Char := Char.ofNat (d + '0'.toNat)

def CH_VAL (c : Char) : Nat := c.toNat - '0'.toNat

def isdigit (c : Char) : Bool := '0' ≤ c && c ≤ '9'

def bcInt2num (val : Int) : BcStruct :=
  let digits := if val = 0 then [0] else (Nat.digits BASE val.natAbs).reverse
  { nSign := if val < 0 then .MINUS else .PLUS
    nLen := digits.length
    nScale := 0
    nValue := digits }

def num2str (num : BcStruct) : List Char :=
  (if num.nSign = .PLUS then [] else ['-']) ++ (num.nValue.take num.nLen).map BCD_CHAR ++
    if num.nScale > 0 then '.' :: ((num.nValue.drop num.nLen).take num.nScale).map BCD_CHAR else []

/-- The output in base ten, where a zero before the point is left out. -/
def bcOutNum10 (num : BcStruct) : List Char :=
  (if num.nSign = .PLUS then [] else ['-']) ++
    if bcIsZero num then ['0']
    else
      (if num.nLen > 1 ∨ num.nValue.headD 0 ≠ 0 then (num.nValue.take num.nLen).map BCD_CHAR else []) ++
        if num.nScale > 0 then '.' :: ((num.nValue.drop num.nLen).take num.nScale).map BCD_CHAR else []

def skipSign : List Char → List Char
  | '+' :: str => str
  | '-' :: str => str
  | str => str

def skipPoint : List Char → List Char
  | '.' :: str => str
  | str => str

def bcStr2num (str : List Char) (scale : Nat) : BcStruct :=
  let ptr := (skipSign str).dropWhile (· = '0')
  let digits := ptr.takeWhile isdigit
  let fraction := (skipPoint (ptr.dropWhile isdigit)).takeWhile isdigit
  if (skipPoint (ptr.dropWhile isdigit)).dropWhile isdigit ≠ [] ∨ digits.length + fraction.length = 0 then zero
  else
    let strscale := min fraction.length scale
    { nSign := if str.head? = some '-' then .MINUS else .PLUS
      nLen := if digits.length = 0 then 1 else digits.length
      nScale := strscale
      nValue := (if digits.length = 0 then [0] else digits.map CH_VAL) ++ (fraction.take strscale).map CH_VAL }

variable {num : BcStruct} {ds : List Nat} {scale : Nat}

theorem bcd_char_cases {d : Nat} (h : d < BASE) :
    isdigit (BCD_CHAR d) = true ∧ CH_VAL (BCD_CHAR d) = d ∧ (BCD_CHAR d = '0' ↔ d = 0) ∧ BCD_CHAR d ≠ '+' ∧
      BCD_CHAR d ≠ '-' ∧ BCD_CHAR d ≠ '.' := by
  unfold BASE at h
  interval_cases d <;> decide

theorem map_chVal (h : IsRow BASE ds) : (ds.map BCD_CHAR).map CH_VAL = ds := by
  rw [List.map_map]
  exact (List.map_congr_left fun d hd => (bcd_char_cases (h d hd)).2.1).trans (List.map_id' ds)

theorem dropWhile_zero (h : IsRow BASE ds) (rest : List Char) (hrest : rest.head? ≠ some '0') :
    (ds.map BCD_CHAR ++ rest).dropWhile (· = '0') = (ds.dropWhile (· = 0)).map BCD_CHAR ++ rest := by
  induction ds with
  | nil =>
    cases rest with
    | nil => rfl
    | cons c rest =>
      have hc : c ≠ '0' := fun hc => hrest (congrArg some hc)
      simp [hc]
  | cons d ds ih =>
    rw [isRow_cons] at h
    have hzero := (bcd_char_cases h.1).2.2.1
    by_cases hd : d = 0
    · simpa [hd, show BCD_CHAR 0 = '0' from rfl] using ih h.2
    · simp [hd, mt hzero.mp hd]

theorem takeWhile_isdigit (h : IsRow BASE ds) (rest : List Char) (hrest : ∀ c ∈ rest.head?, isdigit c = false) :
    (ds.map BCD_CHAR ++ rest).takeWhile isdigit = ds.map BCD_CHAR ∧
      (ds.map BCD_CHAR ++ rest).dropWhile isdigit = rest := by
  induction ds with
  | nil =>
    cases rest with
    | nil => exact ⟨rfl, rfl⟩
    | cons c rest =>
      have hc := hrest c rfl
      simp [hc]
  | cons d ds ih =>
    rw [isRow_cons] at h
    have hdigit := (bcd_char_cases h.1).1
    simp [hdigit, ih h.2]

theorem skipSign_eq {str : List Char} (h : ∀ c ∈ str.head?, c ≠ '+' ∧ c ≠ '-') : skipSign str = str := by
  unfold skipSign
  split
  · exact absurd rfl (h '+' rfl).1
  · exact absurd rfl (h '-' rfl).2
  · rfl

def fractionText (fs : List Nat) : List Char := if fs.length > 0 then '.' :: fs.map BCD_CHAR else []

theorem head?_fractionText (fs : List Nat) : ∀ c ∈ (fractionText fs).head?, c = '.' := by
  intro c hc
  unfold fractionText at hc
  split at hc
  · exact (Option.some.inj hc).symm
  · exact absurd hc nofun

theorem skipPoint_fractionText (fs : List Nat) : skipPoint (fractionText fs) = fs.map BCD_CHAR := by
  unfold fractionText
  split
  case isTrue => rfl
  case isFalse h =>
    rw [List.eq_nil_of_length_eq_zero (Nat.eq_zero_of_not_pos h)]
    rfl

/-- What is read from a sign, digits, and a point with more of them, where the point stands only before digits. -/
theorem bcStr2num_text (sign : Sign) {ds fs : List Nat} (hd : IsRow BASE ds) (hf : IsRow BASE fs) (scale : Nat) :
    bcStr2num ((if sign = .PLUS then [] else ['-']) ++ ds.map BCD_CHAR ++ fractionText fs) scale =
      if ds.dropWhile (· = 0) = [] ∧ fs = [] then zero
      else
        { nSign := sign
          nLen := if ds.dropWhile (· = 0) = [] then 1 else (ds.dropWhile (· = 0)).length
          nScale := min fs.length scale
          nValue := (if ds.dropWhile (· = 0) = [] then [0] else ds.dropWhile (· = 0)) ++ fs.take (min fs.length scale) } := by
  have htail := head?_fractionText fs
  have hhead : ∀ c ∈ (ds.map BCD_CHAR ++ fractionText fs).head?, c ≠ '+' ∧ c ≠ '-' := by
    intro c hc
    cases ds with
    | nil => simp [htail c hc]
    | cons d ds =>
      have hcases := bcd_char_cases (isRow_cons.mp hd).1
      obtain rfl : BCD_CHAR d = c := Option.some.inj hc
      exact ⟨hcases.2.2.2.1, hcases.2.2.2.2.1⟩
  have hskip : skipSign ((if sign = .PLUS then [] else ['-']) ++ ds.map BCD_CHAR ++ fractionText fs) =
      ds.map BCD_CHAR ++ fractionText fs := by
    cases sign with
    | MINUS => rfl
    | PLUS => exact skipSign_eq hhead
  have hsign : (if ((if sign = .PLUS then [] else ['-']) ++ ds.map BCD_CHAR ++ fractionText fs).head? = some '-'
      then Sign.MINUS else .PLUS) = sign := by
    cases sign with
    | MINUS => rfl
    | PLUS => exact if_neg fun h => (hhead '-' h).2 rfl
  have hzeros := dropWhile_zero hd (fractionText fs) fun h => absurd (htail '0' h) (by decide)
  have hdigits := takeWhile_isdigit (isRow_dropWhile hd) (fractionText fs) fun c hc => by rw [htail c hc]; rfl
  have hfraction := @takeWhile_isdigit fs hf [] nofun
  rw [List.append_nil] at hfraction
  simp only [bcStr2num, hskip, hsign, hzeros, hdigits, skipPoint_fractionText, hfraction, ← List.map_take,
    map_chVal (hf.take _), map_chVal (isRow_dropWhile hd), List.length_map, List.length_eq_zero_iff, Nat.add_eq_zero_iff]
  simp

theorem cutScale_eq (h : num.Wf) (scale : Nat) : cutScale num scale =
    { num with nScale := min num.nScale scale, nValue := num.nValue.take (num.nLen + min num.nScale scale) } := by
  have hsize := h.size
  unfold cutScale
  split
  case isTrue hlong => rw [min_eq_right hlong.le]
  case isFalse hshort => rw [min_eq_left (not_lt.mp hshort), ← h.size, List.take_length]

/-- The digits before the point are read as they are, also where a zero among them is skipped, or left out. -/
theorem whole_digits (h : num.Wf) (hlen : 0 < num.nLen) :
    (if (num.nValue.take num.nLen).dropWhile (· = 0) = [] then [0] else (num.nValue.take num.nLen).dropWhile (· = 0)) =
      num.nValue.take num.nLen ∧
      (if (num.nValue.take num.nLen).dropWhile (· = 0) = [] then 1
        else ((num.nValue.take num.nLen).dropWhile (· = 0)).length) = num.nLen ∧
      ((num.nValue.take num.nLen).dropWhile (· = 0) = [] ↔ ¬(num.nLen > 1 ∨ num.nValue.headD 0 ≠ 0)) := by
  have hsize := h.size
  have htrimmed := h.trimmed
  obtain ⟨d, ds, hvalue⟩ := List.exists_cons_of_length_pos (show 0 < num.nValue.length by omega)
  rw [hvalue, List.headD_cons] at htrimmed
  rw [hvalue, List.length_cons] at hsize
  rw [hvalue, List.headD_cons, ← Nat.sub_add_cancel hlen, List.take_succ_cons]
  by_cases hd : d = 0
  · have hone : num.nLen = 1 := by omega
    simp [hd, hone]
  · have hcount : (ds.take (num.nLen - 1)).length = num.nLen - 1 := List.length_take_of_le (by omega)
    simp [hd, hcount]

theorem whole_zero_iff (h : num.Wf) (hlen : 0 < num.nLen) :
    ¬(num.nLen > 1 ∨ num.nValue.headD 0 ≠ 0) ∧ num.nScale = 0 ↔ num.nScale = 0 ∧ num.magnitude = 0 := by
  have hsize := h.size
  rw [and_comm]
  refine and_congr_right fun hscale => ?_
  obtain ⟨d, ds, hvalue⟩ := List.exists_cons_of_length_pos (show 0 < num.nValue.length by omega)
  constructor
  · intro hnot
    obtain ⟨hone, hhead⟩ := not_or.mp hnot
    rw [not_not, hvalue, List.headD_cons] at hhead
    rw [hvalue, List.length_cons] at hsize
    rw [BcStruct.magnitude, BcStruct.row, hvalue, hhead, List.eq_nil_of_length_eq_zero (show ds.length = 0 by omega)]
    rfl
  · rintro hzero (hlong | hhead)
    · have hle := le_magnitude h hlong
      rw [hzero] at hle
      exact hle.not_gt (Nat.pow_pos base_pos)
    · exact hhead (by
        rw [BcStruct.magnitude, BcStruct.row, ofDigits_eq_zero_iff, hvalue, List.any_cons, Bool.or_eq_false_iff] at hzero
        rw [hvalue, List.headD_cons]
        exact not_not.mp (of_decide_eq_false hzero.1))

/-- The number is read from its text, with or without the zero before the point. -/
theorem bcStr2num_read (h : num.Wf) (hlen : 0 < num.nLen) {ds : List Nat} (hrow : IsRow BASE ds)
    (hds : ds.dropWhile (· = 0) = (num.nValue.take num.nLen).dropWhile (· = 0)) (scale : Nat) :
    bcStr2num ((if num.nSign = .PLUS then [] else ['-']) ++ ds.map BCD_CHAR ++
        if num.nScale > 0 then '.' :: ((num.nValue.drop num.nLen).take num.nScale).map BCD_CHAR else []) scale =
      if num.nScale = 0 ∧ num.magnitude = 0 then zero else cutScale num scale := by
  have hsize := h.size
  have hcount : (num.nValue.drop num.nLen).length = num.nScale := by
    rw [List.length_drop]
    omega
  have hread := bcStr2num_text num.nSign hrow (h.digits.drop num.nLen) scale
  obtain ⟨hwhole, hlength, hnil⟩ := whole_digits h hlen
  rw [fractionText, hcount, hds, hwhole, hlength, ← List.take_add] at hread
  rw [List.take_of_length_le hcount.le, hread, cutScale_eq h]
  refine ite_congr (propext ?_) (fun _ => rfl) fun _ => rfl
  rw [hnil, ← List.length_eq_zero_iff, hcount]
  exact whole_zero_iff h hlen

/-- A number as text and back again is cut off at the scale, and only a zero without a fraction loses its sign. -/
theorem bcStr2num_num2str (h : num.Wf) (hlen : 0 < num.nLen) (scale : Nat) :
    bcStr2num (num2str num) scale = if num.nScale = 0 ∧ num.magnitude = 0 then zero else cutScale num scale :=
  bcStr2num_read h hlen (h.digits.take _) rfl scale

/-- The output reads back as the number, but for a zero, which is written without its fraction. -/
theorem bcStr2num_bcOutNum10 (h : num.Wf) (hlen : 0 < num.nLen) (scale : Nat) :
    bcStr2num (bcOutNum10 num) scale = if num.magnitude = 0 then zero else cutScale num scale := by
  rw [bcOutNum10]
  by_cases hzero : num.magnitude = 0
  · rw [if_pos ((bcIsZero_iff h).mpr hzero), if_pos hzero]
    cases num.nSign <;> rfl
  · have hwhole := whole_digits h hlen
    have hread := @bcStr2num_read num h hlen
      (if num.nLen > 1 ∨ num.nValue.headD 0 ≠ 0 then num.nValue.take num.nLen else [])
      (by split; exacts [h.digits.take _, isRow_nil])
      (by split; exacts [rfl, (hwhole.2.2.mpr ‹_›).symm]) scale
    rw [if_neg (show ¬(num.nScale = 0 ∧ num.magnitude = 0) from fun hboth => hzero hboth.2), apply_ite (List.map BCD_CHAR)] at hread
    rw [if_neg (mt (bcIsZero_iff h).mp hzero), if_neg hzero, ← List.append_assoc]
    exact hread

/-- Both texts of a number read back as the number, cut off at the scale; what they lose is the sign and the fraction
of a zero. -/
theorem BcNum.text_read_back (x : BcNum) (scale : Nat) :
    bcStr2num (num2str x.toBcStruct) scale =
        (if x.nScale = 0 ∧ x.magnitude = 0 then zero else cutScale x.toBcStruct scale) ∧
      bcStr2num (bcOutNum10 x.toBcStruct) scale = if x.magnitude = 0 then zero else cutScale x.toBcStruct scale :=
  ⟨bcStr2num_num2str x.wf x.len_pos scale, bcStr2num_bcOutNum10 x.wf x.len_pos scale⟩

end BcNumber

end DeviceDriverTest
