import DeviceDriverTest.BcText
import Mathlib.Data.Nat.Digits.Lemmas

/-! The constants of a program of `bc`: the conversion from any base, and the quick one from base ten. -/

namespace DeviceDriverTest

namespace BcNumber

open DigitRows PositionalArithmetic SchoolbookDivision

open Nat (ofDigits)

/-- The characters are bytes of the code, where a digit stands for itself. -/
def POINT : Nat := '.'.toNat

def COLON : Nat := ':'.toNat

/-- A digit past the base counts as the largest one. -/
def clipped (convBase inCh : Nat) : Nat := if inCh ≥ convBase then convBase - 1 else inCh

/-- The number, the character that ends it, and what comes after that. There is no result where the input ends. -/
def convertWhole (convBase : Nat) (build : BcStruct) (inCh : Nat) : List Nat → Option (BcStruct × Nat × List Nat)
  | [] => if inCh < 16 then none else some (build, inCh, [])
  | c :: input =>
    if inCh < 16 then
      (bcMultiply build (bcInt2num convBase) 0).bind fun result =>
        convertWhole convBase (bcAdd result (bcInt2num (clipped convBase inCh)) 0) c input
    else some (build, inCh, c :: input)

structure Fraction where
  result : BcStruct
  divisor : BcStruct
  digits : Nat

def convertFraction (convBase : Nat) (acc : Fraction) (inCh : Nat) : List Nat → Option (Fraction × List Nat)
  | [] => if inCh < 16 then none else some (acc, [])
  | c :: input =>
    if inCh < 16 then
      (bcMultiply acc.result (bcInt2num convBase) 0).bind fun result =>
        (bcMultiply acc.divisor (bcInt2num convBase) 0).bind fun divisor =>
          convertFraction convBase ⟨bcAdd result (bcInt2num inCh) 0, divisor, acc.digits + 1⟩
            (if c < 16 then clipped convBase c else c) input
    else some (acc, c :: input)

/-- The conversion of a constant, from the first character that is no blank and no sign. Right behind the
point every character that is not below the base counts as the largest digit, also one that is none. -/
def convertDigits (convBase : Nat) : List Nat → Option (BcStruct × List Nat)
  | [] => none
  | firstCh :: input =>
    let start :=
      if firstCh < 16 then
        match input with
        | [] => none
        | c :: input =>
          some (bcInt2num (if c < 16 then clipped convBase firstCh else firstCh), c, input)
      else some (zero, firstCh, input)
    start.bind fun (build, inCh, input) =>
      (convertWhole convBase build inCh input).bind fun (build, inCh, input) =>
        if inCh = POINT then
          match input with
          | [] => none
          | c :: input =>
            (convertFraction convBase ⟨zero, one, 0⟩ (clipped convBase c) input).bind fun (acc, input) =>
              (bcDivide acc.result acc.divisor acc.digits).map fun result => (bcAdd build result 0, input)
        else some (build, input)

def pushConstant (convBase : Nat) (input : List Nat) : Option (BcStruct × List Nat) :=
  match input.dropWhile (· = ' '.toNat) with
  | c :: rest =>
    if c = '+'.toNat then convertDigits convBase rest
    else if c = '-'.toNat then (convertDigits convBase rest).map fun (build, rest) => (bcSub zero build 0, rest)
    else convertDigits convBase (c :: rest)
  | [] => none

/-- The digits before the colon that ends the constant, without the point. After a single digit one more
character is read. -/
def pushB10Const (input : List Nat) : Option (BcStruct × List Nat) :=
  let text := input.takeWhile (· ≠ COLON)
  let kdigits := (text.takeWhile (· ≠ POINT)).length
  let kscale := text.length - kdigits - 1
  match input.dropWhile (· ≠ COLON) with
  | [] => none
  | _ :: rest =>
    let inchar := text.headD 0
    if kdigits = 1 ∧ kscale = 0 ∧ inchar = 0 then some (zero, input.drop 2)
    else if kdigits = 1 ∧ kscale = 0 ∧ inchar = 1 then some (one, input.drop 2)
    else if kdigits = 1 ∧ kscale = 0 ∧ inchar > 9 then some (bcInt2num inchar, input.drop 2)
    else
      some
        ({ nSign := .PLUS
           nLen := if kdigits = 0 then 1 else kdigits
           nScale := kscale
           nValue := (if kdigits = 0 then [0] else []) ++ (text.filter (· ≠ POINT)).map fun c => if c > 9 then 9 else c }, rest)

variable {convBase : Nat} {num n1 n2 : BcStruct} {cs ws fs rest : List Nat}

/-! Whole numbers. -/

/-- A whole number without a sign. -/
structure Whole (num : BcStruct) (n : Nat) : Prop where
  stands : Stands num 0 n
  nSign : num.nSign = .PLUS

theorem nSign_of_unsigned (h : Unsigned num) (hnonneg : 0 ≤ num.signed) : num.nSign = .PLUS := by
  by_contra hsign
  by_cases hzero : num.magnitude = 0
  · exact hsign (h hzero)
  · rw [signed_eq, if_neg hsign] at hnonneg
    omega

theorem whole_bcInt2num (n : Nat) : Whole (bcInt2num n) n := by
  have hdigits : (if (n : Int) = 0 then [0] else (Nat.digits BASE (n : Int).natAbs).reverse) =
      if n = 0 then [0] else (Nat.digits BASE n).reverse := by
    rw [Int.natAbs_natCast]
    exact ite_congr (propext Int.natCast_eq_zero) (fun _ => rfl) fun _ => rfl
  unfold bcInt2num
  rw [hdigits, if_neg (Int.natCast_nonneg n).not_gt]
  by_cases hn : n = 0
  · rw [if_pos hn, hn]
    exact ⟨⟨⟨rfl, isRow_cons.mpr ⟨base_pos, isRow_nil⟩, Or.inl (le_refl 1), nofun⟩, Nat.one_pos, rfl, rfl⟩, rfl⟩
  · rw [if_neg hn]
    have hne : Nat.digits BASE n ≠ [] := Nat.digits_ne_nil_iff_ne_zero.mpr hn
    have hpos : 0 < (Nat.digits BASE n).reverse.length := List.length_reverse.symm ▸ List.length_pos_iff.mpr hne
    refine ⟨⟨⟨rfl, isRow_reverse.mpr fun d hd => Nat.digits_lt_base one_lt_base hd, Or.inr ?_, ?_⟩, hpos, rfl, ?_⟩, rfl⟩
    · rw [List.headD_eq_head?_getD, List.head?_reverse, List.getLast?_eq_getLast_of_ne_nil hne, Option.getD_some]
      exact Nat.getLast_digit_ne_zero BASE hn
    · exact fun hzero => absurd hzero hpos.ne'
    · rw [signed_of_pos rfl, BcStruct.magnitude, BcStruct.row, List.reverse_reverse, Nat.ofDigits_digits]

/-- A number is given by its sign, its scale and its digits as a whole number. -/
theorem eq_of_magnitude (h1 : n1.Wf) (h2 : n2.Wf) (hlen1 : 0 < n1.nLen) (hlen2 : 0 < n2.nLen)
    (hsign : n1.nSign = n2.nSign) (hscale : n1.nScale = n2.nScale) (hmag : n1.magnitude = n2.magnitude) : n1 = n2 := by
  have hlen : n1.nLen = n2.nLen := by
    apply Nat.le_antisymm
    · exact nLen_le h2 h1 hlen2 (by rw [BcStruct.Le, hscale, hmag])
    · exact nLen_le h1 h2 hlen1 (by rw [BcStruct.Le, hscale, hmag])
  have hrows : n1.row = n2.row :=
    Nat.ofDigits_inj_of_len_eq one_lt_base (by rw [h1.length_row, h2.length_row, hlen, hscale]) h1.row h2.row hmag
  obtain ⟨s1, l1, c1, v1⟩ := n1
  obtain ⟨s2, l2, c2, v2⟩ := n2
  exact BcStruct.mk.injEq .. ▸ ⟨hsign, hlen, hscale, List.reverse_injective hrows⟩

theorem Stands.eq {scale : Nat} {value : Int} (h1 : Stands n1 scale value) (h2 : Stands n2 scale value)
    (hsign1 : n1.nSign = .PLUS) (hsign2 : n2.nSign = .PLUS) : n1 = n2 := by
  refine eq_of_magnitude h1.wf h2.wf h1.len_pos h2.len_pos (hsign1.trans hsign2.symm) (h1.scale.trans h2.scale.symm) ?_
  have hsigned := h1.signed.trans h2.signed.symm
  rw [signed_of_pos hsign1, signed_of_pos hsign2] at hsigned
  exact_mod_cast hsigned

theorem whole_multiply {a b : Nat} (h1 : Whole n1 a) (h2 : Whole n2 b) :
    ∃ prod, bcMultiply n1 n2 0 = some prod ∧ Whole prod (a * b) := by
  obtain ⟨prod, hprod, hstands, hunsigned⟩ := stands_bcMultiply h1.stands.wf h2.stands.wf 0
  rw [h1.stands.scale, h2.stands.scale, h1.stands.signed, h2.stands.signed] at hstands
  have hvalue : Stands prod 0 ((a * b : Nat) : Int) := by
    rw [Nat.cast_mul]
    simpa using hstands
  exact ⟨prod, hprod, hvalue, nSign_of_unsigned hunsigned (hvalue.signed.symm ▸ Int.natCast_nonneg _)⟩

theorem nSign_bcAdd (h1 : n1.nSign = .PLUS) (h2 : n2.nSign = .PLUS) (scaleMin : Nat) :
    (bcAdd n1 n2 scaleMin).nSign = .PLUS := by
  rw [bcAdd, if_pos (h1.trans h2.symm)]
  exact h1

theorem whole_bcAdd {a b : Nat} (h1 : Whole n1 a) (h2 : Whole n2 b) : Whole (bcAdd n1 n2 0) (a + b) := by
  refine ⟨?_, nSign_bcAdd h1.nSign h2.nSign 0⟩
  have hadd := stands_bcAdd h1.stands.wf h2.stands.wf 0
  rw [h1.stands.scale, h2.stands.scale, h1.stands.signed, h2.stands.signed] at hadd
  simpa using hadd

/-! The digits of a constant. -/

theorem value_concat (b d : Nat) (ds : List Nat) : value b (ds ++ [d]) = value b ds * b + d := by
  rw [value_append, List.length_singleton, pow_one, value_cons, value_nil, List.length_nil, pow_zero, mul_one, add_zero]

/-- The digits before the character that ends the number are added, each in its turn. -/
theorem convertWhole_spec {stop inCh v : Nat} (hstop : 16 ≤ stop) (hcs : ∀ c ∈ cs, c < 16) {build : BcStruct}
    {input : List Nat} (hinput : inCh :: input = cs ++ stop :: rest) (h : Whole build v) :
    ∃ result, convertWhole convBase build inCh input = some (result, stop, rest) ∧
      Whole result (v * convBase ^ cs.length + value convBase (cs.map (clipped convBase))) := by
  induction cs generalizing inCh input v build with
  | nil =>
    obtain ⟨rfl, rfl⟩ := List.cons.inj hinput
    refine ⟨build, ?_, by simpa using h⟩
    cases input <;> rw [convertWhole, if_neg hstop.not_gt]
  | cons c cs ih =>
    obtain ⟨rfl, htail⟩ := List.cons.inj hinput
    obtain ⟨next, tail, hnext⟩ : ∃ next tail, cs ++ stop :: rest = next :: tail := by
      cases cs with
      | nil => exact ⟨stop, rest, rfl⟩
      | cons d ds => exact ⟨d, ds ++ stop :: rest, rfl⟩
    obtain ⟨prod, hprod, hwhole⟩ := whole_multiply h (whole_bcInt2num convBase)
    obtain ⟨result, hresult, hvalue⟩ := ih (fun d hd => hcs d (List.mem_cons_of_mem _ hd)) hnext.symm
      (whole_bcAdd hwhole (whole_bcInt2num (clipped convBase inCh)))
    refine ⟨result, ?_, ?_⟩
    · rw [show input = next :: tail from htail.trans hnext, convertWhole, if_pos (hcs inCh List.mem_cons_self), hprod, Option.bind_some, hresult]
    · convert! hvalue using 1
      rw [List.map_cons, value_cons, List.length_map, List.length_cons]
      ring

theorem clipped_lt {c : Nat} (h : c < 16) : clipped convBase c < 16 := by
  unfold clipped
  split <;> omega

/-- The character that the loop over the fraction looks at. -/
def pending (convBase c : Nat) : Nat := if c < 16 then clipped convBase c else c

/-- The digits of the fraction as a whole number, and the power of the base that it is divided by. -/
theorem convertFraction_spec {stop v k : Nat} (hstop : 16 ≤ stop) (hfs : ∀ c ∈ fs, c < 16) {result divisor : BcStruct}
    {c : Nat} {input : List Nat} (hinput : c :: input = fs ++ stop :: rest) (hresult : Whole result v)
    (hdivisor : Whole divisor (convBase ^ k)) :
    ∃ result' divisor', convertFraction convBase ⟨result, divisor, k⟩ (pending convBase c) input =
        some (⟨result', divisor', k + fs.length⟩, rest) ∧
      Whole result' (v * convBase ^ fs.length + value convBase (fs.map (clipped convBase))) ∧
      Whole divisor' (convBase ^ (k + fs.length)) := by
  induction fs generalizing c input v k result divisor with
  | nil =>
    obtain ⟨rfl, rfl⟩ := List.cons.inj hinput
    refine ⟨result, divisor, ?_, by simpa using hresult, hdivisor⟩
    cases input <;> rw [pending, if_neg hstop.not_gt, convertFraction, if_neg hstop.not_gt] <;> rfl
  | cons d fs ih =>
    obtain ⟨rfl, htail⟩ := List.cons.inj hinput
    have hc : c < 16 := hfs c List.mem_cons_self
    obtain ⟨next, tail, hnext⟩ : ∃ next tail, fs ++ stop :: rest = next :: tail := by
      cases fs with
      | nil => exact ⟨stop, rest, rfl⟩
      | cons d ds => exact ⟨d, ds ++ stop :: rest, rfl⟩
    obtain ⟨prod, hprod, hwhole⟩ := whole_multiply hresult (whole_bcInt2num convBase)
    obtain ⟨power, hpower, hnewDivisor⟩ := whole_multiply hdivisor (whole_bcInt2num convBase)
    rw [← pow_succ] at hnewDivisor
    obtain ⟨result', divisor', hrun, hvalue, hdiv⟩ := ih (fun d hd => hfs d (List.mem_cons_of_mem _ hd)) hnext.symm
      (whole_bcAdd hwhole (whole_bcInt2num (clipped convBase c))) hnewDivisor
    refine ⟨result', divisor', ?_, ?_, ?_⟩
    · rw [show input = next :: tail from htail.trans hnext, pending, if_pos hc, convertFraction, if_pos (clipped_lt hc),
        hprod, Option.bind_some, hpower, Option.bind_some, List.length_cons, Nat.add_comm fs.length, ← Nat.add_assoc]
      exact hrun
    · convert! hvalue using 1
      rw [List.map_cons, value_cons, List.length_map, List.length_cons]
      ring
    · rw [List.length_cons, Nat.add_comm fs.length, ← Nat.add_assoc]
      exact hdiv

/-- What is in front of the point: a single digit counts as it is, and a longer number in the base. -/
def wholeValue (convBase : Nat) : List Nat → Nat
  | [c] => c
  | ws => value convBase (ws.map (clipped convBase))

theorem value_map_single (c : Nat) : value convBase ([c].map (clipped convBase)) = clipped convBase c := by
  simp [value_cons]

/-- What is read in front of the character that ends the whole number. -/
theorem convertStart_spec {stop : Nat} (hstop : 16 ≤ stop) (hws : ∀ c ∈ ws, c < 16) :
    ∃ c input build, ws ++ stop :: rest = c :: input ∧ Whole build (wholeValue convBase ws) ∧
      ∀ (α : Type) (next : BcStruct × Nat × List Nat → Option α),
        ((if c < 16 then
            match input with
            | [] => none
            | d :: input => some (bcInt2num (if d < 16 then clipped convBase c else c), d, input)
          else some (zero, c, input)).bind fun x => (convertWhole convBase x.1 x.2.1 x.2.2).bind next) =
          next (build, stop, rest) := by
  cases ws with
  | nil =>
    obtain ⟨result, hresult, hwhole⟩ := @convertWhole_spec convBase [] rest stop stop 0 hstop nofun zero rest rfl
      (whole_bcInt2num 0)
    refine ⟨stop, rest, result, rfl, by simpa [wholeValue] using hwhole, fun α next => ?_⟩
    rw [if_neg hstop.not_gt, Option.bind_some, hresult, Option.bind_some]
  | cons c cs =>
    have hc : c < 16 := hws c List.mem_cons_self
    cases cs with
    | nil =>
      obtain ⟨result, hresult, hwhole⟩ := @convertWhole_spec convBase [] rest stop stop c hstop nofun (bcInt2num c) rest rfl
        (whole_bcInt2num c)
      refine ⟨c, stop :: rest, result, rfl, by simpa [wholeValue] using hwhole, fun α next => ?_⟩
      rw [if_pos hc]
      dsimp only
      rw [if_neg hstop.not_gt, Option.bind_some, hresult, Option.bind_some]
    | cons d ds =>
      have hd : d < 16 := hws d (List.mem_cons_of_mem _ List.mem_cons_self)
      obtain ⟨result, hresult, hwhole⟩ := @convertWhole_spec convBase (d :: ds) rest stop d (clipped convBase c) hstop
        (fun e he => hws e (List.mem_cons_of_mem _ he)) (bcInt2num (clipped convBase c)) (ds ++ stop :: rest) rfl
        (whole_bcInt2num _)
      refine ⟨c, d :: ds ++ stop :: rest, result, rfl, ?_, fun α next => ?_⟩
      · convert! hwhole using 1
        rw [wholeValue, List.map_cons, value_cons, List.length_map]
        exact nofun
      · rw [if_pos hc]
        dsimp only [List.cons_append]
        rw [if_pos hd, Option.bind_some, hresult, Option.bind_some]

/-! The conversion. -/

/-- A constant as the scanner leaves it, without a point that no digit follows. -/
def token (ws fs : List Nat) : List Nat := if fs = [] then ws else ws ++ POINT :: fs

/-- The digits of the fraction are kept in base ten as far as there are as many of them. -/
def tokenValue (convBase : Nat) (ws fs : List Nat) : Nat :=
  wholeValue convBase ws * BASE ^ fs.length +
    value convBase (fs.map (clipped convBase)) * BASE ^ fs.length / convBase ^ fs.length

theorem convertDigits_spec (hbase : fs ≠ [] → 0 < convBase) (hws : ∀ c ∈ ws, c < 16) (hfs : ∀ c ∈ fs, c < 16) :
    ∃ num, convertDigits convBase (token ws fs ++ COLON :: rest) = some (num, rest) ∧
      Stands num fs.length (tokenValue convBase ws fs) ∧ num.nSign = .PLUS := by
  cases fs with
  | nil =>
    obtain ⟨c, input, build, hinput, hwhole, hstart⟩ :=
      @convertStart_spec convBase ws rest COLON (by decide) hws
    refine ⟨build, ?_, ?_, hwhole.nSign⟩
    · rw [token, if_pos rfl, hinput, convertDigits.eq_def]
      exact hstart _ _
    · simpa [tokenValue] using hwhole.stands
  | cons f fs =>
    obtain ⟨c, input, build, hinput, hwhole, hstart⟩ :=
      @convertStart_spec convBase ws (f :: fs ++ COLON :: rest) POINT (by decide) hws
    have hzero : Whole zero 0 := whole_bcInt2num 0
    have hone : Whole one (convBase ^ 0) := whole_bcInt2num 1
    obtain ⟨result, divisor, hrun, hresult, hdivisor⟩ :=
      @convertFraction_spec convBase (f :: fs) rest COLON 0 0 (by decide) hfs zero one f (fs ++ COLON :: rest) rfl hzero hone
    rw [zero_mul, zero_add] at hresult
    rw [zero_add] at hrun hdivisor
    have hpow : divisor.magnitude ≠ 0 := by
      have hsigned := hdivisor.stands.signed
      rw [signed_of_pos hdivisor.nSign, Int.ofNat_inj] at hsigned
      rw [hsigned]
      exact (Nat.pow_pos (hbase (List.cons_ne_nil f fs))).ne'
    obtain ⟨quot, hquot, hstands, hunsigned⟩ := stands_bcDivide hresult.stands.wf hdivisor.stands.wf hpow (f :: fs).length
    rw [hresult.stands.scale, hdivisor.stands.scale, hresult.stands.signed, hdivisor.stands.signed, Nat.sub_self, Nat.zero_add,
      pow_zero, Nat.cast_one, mul_one, ← Nat.cast_mul, ← Int.ofNat_tdiv] at hstands
    have hsign := nSign_of_unsigned hunsigned (hstands.signed.symm ▸ Int.natCast_nonneg _)
    have hadd := stands_bcAdd hwhole.stands.wf hstands.wf 0
    rw [hwhole.stands.scale, hstands.scale, hwhole.stands.signed, hstands.signed] at hadd
    refine ⟨bcAdd build quot 0, ?_, ?_, nSign_bcAdd hwhole.nSign hsign 0⟩
    · rw [token, if_neg nofun, List.append_assoc, List.cons_append, hinput, convertDigits.eq_def]
      refine (hstart _ _).trans ?_
      have hfirst : pending convBase f = clipped convBase f := if_pos (hfs f List.mem_cons_self)
      rw [hfirst] at hrun
      simp only [if_true, List.cons_append, hrun, Option.bind_some, hquot, Option.map_some]
    · rw [Nat.zero_max, Nat.max_zero, Nat.sub_zero, Nat.zero_sub, pow_zero, mul_one, mul_one] at hadd
      rw [tokenValue]
      push_cast at hadd ⊢
      exact hadd

theorem pushConstant_of_head {c : Nat} {text : List Nat} (hc : c < 16 ∨ c = POINT) :
    pushConstant convBase (c :: text) = convertDigits convBase (c :: text) := by
  have hblank : c ≠ ' '.toNat ∧ c ≠ '+'.toNat ∧ c ≠ '-'.toNat := by
    obtain hc | rfl := hc
    · refine ⟨?_, ?_, ?_⟩ <;> rintro rfl <;> exact absurd hc (by decide)
    · decide
  rw [pushConstant, List.dropWhile_cons_of_neg (by simpa using hblank.1)]
  simp only [if_neg hblank.2.1, if_neg hblank.2.2]

theorem pushConstant_of_digits {text : List Nat} (hws : ∀ c ∈ ws, c < 16) :
    pushConstant convBase (ws ++ POINT :: text) = convertDigits convBase (ws ++ POINT :: text) := by
  cases ws with
  | nil => exact pushConstant_of_head (Or.inr rfl)
  | cons w ws => exact pushConstant_of_head (Or.inl (hws w List.mem_cons_self))

/-- A constant of the program has the value of its digits in the base, cut off after as many decimal digits
as the fraction has. -/
theorem pushConstant_spec (hbase : fs ≠ [] → 0 < convBase) (hws : ∀ c ∈ ws, c < 16) (hfs : ∀ c ∈ fs, c < 16)
    (hne : ws ≠ [] ∨ fs ≠ []) : ∃ num, pushConstant convBase (token ws fs ++ COLON :: rest) = some (num, rest) ∧
      Stands num fs.length (tokenValue convBase ws fs) ∧ num.nSign = .PLUS := by
  obtain ⟨num, hnum, hstands⟩ := @convertDigits_spec convBase ws fs rest hbase hws hfs
  refine ⟨num, ?_, hstands⟩
  rw [← hnum]
  by_cases hfs : fs = []
  · rw [token, if_pos hfs]
    obtain ⟨w, ws, rfl⟩ := List.exists_cons_of_ne_nil (hne.resolve_right (not_not.mpr hfs))
    exact pushConstant_of_head (Or.inl (hws w List.mem_cons_self))
  · rw [token, if_neg hfs, List.append_assoc]
    exact pushConstant_of_digits hws

theorem pushConstant_three_halves : ∃ num, pushConstant 2 (token [1] [1] ++ COLON :: []) = some (num, []) ∧
    Stands num 1 15 ∧ num.nSign = .PLUS :=
  pushConstant_spec (fun _ => by decide) (by decide) (by decide) (Or.inl (by decide))

/-- Whatever stands right behind the point and is not below the base counts as the largest digit, also
the blank that ends a line of input. -/
theorem pushConstant_behind_point (hbase : 0 < convBase) (hws : ∀ c ∈ ws, c < 16) {c : Nat} (hc : convBase ≤ c) :
    pushConstant convBase (ws ++ POINT :: c :: rest) = pushConstant convBase (ws ++ POINT :: (convBase - 1) :: rest) := by
  have hclip : clipped convBase c = clipped convBase (convBase - 1) := by
    rw [clipped, if_pos hc, clipped, if_neg (by omega)]
  rw [pushConstant_of_digits hws, pushConstant_of_digits hws]
  obtain ⟨first, input, build, hinput, hwhole, hstart⟩ :=
    @convertStart_spec convBase ws (c :: rest) POINT (by decide) hws
  obtain ⟨first', input', build', hinput', hwhole', hstart'⟩ :=
    @convertStart_spec convBase ws ((convBase - 1) :: rest) POINT (by decide) hws
  obtain rfl := hwhole.stands.eq hwhole'.stands hwhole.nSign hwhole'.nSign
  rw [hinput, hinput', convertDigits.eq_def, convertDigits.eq_def]
  refine (hstart _ _).trans (Eq.trans ?_ (hstart' _ _).symm)
  simp only [hclip, if_true]

/-! The quick conversion. -/

/-- What the quick conversion takes the digits before the point for. -/
def quickWhole (ws fs : List Nat) : Nat :=
  if fs = [] then wholeValue BASE ws else value BASE (ws.map (clipped BASE))

theorem ne_of_digit {c stop : Nat} (hc : c < 16) (hstop : 16 ≤ stop) : c ≠ stop := by omega

theorem token_parts (hws : ∀ c ∈ ws, c < 16) (hfs : ∀ c ∈ fs, c < 16) :
    (token ws fs ++ COLON :: rest).takeWhile (· ≠ COLON) = token ws fs ∧
      (token ws fs ++ COLON :: rest).dropWhile (· ≠ COLON) = COLON :: rest ∧
      (token ws fs).takeWhile (· ≠ POINT) = ws ∧ (token ws fs).length - ws.length - 1 = fs.length ∧
      (token ws fs).filter (· ≠ POINT) = ws ++ fs := by
  have hcolon : ∀ c ∈ token ws fs, decide (c ≠ COLON) = true := by
    intro c hc
    apply decide_eq_true
    unfold token at hc
    split at hc
    · exact ne_of_digit (hws c hc) (by decide)
    · rw [List.mem_append, List.mem_cons] at hc
      obtain hc | rfl | hc := hc
      · exact ne_of_digit (hws c hc) (by decide)
      · decide
      · exact ne_of_digit (hfs c hc) (by decide)
  have hpoint : ∀ cs : List Nat, (∀ c ∈ cs, c < 16) → ∀ c ∈ cs, decide (c ≠ POINT) = true := fun cs hcs c hc =>
    decide_eq_true (ne_of_digit (hcs c hc) (by decide))
  refine ⟨?_, ?_, ?_, ?_, ?_⟩
  · rw [List.takeWhile_append_of_pos hcolon, List.takeWhile_cons_of_neg (by simp), List.append_nil]
  · rw [List.dropWhile_append_of_pos hcolon, List.dropWhile_cons_of_neg (by simp)]
  · unfold token
    split
    · simpa using (@List.takeWhile_append_of_pos _ _ _ [] (hpoint ws hws))
    · rw [List.takeWhile_append_of_pos (hpoint ws hws), List.takeWhile_cons_of_neg (by simp), List.append_nil]
  · unfold token
    split
    case isTrue h => rw [h, Nat.sub_self, List.length_nil]
    case isFalse => simp
  · unfold token
    split
    case isTrue h => rw [h, List.append_nil, List.filter_eq_self.mpr (hpoint ws hws)]
    case isFalse =>
      rw [List.filter_append, List.filter_cons_of_neg (by simp), List.filter_eq_self.mpr (hpoint ws hws),
        List.filter_eq_self.mpr (hpoint fs hfs)]

theorem isRow_clipped (cs : List Nat) : IsRow BASE (cs.map (clipped BASE)) := by
  intro d hd
  obtain ⟨c, -, rfl⟩ := List.mem_map.mp hd
  unfold clipped
  split
  · decide
  · omega

/-- The digits are stored as they are, so that no zero may stand in front of the others. -/
theorem stands_stored (hlead : ws.head? = some 0 → ws.length = 1) (hne : ws ≠ [] ∨ fs ≠ []) :
    Stands ⟨.PLUS, if ws.length = 0 then 1 else ws.length, fs.length,
        (if ws.length = 0 then [0] else []) ++ (ws ++ fs).map (clipped BASE)⟩ fs.length
      ((value BASE (ws.map (clipped BASE)) * BASE ^ fs.length + value BASE (fs.map (clipped BASE)) : Nat) : Int) := by
  cases ws with
  | nil =>
    refine ⟨⟨?_, isRow_cons.mpr ⟨base_pos, isRow_clipped fs⟩, Or.inl (le_refl 1), nofun⟩, Nat.one_pos, rfl, ?_⟩
    · simp [Nat.add_comm]
    · rw [signed_of_pos rfl]
      show ((value BASE (0 :: fs.map (clipped BASE)) : Nat) : Int) = _
      simp
  | cons w ws =>
    refine ⟨⟨by simp [Nat.add_right_comm], isRow_clipped (w :: ws ++ fs), ?_, nofun⟩, Nat.succ_pos _, rfl, ?_⟩
    · by_cases hw : w = 0
      · have hone := hlead (congrArg some hw)
        exact Or.inl hone.le
      · refine Or.inr fun hzero => hw ?_
        have hclip : clipped BASE w = 0 := hzero
        unfold clipped BASE at hclip
        split at hclip
        · exact absurd hclip (by decide)
        · exact hclip
    · rw [signed_of_pos rfl]
      show ((value BASE ((w :: ws ++ fs).map (clipped BASE)) : Nat) : Int) = _
      rw [List.map_append, value_append, List.length_map]

theorem pushB10Const_spec (hws : ∀ c ∈ ws, c < 16) (hfs : ∀ c ∈ fs, c < 16) (hlead : ws.head? = some 0 → ws.length = 1)
    (hne : ws ≠ [] ∨ fs ≠ []) : ∃ num, pushB10Const (token ws fs ++ COLON :: rest) = some (num, rest) ∧
      Stands num fs.length
        ((quickWhole ws fs * BASE ^ fs.length + value BASE (fs.map (clipped BASE)) : Nat) : Int) ∧ num.nSign = .PLUS := by
  obtain ⟨htake, hdrop, hkdigits, hkscale, hfilter⟩ := @token_parts ws fs rest hws hfs
  have hstored := stands_stored hlead hne
  have hclip : (fun c => if c > 9 then 9 else c) = clipped BASE := rfl
  unfold pushB10Const
  simp only [htake, hdrop, hkdigits, hkscale, hfilter]
  rw [hclip]
  by_cases hsingle : ws.length = 1 ∧ fs.length = 0
  · obtain ⟨hone, hnil⟩ := hsingle
    obtain ⟨c, rfl⟩ := List.length_eq_one_iff.mp hone
    obtain rfl := List.eq_nil_of_length_eq_zero hnil
    have hvalue : ((quickWhole [c] [] * BASE ^ ([] : List Nat).length + value BASE (([] : List Nat).map (clipped BASE)) : Nat) : Int)
        = c := by
      simp [quickWhole, wholeValue]
    rw [hvalue]
    have hrest : (token [c] [] ++ COLON :: rest).drop 2 = rest := rfl
    have hhead : (token [c] []).headD 0 = c := rfl
    rw [hrest, hhead]
    simp only [List.length_cons, List.length_nil, true_and]
    split
    case isTrue hc =>
      rw [hc]
      exact ⟨zero, rfl, (whole_bcInt2num 0).stands, rfl⟩
    case isFalse =>
      split
      case isTrue hc =>
        rw [hc]
        exact ⟨one, rfl, (whole_bcInt2num 1).stands, rfl⟩
      case isFalse =>
        split
        case isTrue => exact ⟨bcInt2num c, rfl, (whole_bcInt2num c).stands, (whole_bcInt2num c).nSign⟩
        case isFalse hc =>
          have hdigit : clipped BASE c = c := if_neg hc
          refine ⟨_, rfl, ?_, rfl⟩
          simpa [hdigit] using hstored
  · rw [if_neg fun h => hsingle ⟨h.1, h.2.1⟩, if_neg fun h => hsingle ⟨h.1, h.2.1⟩, if_neg fun h => hsingle ⟨h.1, h.2.1⟩]
    refine ⟨_, rfl, ?_, rfl⟩
    have hwhole : quickWhole ws fs = value BASE (ws.map (clipped BASE)) := by
      unfold quickWhole
      split
      case isTrue hnil =>
        refine wholeValue.eq_2 BASE ws fun c hc => hsingle ?_
        rw [hc, hnil]
        exact ⟨rfl, rfl⟩
      case isFalse => rfl
    rw [hwhole]
    exact hstored

/-- In base ten the quick conversion agrees with the other one, but for a letter alone in front of a fraction,
which counts as nine here and as itself there. -/
theorem pushB10Const_eq_iff (hws : ∀ c ∈ ws, c < 16) (hfs : ∀ c ∈ fs, c < 16) (hlead : ws.head? = some 0 → ws.length = 1)
    (hne : ws ≠ [] ∨ fs ≠ []) :
    pushB10Const (token ws fs ++ COLON :: rest) = pushConstant BASE (token ws fs ++ COLON :: rest) ↔
      ¬(fs ≠ [] ∧ ∃ c > 9, ws = [c]) := by
  obtain ⟨quick, hquick, hqstands, hqsign⟩ := @pushB10Const_spec ws fs rest hws hfs hlead hne
  obtain ⟨num, hnum, hstands, hsign⟩ := @pushConstant_spec BASE ws fs rest (fun _ => base_pos) hws hfs hne
  rw [tokenValue, Nat.mul_div_cancel _ (Nat.pow_pos base_pos)] at hstands
  rw [hquick, hnum, Option.some_inj, Prod.mk.injEq, eq_self, and_true]
  have hiff : quick = num ↔ quickWhole ws fs = wholeValue BASE ws := by
    constructor
    · intro heq
      have hvalues := hqstands.signed.symm.trans (heq ▸ hstands.signed)
      rw [Int.ofNat_inj, Nat.add_right_cancel_iff] at hvalues
      exact Nat.eq_of_mul_eq_mul_right (Nat.pow_pos base_pos) hvalues
    · intro hwhole
      rw [hwhole] at hqstands
      exact hqstands.eq hstands hqsign hsign
  rw [hiff, quickWhole]
  by_cases hnil : fs = []
  · simp [hnil]
  · rw [if_neg hnil]
    match ws with
    | [] => simp [wholeValue]
    | [c] =>
      rw [value_map_single, wholeValue]
      have hclip : clipped BASE c = c ↔ ¬c > 9 := by
        unfold clipped BASE
        split <;> omega
      rw [hclip]
      refine not_congr ⟨fun hc => ⟨hnil, c, hc, rfl⟩, ?_⟩
      rintro ⟨-, d, hd, hcd⟩
      exact (List.cons.inj hcd).1 ▸ hd
    | c :: d :: ws => simp [wholeValue]

theorem pushB10Const_letter : pushB10Const (token [12] [5] ++ COLON :: []) ≠ pushConstant BASE (token [12] [5] ++ COLON :: []) :=
  mt (pushB10Const_eq_iff (by decide) (by decide) (by decide) (Or.inl (by decide))).mp
    (not_not_intro ⟨by decide, 12, by decide, rfl⟩)

/-! What comes behind a constant does not matter to either conversion. -/

theorem pushConstant_zero_base (hws : ∀ c ∈ ws, c < 16) (hfs : ∀ c ∈ fs, c < 16) (hne : fs ≠ []) :
    pushConstant 0 (token ws fs ++ COLON :: rest) = none := by
  obtain ⟨f, fs, rfl⟩ := List.exists_cons_of_ne_nil hne
  obtain ⟨c, input, build, hinput, -, hstart⟩ :=
    @convertStart_spec 0 ws (f :: fs ++ COLON :: rest) POINT (by decide) hws
  have hzero : Whole zero 0 := whole_bcInt2num 0
  have hone : Whole one (0 ^ 0) := whole_bcInt2num 1
  obtain ⟨result, divisor, hrun, -, hdivisor⟩ :=
    @convertFraction_spec 0 (f :: fs) rest COLON 0 0 (by decide) hfs zero one f (fs ++ COLON :: rest) rfl hzero hone
  have hmag : divisor.magnitude = 0 := by
    have hsigned := hdivisor.stands.signed
    rw [signed_of_pos hdivisor.nSign, Int.ofNat_inj] at hsigned
    simpa using hsigned
  have hfirst : pending 0 f = clipped 0 f := if_pos (hfs f List.mem_cons_self)
  rw [hfirst] at hrun
  have hdivide : bcDivide result divisor (0 + (f :: fs).length) = none := if_pos ((bcIsZero_iff hdivisor.stands.wf).mpr hmag)
  rw [token, if_neg hne, List.append_assoc, List.cons_append, pushConstant_of_digits hws, hinput, convertDigits.eq_def]
  refine (hstart _ _).trans ?_
  simp only [if_true, List.cons_append, hrun, Option.bind_some, hdivide, Option.map_none]

theorem pushConstant_behind (hws : ∀ c ∈ ws, c < 16) (hfs : ∀ c ∈ fs, c < 16) (hne : ws ≠ [] ∨ fs ≠ []) :
    pushConstant convBase (token ws fs ++ COLON :: rest) =
      (pushConstant convBase (token ws fs ++ [COLON])).map fun read => (read.1, rest) := by
  by_cases hbase : fs ≠ [] → 0 < convBase
  · obtain ⟨num, hnum, hstands, hsign⟩ := @pushConstant_spec convBase ws fs rest hbase hws hfs hne
    obtain ⟨num', hnum', hstands', hsign'⟩ := @pushConstant_spec convBase ws fs [] hbase hws hfs hne
    rw [hnum, hnum', hstands.eq hstands' hsign hsign']
    rfl
  · obtain ⟨hfrac, hzero⟩ := Classical.not_imp.mp hbase
    obtain rfl : convBase = 0 := by omega
    rw [pushConstant_zero_base hws hfs hfrac, pushConstant_zero_base hws hfs hfrac]
    rfl

theorem pushB10Const_behind (hws : ∀ c ∈ ws, c < 16) (hfs : ∀ c ∈ fs, c < 16) :
    pushB10Const (token ws fs ++ COLON :: rest) =
      (pushB10Const (token ws fs ++ [COLON])).map fun read => (read.1, rest) := by
  obtain ⟨htake, hdrop, hkdigits, hkscale, -⟩ := @token_parts ws fs rest hws hfs
  obtain ⟨htake', hdrop', -⟩ := @token_parts ws fs [] hws hfs
  unfold pushB10Const
  simp only [htake, hdrop, htake', hdrop', hkdigits, hkscale]
  by_cases hsingle : ws.length = 1 ∧ fs.length = 0
  · obtain ⟨c, rfl⟩ := List.length_eq_one_iff.mp hsingle.1
    obtain rfl := List.eq_nil_of_length_eq_zero hsingle.2
    split_ifs <;> rfl
  · simp only [if_neg fun h : ws.length = 1 ∧ fs.length = 0 ∧ _ => hsingle ⟨h.1, h.2.1⟩, Option.map_some]

end BcNumber

end DeviceDriverTest
