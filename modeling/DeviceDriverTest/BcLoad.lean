import DeviceDriverTest.BcGenerate

/-! The loader of `bc`: the text of the code becomes the bytes that the machine runs, and a table of the labels. -/

namespace DeviceDriverTest

namespace Bc

open BcNumber DigitRows

structure Function where
  defined : Bool
  body : List Nat
  labels : Nat → Option Nat
  params : List ArgList
  autos : List ArgList

def Function.empty : Function := ⟨false, [], fun _ => none, [], []⟩

/-- The functions, and where the next byte goes. The address that is kept for the end of a function is the one before it. -/
structure Loader where
  functions : Nat → Function
  func : Nat
  loadStr : Bool
  loadConst : Bool
  saveFunc : Nat

namespace Loader

def initLoad (l : Loader) : Loader :=
  { l with functions := Function.update l.functions 0 .empty, func := 0, loadStr := false, loadConst := false }

def current (l : Loader) : Function := l.functions l.func

def change (l : Loader) (f : Function → Function) : Loader :=
  { l with functions := Function.update l.functions l.func (f l.current) }

def addbytes (l : Loader) (bytes : List Nat) : Loader := l.change fun f => { f with body := f.body ++ bytes }

/-- A label stands for the address of the next byte. -/
def defLabel (l : Loader) (label : Nat) : Loader :=
  l.change fun f => { f with labels := Function.update f.labels label (some f.body.length) }

end Loader

/-- The digits of a number, and what comes after it. -/
def longVal (str : List Char) : Int × List Char :=
  let neg := str.head? = some '-'
  let str := if neg then str.tail else str
  let val := (str.takeWhile isdigit).foldl (fun val c => val * 10 + CH_VAL c) 0
  (if neg then -(val : Int) else val, str.dropWhile isdigit)

/-- The number of a variable, an array or a function, in one byte or two. -/
def nameBytes (name : Nat) : List Nat := if name < 128 then [name] else [name / 256 % 256 ||| 128, name % 256]

def constByte (c : Char) : Nat :=
  if c = ':' ∨ c = '.' then c.toNat else if 'A' ≤ c then c.toNat + 10 - 'A'.toNat else c.toNat - '0'.toNat

/-- The parameters of a function, up to the point behind them. -/
def loadParams : Nat → List Char → List ArgList → List ArgList × List Char
  | 0, str, params => (params, str)
  | fuel + 1, str, params =>
    match str with
    | '.' :: str => (params, str)
    | _ :: '.' :: str => (params, str)
    | _ :: '*' :: str =>
      let (name, str) := longVal str
      loadParams fuel str (⟨name, true⟩ :: params)
    | _ :: str =>
      let (name, str) := longVal str
      loadParams fuel str (⟨name, false⟩ :: params)
    | [] => (params, [])

def loadAutos : Nat → List Char → List ArgList → List ArgList × List Char
  | 0, str, autos => (autos, str)
  | fuel + 1, str, autos =>
    match str with
    | '[' :: str => (autos, str)
    | ',' :: str =>
      let (name, str) := longVal str
      loadAutos fuel str (⟨name, false⟩ :: autos)
    | str =>
      let (name, str) := longVal str
      loadAutos fuel str (⟨name, false⟩ :: autos)

/-- One round of the loop over the code, and what is left of it. There is no result where the loader gives up. -/
def loadStep (l : Loader) (c : Char) (str : List Char) : Option (Loader × List Char) :=
  if l.loadStr then some ({ l.addbytes [c.toNat] with loadStr := c ≠ '"' }, str)
  else if l.loadConst then
    if c = '\n' then some (l, str) else some ({ l.addbytes [constByte c] with loadConst := c ≠ ':' }, str)
  else if c = '"' then some ({ l with loadStr := true }, str)
  else if c = 'N' then
    let (label, str) := longVal str
    some (l.defLabel label.toNat, str.tail)
  else if c = 'B' ∨ c = 'J' ∨ c = 'Z' then
    let (label, str) := longVal str
    if label > 65535 then none else some (l.addbytes [c.toNat, label.toNat % 256, label.toNat / 256], str.tail)
  else if c = 'F' then
    let (func, str) := longVal str
    let (params, str) := loadParams str.length str []
    let (autos, str) := loadAutos str.length str []
    some
      ({ l with
          functions := Function.update l.functions func.toNat { Function.empty with params := params, autos := autos }
          func := func.toNat
          saveFunc := l.func }, str)
  else if c = ']' then some ({ l.change ({ · with defined := true }) with func := l.saveFunc }, str)
  else if c = 'C' then
    let (func, str) := longVal str
    let str := if str.head? = some ',' then str.tail else str
    some (l.addbytes (c.toNat :: nameBytes func.toNat ++ (str.takeWhile (· ≠ ':')).map Char.toNat ++ [':'.toNat]),
      (str.dropWhile (· ≠ ':')).tail)
  else if c = 'c' then some (l.addbytes (c.toNat :: (str.take 1).map Char.toNat), str.tail)
  else if c = 'K' then some ({ l.addbytes [c.toNat] with loadConst := true }, str)
  else if c ∈ ['d', 'i', 'l', 's', 'A', 'M', 'L', 'S'] then
    let (name, str) := longVal str
    some (l.addbytes (c.toNat :: nameBytes name.toNat), str.tail)
  else if c = '\n' then some (l, str)
  else some (l.addbytes [c.toNat], str)

/-- The loop; each round takes at least one character. -/
def loadLoop : Nat → Loader → List Char → Option Loader
  | _, l, [] => some l
  | 0, _, _ :: _ => none
  | fuel + 1, l, c :: str => (loadStep l c str).bind fun (l, str) => loadLoop fuel l str

def loadCode (l : Loader) (code : List Char) : Option Loader := loadLoop code.length l code

/-- The bytes of an instruction. -/
def Instr.bytes : Instr → List Nat
  | .op o => [o.char.toNat]
  | .var o name => o.char.toNat :: nameBytes name
  | .label _ => []
  | .jump o n => [o.char.toNat, n % 256, n / 256]
  | .const whole fraction => 'K'.toNat :: token whole fraction ++ [COLON]
  | .call function types => 'C'.toNat :: nameBytes function ++ types.map Char.toNat ++ [COLON]
  | .special function => ['c'.toNat, function.char.toNat]
  | .read => ['c'.toNat, 'I'.toNat]
  | .string print text => (if print then 'O' else 'w').toNat :: text.map Char.toNat ++ ['"'.toNat]

variable {l : Loader} {c : Char} {str rest : List Char}

/-! Every round takes some of the text. -/

theorem length_dropWhile_le {α : Type} (p : α → Bool) (str : List α) : (str.dropWhile p).length ≤ str.length :=
  (List.dropWhile_sublist p).length_le

theorem length_longVal (str : List Char) : (longVal str).2.length ≤ str.length := by
  have htail : (if str.head? = some '-' then str.tail else str).length ≤ str.length := by
    split
    · rw [List.length_tail]
      omega
    · exact le_refl _
  exact (length_dropWhile_le _ _).trans htail

theorem length_loadParams (fuel : Nat) (str : List Char) (params : List ArgList) :
    (loadParams fuel str params).2.length ≤ str.length := by
  induction fuel generalizing str params with
  | zero => exact le_refl _
  | succ fuel ih =>
    unfold loadParams
    split
    · simp
    · simp [Nat.le_add_right_of_le]
    · refine ((ih _ _).trans (length_longVal _)).trans ?_
      simp [Nat.le_add_right_of_le]
    · refine ((ih _ _).trans (length_longVal _)).trans ?_
      simp
    · simp

theorem length_loadAutos (fuel : Nat) (str : List Char) (autos : List ArgList) :
    (loadAutos fuel str autos).2.length ≤ str.length := by
  induction fuel generalizing str autos with
  | zero => exact le_refl _
  | succ fuel ih =>
    unfold loadAutos
    split
    · simp
    · refine ((ih _ _).trans (length_longVal _)).trans ?_
      simp
    · exact (ih _ _).trans (length_longVal _)

/-- What is left after a round is no longer than the text. -/
def Shortens (str : List Char) (step : Option (Loader × List Char)) : Prop := ∀ next ∈ step, next.2.length ≤ str.length

theorem Shortens.ite {p : Prop} [Decidable p] {step1 step2 : Option (Loader × List Char)} (h1 : Shortens str step1)
    (h2 : Shortens str step2) : Shortens str (if p then step1 else step2) := by
  split
  · exact h1
  · exact h2

theorem Shortens.some {left : List Char} (h : left.length ≤ str.length) : Shortens str (some (l, left)) := by
  intro next hnext
  exact Option.some.inj hnext ▸ h

theorem shortens_loadStep : Shortens str (loadStep l c str) := by
  have hlong := length_longVal str
  have hparams := length_loadParams (longVal str).2.length (longVal str).2 []
  have hautos := length_loadAutos (loadParams (longVal str).2.length (longVal str).2 []).2.length
    (loadParams (longVal str).2.length (longVal str).2 []).2 []
  have hcall := length_dropWhile_le (· ≠ ':')
    (if (longVal str).2.head? = some ',' then (longVal str).2.tail else (longVal str).2)
  have hcomma : (if (longVal str).2.head? = some ',' then (longVal str).2.tail else (longVal str).2).length ≤
      (longVal str).2.length := by
    split
    · rw [List.length_tail]
      exact Nat.sub_le _ _
    · exact le_refl _
  have htail : ∀ str : List Char, str.tail.length ≤ str.length := fun str => by
    rw [List.length_tail]
    exact Nat.sub_le _ _
  have hkeep : ∀ {l : Loader}, Shortens str (Option.some (l, str)) := Shortens.some (le_refl _)
  unfold loadStep
  refine hkeep.ite (.ite (hkeep.ite hkeep) (hkeep.ite (.ite ?_ (.ite ?_ (.ite ?_ (hkeep.ite (.ite ?_ (.ite ?_ (hkeep.ite
    (.ite ?_ (hkeep.ite hkeep)))))))))))
  · exact .some ((htail _).trans hlong)
  · exact .ite nofun (.some ((htail _).trans hlong))
  · exact .some (hautos.trans (hparams.trans hlong))
  · exact .some ((htail _).trans (hcall.trans (hcomma.trans hlong)))
  · exact .some (htail _)
  · exact .some ((htail _).trans hlong)

theorem loadLoop_eq {fuel : Nat} (h : str.length ≤ fuel) : loadLoop fuel l str = loadCode l str := by
  induction fuel using Nat.strong_induction_on generalizing l str with
  | _ fuel ih =>
    unfold loadCode
    cases str with
    | nil => cases fuel <;> rfl
    | cons c str =>
      obtain ⟨fuel, rfl⟩ : ∃ fuel', fuel = fuel' + 1 := ⟨fuel - 1, by simp at h; omega⟩
      rw [List.length_cons, loadLoop, loadLoop]
      cases hstep : loadStep l c str with
      | none => rfl
      | some next =>
        have hle := shortens_loadStep next hstep
        rw [List.length_cons] at h
        exact (ih fuel (by omega) (by omega)).trans (ih str.length (by omega) hle).symm

theorem loadCode_nil : loadCode l [] = some l := rfl

theorem loadCode_cons : loadCode l (c :: str) = (loadStep l c str).bind fun (l, str) => loadCode l str := by
  rw [loadCode, List.length_cons, loadLoop]
  cases hstep : loadStep l c str with
  | none => rfl
  | some next =>
    rw [Option.bind_some, Option.bind_some]
    exact loadLoop_eq (shortens_loadStep next hstep)

/-! The text of an instruction becomes its bytes. -/

/-- The operands are in the range that the encoding has for them. -/
def Instr.Ok : Instr → Prop
  | .op _ => True
  | .var _ name => name < 32768
  | .label _ => True
  | .jump _ n => n ≤ 65535
  | .const whole fraction => (∀ d ∈ whole, d < 16) ∧ (∀ d ∈ fraction, d < 16) ∧ (whole ≠ [] ∨ fraction ≠ [])
  | .call function types => function < 32768 ∧ ∀ c ∈ types, c = '0' ∨ c = '1'
  | .special _ => True
  | .read => True
  | .string _ text => '"' ∉ text

def Function.put (f : Function) : Instr → Function
  | .label n => { f with labels := Function.update f.labels n (some f.body.length) }
  | i => { f with body := f.body ++ i.bytes }

def Loader.put (l : Loader) (i : Instr) : Loader := l.change (·.put i)

/-- The loader is between two instructions. -/
structure Loader.Ready (l : Loader) : Prop where
  loadStr : l.loadStr = false
  loadConst : l.loadConst = false

theorem isRow_decimal (n : Nat) : IsRow BASE (if n = 0 then [0] else (Nat.digits 10 n).reverse) := by
  split
  · exact isRow_cons.mpr ⟨base_pos, isRow_nil⟩
  · exact isRow_reverse.mpr fun d hd => Nat.digits_lt_base one_lt_base hd

theorem decimalText_eq (n : Nat) : decimalText n = (if n = 0 then [0] else (Nat.digits 10 n).reverse).map BCD_CHAR := by
  unfold decimalText
  split <;> rfl

theorem foldl_digits {ds : List Nat} (h : IsRow BASE ds) (v : Nat) :
    (ds.map BCD_CHAR).foldl (fun val c => val * 10 + CH_VAL c) v = v * BASE ^ ds.length + SchoolbookDivision.value BASE ds := by
  induction ds generalizing v with
  | nil => simp
  | cons d ds ih =>
    rw [isRow_cons] at h
    rw [List.map_cons, List.foldl_cons, ih h.2, (bcd_char_cases h.1).2.1, SchoolbookDivision.value_cons, List.length_cons]
    unfold BASE
    ring

/-- A number in the text is read back up to the character behind it. -/
theorem longVal_decimalText (n : Nat) (hrest : ∀ c ∈ rest.head?, isdigit c = false) :
    longVal (decimalText n ++ rest) = ((n : Int), rest) := by
  have hrow := isRow_decimal n
  have hvalue := foldl_digits hrow 0
  have hdigits := takeWhile_isdigit hrow rest hrest
  have hne : (if n = 0 then [0] else (Nat.digits 10 n).reverse) ≠ [] := by
    split
    · exact nofun
    · exact List.reverse_ne_nil_iff.mpr (Nat.digits_ne_nil_iff_ne_zero.mpr ‹_›)
  have hn : SchoolbookDivision.value BASE (if n = 0 then [0] else (Nat.digits 10 n).reverse) = n := by
    split
    case isTrue h => exact h ▸ rfl
    case isFalse => rw [SchoolbookDivision.value, List.reverse_reverse]; exact Nat.ofDigits_digits 10 n
  rw [decimalText_eq]
  rw [hn, zero_mul, zero_add] at hvalue
  generalize (if n = 0 then [0] else (Nat.digits 10 n).reverse) = ds at hrow hvalue hdigits hne
  obtain ⟨d, ds, rfl⟩ := List.exists_cons_of_ne_nil hne
  have hsign : ((d :: ds).map BCD_CHAR ++ rest).head? ≠ some '-' := fun h =>
    (bcd_char_cases (isRow_cons.mp hrow).1).2.2.2.2.1 (Option.some.inj h)
  simp only [longVal, if_neg hsign, hdigits, hvalue]

theorem addbytes_addbytes (l : Loader) (bytes1 bytes2 : List Nat) :
    (l.addbytes bytes1).addbytes bytes2 = l.addbytes (bytes1 ++ bytes2) := by
  simp [Loader.addbytes, Loader.change, Loader.current]

/-- The characters that are more to the loader than a byte of the code. -/
def loaderChars : List Char :=
  ['"', 'N', 'B', 'J', 'Z', 'F', ']', 'C', 'c', 'K', 'd', 'i', 'l', 's', 'A', 'M', 'L', 'S', '\n']

theorem loadStep_plain (hl : l.Ready) (hc : c ∉ loaderChars) : loadStep l c str = some (l.addbytes [c.toNat], str) := by
  simp only [loaderChars, List.mem_cons, List.not_mem_nil, or_false, not_or] at hc
  simp [loadStep, hl.loadStr, hl.loadConst, hc]

theorem loadStep_jump (hl : l.Ready) (o : Jump) : loadStep l o.char str =
    if (longVal str).1 > 65535 then none
    else some (l.addbytes [o.char.toNat, (longVal str).1.toNat % 256, (longVal str).1.toNat / 256], (longVal str).2.tail) := by
  cases o <;> simp [loadStep, hl.loadStr, hl.loadConst, Jump.char]

theorem loadStep_var (hl : l.Ready) (o : VarOp) : loadStep l o.char str =
    some (l.addbytes (o.char.toNat :: nameBytes (longVal str).1.toNat), (longVal str).2.tail) := by
  cases o <;> simp [loadStep, hl.loadStr, hl.loadConst, VarOp.char]

theorem addbytes_nil (l : Loader) : l.addbytes [] = l := by
  simp [Loader.addbytes, Loader.change, Loader.current]

theorem loadCode_constChars (hstr : l.loadStr = false) (hconst : l.loadConst = true) {cs : List Char}
    (hcs : ∀ c ∈ cs, c ≠ ':' ∧ c ≠ '\n') : loadCode l (cs ++ rest) = loadCode (l.addbytes (cs.map constByte)) rest := by
  induction cs generalizing l with
  | nil => rw [List.nil_append, List.map_nil, addbytes_nil]
  | cons c cs ih =>
    obtain ⟨hcolon, hnewline⟩ := hcs c List.mem_cons_self
    have hstep : loadStep l c (cs ++ rest) = some (l.addbytes [constByte c], cs ++ rest) := by
      simp [loadStep, hstr, hconst, hcolon, hnewline, Loader.addbytes, Loader.change]
    rw [List.cons_append, loadCode_cons, hstep]
    refine (ih ?_ ?_ fun d hd => hcs d (List.mem_cons_of_mem _ hd)).trans ?_
    · exact hstr
    · exact hconst
    · rw [addbytes_addbytes, List.singleton_append, List.map_cons]

theorem loadCode_strChars (hstr : l.loadStr = true) {cs : List Char} (hcs : '"' ∉ cs) :
    loadCode l (cs ++ rest) = loadCode (l.addbytes (cs.map Char.toNat)) rest := by
  induction cs generalizing l with
  | nil => rw [List.nil_append, List.map_nil, addbytes_nil]
  | cons c cs ih =>
    rw [List.mem_cons, not_or] at hcs
    have hstep : loadStep l c (cs ++ rest) = some (l.addbytes [c.toNat], cs ++ rest) := by
      simp [loadStep, hstr, Ne.symm hcs.1, Loader.addbytes, Loader.change]
    rw [List.cons_append, loadCode_cons, hstep]
    refine (ih ?_ hcs.2).trans ?_
    · exact hstr
    · rw [addbytes_addbytes, List.singleton_append, List.map_cons]

theorem digitChar_cases {d : Nat} (h : d < 16) :
    constByte (digitChar d) = d ∧ digitChar d ≠ ':' ∧ digitChar d ≠ '\n' := by
  interval_cases d <;> decide

theorem constText_spec {whole fraction : List Nat} (hw : ∀ d ∈ whole, d < 16) (hf : ∀ d ∈ fraction, d < 16) :
    (constText whole fraction).map constByte = token whole fraction ∧
      ∀ c ∈ constText whole fraction, c ≠ ':' ∧ c ≠ '\n' := by
  have hmap : ∀ ds : List Nat, (∀ d ∈ ds, d < 16) → (ds.map digitChar).map constByte = ds := fun ds hds => by
    rw [List.map_map]
    exact (List.map_congr_left fun d hd => (digitChar_cases (hds d hd)).1).trans (List.map_id' ds)
  have hchars : ∀ ds : List Nat, (∀ d ∈ ds, d < 16) → ∀ c ∈ ds.map digitChar, c ≠ ':' ∧ c ≠ '\n' := fun ds hds c hc => by
    obtain ⟨d, hd, rfl⟩ := List.mem_map.mp hc
    exact (digitChar_cases (hds d hd)).2
  unfold constText token
  split
  case isTrue => exact ⟨by rw [List.append_nil, hmap whole hw], by simpa using hchars whole hw⟩
  case isFalse =>
    refine ⟨by rw [List.map_append, List.map_cons, hmap whole hw, hmap fraction hf]; rfl, ?_⟩
    intro c hc
    rw [List.mem_append, List.mem_cons] at hc
    obtain hc | rfl | hc := hc
    · exact hchars whole hw c hc
    · decide
    · exact hchars fraction hf c hc

theorem loadCode_text {i : Instr} (hi : i.Ok) (hl : l.Ready) : loadCode l (i.text ++ rest) = loadCode (l.put i) rest := by
  have hcolon : ∀ c ∈ (':' :: rest).head?, isdigit c = false := fun c hc => Option.some.inj hc ▸ rfl
  cases i with
  | op o =>
    have hc : o.char ∉ loaderChars := by
      cases o with
      | arith o => cases o <;> decide
      | rel o => cases o <;> decide
      | _ => decide
    rw [Instr.text, List.singleton_append, loadCode_cons, loadStep_plain hl hc]
    rfl
  | var o name =>
    rw [Instr.text, List.append_assoc, List.cons_append, loadCode_cons, loadStep_var hl, List.singleton_append,
      longVal_decimalText name hcolon]
    rfl
  | label n =>
    rw [Instr.text, List.append_assoc, List.cons_append, loadCode_cons, List.singleton_append]
    simp only [loadStep, hl.loadStr, hl.loadConst, longVal_decimalText n hcolon]
    rfl
  | jump o n =>
    have hfits : ¬(n : Int) > 65535 := not_lt.mpr (Int.ofNat_le.mpr hi)
    rw [Instr.text, List.append_assoc, List.cons_append, loadCode_cons, loadStep_jump hl, List.singleton_append,
      longVal_decimalText n hcolon, if_neg hfits]
    rfl
  | const whole fraction =>
    obtain ⟨hmap, hchars⟩ := constText_spec hi.1 hi.2.1
    have hstep : loadStep l 'K' (constText whole fraction ++ ':' :: rest) =
        some ({ l.addbytes ['K'.toNat] with loadConst := true }, constText whole fraction ++ ':' :: rest) := by
      simp [loadStep, hl.loadStr, hl.loadConst]
    rw [Instr.text, List.append_assoc, List.cons_append, loadCode_cons, List.singleton_append, hstep]
    refine (@loadCode_constChars { l.addbytes ['K'.toNat] with loadConst := true } _ hl.loadStr rfl _ hchars).trans ?_
    have hend : loadStep ((({ l.addbytes ['K'.toNat] with loadConst := true } : Loader)).addbytes
        ((constText whole fraction).map constByte)) ':' rest =
        some (l.addbytes ('K'.toNat :: token whole fraction ++ [COLON]), rest) := by
      obtain ⟨functions, func, loadStr, loadConst, saveFunc⟩ := l
      obtain rfl : loadStr = false := hl.loadStr
      obtain rfl : loadConst = false := hl.loadConst
      simp [loadStep, Loader.addbytes, Loader.change, Loader.current, hmap, constByte, COLON]
    rw [loadCode_cons, hend]
    rfl
  | call function types =>
    obtain ⟨-, htypes⟩ := hi
    have hcomma : ∀ c ∈ ((if types = [] then [] else ',' :: types) ++ ':' :: rest).head?, isdigit c = false := by
      intro c hc
      split at hc <;> exact Option.some.inj hc ▸ rfl
    have hdrop : ∀ c ∈ types, decide (c ≠ ':') = true := fun c hc => by
      obtain rfl | rfl := htypes c hc <;> decide
    have hstr : (if ((if types = [] then [] else ',' :: types) ++ ':' :: rest).head? = some ','
        then ((if types = [] then [] else ',' :: types) ++ ':' :: rest).tail
        else (if types = [] then [] else ',' :: types) ++ ':' :: rest) = types ++ ':' :: rest := by
      by_cases hnil : types = []
      · simp [hnil]
      · simp [hnil]
    have hstep : loadStep l 'C' (decimalText function ++ ((if types = [] then [] else ',' :: types) ++ ':' :: rest)) =
        some (l.addbytes ('C'.toNat :: nameBytes function ++ types.map Char.toNat ++ [COLON]), rest) := by
      simp only [loadStep, hl.loadStr, hl.loadConst, longVal_decimalText function hcomma, hstr,
        List.takeWhile_append_of_pos hdrop, List.dropWhile_append_of_pos hdrop]
      simp [COLON]
    rw [Instr.text]
    simp only [List.append_assoc, List.cons_append, List.nil_append]
    rw [loadCode_cons, hstep]
    rfl
  | special function =>
    have hstep : ∀ c, loadStep l 'c' (c :: rest) = some (l.addbytes ['c'.toNat, c.toNat], rest) := fun c => by
      simp [loadStep, hl.loadStr, hl.loadConst]
    rw [Instr.text, List.cons_append, List.singleton_append, loadCode_cons, hstep]
    rfl
  | read =>
    have hstep : loadStep l 'c' ('I' :: rest) = some (l.addbytes ['c'.toNat, 'I'.toNat], rest) := by
      simp [loadStep, hl.loadStr, hl.loadConst]
    rw [Instr.text, List.cons_append, List.singleton_append, loadCode_cons, hstep]
    rfl
  | string print text =>
    have hplain : (if print then 'O' else 'w') ∉ loaderChars := by cases print <;> decide
    have hopen : ∀ l : Loader, l.Ready → ∀ str, loadStep l '"' str = some ({ l with loadStr := true }, str) := by
      intro l hl str
      simp [loadStep, hl.loadStr, hl.loadConst]
    rw [Instr.text]
    simp only [List.append_assoc, List.cons_append, List.nil_append]
    rw [loadCode_cons, loadStep_plain hl hplain]
    refine (loadCode_cons.trans (congrArg (Option.bind · _) (hopen (l.addbytes _) ⟨hl.loadStr, hl.loadConst⟩ _))).trans ?_
    refine (@loadCode_strChars { l.addbytes [(if print then 'O' else 'w').toNat] with loadStr := true } _ rfl _ hi).trans ?_
    have hclose : loadStep ((({ l.addbytes [(if print then 'O' else 'w').toNat] with loadStr := true } : Loader)).addbytes
        (text.map Char.toNat)) '"' rest =
        some (l.addbytes ((if print then 'O' else 'w').toNat :: text.map Char.toNat ++ ['"'.toNat]), rest) := by
      obtain ⟨functions, func, loadStr, loadConst, saveFunc⟩ := l
      obtain rfl : loadStr = false := hl.loadStr
      obtain rfl : loadConst = false := hl.loadConst
      simp [loadStep, Loader.addbytes, Loader.change, Loader.current]
    rw [loadCode_cons, hclose]
    rfl

/-! The code as a whole. -/

theorem Loader.Ready.put (hl : l.Ready) (i : Instr) : (l.put i).Ready := ⟨hl.loadStr, hl.loadConst⟩

/-- The loader comes through the text of a list of instructions, one after the other. -/
theorem loadCode_instrs {code : List Instr} (h : ∀ i ∈ code, i.Ok) (hl : l.Ready) :
    loadCode l (code.flatMap Instr.text ++ rest) = loadCode (code.foldl Loader.put l) rest := by
  induction code generalizing l with
  | nil => rfl
  | cons i code ih =>
    rw [List.flatMap_cons, List.append_assoc, loadCode_text (h i List.mem_cons_self) hl,
      ih (fun j hj => h j (List.mem_cons_of_mem _ hj)) (hl.put i), List.foldl_cons]

theorem foldl_put (l : Loader) (code : List Instr) : code.foldl Loader.put l = l.change (code.foldl Function.put ·) := by
  induction code generalizing l with
  | nil => simp [Loader.change, Loader.current]
  | cons i code ih => simp [ih, Loader.put, Loader.change, Loader.current]

def codeBytes (code : List Instr) : List Nat := code.flatMap Instr.bytes

def codeSize (code : List Instr) : Nat := (codeBytes code).length

def labelsOf (code : List Instr) : List Nat :=
  code.filterMap fun
    | .label n => some n
    | _ => none

/-- The bytes of the instruction stand at the address, which is the one of the label if it is one. -/
def InstrAt (f : Function) (a : Nat) (i : Instr) : Prop :=
  (∃ tail, f.body.drop a = i.bytes ++ tail) ∧ ∀ n, i = .label n → f.labels n = some a

/-- The instructions stand at the address, one behind the other. -/
def CodeAt (f : Function) : Nat → List Instr → Prop
  | _, [] => True
  | a, i :: code => InstrAt f a i ∧ CodeAt f (a + i.bytes.length) code

@[simp] theorem codeAt_nil (f : Function) (a : Nat) : CodeAt f a [] := trivial

@[simp] theorem codeAt_cons {f : Function} {a : Nat} {i : Instr} {code : List Instr} :
    CodeAt f a (i :: code) ↔ InstrAt f a i ∧ CodeAt f (a + i.bytes.length) code := Iff.rfl

@[simp] theorem codeSize_nil : codeSize [] = 0 := rfl

@[simp] theorem codeSize_cons (i : Instr) (code : List Instr) : codeSize (i :: code) = i.bytes.length + codeSize code := by
  simp [codeSize, codeBytes]

@[simp] theorem codeSize_append (code1 code2 : List Instr) : codeSize (code1 ++ code2) = codeSize code1 + codeSize code2 := by
  simp [codeSize, codeBytes]

@[simp] theorem codeAt_append {f : Function} {a : Nat} {code1 code2 : List Instr} :
    CodeAt f a (code1 ++ code2) ↔ CodeAt f a code1 ∧ CodeAt f (a + codeSize code1) code2 := by
  induction code1 generalizing a with
  | nil => simp [CodeAt]
  | cons i code ih => simp [CodeAt, ih, and_assoc, Nat.add_assoc]

theorem body_foldl_put (f : Function) (code : List Instr) : (code.foldl Function.put f).body = f.body ++ codeBytes code := by
  induction code generalizing f with
  | nil => simp [codeBytes]
  | cons i code ih =>
    rw [List.foldl_cons, ih]
    cases i <;> simp [Function.put, codeBytes, Instr.bytes]

theorem labels_foldl_put (f : Function) {code : List Instr} {n : Nat} (h : n ∉ labelsOf code) :
    (code.foldl Function.put f).labels n = f.labels n := by
  induction code generalizing f with
  | nil => rfl
  | cons i code ih =>
    cases i with
    | label m =>
      have hne : n ≠ m ∧ n ∉ labelsOf code := by simpa [labelsOf] using h
      rw [List.foldl_cons, ih _ hne.2]
      simp [Function.put, hne.1]
    | _ => exact ih _ (by simpa [labelsOf] using h)

/-- Where no label is defined twice the code stands behind what was loaded before. -/
theorem codeAt_foldl_put (f : Function) {code : List Instr} (h : (labelsOf code).Nodup) :
    CodeAt (code.foldl Function.put f) f.body.length code := by
  induction code generalizing f with
  | nil => trivial
  | cons i code ih =>
    have hnodup : (labelsOf code).Nodup := by
      cases i with
      | label n => exact (List.nodup_cons.mp h).2
      | _ => exact h
    have hlen : (f.put i).body.length = f.body.length + i.bytes.length := by
      cases i <;> simp [Function.put, Instr.bytes]
    refine ⟨⟨⟨codeBytes code, ?_⟩, ?_⟩, ?_⟩
    · rw [body_foldl_put, List.drop_left]
      simp [codeBytes]
    · rintro n rfl
      rw [List.foldl_cons, labels_foldl_put _ (List.nodup_cons.mp h).1]
      simp [Function.put]
    · rw [List.foldl_cons, ← hlen]
      exact ih _ hnodup

end Bc

end DeviceDriverTest
