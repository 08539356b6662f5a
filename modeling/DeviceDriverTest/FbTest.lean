import Mathlib.Algebra.Group.Int.Defs
import Mathlib.Algebra.Group.Nat.Defs
import Mathlib.Data.List.Basic

/-! `fbtest` of the framebuffer tests: its command line and the buffer that it fills. -/

namespace DeviceDriverTest

namespace FbTest

abbrev Word := List Char

def isspace (c : Char) : Bool := c = ' ' || ('\t' ≤ c && c ≤ '\r')

def digit (c : Char) : Option Nat :=
  if c.isDigit then some (c.toNat - '0'.toNat)
  else if 'a' ≤ c ∧ c ≤ 'z' then some (c.toNat - 'a'.toNat + 10)
  else if 'A' ≤ c ∧ c ≤ 'Z' then some (c.toNat - 'A'.toNat + 10)
  else none

def digits (base n : Nat) : Word → Nat
  | [] => n
  | c :: cs =>
    match digit c with
    | some d => if d < base then digits base (n * base + d) cs else n
    | none => n

/-- A number whose base is read off its first characters. -/
def magnitude : Word → Nat
  | '0' :: x :: c :: cs =>
    if x.toLower = 'x' ∧ (∃ d ∈ digit c, d < 16) then digits 16 0 (c :: cs) else digits 8 0 ('0' :: x :: c :: cs)
  | '0' :: cs => digits 8 0 ('0' :: cs)
  | cs => digits 10 0 cs

/-- Whether a number is negative, and its magnitude. -/
def signed (s : Word) : Bool × Nat :=
  match s.dropWhile isspace with
  | '-' :: cs => (true, magnitude cs)
  | '+' :: cs => (false, magnitude cs)
  | cs => (false, magnitude cs)

def strtoul (s : Word) : UInt32 :=
  let (negative, n) := signed s
  if 2 ^ 32 ≤ n then 0xffffffff else if negative then -UInt32.ofNat n else UInt32.ofNat n

def strtol (s : Word) : Int32 :=
  let (negative, n) := signed s
  Int32.ofInt (max (-(2 ^ 31)) (min (if negative then -n else n) (2 ^ 31 - 1)))

structure Options where
  wDebug : UInt16
  dwLength : UInt32
  dwFillChar : UInt32
  fVersionFlag : Bool
  fWriteFlag : Bool
  fUnblankFlag : Bool
  fBlankFlag : Bool
  deriving DecidableEq

inductive Letter
  | unblank
  | blank
  | debug
  | help
  | length
  | fill
  | version
  | write
  | unknown
  deriving DecidableEq

def letter (c : Char) : Letter :=
  match c.toLower with
  | 'u' => .unblank
  | 'b' => .blank
  | 'd' => .debug
  | 'h' | '?' => .help
  | 'l' => .length
  | 'f' => .fill
  | 'v' => .version
  | 'w' => .write
  | _ => .unknown

/-- The options that take a value. -/
inductive Valued
  | length
  | fill
  deriving DecidableEq

def Options.set (o : Options) (value : Word) : Valued → Options
  | .length => { o with dwLength := strtoul value }
  | .fill => { o with dwFillChar := (strtol value).toUInt32 }

/-- Where the characters of a word end: behind the last one, at an option with a value
and what follows it, or at one that stops the program. -/
inductive Scan
  | done (o : Options)
  | value (option : Valued) (rest : Word) (o : Options)
  | rejected (o : Options)

def scan : Word → Options → Scan
  | [], o => .done o
  | c :: cs, o =>
    match letter c with
    | .unblank => scan cs { o with fUnblankFlag := true }
    | .blank => scan cs { o with fBlankFlag := true }
    | .debug => scan cs { o with wDebug := o.wDebug + 1 }
    | .help => .rejected o
    | .length => .value .length cs o
    | .fill => .value .fill cs o
    | .version => .rejected { o with fVersionFlag := true }
    | .write => scan cs { o with fWriteFlag := true }
    | .unknown => .rejected o

structure State where
  options : Options
  /-- The elements of `argv` read so far. -/
  reads : List Nat
  deriving DecidableEq

/-- A fault is the null pointer behind the last word given to `strtoul` or `strtol`. -/
inductive Outcome
  | accepted (s : State)
  | rejected (o : Options)
  | fault
  deriving DecidableEq

def isDash (c : Char) : Bool := c = '-' || c = '/'

/-- The words of the command line from element `i` of `argv` on. -/
def parseArgs : List Word → Nat → State → Outcome
  | [], _, s => .accepted s
  | [] :: rest, i, s => parseArgs rest (i + 1) ⟨s.options, s.reads ++ [i]⟩
  | (c :: cs) :: rest, i, s =>
    if isDash c then
      match scan cs s.options with
      | .done o => parseArgs rest (i + 1) ⟨o, s.reads ++ [i]⟩
      | .rejected o => .rejected o
      | .value option v o =>
        if v = [] then
          match rest with
          | [] => .fault
          | v :: rest => parseArgs rest (i + 2) ⟨o.set v option, s.reads ++ [i, i + 1]⟩
        else parseArgs rest (i + 1) ⟨o.set v option, s.reads ++ [i]⟩
    else parseArgs rest (i + 1) ⟨s.options, s.reads ++ [i]⟩

def initial : Options := ⟨0, 0, 0, false, false, false, false⟩

def DoArgumentParsing (words : List Word) : Outcome := parseArgs words 1 ⟨initial, []⟩

/-- `i = i + 2`; a value out of range wraps round or is undefined. -/
def next (wraps : Bool) (i : Int) : Option Int :=
  if i + 2 < 2 ^ 31 then some (i + 2) else if wraps then some (i + 2 - 2 ^ 32) else none

/-- The loop that fills the buffer: the bytes stored from its start on, `none` when
the fuel does not see the end. -/
def fillLoop (wraps : Bool) (dwLength dwFillChar : UInt32) : Nat → Int → List UInt8 → Option (List UInt8)
  | 0, _, _ => none
  | fuel + 1, i, stored =>
    if i % 2 ^ 32 < dwLength.toNat then
      (next wraps i).bind fun i =>
        fillLoop wraps dwLength dwFillChar fuel i
          (stored ++ [(dwFillChar &&& 0xff).toUInt8, (dwFillChar >>> 8).toUInt8])
    else some stored

def fillLength (smem_len : UInt32) (o : Options) : UInt32 := if o.dwLength = 0 then smem_len else o.dwLength

/-! What a command line says. -/

abbrev isFlag (c : Char) : Prop := letter c = .unblank ∨ letter c = .blank ∨ letter c = .debug ∨ letter c = .write

def Valued.letter : Valued → Letter
  | .length => .length
  | .fill => .fill

def flag (o : Options) (c : Char) : Options :=
  match letter c with
  | .unblank => { o with fUnblankFlag := true }
  | .blank => { o with fBlankFlag := true }
  | .debug => { o with wDebug := o.wDebug + 1 }
  | .write => { o with fWriteFlag := true }
  | _ => o

/-- The words of the command line: what is no option, options in one word, and options
in one word with the value of the last one in the same or in the next word. -/
inductive Item
  | operand (w : Word)
  | flags (dash : Char) (fs : Word)
  | attached (dash : Char) (fs : Word) (c : Char) (option : Valued) (value : Word)
  | separate (dash : Char) (fs : Word) (c : Char) (option : Valued) (value : Word)

def Item.WellFormed : Item → Prop
  | .operand w => ∀ c ∈ w.head?, isDash c = false
  | .flags dash fs => isDash dash = true ∧ ∀ c ∈ fs, isFlag c
  | .attached dash fs c option value =>
    isDash dash = true ∧ (∀ c ∈ fs, isFlag c) ∧ letter c = option.letter ∧ value ≠ []
  | .separate dash fs c option _ => isDash dash = true ∧ (∀ c ∈ fs, isFlag c) ∧ letter c = option.letter

def Item.render : Item → List Word
  | .operand w => [w]
  | .flags dash fs => [dash :: fs]
  | .attached dash fs c _ value => [dash :: fs ++ c :: value]
  | .separate dash fs c _ value => [dash :: fs ++ [c], value]

def Item.effect (o : Options) : Item → Options
  | .operand _ => o
  | .flags _ fs => fs.foldl flag o
  | .attached _ fs _ option value => (fs.foldl flag o).set value option
  | .separate _ fs _ option value => (fs.foldl flag o).set value option

def Parses (items : List Item) (words : List Word) : Prop :=
  (∀ x ∈ items, x.WellFormed) ∧ words = items.flatMap Item.render

def Dangling (words : List Word) : Prop :=
  ∃ (items : List Item) (dash : Char) (fs : Word) (c : Char) (option : Valued),
    (∀ x ∈ items, x.WellFormed) ∧ isDash dash = true ∧ (∀ c ∈ fs, isFlag c) ∧ letter c = option.letter ∧
      words = items.flatMap Item.render ++ [dash :: fs ++ [c]]

variable {o : Options} {s : State}

theorem scan_flag {c : Char} (h : isFlag c) (cs : Word) (o : Options) : scan (c :: cs) o = scan cs (flag o c) := by
  rw [scan, flag]
  obtain h | h | h | h := h
  · rw [h]
  · rw [h]
  · rw [h]
  · rw [h]

theorem scan_flags {fs : Word} (h : ∀ c ∈ fs, isFlag c) (cs : Word) (o : Options) :
    scan (fs ++ cs) o = scan cs (fs.foldl flag o) := by
  induction fs generalizing o with
  | nil => rfl
  | cons c fs ih =>
    rw [List.cons_append, scan_flag (h c List.mem_cons_self)]
    exact ih (fun c' hc' => h c' (List.mem_cons_of_mem c hc')) _

theorem scan_value {c : Char} {option : Valued} (h : letter c = option.letter) (cs : Word) (o : Options) :
    scan (c :: cs) o = .value option cs o := by
  rw [scan, h]
  cases option with
  | length => rfl
  | fill => rfl

theorem scan_cases (cs : Word) :
    (∀ c ∈ cs, isFlag c) ∨
      (∃ fs c value, ∃ option : Valued, cs = fs ++ c :: value ∧ (∀ c ∈ fs, isFlag c) ∧ letter c = option.letter) ∨
        ∀ o, ∃ o', scan cs o = .rejected o' := by
  induction cs with
  | nil => exact Or.inl fun c hc => absurd hc List.not_mem_nil
  | cons c cs ih =>
    have hmore : isFlag c → (∀ c' ∈ c :: cs, isFlag c') ∨
        (∃ fs c' value, ∃ option : Valued, c :: cs = fs ++ c' :: value ∧ (∀ c ∈ fs, isFlag c) ∧
          letter c' = option.letter) ∨ ∀ o, ∃ o', scan (c :: cs) o = .rejected o' := by
      intro hc
      obtain hall | ⟨fs, c', value, option, rfl, hfs, hc'⟩ | hrej := ih
      · exact Or.inl (List.forall_mem_cons.mpr ⟨hc, hall⟩)
      · exact Or.inr (Or.inl ⟨c :: fs, c', value, option, rfl, List.forall_mem_cons.mpr ⟨hc, hfs⟩, hc'⟩)
      · refine Or.inr (Or.inr fun o => ?_)
        rw [scan_flag hc]
        exact hrej _
    have hvalued : ∀ option : Valued, letter c = option.letter → ∃ fs c' value, ∃ option : Valued,
        c :: cs = fs ++ c' :: value ∧ (∀ c ∈ fs, isFlag c) ∧ letter c' = option.letter :=
      fun option h => ⟨[], c, cs, option, rfl, fun _ hc' => absurd hc' List.not_mem_nil, h⟩
    cases h : letter c with
    | unblank => exact hmore (Or.inl h)
    | blank => exact hmore (Or.inr (Or.inl h))
    | debug => exact hmore (Or.inr (Or.inr (Or.inl h)))
    | write => exact hmore (Or.inr (Or.inr (Or.inr h)))
    | length => exact Or.inr (Or.inl (hvalued .length h))
    | fill => exact Or.inr (Or.inl (hvalued .fill h))
    | help => exact Or.inr (Or.inr fun o => ⟨o, by rw [scan, h]⟩)
    | unknown => exact Or.inr (Or.inr fun o => ⟨o, by rw [scan, h]⟩)
    | version => exact Or.inr (Or.inr fun o => ⟨{ o with fVersionFlag := true }, by rw [scan, h]⟩)

theorem parseArgs_item {x : Item} (h : x.WellFormed) (rest : List Word) (i : Nat) (s : State) :
    parseArgs (x.render ++ rest) i s = parseArgs rest (i + x.render.length)
      ⟨x.effect s.options, s.reads ++ List.range' i x.render.length⟩ := by
  cases x with
  | operand w =>
    cases w with
    | nil => rfl
    | cons c cs =>
      have hc : ¬ isDash c = true := by
        rw [h c rfl]
        exact Bool.false_ne_true
      rw [Item.render, List.singleton_append, parseArgs, if_neg hc]
      rfl
  | flags dash fs =>
    have hscan := scan_flags h.2 [] s.options
    rw [List.append_nil] at hscan
    rw [Item.render, List.singleton_append, parseArgs, if_pos h.1, hscan]
    rfl
  | attached dash fs c option value =>
    obtain ⟨hdash, hfs, hc, hvalue⟩ := h
    have hscan := scan_flags hfs (c :: value) s.options
    rw [scan_value hc] at hscan
    rw [Item.render, List.singleton_append, List.cons_append, parseArgs, if_pos hdash, hscan]
    dsimp only
    rw [if_neg hvalue]
    rfl
  | separate dash fs c option value =>
    obtain ⟨hdash, hfs, hc⟩ := h
    have hscan := scan_flags hfs [c] s.options
    rw [scan_value hc] at hscan
    rw [Item.render, List.cons_append, List.singleton_append, List.cons_append, parseArgs, if_pos hdash, hscan]
    dsimp only
    rw [if_pos rfl]
    rfl

theorem parseArgs_items {items : List Item} (h : ∀ x ∈ items, x.WellFormed) (rest : List Word) (i : Nat) (s : State) :
    parseArgs (items.flatMap Item.render ++ rest) i s =
      parseArgs rest (i + (items.flatMap Item.render).length)
        ⟨items.foldl Item.effect s.options, s.reads ++ List.range' i (items.flatMap Item.render).length⟩ := by
  induction items generalizing i s with
  | nil => simp
  | cons x items ih =>
    rw [List.flatMap_cons, List.append_assoc, parseArgs_item (h x List.mem_cons_self),
      ih fun y hy => h y (List.mem_cons_of_mem x hy)]
    rw [List.length_append, Nat.add_assoc, List.append_assoc, List.range'_append_1, List.foldl_cons]

theorem parsed {items : List Item} {words : List Word} (h : Parses items words) :
    DoArgumentParsing words = .accepted ⟨items.foldl Item.effect initial, List.range' 1 words.length⟩ := by
  obtain ⟨hwf, rfl⟩ := h
  have hall := parseArgs_items hwf [] 1 ⟨initial, []⟩
  rw [List.append_nil] at hall
  exact hall

theorem dangling_fault {words : List Word} (h : Dangling words) : DoArgumentParsing words = .fault := by
  obtain ⟨items, dash, fs, c, option, hwf, hdash, hfs, hc, rfl⟩ := h
  have hscan := scan_flags hfs [c] (items.foldl Item.effect initial)
  rw [scan_value hc] at hscan
  rw [DoArgumentParsing, parseArgs_items hwf, List.cons_append, parseArgs, if_pos hdash, hscan]
  rfl

theorem Parses.cons {x : Item} {items : List Item} {words : List Word} (hx : x.WellFormed) (h : Parses items words) :
    Parses (x :: items) (x.render ++ words) :=
  ⟨List.forall_mem_cons.mpr ⟨hx, h.1⟩, by rw [List.flatMap_cons, h.2]⟩

/-- What has been read of a command line, or a null pointer is given away, or the program stops. -/
theorem parseArgs_cases (words : List Word) : (∃ items, Parses items words) ∨ Dangling words ∨
    ∀ i s, ∃ o, parseArgs words i s = .rejected o := by
  induction hn : words.length using Nat.strongRecOn generalizing words with
  | ind n ih =>
    have hmore : ∀ (x : Item) (rest : List Word), x.WellFormed → rest.length < n →
        (∃ items, Parses items (x.render ++ rest)) ∨ Dangling (x.render ++ rest) ∨
          ∀ i s, ∃ o, parseArgs (x.render ++ rest) i s = .rejected o := by
      intro x rest hx hlt
      obtain ⟨items, hitems⟩ | ⟨items, dash, fs, c, option, hwf, hdash, hfs, hc, rfl⟩ | hrej :=
        ih rest.length hlt rest rfl
      · exact Or.inl ⟨x :: items, hitems.cons hx⟩
      · refine Or.inr (Or.inl ⟨x :: items, dash, fs, c, option, List.forall_mem_cons.mpr ⟨hx, hwf⟩, hdash, hfs, hc, ?_⟩)
        rw [List.flatMap_cons, List.append_assoc]
      · refine Or.inr (Or.inr fun i s => ?_)
        rw [parseArgs_item hx]
        exact hrej _ _
    subst hn
    cases words with
    | nil => exact Or.inl ⟨[], fun _ hx => absurd hx List.not_mem_nil, rfl⟩
    | cons w rest =>
      have hrest : rest.length < (w :: rest).length := Nat.lt_succ_self _
      by_cases hop : ∀ c ∈ w.head?, isDash c = false
      · exact hmore (.operand w) rest hop hrest
      · cases w with
        | nil => exact absurd (fun c hc => nomatch hc) hop
        | cons dash cs =>
          have hdash : isDash dash = true := by
            cases hd : isDash dash with
            | true => rfl
            | false => exact absurd (fun c hc => by rw [← Option.some.inj hc, hd]) hop
          obtain hfs | ⟨fs, c, value, option, rfl, hfs, hc⟩ | hrej := scan_cases cs
          · exact hmore (.flags dash cs) rest ⟨hdash, hfs⟩ hrest
          · by_cases hvalue : value = []
            · subst hvalue
              cases rest with
              | nil =>
                exact Or.inr (Or.inl ⟨[], dash, fs, c, option, fun _ hx => absurd hx List.not_mem_nil, hdash, hfs, hc, rfl⟩)
              | cons value rest =>
                exact hmore (.separate dash fs c option value) rest ⟨hdash, hfs, hc⟩ (Nat.lt_of_succ_lt hrest)
            · exact hmore (.attached dash fs c option value) rest ⟨hdash, hfs, hc, hvalue⟩ hrest
          · refine Or.inr (Or.inr fun i s => ?_)
            obtain ⟨o, hscan⟩ := hrej s.options
            refine ⟨o, ?_⟩
            rw [parseArgs, if_pos hdash, hscan]

/-! The options that the length of the buffer comes from. -/

def Item.letters : Item → Word
  | .operand _ => []
  | .flags _ fs | .attached _ fs _ _ _ | .separate _ fs _ _ _ => fs

def Item.lengthGiven : Item → Option UInt32
  | .attached _ _ _ .length value | .separate _ _ _ .length value => some (strtoul value)
  | _ => none

def Writes (items : List Item) : Prop := ∃ x ∈ items, ∃ c ∈ x.letters, letter c = .write

/-- The last length that is given, and all of the framebuffer's where it is zero or none is given. -/
def bufferLength (smem_len : UInt32) (items : List Item) : UInt32 :=
  let given := (items.filterMap Item.lengthGiven).getLast?.getD 0
  if given = 0 then smem_len else given

theorem flags_length (fs : Word) (o : Options) : (fs.foldl flag o).dwLength = o.dwLength := by
  induction fs generalizing o with
  | nil => rfl
  | cons c fs ih =>
    rw [List.foldl_cons, ih, flag]
    split <;> rfl

theorem flags_write (fs : Word) (o : Options) :
    (fs.foldl flag o).fWriteFlag = true ↔ o.fWriteFlag = true ∨ ∃ c ∈ fs, letter c = .write := by
  induction fs generalizing o with
  | nil => simp
  | cons c fs ih =>
    have hflag : (flag o c).fWriteFlag = true ↔ o.fWriteFlag = true ∨ letter c = .write := by
      rw [flag]
      cases letter c <;> simp
    rw [List.foldl_cons, ih, hflag, List.exists_mem_cons_iff, or_assoc]

theorem effect_length (o : Options) (x : Item) : (x.effect o).dwLength = x.lengthGiven.getD o.dwLength := by
  cases x with
  | operand w => rfl
  | flags dash fs => exact flags_length fs o
  | attached dash fs c option value =>
    cases option with
    | length => rfl
    | fill => exact flags_length fs o
  | separate dash fs c option value =>
    cases option with
    | length => rfl
    | fill => exact flags_length fs o

theorem effect_write (o : Options) (x : Item) :
    (x.effect o).fWriteFlag = true ↔ o.fWriteFlag = true ∨ ∃ c ∈ x.letters, letter c = .write := by
  cases x with
  | operand w => simp [Item.effect, Item.letters]
  | flags dash fs => exact flags_write fs o
  | attached dash fs c option value => cases option <;> exact flags_write fs o
  | separate dash fs c option value => cases option <;> exact flags_write fs o

theorem effects_length (items : List Item) (o : Options) :
    (items.foldl Item.effect o).dwLength = (items.filterMap Item.lengthGiven).getLast?.getD o.dwLength := by
  induction items generalizing o with
  | nil => rfl
  | cons x items ih =>
    rw [List.foldl_cons, ih, effect_length]
    cases hx : x.lengthGiven with
    | none => rw [List.filterMap_cons_none hx, Option.getD_none]
    | some l => rw [List.filterMap_cons_some hx, List.getLast?_cons, Option.getD_some, Option.getD_some]

theorem effects_write (items : List Item) (o : Options) :
    (items.foldl Item.effect o).fWriteFlag = true ↔ o.fWriteFlag = true ∨ Writes items := by
  induction items generalizing o with
  | nil => simp [Writes]
  | cons x items ih => rw [List.foldl_cons, ih, effect_write, Writes, Writes, List.exists_mem_cons_iff, or_assoc]

theorem effects_fillLength (smem_len : UInt32) (items : List Item) :
    fillLength smem_len (items.foldl Item.effect initial) = bufferLength smem_len items := by
  rw [fillLength, effects_length]
  rfl

/-! The loop that fills the buffer. -/

def pairs (dwFillChar : UInt32) (n : Nat) : List UInt8 :=
  (List.replicate n [(dwFillChar &&& 0xff).toUInt8, (dwFillChar >>> 8).toUInt8]).flatten

/-- The loop ends, and has stored the buffer's bytes, the low and the high one in turn. -/
def Filled (wraps : Bool) (dwLength dwFillChar : UInt32) : Prop :=
  ∃ fuel stored, fillLoop wraps dwLength dwFillChar fuel 0 [] = some stored ∧ stored.length = dwLength.toNat ∧
    ∀ k < dwLength.toNat, stored[k]? =
      some (if k % 2 = 0 then (dwFillChar &&& 0xff).toUInt8 else (dwFillChar >>> 8).toUInt8)

/-- The value of `i` after `k` rounds. -/
def counter (k : Nat) : Int := if 2 * k < 2 ^ 31 then 2 * k else 2 * k - 2 ^ 32

variable {wraps : Bool} {dwLength dwFillChar : UInt32}

theorem pairs_succ (dwFillChar : UInt32) (n : Nat) :
    pairs dwFillChar (n + 1) = pairs dwFillChar n ++ [(dwFillChar &&& 0xff).toUInt8, (dwFillChar >>> 8).toUInt8] := by
  rw [pairs, pairs, List.replicate_succ', List.flatten_append, List.flatten_singleton]

theorem pairs_length (dwFillChar : UInt32) (n : Nat) : (pairs dwFillChar n).length = 2 * n := by
  induction n with
  | zero => rfl
  | succ n ih => rw [pairs_succ, List.length_append, ih]; rfl

theorem pairs_get (dwFillChar : UInt32) {n k : Nat} (hk : k < 2 * n) : (pairs dwFillChar n)[k]? =
    some (if k % 2 = 0 then (dwFillChar &&& 0xff).toUInt8 else (dwFillChar >>> 8).toUInt8) := by
  induction n with
  | zero => exact absurd hk (Nat.not_lt_zero k)
  | succ n ih =>
    rw [pairs_succ]
    by_cases hlt : k < 2 * n
    · rw [List.getElem?_append_left (by rwa [pairs_length]), ih hlt]
    · rw [List.getElem?_append_right (by rw [pairs_length]; omega), pairs_length]
      obtain rfl | rfl : k = 2 * n ∨ k = 2 * n + 1 := by omega
      · rw [Nat.sub_self, if_pos (by omega)]
        rfl
      · rw [Nat.add_sub_cancel_left, if_neg (by omega)]
        rfl

theorem fillLoop_some {fuel : Nat} {i : Int} {stored r : List UInt8}
    (h : fillLoop wraps dwLength dwFillChar fuel i stored = some r) : ∃ m, r.length = stored.length + 2 * m := by
  induction fuel generalizing i stored with
  | zero => exact nomatch h
  | succ fuel ih =>
    rw [fillLoop] at h
    by_cases hi : i % 2 ^ 32 < dwLength.toNat
    · rw [if_pos hi] at h
      obtain ⟨i', -, hrest⟩ := Option.bind_eq_some_iff.mp h
      obtain ⟨m, hm⟩ := ih hrest
      refine ⟨m + 1, ?_⟩
      rw [hm, List.length_append]
      show stored.length + 2 + 2 * m = stored.length + 2 * (m + 1)
      omega
    · rw [if_neg hi] at h
      exact ⟨0, congrArg List.length (Option.some.inj h).symm⟩

theorem next_counter {k : Nat} (hk : 2 * k + 2 < 2 ^ 32) (h : wraps = true ∨ 2 * k + 2 < 2 ^ 31) :
    next wraps (counter k) = some (counter (k + 1)) := by
  rw [next, counter, counter]
  by_cases hlow : 2 * k + 2 < 2 ^ 31
  · rw [if_pos (by omega), if_pos (by omega), if_pos (by omega)]
    congr 1
  · have hwraps : wraps = true := h.resolve_right hlow
    rw [if_neg (by omega : ¬ 2 * (k + 1) < 2 ^ 31), hwraps]
    by_cases hturn : 2 * k < 2 ^ 31
    · rw [if_pos hturn, if_neg (by omega), if_pos rfl]
      congr 1
    · rw [if_neg hturn, if_pos (by omega)]
      congr 1
      omega

theorem fillLoop_counted {n m k : Nat} (hn : dwLength.toNat = 2 * n) (h : wraps = true ∨ dwLength.toNat < 2 ^ 31)
    (hk : k + m = n) :
    fillLoop wraps dwLength dwFillChar (m + 1) (counter k) (pairs dwFillChar k) = some (pairs dwFillChar n) := by
  have hsize := dwLength.toNat_lt
  have hcounter : ∀ k, 2 * k ≤ dwLength.toNat → counter k % 2 ^ 32 = (2 * k : Nat) := by
    intro k hle
    rw [counter]
    split <;> omega
  induction m generalizing k with
  | zero =>
    obtain rfl : k = n := hk
    rw [fillLoop, if_neg (by rw [hcounter k (by omega)]; omega)]
  | succ m ih =>
    have hlt : counter k % 2 ^ 32 < dwLength.toNat := by
      rw [hcounter k (by omega)]
      omega
    rw [fillLoop, if_pos hlt, next_counter (by omega) (h.imp_right fun hfits => by omega), Option.bind_some, ← pairs_succ]
    exact ih (by omega)

/-- Where the overflow is undefined, a length from 2^31 on has no defined end. -/
theorem fillLoop_undefined (hlen : 2 ^ 31 ≤ dwLength.toNat) {fuel k : Nat} (hk : 2 * k < 2 ^ 31) (stored : List UInt8) :
    fillLoop false dwLength dwFillChar fuel (2 * k : Nat) stored = none := by
  induction fuel generalizing k stored with
  | zero => rfl
  | succ fuel ih =>
    have hlt : ((2 * k : Nat) : Int) % 2 ^ 32 < dwLength.toNat := by omega
    rw [fillLoop, if_pos hlt, next]
    by_cases hnext : ((2 * k : Nat) : Int) + 2 < 2 ^ 31
    · have hsucc : ((2 * k : Nat) : Int) + 2 = (2 * (k + 1) : Nat) := by omega
      rw [if_pos hnext, Option.bind_some, hsucc]
      exact ih (by omega) _
    · rw [if_neg hnext]
      rfl

theorem filled_iff : Filled wraps dwLength dwFillChar ↔
    dwLength.toNat % 2 = 0 ∧ (wraps = true ∨ dwLength.toNat < 2 ^ 31) := by
  refine ⟨fun ⟨fuel, stored, hrun, hlen, _⟩ => ⟨?_, ?_⟩, fun ⟨heven, hfits⟩ => ?_⟩
  · obtain ⟨m, hm⟩ := fillLoop_some hrun
    rw [← hlen, hm, List.length_nil]
    omega
  · cases wraps with
    | true => exact Or.inl rfl
    | false =>
      refine Or.inr (Nat.lt_of_not_le fun hbig => ?_)
      have hnone := @fillLoop_undefined dwLength dwFillChar hbig fuel 0 (by decide) []
      exact absurd (hnone.symm.trans hrun) nofun
  · have hrun := @fillLoop_counted wraps dwLength dwFillChar (dwLength.toNat / 2) (dwLength.toNat / 2) 0 (by omega) hfits
      (Nat.zero_add _)
    refine ⟨_, _, hrun, ?_, fun k hk => ?_⟩
    · rw [pairs_length]
      omega
    · exact pairs_get dwFillChar (by omega)

/-- An accepted command line: every option has taken its own value, nothing behind the last word has
been read, and the buffer is filled if it is to be written. -/
structure Right (wraps : Bool) (smem_len : UInt32) (words : List Word) (s : State) : Prop where
  options : ∃ items, Parses items words ∧ s.options = items.foldl Item.effect initial
  reads : ∀ i ∈ s.reads, i < words.length + 1
  filled : s.options.fWriteFlag = true → Filled wraps (fillLength smem_len s.options) s.options.dwFillChar

def Fits (wraps : Bool) (dwLength : UInt32) : Prop := dwLength.toNat % 2 = 0 ∧ (wraps = true ∨ dwLength.toNat < 2 ^ 31)

theorem right_iff {items : List Item} {words : List Word} (h : Parses items words) (smem_len : UInt32) :
    Right wraps smem_len words ⟨items.foldl Item.effect initial, List.range' 1 words.length⟩ ↔
      (Writes items → Fits wraps (bufferLength smem_len items)) := by
  have hwrite : (items.foldl Item.effect initial).fWriteFlag = true ↔ Writes items :=
    (effects_write items initial).trans (or_iff_right Bool.false_ne_true)
  have hfilled : ((items.foldl Item.effect initial).fWriteFlag = true →
        Filled wraps (fillLength smem_len (items.foldl Item.effect initial))
          (items.foldl Item.effect initial).dwFillChar) ↔
      (Writes items → Fits wraps (bufferLength smem_len items)) := by
    rw [hwrite, filled_iff, effects_fillLength]
    rfl
  refine ⟨fun hright => hfilled.mp hright.filled, fun hfits => ⟨⟨items, h, rfl⟩, fun i hi => ?_, hfilled.mpr hfits⟩⟩
  have hmem := List.mem_range'_1.mp hi
  omega

/-- Exactly the command lines where no value is missing behind the last word and the buffer to write has
an even length, below 2^31 where overflow is undefined, are treated right. -/
theorem fbtest_right_iff (wraps : Bool) (smem_len : UInt32) (words : List Word) :
    ((∃ o, DoArgumentParsing words = .rejected o) ∨
        ∃ s, DoArgumentParsing words = .accepted s ∧ Right wraps smem_len words s) ↔
      ¬ Dangling words ∧ ∀ items, Parses items words → Writes items → Fits wraps (bufferLength smem_len items) := by
  obtain ⟨items, hitems⟩ | hdangling | hrej := parseArgs_cases words
  · refine ⟨fun h => ⟨fun hdangling => ?_, fun items' hitems' => ?_⟩, fun ⟨_, hfits⟩ => ?_⟩
    · exact Outcome.noConfusion ((parsed hitems).symm.trans (dangling_fault hdangling))
    · obtain ⟨o, ho⟩ | ⟨s, hs, hright⟩ := h
      · exact Outcome.noConfusion ((parsed hitems).symm.trans ho)
      · obtain rfl := Outcome.accepted.inj ((parsed hitems').symm.trans hs)
        exact (right_iff hitems' smem_len).mp hright
    · exact Or.inr ⟨_, parsed hitems, (right_iff hitems smem_len).mpr (hfits items hitems)⟩
  · have hfault := dangling_fault hdangling
    refine ⟨fun h => ?_, fun h => absurd hdangling h.1⟩
    obtain ⟨o, ho⟩ | ⟨s, hs, _⟩ := h
    · exact Outcome.noConfusion (hfault.symm.trans ho)
    · exact Outcome.noConfusion (hfault.symm.trans hs)
  · obtain ⟨o, ho⟩ := hrej 1 ⟨initial, []⟩
    refine ⟨fun _ => ⟨fun hdangling => ?_, fun items hitems => ?_⟩, fun _ => Or.inl ⟨o, ho⟩⟩
    · exact Outcome.noConfusion ((dangling_fault hdangling).symm.trans ho)
    · exact Outcome.noConfusion ((parsed hitems).symm.trans ho)

def oddLine : List Word := ["-w".toList, "-l".toList, "3".toList]

/-- `fbtest -w -l 3`: four bytes go to a buffer of three. -/
theorem odd_length_overruns : ¬ ∃ wraps, ((∃ o, DoArgumentParsing oddLine = .rejected o) ∨
    ∃ s, DoArgumentParsing oddLine = .accepted s ∧ Right wraps 0 oddLine s) := by
  rintro ⟨wraps, h⟩
  have hparses : Parses [.flags '-' ['w'], .separate '-' [] 'l' .length ['3']] oddLine := by
    have hwrite : ∀ c ∈ ['w'], isFlag c := List.forall_mem_singleton.mpr (Or.inr (Or.inr (Or.inr rfl)))
    have hnone : ∀ c ∈ [], isFlag c := fun _ hc => absurd hc List.not_mem_nil
    exact ⟨List.forall_mem_cons.mpr ⟨⟨rfl, hwrite⟩, List.forall_mem_singleton.mpr ⟨rfl, hnone, rfl⟩⟩, rfl⟩
  have hwrites : Writes [.flags '-' ['w'], .separate '-' [] 'l' .length ['3']] :=
    ⟨_, List.mem_cons_self, 'w', List.mem_cons_self, rfl⟩
  obtain ⟨o, ho⟩ | ⟨s, hs, hright⟩ := h
  · exact Outcome.noConfusion ((parsed hparses).symm.trans ho)
  · obtain rfl := Outcome.accepted.inj ((parsed hparses).symm.trans hs)
    have hodd := ((right_iff hparses 0).mp hright hwrites).1
    exact absurd hodd (by decide)

end FbTest

end DeviceDriverTest
