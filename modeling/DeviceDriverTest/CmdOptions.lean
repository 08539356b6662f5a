import Mathlib.Data.List.Basic

/-! `parse_prepare` and `get_option_index` of the camera tests: the arguments are
compared with an option table and the values stored in it. -/

namespace DeviceDriverTest
namespace CmdOptions

inductive OptionType
  | byte
  | word
  | long
  | char
deriving DecidableEq

/-- `union default_u` with the member its option's type selects; `none` is the null pointer. -/
inductive Value
  | byte (v : UInt8)
  | word (v : Int32)
  | long (v : Int32)
  | char (v : Option String)
deriving DecidableEq

structure Options where
  symb : String
  type : OptionType
  dflt : Value
  entered : Bool
deriving DecidableEq

/-- An element of `argv` read for a value, and the one treated as the symbol. -/
structure Read where
  symbol : Nat
  element : Nat
deriving DecidableEq

structure Parse where
  array : List Options
  reads : List Read
deriving DecidableEq

def isspace (c : Char) : Bool := c = ' ' || ('\t' ≤ c && c ≤ '\r')

def digits (n : Nat) : List Char → Nat
  | [] => n
  | c :: cs => if c.isDigit then digits (n * 10 + (c.toNat - '0'.toNat)) cs else n

/-- A number out of range becomes the end of the range on its side. -/
def clamp (n : Int) : Int32 := Int32.ofInt (max (-2147483648) (min n 2147483647))

def atoi (s : String) : Int32 :=
  match s.toList.dropWhile isspace with
  | '-' :: cs => clamp (-(digits 0 cs : Int))
  | '+' :: cs => clamp (digits 0 cs)
  | cs => clamp (digits 0 cs)

def Options.enter (o : Options) (v : Value) : Options := { o with dflt := v, entered := true }

/-- The type switch on `argv[ai]` and `argv[ai+1]`: `atoi` of a null pointer is a crash. -/
def assign (arg : String) (next : Option String) (o : Options) : Option Options :=
  match o.type with
  | .byte => next.map fun v => o.enter (.byte (atoi v).toUInt32.toUInt8)
  | .word => next.map fun v => o.enter (.word (atoi v))
  | .long => some (o.enter (.long (atoi arg)))
  | .char => some (o.enter (.char next))

def element (ai : Nat) : OptionType → Nat
  | .long => ai
  | _ => ai + 1

def matchOptions (arg : String) (next : Option String) (ai : Nat) : List Options → Option (List Options × List Read)
  | [] => some ([], [])
  | o :: os =>
    if arg = o.symb then
      (assign arg next o).bind fun o' =>
        (matchOptions arg next ai os).map fun r => (o' :: r.1, ⟨ai, element ai o.type⟩ :: r.2)
    else (matchOptions arg next ai os).map fun r => (o :: r.1, r.2)

def parseArg (arg : String) (next : Option String) (ai : Nat) (p : Parse) : Option Parse :=
  if '-' ∈ arg.toList then (matchOptions arg next ai p.array).map fun r => ⟨r.1, p.reads ++ r.2⟩
  else some p

/-- The loop over the arguments; the element behind the last one is the null pointer. -/
def parseArgs : List String → Nat → Parse → Option Parse
  | [], _, p => some p
  | arg :: rest, ai, p => (parseArg arg rest.head? ai p).bind (parseArgs rest (ai + 1))

def parsePrepare (argv : List String) (array : List Options) : Option Parse := parseArgs argv.tail 1 ⟨array, []⟩

def getOptionIndex (option : String) (array : List Options) : Int :=
  match array.findIdx? (option = ·.symb) with
  | some oi => oi
  | none => -1

/-! What the table should hold afterwards. -/

abbrev Pair := String × String

def arguments (pairs : List Pair) : List String := pairs.flatMap fun p => [p.1, p.2]

def lastValue : List Pair → String → Option String
  | [], _ => none
  | p :: pairs, s => (lastValue pairs s).or (if p.1 = s then some p.2 else none)

def convert (v : String) : OptionType → Value
  | .byte => .byte (atoi v).toUInt32.toUInt8
  | .word => .word (atoi v)
  | .long => .long (atoi v)
  | .char => .char (some v)

/-- A symbol is recognised by its dash; the other options keep their defaults. -/
def expected (pairs : List Pair) (o : Options) : Value :=
  if '-' ∈ o.symb.toList then (lastValue pairs o.symb).elim o.dflt (convert · o.type) else o.dflt

structure ParseRight (prog : String) (pairs : List Pair) (table : List Options) (p : Parse) : Prop where
  parsed : parsePrepare (prog :: arguments pairs) table = some p
  values : p.array.map Options.dflt = table.map (expected pairs)
  indices : ∀ s, getOptionIndex s p.array = getOptionIndex s table
  /-- The symbols stand at the odd indices. -/
  symbols : ∀ r ∈ p.reads, r.symbol % 2 = 1
  inside : ∀ r ∈ p.reads, r.element < (prog :: arguments pairs).length

def Named (array : List Options) (s : String) : Prop := '-' ∈ s.toList ∧ s ∈ array.map Options.symb

instance (array : List Options) (s : String) : Decidable (Named array s) := inferInstanceAs (Decidable (_ ∧ _))

/-- What is stored for an option given by the pair of its symbol and `v`. -/
def stored (v : String) (o : Options) : Value :=
  match o.type with
  | .long => .long (atoi o.symb)
  | t => convert v t

def setPair (o : Options) (p : Pair) : Options :=
  if '-' ∈ p.1.toList ∧ p.1 = o.symb then o.enter (stored p.2 o) else o

def setPairs (pairs : List Pair) (o : Options) : Options := pairs.foldl setPair o

section Arguments

variable {arg v : String} {next : Option String} {ai : Nat} {o : Options} {os : List Options} {p q : Parse}

@[simp] theorem enter_symb (w : Value) : (o.enter w).symb = o.symb := rfl
@[simp] theorem enter_type (w : Value) : (o.enter w).type = o.type := rfl
@[simp] theorem enter_dflt (w : Value) : (o.enter w).dflt = w := rfl

theorem assign_some (o : Options) (h : arg = o.symb) : assign arg (some v) o = some (o.enter (stored v o)) := by
  subst h
  unfold assign stored
  cases o.type <;> rfl

theorem assign_symb {o' : Options} (h : assign arg next o = some o') : o'.symb = o.symb := by
  unfold assign at h
  split at h
  case h_1 | h_2 =>
    obtain ⟨v, -, rfl⟩ := Option.map_eq_some_iff.mp h
    rfl
  case h_3 | h_4 => exact Option.some.inj h ▸ rfl

theorem matchOptions_some (arg v : String) (ai : Nat) (os : List Options) (hdash : '-' ∈ arg.toList) :
    ∃ reads, matchOptions arg (some v) ai os = some (os.map (setPair · (arg, v)), reads) ∧
      ∀ r ∈ reads, r.symbol = ai ∧ r.element ≤ ai + 1 := by
  induction os with
  | nil => exact ⟨[], rfl, by simp⟩
  | cons o os ih =>
    obtain ⟨reads, hmatch, hreads⟩ := ih
    by_cases h : arg = o.symb
    · refine ⟨⟨ai, element ai o.type⟩ :: reads, ?_, fun r hr => ?_⟩
      · subst h
        simp [matchOptions, assign_some, hmatch, setPair, hdash]
      · rcases List.mem_cons.mp hr with rfl | hr
        · exact ⟨rfl, by cases o.type <;> simp [element]⟩
        · exact hreads r hr
    · exact ⟨reads, by simp [matchOptions, h, hmatch, setPair], hreads⟩

theorem matchOptions_spec {os' : List Options} {reads : List Read}
    (h : matchOptions arg next ai os = some (os', reads)) :
    os'.map Options.symb = os.map Options.symb ∧ (∀ r ∈ reads, r.symbol = ai) ∧
      (reads = [] ↔ ∀ o ∈ os, o.symb ≠ arg) := by
  induction os generalizing os' reads with
  | nil =>
    simp only [matchOptions, Option.some.injEq, Prod.mk.injEq] at h
    obtain ⟨rfl, rfl⟩ := h
    simp
  | cons o os ih =>
    by_cases harg : arg = o.symb
    · simp only [matchOptions, if_pos harg, Option.bind_eq_some_iff, Option.map_eq_some_iff] at h
      obtain ⟨o', hassign, ⟨os', reads⟩, hrest, heq⟩ := h
      obtain ⟨rfl, rfl⟩ := Prod.mk.inj heq
      obtain ⟨hsymb, hreads, -⟩ := ih hrest
      refine ⟨by simp [assign_symb hassign, hsymb], fun r hr => ?_, by simp [harg]⟩
      rcases List.mem_cons.mp hr with rfl | hr
      · rfl
      · exact hreads r hr
    · simp only [matchOptions, if_neg harg, Option.map_eq_some_iff] at h
      obtain ⟨⟨os', reads⟩, hrest, heq⟩ := h
      obtain ⟨rfl, rfl⟩ := Prod.mk.inj heq
      obtain ⟨hsymb, hreads, hempty⟩ := ih hrest
      exact ⟨by simp [hsymb], hreads, by simp [hempty, Ne.symm harg]⟩

theorem matchOptions_unmatched (h : arg ∉ os.map Options.symb) : matchOptions arg next ai os = some (os, []) := by
  induction os with
  | nil => rfl
  | cons o os ih =>
    obtain ⟨hne, hrest⟩ := not_or.mp (mt List.mem_cons.mpr h)
    simp [matchOptions, show arg ≠ o.symb from hne, ih hrest]

theorem parseArg_unnamed (ai : Nat) (next : Option String) (h : ¬Named p.array arg) : parseArg arg next ai p = some p := by
  unfold parseArg
  split
  · next hdash => simp [matchOptions_unmatched fun hmem => h ⟨hdash, hmem⟩]
  · rfl

theorem parseArg_some (arg v : String) (ai : Nat) (p : Parse) :
    ∃ reads, parseArg arg (some v) ai p = some ⟨p.array.map (setPair · (arg, v)), p.reads ++ reads⟩ ∧
      ∀ r ∈ reads, r.symbol = ai ∧ r.element ≤ ai + 1 := by
  by_cases hdash : '-' ∈ arg.toList
  · obtain ⟨reads, hmatch, hreads⟩ := matchOptions_some arg v ai p.array hdash
    exact ⟨reads, by simp [parseArg, hdash, hmatch], hreads⟩
  · exact ⟨[], by simp [parseArg, hdash, setPair], by simp⟩

structure Grows (p q : Parse) : Prop where
  symbs : q.array.map Options.symb = p.array.map Options.symb
  reads : ∀ r ∈ p.reads, r ∈ q.reads

theorem Grows.refl (p : Parse) : Grows p p := ⟨rfl, fun _ hr => hr⟩

theorem Grows.trans {p' : Parse} (h : Grows p q) (h' : Grows q p') : Grows p p' :=
  ⟨h'.symbs.trans h.symbs, fun r hr => h'.reads r (h.reads r hr)⟩

theorem Grows.named (h : Grows p q) (s : String) : Named q.array s ↔ Named p.array s := by
  unfold Named
  rw [h.symbs]

theorem parseArg_grows (h : parseArg arg next ai p = some q) : Grows p q := by
  unfold parseArg at h
  split at h
  · obtain ⟨⟨os, reads⟩, hmatch, rfl⟩ := Option.map_eq_some_iff.mp h
    exact ⟨(matchOptions_spec hmatch).1, fun r hr => List.mem_append_left reads hr⟩
  · exact Option.some.inj h ▸ .refl p

theorem parseArg_named (h : parseArg arg next ai p = some q) (hnamed : Named p.array arg) :
    ∃ r ∈ q.reads, r.symbol = ai := by
  simp only [parseArg, if_pos hnamed.1, Option.map_eq_some_iff] at h
  obtain ⟨⟨os, reads⟩, hmatch, rfl⟩ := h
  obtain ⟨-, hreads, hempty⟩ := matchOptions_spec hmatch
  obtain ⟨o, ho, hsymb⟩ := List.mem_map.mp hnamed.2
  cases reads with
  | nil => exact absurd hsymb (hempty.mp rfl o ho)
  | cons r reads => exact ⟨r, by simp, hreads r (by simp)⟩

theorem parseArgs_grows {args : List String} (h : parseArgs args ai p = some q) : Grows p q := by
  induction args generalizing ai p with
  | nil => exact Option.some.inj h ▸ .refl p
  | cons arg args ih =>
    obtain ⟨p', hfirst, hrest⟩ := Option.bind_eq_some_iff.mp h
    exact (parseArg_grows hfirst).trans (ih hrest)

end Arguments

section Pairs

variable {pairs : List Pair} {p q : Parse} {ai : Nat}

theorem setPair_symb (o : Options) (p : Pair) : (setPair o p).symb = o.symb := by
  unfold setPair
  split <;> rfl

theorem setPair_type (o : Options) (p : Pair) : (setPair o p).type = o.type := by
  unfold setPair
  split <;> rfl

theorem setPairs_symb (pairs : List Pair) (o : Options) : (setPairs pairs o).symb = o.symb := by
  induction pairs generalizing o with
  | nil => rfl
  | cons p pairs ih => exact (ih (setPair o p)).trans (setPair_symb o p)

/-- No value is taken for a symbol when every read goes by an odd index. -/
theorem values_unnamed (h : parseArgs (arguments pairs) ai p = some q) (hai : ai % 2 = 1)
    (hodd : ∀ r ∈ q.reads, r.symbol % 2 = 1) : ∀ pair ∈ pairs, ¬Named p.array pair.2 := by
  induction pairs generalizing ai p with
  | nil => simp
  | cons pair pairs ih =>
    obtain ⟨p', hsymbol, h⟩ := Option.bind_eq_some_iff.mp h
    obtain ⟨p'', hvalue, hrest⟩ := Option.bind_eq_some_iff.mp h
    have hfirst := parseArg_grows hsymbol
    have hboth := hfirst.trans (parseArg_grows hvalue)
    intro pair' hmem hpair
    rcases List.mem_cons.mp hmem with rfl | hmem
    · obtain ⟨r, hr, hsymb⟩ := parseArg_named hvalue ((hfirst.named _).mpr hpair)
      have := hodd r ((parseArgs_grows hrest).reads r hr)
      omega
    · exact ih hrest (by omega) pair' hmem ((hboth.named _).mpr hpair)

/-- The whole run when no value is taken for a symbol. -/
theorem parseArgs_run (hvalues : ∀ pair ∈ pairs, ¬Named p.array pair.2) (hai : ai % 2 = 1) :
    ∃ reads, parseArgs (arguments pairs) ai p = some ⟨p.array.map (setPairs pairs), p.reads ++ reads⟩ ∧
      ∀ r ∈ reads, r.symbol % 2 = 1 ∧ r.element < ai + (arguments pairs).length := by
  induction pairs generalizing ai p with
  | nil => exact ⟨[], by simp [arguments, parseArgs, show setPairs [] = id from rfl], by simp⟩
  | cons pair pairs ih =>
    obtain ⟨reads, hsymbol, hreads⟩ := parseArg_some pair.1 pair.2 ai p
    have hgrows := parseArg_grows hsymbol
    obtain ⟨reads', hrest, hreads'⟩ :=
      @ih ⟨p.array.map (setPair · pair), p.reads ++ reads⟩ (ai + 1 + 1)
        (fun pair' hmem => mt (hgrows.named _).mp (hvalues pair' (List.mem_cons_of_mem _ hmem))) (by omega)
    have hvalue := parseArg_unnamed (p := ⟨p.array.map (setPair · pair), p.reads ++ reads⟩) (ai + 1)
      (arguments pairs).head? (mt (hgrows.named pair.2).mp (hvalues pair (by simp)))
    refine ⟨reads ++ reads', ?_, fun r hr => ?_⟩
    · calc parseArgs (arguments (pair :: pairs)) ai p
          = (parseArg pair.1 (some pair.2) ai p).bind fun p' =>
              (parseArg pair.2 (arguments pairs).head? (ai + 1) p').bind
                (parseArgs (arguments pairs) (ai + 1 + 1)) := rfl
        _ = some ⟨(p.array.map (setPair · pair)).map (setPairs pairs), p.reads ++ reads ++ reads'⟩ := by
              rw [hsymbol, Option.bind_some, hvalue, Option.bind_some, hrest]
        _ = _ := by simp [setPairs]
    · have hlen : (arguments (pair :: pairs)).length = (arguments pairs).length + 2 := by simp [arguments]
      rcases List.mem_append.mp hr with hr | hr
      · have := hreads r hr
        omega
      · have := hreads' r hr
        omega

theorem stored_setPair (v : String) (o : Options) (p : Pair) : stored v (setPair o p) = stored v o := by
  unfold stored
  rw [setPair_type, setPair_symb]

theorem setPairs_dashless {o : Options} (hdash : '-' ∉ o.symb.toList) : setPairs pairs o = o := by
  induction pairs with
  | nil => rfl
  | cons p pairs ih =>
    have hskip : setPair o p = o := if_neg fun h : '-' ∈ p.1.toList ∧ p.1 = o.symb => hdash (h.2 ▸ h.1)
    exact (congrArg (setPairs pairs) hskip).trans ih

theorem setPairs_dflt {o : Options} (hdash : '-' ∈ o.symb.toList) :
    (setPairs pairs o).dflt = (lastValue pairs o.symb).elim o.dflt (stored · o) := by
  induction pairs generalizing o with
  | nil => rfl
  | cons p pairs ih =>
    have hrest := ih (o := setPair o p) (by rwa [setPair_symb])
    simp only [setPair_symb, stored_setPair] at hrest
    refine hrest.trans ?_
    cases hlast : lastValue pairs o.symb with
    | some v => simp [lastValue, hlast]
    | none =>
      by_cases hp : p.1 = o.symb
      · simp [lastValue, hlast, hp, setPair, hdash]
      · simp [lastValue, hlast, hp, setPair]

theorem stored_eq_convert_iff (v : String) (o : Options) :
    stored v o = convert v o.type ↔ (o.type = .long → atoi o.symb = atoi v) := by
  unfold stored
  split
  · next hlong => simp [hlong, convert]
  · next hother => exact ⟨fun _ hlong => absurd hlong hother, fun _ => rfl⟩

/-- A recognised LONG option is given no other number than its symbol reads as. -/
def LongKept (pairs : List Pair) (o : Options) : Prop :=
  '-' ∈ o.symb.toList → o.type = .long → ∀ v, lastValue pairs o.symb = some v → atoi v = atoi o.symb

theorem setPairs_expected_iff (pairs : List Pair) (o : Options) :
    (setPairs pairs o).dflt = expected pairs o ↔ LongKept pairs o := by
  unfold expected LongKept
  by_cases hdash : '-' ∈ o.symb.toList
  · rw [setPairs_dflt hdash, if_pos hdash]
    cases lastValue pairs o.symb with
    | none => simp
    | some v => simpa [hdash, eq_comm] using stored_eq_convert_iff v o
  · rw [setPairs_dashless hdash, if_neg hdash]
    exact ⟨fun _ h => absurd h hdash, fun _ => rfl⟩

end Pairs

theorem getOptionIndex_symbs {array array' : List Options} (h : array'.map Options.symb = array.map Options.symb)
    (s : String) : getOptionIndex s array' = getOptionIndex s array := by
  have hfind : ∀ os : List Options, os.findIdx? (s = ·.symb) = (os.map Options.symb).findIdx? (s = ·) := fun os => by
    rw [List.findIdx?_map]
    rfl
  unfold getOptionIndex
  rw [hfind, hfind, h]

theorem getOptionIndex_spec (s : String) (array : List Options) :
    (getOptionIndex s array = -1 ∧ ∀ o ∈ array, o.symb ≠ s) ∨
      ∃ oi, ∃ h : oi < array.length, getOptionIndex s array = oi ∧ array[oi].symb = s ∧
        ∀ j, (hj : j < oi) → array[j].symb ≠ s := by
  unfold getOptionIndex
  cases hfind : array.findIdx? (s = ·.symb) with
  | none =>
    have hnone := List.findIdx?_eq_none_iff.mp hfind
    exact .inl ⟨rfl, fun o ho heq => by simpa [heq] using hnone o ho⟩
  | some oi =>
    obtain ⟨h, hoi, hbefore⟩ := List.findIdx?_eq_some_iff_getElem.mp hfind
    exact .inr ⟨oi, h, rfl, by simpa using (of_decide_eq_true hoi).symm, fun j hj => by simpa [eq_comm] using hbefore j hj⟩

theorem parse_right_iff (prog : String) (pairs : List Pair) (table : List Options) :
    (∃ p, ParseRight prog pairs table p) ↔
      (∀ pair ∈ pairs, ¬Named table pair.2) ∧ ∀ o ∈ table, LongKept pairs o := by
  constructor
  · rintro ⟨p, hright⟩
    have hvalues : ∀ pair ∈ pairs, ¬Named table pair.2 := values_unnamed hright.parsed rfl hright.symbols
    refine ⟨hvalues, fun o ho => ?_⟩
    obtain ⟨reads, hrun, -⟩ := parseArgs_run (p := ⟨table, []⟩) hvalues (rfl : 1 % 2 = 1)
    obtain rfl := Option.some.inj (hright.parsed.symm.trans hrun)
    have hdflts := hright.values
    rw [List.map_map, List.map_inj_left] at hdflts
    exact (setPairs_expected_iff pairs o).mp (hdflts o ho)
  · rintro ⟨hvalues, hkept⟩
    obtain ⟨reads, hrun, hreads⟩ := parseArgs_run (p := ⟨table, []⟩) hvalues (rfl : 1 % 2 = 1)
    refine ⟨_, hrun, ?_, fun s => ?_, fun r hr => (hreads r hr).1, fun r hr => ?_⟩
    · rw [List.map_map, List.map_inj_left]
      exact fun o ho => (setPairs_expected_iff pairs o).mpr (hkept o ho)
    · exact getOptionIndex_symbs (by simp [setPairs_symb]) s
    · have := (hreads r hr).2
      rw [List.length_cons]
      omega

/-- A LONG option gets the number its symbol reads as. -/
theorem long_not_right :
    ¬∃ p, ParseRight "virtsenhq" [("-l", "5")] [⟨"-l", .long, .long 0, false⟩] p := by
  rintro ⟨p, hright⟩
  have hrun : parsePrepare ["virtsenhq", "-l", "5"] [⟨"-l", .long, .long 0, false⟩] =
      some ⟨[⟨"-l", .long, .long 0, true⟩], [⟨1, 1⟩]⟩ := by decide
  obtain rfl := Option.some.inj (hright.parsed.symm.trans hrun)
  exact absurd hright.values (by decide)

end CmdOptions
end DeviceDriverTest
