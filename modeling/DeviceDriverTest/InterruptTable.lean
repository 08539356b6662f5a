import Mathlib.Data.List.DropRight
import Mathlib.Data.List.Nodup
import DeviceDriverTest.TestRunnerOptions
import DeviceDriverTest.TextSearch

/-! `/proc/interrupts`, and the handler that looks up how often an interrupt has come on a processor. -/

namespace DeviceDriverTest

namespace InterruptTable

open FieldSplitting TextSearch
open TestRunner (Word)
open TestRunnerOptions (isBlank)

def decimal (n : Nat) : Word := Nat.toDigits 10 n

def padLeft (width : Nat) (text : Word) : Word := List.replicate (width - text.length) ' ' ++ text

def padRight (width : Nat) (text : Word) : Word := text ++ List.replicate (width - text.length) ' '

/-- The label is the number of an interrupt, or a word such as `IPI0`; chip and actions are the rest. -/
structure Row where
  label : Word
  counts : List UInt32
  rest : Word
  labelled : ∀ c ∈ label, isBlank c = false ∧ c ≠ ':'

structure Listing where
  width : Nat
  cpus : Nat
  rows : List Row
  counted : ∀ row ∈ rows, row.counts.length = cpus
  distinct : (rows.map Row.label).Nodup

def count (n : UInt32) : Word := padLeft 10 (decimal n.toNat) ++ [' ']

def Row.line (width : Nat) (row : Row) : Word :=
  padLeft width row.label ++ ':' :: ' ' :: (row.counts.flatMap count ++ row.rest)

def header (width cpus : Nat) : Word :=
  List.replicate (width + 8) ' ' ++ (List.range cpus).flatMap fun j => "CPU".toList ++ padRight 8 (decimal j)

def Listing.lines (listing : Listing) : List Word :=
  header listing.width listing.cpus :: listing.rows.map (Row.line listing.width)

/-- The text that stands for a command whose output has these lines. -/
def substituted (lines : List Word) : Word := (lines.flatMap fun line => line ++ ['\n']).rdropWhile fun c => c = '\n'

/-- `grep -i`. -/
def available (listing : Listing) (option : Word) : Bool :=
  listing.lines.any fun line => decide (option <:+: line.map Char.toLower)

/-- `grep $LOCAL_IRQ_NUMBER:`. -/
def selects (number : Nat) (line : Word) : Bool := decide (decimal number ++ [':'] <:+: line)

/-- `awk '{print $i}'` of a line, for a positive `i`. -/
def field (i : Nat) (line : Word) : Word := (fields isBlank line).getD (i - 1) []

/-- The two times that one lookup reads the file. -/
structure Reading where
  check : Listing
  table : Listing

def option (cpu : Nat) : Word := "cpu".toList ++ decimal cpu

/-- What `handlerIrq.sh get cpu0` and `get cpu1` leave in a substitution. -/
def get (cpu number : Nat) (reading : Reading) : Word :=
  if !available reading.check (option cpu) then
    substituted (("FATAL: ".toList ++ option cpu ++ " irq information not available, please check!".toList) ::
      reading.table.lines)
  else substituted ((reading.table.lines.filter (selects number)).map (field (cpu + 2)))

/-- How often the interrupt has come on the processor. -/
def counter (cpu number : Nat) (listing : Listing) : Option UInt32 :=
  (listing.rows.find? fun row => row.label = decimal number).bind fun row => row.counts[cpu]?

/-- The lookup finds the row of the interrupt, with a column for the processor, and no other row. -/
structure Plain (cpu number : Nat) (reading : Reading) : Prop where
  available : available reading.check (option cpu) = true
  listed : ∃ row ∈ reading.table.rows, row.label = decimal number
  column : cpu < reading.table.cpus
  only : ∀ row ∈ reading.table.rows, selects number (row.line reading.table.width) = true → row.label = decimal number

/-! The text of a row. -/

theorem decimal_digit {n : Nat} {c : Char} (hc : c ∈ decimal n) : c.isDigit = true :=
  Nat.isDigit_of_mem_toDigits (by omega) (by omega) hc

theorem ne_of_isDigit {c d : Char} (hc : c.isDigit = true) (hd : d.isDigit = false) : c ≠ d :=
  fun heq => Bool.false_ne_true (hd.symm.trans (heq ▸ hc))

theorem isBlank_of_isDigit {c : Char} (hc : c.isDigit = true) : isBlank c = false := by
  simp [isBlank, ne_of_isDigit hc (d := ' ') rfl, ne_of_isDigit hc (d := '\t') rfl, ne_of_isDigit hc (d := '\n') rfl]

theorem decimal_ne_nil (n : Nat) : decimal n ≠ [] := Nat.toDigits_ne_nil

theorem fields_padding (n : Nat) (text : Word) : fields isBlank (List.replicate n ' ' ++ text) = fields isBlank text := by
  induction n with
  | zero => rfl
  | succ n ih => rw [List.replicate_succ, List.cons_append, fields_cons rfl, ih]

theorem fields_padLeft (width : Nat) (text right : Word) :
    fields isBlank (padLeft width text ++ right) = fields isBlank (text ++ right) := by
  rw [padLeft, List.append_assoc, fields_padding]

theorem fields_counts (counts : List UInt32) (right : Word) :
    fields isBlank (counts.flatMap count ++ right) = counts.map (fun n => decimal n.toNat) ++ fields isBlank right := by
  induction counts with
  | nil => rfl
  | cons n counts ih =>
    have hword : fields isBlank (decimal n.toNat) = [decimal n.toNat] :=
      fields_word (decimal_ne_nil _) fun c hc => isBlank_of_isDigit (decimal_digit hc)
    rw [List.flatMap_cons, count, List.append_assoc, List.append_assoc, fields_padLeft, List.singleton_append,
      fields_append rfl, hword, ih]
    rfl

theorem fields_line (width : Nat) (row : Row) : fields isBlank (row.line width) =
    (row.label ++ [':']) :: (row.counts.map (fun n => decimal n.toNat) ++ fields isBlank row.rest) := by
  have hlabel : fields isBlank (row.label ++ [':']) = [row.label ++ [':']] := by
    refine fields_word (by simp) fun c hc => ?_
    obtain hc | hc := List.mem_append.mp hc
    · exact (row.labelled c hc).1
    · rw [List.mem_singleton.mp hc]
      rfl
  have hparts : row.label ++ ':' :: ' ' :: (row.counts.flatMap count ++ row.rest) =
      (row.label ++ [':']) ++ ' ' :: (row.counts.flatMap count ++ row.rest) := by simp
  rw [Row.line, fields_padLeft, hparts, fields_append rfl, hlabel, fields_counts]
  rfl

/-- The field behind those of the columns before is the counter. -/
theorem field_line {width cpu : Nat} {row : Row} {n : UInt32} (h : row.counts[cpu]? = some n) :
    field (cpu + 2) (row.line width) = decimal n.toNat := by
  obtain ⟨hlt, hn⟩ := List.getElem?_eq_some_iff.mp h
  rw [field, fields_line, List.getD_eq_getElem?_getD, Nat.add_succ_sub_one, List.getElem?_cons_succ,
    List.getElem?_append_left (by rwa [List.length_map]), List.getElem?_map, h]
  rfl

/-! Which lines have the number with its colon. -/

theorem suffix_padding_iff {text : Word} (h : ' ' ∉ text) (n : Nat) (right : Word) :
    text <:+ List.replicate n ' ' ++ right ↔ text <:+ right := by
  induction n with
  | zero => rfl
  | succ n ih =>
    rw [List.replicate_succ, List.cons_append, List.suffix_cons_iff, ih]
    refine or_iff_right fun heq => h ?_
    rw [heq]
    exact List.mem_cons_self

theorem notMem_decimal {c : Char} (hc : c.isDigit = false) (n : Nat) : c ∉ decimal n :=
  fun h => ne_of_isDigit (decimal_digit h) hc rfl

theorem notMem_padLeft {c : Char} {text : Word} (hblank : c ≠ ' ') (h : c ∉ text) (width : Nat) : c ∉ padLeft width text := by
  intro hc
  obtain hc | hc := List.mem_append.mp hc
  · exact hblank (List.eq_of_mem_replicate hc)
  · exact h hc

theorem infix_counts_iff {pattern : Word} (hcolon : ':' ∈ pattern) (hblank : ' ' ∉ pattern) (counts : List UInt32)
    (right : Word) : pattern <:+: counts.flatMap count ++ right ↔ pattern <:+: right := by
  induction counts with
  | nil => rfl
  | cons n counts ih =>
    rw [List.flatMap_cons, count, List.append_assoc, List.append_assoc, List.singleton_append,
      infix_append_cons_iff hblank, ih]
    apply or_iff_right
    exact not_infix_of_notMem hcolon (notMem_padLeft (by decide) (notMem_decimal rfl _) 10)

/-- A row is selected when its label ends with the digits of the number, or when the number with its
colon is somewhere in the rest of it. -/
theorem selects_line_iff (number width : Nat) (row : Row) : selects number (row.line width) = true ↔
    decimal number <:+ row.label ∨ decimal number ++ [':'] <:+: row.rest := by
  have hblank : ' ' ∉ decimal number ++ [':'] := by
    intro h
    obtain h | h := List.mem_append.mp h
    · exact notMem_decimal rfl _ h
    · exact absurd (List.mem_singleton.mp h) (by decide)
  have hcolon : ':' ∈ decimal number ++ [':'] := by simp
  have hparts : row.line width = (padLeft width row.label ++ [':']) ++ ' ' :: (row.counts.flatMap count ++ row.rest) := by
    simp [Row.line]
  have hlabel : ':' ∉ padLeft width row.label :=
    notMem_padLeft (by decide) (fun h => (row.labelled ':' h).2 rfl) width
  rw [selects, decide_eq_true_iff, hparts, infix_append_cons_iff hblank, infix_counts_iff hcolon hblank,
    List.infix_concat_iff, or_iff_left (not_infix_of_notMem hcolon hlabel), concat_suffix_concat_iff,
    padLeft, suffix_padding_iff (notMem_decimal rfl number)]

theorem selects_of_label {number : Nat} {row : Row} (h : row.label = decimal number) (width : Nat) :
    selects number (row.line width) = true := by
  rw [selects_line_iff, h]
  exact Or.inl List.suffix_rfl

theorem selects_header (number width cpus : Nat) : selects number (header width cpus) = false := by
  rw [selects, decide_eq_false_iff_not]
  apply not_infix_of_notMem (s := ':') (by simp)
  intro h
  obtain h | h := List.mem_append.mp h
  · exact absurd (List.eq_of_mem_replicate h) (by decide)
  · obtain ⟨j, -, h⟩ := List.mem_flatMap.mp h
    obtain h | h := List.mem_append.mp h
    · exact absurd h (by decide)
    · obtain h | h := List.mem_append.mp h
      · exact notMem_decimal rfl _ h
      · exact absurd (List.eq_of_mem_replicate h) (by decide)

/-! The text that a lookup leaves. -/

theorem mem_substituted {lines : List Word} {line : Word} {c : Char} (hline : line ∈ lines) (hc : c ∈ line)
    (hnewline : c ≠ '\n') : c ∈ substituted lines := by
  have hmem : c ∈ lines.flatMap fun line => line ++ ['\n'] :=
    List.mem_flatMap.mpr ⟨line, hline, List.mem_append_left _ hc⟩
  rw [← @List.rdropWhile_append_rtakeWhile _ (fun c => decide (c = '\n')) (lines.flatMap _)] at hmem
  obtain h | h := List.mem_append.mp hmem
  · exact h
  · have heq := List.mem_rtakeWhile_imp h
    exact absurd (of_decide_eq_true heq) hnewline

theorem substituted_concat (lines : List Word) {word : Word} (hne : word ≠ []) (h : '\n' ∉ word) :
    substituted (lines ++ [word]) = (lines.flatMap fun line => line ++ ['\n']) ++ word := by
  rw [substituted, List.flatMap_append, List.flatMap_singleton, ← List.append_assoc,
    List.rdropWhile_concat_pos (fun c => decide (c = '\n')) _ _ (decide_eq_true rfl), List.rdropWhile_eq_self_iff]
  intro happend hlast
  rw [List.getLast_append_of_ne_nil _ hne] at hlast
  exact h (of_decide_eq_true hlast ▸ List.getLast_mem hne)

theorem substituted_singleton {word : Word} (hne : word ≠ []) (h : '\n' ∉ word) : substituted [word] = word :=
  substituted_concat [] hne h

/-- More than one line is left with the line break between them. -/
theorem newline_mem_substituted {lines : List Word} (hlines : ∀ line ∈ lines, line ≠ [] ∧ '\n' ∉ line)
    (hlength : 2 ≤ lines.length) : '\n' ∈ substituted lines := by
  obtain rfl | ⟨front, last, rfl⟩ := List.eq_nil_or_concat lines
  · exact absurd hlength (by simp)
  · rw [List.concat_eq_append] at hlines hlength ⊢
    obtain ⟨hne, hlast⟩ := hlines last (by simp)
    rw [substituted_concat front hne hlast]
    cases front with
    | nil => exact absurd hlength (by simp)
    | cons line front => simp

/-! What is looked up. -/

theorem counter_eq_some_iff {cpu number : Nat} {listing : Listing} {n : UInt32} :
    counter cpu number listing = some n ↔
      ∃ row ∈ listing.rows, row.label = decimal number ∧ row.counts[cpu]? = some n := by
  rw [counter, Option.bind_eq_some_iff]
  constructor
  · rintro ⟨row, hfind, hcount⟩
    exact ⟨row, List.mem_of_find?_eq_some hfind, by simpa using List.find?_some hfind, hcount⟩
  · rintro ⟨row, hrow, hlabel, hcount⟩
    have hsome : (listing.rows.find? fun row => row.label = decimal number).isSome := by
      rw [List.find?_isSome]
      exact ⟨row, hrow, decide_eq_true hlabel⟩
    obtain ⟨other, hother⟩ := Option.isSome_iff_exists.mp hsome
    have heq : other = row := by
      apply List.inj_on_of_nodup_map listing.distinct (List.mem_of_find?_eq_some hother) hrow
      rw [hlabel]
      simpa using List.find?_some hother
    exact ⟨other, hother, heq ▸ hcount⟩

theorem selected_lines (number : Nat) (listing : Listing) : listing.lines.filter (selects number) =
    (listing.rows.filter fun row => selects number (row.line listing.width)).map (Row.line listing.width) := by
  rw [Listing.lines, List.filter_cons_of_neg (by rw [selects_header]; exact Bool.false_ne_true), List.filter_map]
  rfl

theorem eq_singleton_of_nodup {α : Type*} {l : List α} {a : α} (hl : l.Nodup) (ha : a ∈ l) (h : ∀ x ∈ l, x = a) :
    l = [a] := by
  cases l with
  | nil => exact absurd ha List.not_mem_nil
  | cons x l =>
    cases l with
    | nil => rw [h x List.mem_cons_self]
    | cons y l =>
      have heq : x = y := (h x List.mem_cons_self).trans (h y (by simp)).symm
      exact absurd (heq ▸ List.mem_cons_self) (List.nodup_cons.mp hl).1

theorem two_le_length {α : Type*} {l : List α} {a b : α} (ha : a ∈ l) (hb : b ∈ l) (hne : a ≠ b) : 2 ≤ l.length := by
  cases l with
  | nil => exact absurd ha List.not_mem_nil
  | cons x l =>
    cases l with
    | nil => exact absurd ((List.mem_singleton.mp ha).trans (List.mem_singleton.mp hb).symm) hne
    | cons y l => simp

theorem Listing.row_unique {listing : Listing} {row other : Row} (hrow : row ∈ listing.rows)
    (hother : other ∈ listing.rows) (h : other.label = row.label) : other = row :=
  List.inj_on_of_nodup_map listing.distinct hother hrow h

theorem Plain.get_eq {cpu number : Nat} {reading : Reading} (h : Plain cpu number reading) :
    ∃ n, counter cpu number reading.table = some n ∧ get cpu number reading = decimal n.toNat := by
  obtain ⟨row, hrow, hlabel⟩ := h.listed
  have hlt : cpu < row.counts.length := by
    rw [reading.table.counted row hrow]
    exact h.column
  have hcount : row.counts[cpu]? = some row.counts[cpu] := List.getElem?_eq_getElem hlt
  have hselected : (reading.table.rows.filter fun row => selects number (row.line reading.table.width)) = [row] := by
    apply eq_singleton_of_nodup (reading.table.distinct.of_map.filter _)
    · exact List.mem_filter.mpr ⟨hrow, selects_of_label hlabel _⟩
    · intro other hother
      obtain ⟨hother, hselects⟩ := List.mem_filter.mp hother
      exact reading.table.row_unique hrow hother ((h.only other hother hselects).trans hlabel.symm)
  refine ⟨row.counts[cpu], counter_eq_some_iff.mpr ⟨row, hrow, hlabel, hcount⟩, ?_⟩
  rw [get, h.available, Bool.not_true, if_neg Bool.false_ne_true, selected_lines, hselected, List.map_singleton,
    List.map_singleton, field_line hcount]
  exact substituted_singleton (decimal_ne_nil _) (notMem_decimal rfl _)

theorem plain_of_get_eq {cpu number : Nat} {reading : Reading} {n : UInt32}
    (hcounter : counter cpu number reading.table = some n) (hget : get cpu number reading = decimal n.toNat) :
    Plain cpu number reading := by
  obtain ⟨row, hrow, hlabel, hcount⟩ := counter_eq_some_iff.mp hcounter
  have hcolumn : cpu < reading.table.cpus := by
    rw [← reading.table.counted row hrow]
    exact (List.getElem?_eq_some_iff.mp hcount).1
  have havailable : available reading.check (option cpu) = true := by
    rw [← Bool.not_eq_false]
    intro hnone
    rw [get, hnone, Bool.not_false, if_pos rfl] at hget
    have hF : 'F' ∈ decimal n.toNat := by
      rw [← hget]
      exact mem_substituted List.mem_cons_self (by simp) (by decide)
    exact notMem_decimal rfl _ hF
  refine ⟨havailable, ⟨row, hrow, hlabel⟩, hcolumn, fun other hother hselects => ?_⟩
  by_contra hne
  rw [get, havailable, Bool.not_true, if_neg Bool.false_ne_true, selected_lines] at hget
  apply notMem_decimal (c := '\n') rfl n.toNat
  rw [← hget]
  apply newline_mem_substituted
  · intro line hline
    obtain ⟨text, htext, rfl⟩ := List.mem_map.mp hline
    obtain ⟨some, hsome, rfl⟩ := List.mem_map.mp htext
    have hlt : cpu < some.counts.length := by
      rw [reading.table.counted some (List.mem_filter.mp hsome).1]
      exact hcolumn
    rw [field_line (List.getElem?_eq_getElem hlt)]
    exact ⟨decimal_ne_nil _, notMem_decimal rfl _⟩
  · rw [List.length_map, List.length_map]
    apply two_le_length (List.mem_filter.mpr ⟨hrow, selects_of_label hlabel _⟩)
      (List.mem_filter.mpr ⟨hother, hselects⟩)
    exact fun heq => hne (heq ▸ hlabel)

/-- A lookup reads the counter exactly when the row is there and the only one selected. -/
theorem get_eq_counter_iff (cpu number : Nat) (reading : Reading) :
    (∃ n, counter cpu number reading.table = some n ∧ get cpu number reading = decimal n.toNat) ↔
      Plain cpu number reading := by
  constructor
  · rintro ⟨n, hcounter, hget⟩
    exact plain_of_get_eq hcounter hget
  · exact Plain.get_eq

end InterruptTable

end DeviceDriverTest
