import DeviceDriverTest.HandlerError
import DeviceDriverTest.PathnameExpansion

/-! The handler that compares the tables in two logs of `omapconf`, value by value. -/

namespace DeviceDriverTest

namespace OmapconfCompare

open FieldSplitting PathnameExpansion
open TestRunner (Word)
open TestRunnerOptions (isBlank expand)

inductive Flag
  | match_
  | differ
  deriving DecidableEq

inductive Domain
  | voltage
  | frequency
  | clocks

def Domain.output_column : Domain → Nat
  | .voltage => 6
  | .frequency => 5
  | .clocks => 6

/-- The words that `test` takes for operators with one operand; the answer to `-z` is always no. -/
def isOperator : Word → Bool
  | ['-', c] => "abcdefghknoprstuvwxGLNORS".toList.contains c
  | _ => false

def unequal : Word := "!=".toList

/-- What the script finds: the files, what `awk` makes of a value that it takes for a format, and the
answers of `test`, with a no for an error. -/
structure Host where
  directory : Directory
  printf : Word → Word
  test : List Word → Bool
  printf_plain : ∀ value, '%' ∉ value → printf value = value
  test_none : test [unequal] = true
  test_first : ∀ word, isOperator word = false → test [word, unequal] = false
  test_nonempty : test ["-n".toList, unequal] = true
  test_second : ∀ word, test [unequal, word] = false
  test_both : ∀ first second, test [first, unequal, second] = decide (first ≠ second)

/-- What `grep -m 1 -w` and `awk` take from a log: the field in the column, where the line of the
domain has one. `grep` says which lines have a domain as a word. -/
def value (grep : Word → Word → Bool) (domain : Domain) (log dm : Word) : Option Word :=
  ((log.splitOnP fun c => c == '\n').find? (grep dm)).bind fun line =>
    (fields isBlank line)[domain.output_column - 1]?

/-- The words in the place of `$val1` or `$val2`. -/
def words (host : Host) : Option Word → List Word
  | none => []
  | some value => expand host.directory.names (host.printf value)

/-- `[ $val1 != $val2 ]`. -/
def differs (host : Host) (val1 val2 : Option Word) : Bool := host.test (words host val1 ++ unequal :: words host val2)

structure Flags where
  error_val : Bool
  flag_differ : Bool
  flag_val_change : Bool

/-- The two logs, with the domains whose lines are compared. -/
structure Logs where
  log_one : Word
  log_two : Word
  domain : Domain
  omapconf_dm : List Word

variable (grep : Word → Word → Bool)

def Logs.one (logs : Logs) (dm : Word) : Option Word := value grep logs.domain logs.log_one dm

def Logs.two (logs : Logs) (dm : Word) : Option Word := value grep logs.domain logs.log_two dm

def compareDomain (host : Host) (logs : Logs) (flag : Flag) (flags : Flags) (dm : Word) : Flags :=
  if differs host (logs.one grep dm) (logs.two grep dm) then
    match flag with
    | .match_ => { flags with flag_val_change := true, error_val := true }
    | .differ => { flags with flag_val_change := true, flag_differ := true }
  else flags

def compareOmapconfResults (host : Host) (logs : Logs) (flag : Flag) : Flags :=
  let flags := logs.omapconf_dm.foldl (compareDomain grep host logs flag) ⟨false, false, false⟩
  if flag = .differ ∧ flags.flag_differ = false then { flags with error_val := true } else flags

structure End where
  status : Nat
  files : HandlerError.Files String

/-- `verifyErrorFlag` and the end of the script. -/
def verifyErrorFlag (flags : Flags) (files : HandlerError.Files String) : End :=
  if flags.error_val then ⟨1, HandlerError.log files HandlerError.failed .halt "handlerOmapconf.sh"⟩ else ⟨0, files⟩

def compare (host : Host) (logs : Logs) (flag : Flag) (files : HandlerError.Files String) : End :=
  verifyErrorFlag (compareOmapconfResults grep host logs flag) files

/-! What the comparison is for. -/

def Same (logs : Logs) (dm : Word) : Prop := ∃ v, logs.one grep dm = some v ∧ logs.two grep dm = some v

def Differ (logs : Logs) (dm : Word) : Prop :=
  ∃ v w, logs.one grep dm = some v ∧ logs.two grep dm = some w ∧ v ≠ w

/-- The status, wherever the script runs, is that of the values in the logs. -/
def AsClaimed (logs : Logs) : Flag → Prop
  | .match_ => ∀ host files,
    (compare grep host logs .match_ files).status = 0 ↔ ∀ dm ∈ logs.omapconf_dm, Same grep logs dm
  | .differ => ∀ host files,
    (compare grep host logs .differ files).status = 0 ↔ ∃ dm ∈ logs.omapconf_dm, Differ grep logs dm

/-- A value that `awk` and the shell leave as it is. -/
def Plain (value : Word) : Prop := '%' ∉ value ∧ isPattern value = false

instance : DecidablePred Plain := fun _ => inferInstanceAs (Decidable (_ ∧ _))

/-- Wherever the script runs, these are found to differ. -/
inductive Told : Option Word → Option Word → Prop
  | missing : Told none none
  | values {v w : Word} (hv : Plain v) (hw : Plain w) (hne : v ≠ w) : Told (some v) (some w)
  | nonempty : Told (some "-n".toList) none

/-- Wherever the script runs, these are not found to differ. -/
inductive Silent : Option Word → Option Word → Prop
  | same {v : Word} (hv : Plain v) : Silent (some v) (some v)
  | first {v : Word} (hv : Plain v) (hoperator : isOperator v = false) : Silent (some v) none
  | second {w : Word} (hw : Plain w) : Silent none (some w)

/-- The logs for which the status says what it should. -/
def Suitable (logs : Logs) : Flag → Prop
  | .match_ => (∃ dm ∈ logs.omapconf_dm, Told (logs.one grep dm) (logs.two grep dm)) ∨
      ∀ dm ∈ logs.omapconf_dm, ∃ v, Plain v ∧ logs.one grep dm = some v ∧ logs.two grep dm = some v
  | .differ => ((∃ dm ∈ logs.omapconf_dm, Differ grep logs dm) ∧
        ∃ dm ∈ logs.omapconf_dm, Told (logs.one grep dm) (logs.two grep dm)) ∨
      ∀ dm ∈ logs.omapconf_dm, Silent (logs.one grep dm) (logs.two grep dm)

/-! The loop over the domains. -/

variable {grep} {host : Host} {logs : Logs} {val1 val2 : Option Word} {v w : Word}

def seen (grep : Word → Word → Bool) (host : Host) (logs : Logs) (dm : Word) : Bool :=
  differs host (logs.one grep dm) (logs.two grep dm)

/-- Each flag goes up with the first domain that is found to differ, and stays. -/
theorem foldl_flags (flag : Flag) (dms : List Word) (flags : Flags) :
    (dms.foldl (compareDomain grep host logs flag) flags).error_val =
        (flags.error_val || (flag = .match_ && dms.any (seen grep host logs))) ∧
      (dms.foldl (compareDomain grep host logs flag) flags).flag_differ =
        (flags.flag_differ || (flag = .differ && dms.any (seen grep host logs))) := by
  induction dms generalizing flags with
  | nil => simp
  | cons dm dms ih =>
    rw [List.foldl_cons, List.any_cons, (ih _).1, (ih _).2]
    cases flag with
    | match_ =>
      rw [compareDomain, seen]
      split
      next h => simp [h]
      next h => simp [h]
    | differ =>
      rw [compareDomain, seen]
      split
      next h => simp [h]
      next h => simp [h]

theorem status_eq_zero_iff (flags : Flags) (files : HandlerError.Files String) :
    (verifyErrorFlag flags files).status = 0 ↔ flags.error_val = false := by
  unfold verifyErrorFlag
  cases flags.error_val with
  | false => simp
  | true => simp

theorem status_match_iff (files : HandlerError.Files String) :
    (compare grep host logs .match_ files).status = 0 ↔ ∀ dm ∈ logs.omapconf_dm, seen grep host logs dm = false := by
  rw [compare, status_eq_zero_iff, compareOmapconfResults, if_neg (by simp), (foldl_flags ..).1, Bool.false_or,
    decide_eq_true rfl, Bool.true_and, List.any_eq_false]
  simp only [Bool.not_eq_true]

theorem status_differ_iff (files : HandlerError.Files String) :
    (compare grep host logs .differ files).status = 0 ↔ ∃ dm ∈ logs.omapconf_dm, seen grep host logs dm = true := by
  obtain ⟨herror, hdiffer⟩ := @foldl_flags grep host logs .differ logs.omapconf_dm ⟨false, false, false⟩
  rw [compare, status_eq_zero_iff, compareOmapconfResults, ← List.any_eq_true]
  rw [Bool.false_or, decide_eq_true rfl, Bool.true_and] at hdiffer
  rw [hdiffer]
  cases hany : logs.omapconf_dm.any (seen grep host logs) with
  | true =>
    rw [if_neg (by simp), herror]
    simp
  | false =>
    rw [if_pos ⟨rfl, rfl⟩]
    simp

/-! What the shell makes of the values. -/

/-- A value is a field of a line. -/
def Field (value : Word) : Prop := value ≠ [] ∧ ∀ c ∈ value, isBlank c = false

theorem value_field {domain : Domain} {log dm : Word} (h : value grep domain log dm = some v) : Field v := by
  obtain ⟨line, -, hfield⟩ := Option.bind_eq_some_iff.mp h
  obtain ⟨hne, hchars⟩ := fields_mem (List.mem_of_getElem? hfield)
  exact ⟨hne, fun c hc => (hchars c hc).2⟩

theorem words_plain (host : Host) (hfield : Field v) (h : Plain v) : words host (some v) = [v] := by
  rw [words, host.printf_plain v h.1, expand, fields_word hfield.1 hfield.2]
  exact literal_names host.directory fun word hword => List.mem_singleton.mp hword ▸ h.2

/-- Hosts where every value that is not plain becomes two words. -/
def doubled : Directory where
  names word := if isPattern word then [word, word] else [word]
  literal word h := by rw [h, if_neg Bool.false_ne_true]

def formatted (value : Word) : Word := if '%' ∈ value then "% %".toList else value

theorem formatted_plain (value : Word) (h : '%' ∉ value) : formatted value = value := if_neg h

/-- `test` answers no where it may. -/
def silent : Host where
  directory := doubled
  printf := formatted
  test
    | [word] => word == unequal
    | [first, second] => first == "-n".toList && second == unequal
    | [first, operator, second] => operator == unequal && decide (first ≠ second)
    | _ => false
  printf_plain := formatted_plain
  test_none := by decide
  test_first word h := by
    have hne : word ≠ ['-', 'n'] := by
      rintro rfl
      exact absurd h (by decide)
    simp [hne]
  test_nonempty := by decide
  test_second word := by simp [unequal]
  test_both first second := by simp

/-- `test` answers yes where it may. -/
def loud : Host where
  directory := doubled
  printf := formatted
  test
    | [first, second] => if second = unequal then isOperator first else first != unequal
    | [first, operator, second] => operator != unequal || decide (first ≠ second)
    | _ => true
  printf_plain := formatted_plain
  test_none := by decide
  test_first word h := by simp [h]
  test_nonempty := by decide
  test_second word := by
    dsimp only
    split
    · decide
    · decide
  test_both first second := by simp

theorem words_doubled {host : Host} (hdirectory : host.directory = doubled) (hprintf : host.printf = formatted)
    (hfield : Field v) (h : ¬ Plain v) : ∃ word, word ≠ unequal ∧ words host (some v) = [word, word] := by
  rw [words, hdirectory, hprintf]
  by_cases hpercent : '%' ∈ v
  · refine ⟨['%'], by decide, ?_⟩
    rw [formatted, if_pos hpercent]
    decide
  · have hpattern : isPattern v = true := by
      by_contra hpattern
      exact h ⟨hpercent, (Bool.not_eq_true _).mp hpattern⟩
    refine ⟨v, ?_, ?_⟩
    · rintro rfl
      exact absurd hpattern (by decide)
    · rw [formatted_plain v hpercent, expand, fields_word hfield.1 hfield.2]
      simp [doubled, hpattern]

/-- What these hosts have in the place of a value. -/
inductive Shape : Option Word → List Word → Prop
  | missing : Shape none []
  | plain {v : Word} (hv : Plain v) : Shape (some v) [v]
  | twice {v word : Word} (hword : word ≠ unequal) : Shape (some v) [word, word]

theorem words_shape {host : Host} (hdirectory : host.directory = doubled) (hprintf : host.printf = formatted)
    (hval : ∀ v ∈ val1, Field v) : Shape val1 (words host val1) := by
  cases val1 with
  | none => exact Shape.missing
  | some v =>
    by_cases hv : Plain v
    · rw [words_plain host (hval v rfl) hv]
      exact Shape.plain hv
    · obtain ⟨word, hword, hwords⟩ := words_doubled hdirectory hprintf (hval v rfl) hv
      rw [hwords]
      exact Shape.twice hword

theorem Told.differs (h : Told val1 val2) (hval1 : ∀ v ∈ val1, Field v) (hval2 : ∀ v ∈ val2, Field v) (host : Host) :
    differs host val1 val2 = true := by
  cases h with
  | missing => exact host.test_none
  | values hv hw hne =>
    rw [OmapconfCompare.differs, words_plain host (hval1 _ rfl) hv, words_plain host (hval2 _ rfl) hw,
      List.singleton_append, host.test_both, decide_eq_true hne]
  | nonempty =>
    rw [OmapconfCompare.differs, words_plain host (hval1 _ rfl) (by decide), List.singleton_append]
    exact host.test_nonempty

theorem Silent.differs (h : Silent val1 val2) (hval1 : ∀ v ∈ val1, Field v) (hval2 : ∀ v ∈ val2, Field v)
    (host : Host) : differs host val1 val2 = false := by
  cases h with
  | same hv =>
    rw [OmapconfCompare.differs, words_plain host (hval1 _ rfl) hv, List.singleton_append, host.test_both]
    simp
  | first hv hoperator =>
    rw [OmapconfCompare.differs, words_plain host (hval1 _ rfl) hv, List.singleton_append]
    exact host.test_first _ hoperator
  | second hw =>
    rw [OmapconfCompare.differs, words_plain host (hval2 _ rfl) hw]
    exact host.test_second _

theorem told_of_shape {words1 words2 : List Word} (hshape1 : Shape val1 words1) (hshape2 : Shape val2 words2)
    (h : silent.test (words1 ++ unequal :: words2) = true) : Told val1 val2 := by
  cases hshape1 with
  | missing =>
    cases hshape2 with
    | missing => exact Told.missing
    | plain hw => exact absurd h (by simp [silent, unequal])
    | twice hword => exact absurd h (by simp [silent, hword])
  | plain hv =>
    cases hshape2 with
    | missing =>
      obtain rfl : _ = "-n".toList := by simpa [silent] using h
      exact Told.nonempty
    | plain hw => exact Told.values hv hw (by simpa [silent] using h)
    | twice hword => exact absurd h (by simp [silent])
  | twice hword =>
    cases hshape2 with
    | missing => exact absurd h (by simp [silent, hword])
    | plain hw => exact absurd h (by simp [silent])
    | twice hword' => exact absurd h (by simp [silent])

theorem silent_of_shape {words1 words2 : List Word} (hshape1 : Shape val1 words1) (hshape2 : Shape val2 words2)
    (h : loud.test (words1 ++ unequal :: words2) = false) : Silent val1 val2 := by
  cases hshape1 with
  | missing =>
    cases hshape2 with
    | missing => exact absurd h (by simp [loud])
    | plain hw => exact Silent.second hw
    | twice hword => exact absurd h (by simp [loud, hword])
  | plain hv =>
    cases hshape2 with
    | missing => exact Silent.first hv (by simpa [loud] using h)
    | plain hw =>
      obtain rfl : _ = _ := by simpa [loud] using h
      exact Silent.same hv
    | twice hword => exact absurd h (by simp [loud])
  | twice hword =>
    cases hshape2 with
    | missing => exact absurd h (by simp [loud, hword])
    | plain hw => exact absurd h (by simp [loud])
    | twice hword' => exact absurd h (by simp [loud])

theorem told_iff (hval1 : ∀ v ∈ val1, Field v) (hval2 : ∀ v ∈ val2, Field v) :
    differs silent val1 val2 = true ↔ Told val1 val2 := by
  constructor
  · exact told_of_shape (words_shape rfl rfl hval1) (words_shape rfl rfl hval2)
  · intro h
    exact h.differs hval1 hval2 silent

theorem silent_iff (hval1 : ∀ v ∈ val1, Field v) (hval2 : ∀ v ∈ val2, Field v) :
    differs loud val1 val2 = false ↔ Silent val1 val2 := by
  constructor
  · exact silent_of_shape (words_shape rfl rfl hval1) (words_shape rfl rfl hval2)
  · intro h
    exact h.differs hval1 hval2 loud

/-! The status for all domains. -/

theorem Logs.one_field {dm : Word} : ∀ v ∈ logs.one grep dm, Field v := fun _ hv => value_field hv

theorem Logs.two_field {dm : Word} : ∀ v ∈ logs.two grep dm, Field v := fun _ hv => value_field hv

theorem not_same_of_told {dm : Word} (h : Told (logs.one grep dm) (logs.two grep dm)) : ¬ Same grep logs dm := by
  rintro ⟨v, hone, htwo⟩
  rw [hone, htwo] at h
  cases h with
  | values hv hw hne => exact hne rfl

theorem not_differ_of_silent {dm : Word} (h : Silent (logs.one grep dm) (logs.two grep dm)) : ¬ Differ grep logs dm := by
  rintro ⟨v, w, hone, htwo, hne⟩
  rw [hone, htwo] at h
  cases h with
  | same hv => exact hne rfl

theorem Told.seen {dm : Word} (h : Told (logs.one grep dm) (logs.two grep dm)) (host : Host) :
    seen grep host logs dm = true := h.differs Logs.one_field Logs.two_field host

theorem Silent.seen {dm : Word} (h : Silent (logs.one grep dm) (logs.two grep dm)) (host : Host) :
    seen grep host logs dm = false := h.differs Logs.one_field Logs.two_field host

theorem asClaimed_match_iff : AsClaimed grep logs .match_ ↔ Suitable grep logs .match_ := by
  simp only [AsClaimed, Suitable, status_match_iff]
  constructor
  · intro h
    by_cases hsame : ∀ dm ∈ logs.omapconf_dm, Same grep logs dm
    · right
      intro dm hdm
      obtain ⟨v, hone, htwo⟩ := hsame dm hdm
      have hsilent := (silent_iff Logs.one_field Logs.two_field).mp ((h loud ⟨none, none⟩).mpr hsame dm hdm)
      rw [hone, htwo] at hsilent
      cases hsilent with
      | same hv => exact ⟨v, hv, hone, htwo⟩
    · left
      have hseen := mt (h silent ⟨none, none⟩).mp hsame
      push Not at hseen
      obtain ⟨dm, hdm, hseen⟩ := hseen
      exact ⟨dm, hdm, (told_iff Logs.one_field Logs.two_field).mp ((Bool.not_eq_false _).mp hseen)⟩
  · intro h host files
    obtain ⟨dm, hdm, htold⟩ | hsame := h
    · apply iff_of_false
      · intro hseen
        exact Bool.false_ne_true ((hseen dm hdm).symm.trans (htold.seen host))
      · intro hsame
        exact not_same_of_told htold (hsame dm hdm)
    · apply iff_of_true
      · intro dm hdm
        obtain ⟨v, hv, hone, htwo⟩ := hsame dm hdm
        apply Silent.seen
        rw [hone, htwo]
        exact Silent.same hv
      · intro dm hdm
        obtain ⟨v, -, hone, htwo⟩ := hsame dm hdm
        exact ⟨v, hone, htwo⟩

theorem asClaimed_differ_iff : AsClaimed grep logs .differ ↔ Suitable grep logs .differ := by
  simp only [AsClaimed, Suitable, status_differ_iff]
  constructor
  · intro h
    by_cases hdiffer : ∃ dm ∈ logs.omapconf_dm, Differ grep logs dm
    · left
      refine ⟨hdiffer, ?_⟩
      obtain ⟨dm, hdm, hseen⟩ := (h silent ⟨none, none⟩).mpr hdiffer
      exact ⟨dm, hdm, (told_iff Logs.one_field Logs.two_field).mp hseen⟩
    · right
      intro dm hdm
      apply (silent_iff Logs.one_field Logs.two_field).mp
      by_contra hseen
      exact hdiffer ((h loud ⟨none, none⟩).mp ⟨dm, hdm, (Bool.not_eq_false _).mp hseen⟩)
  · intro h host files
    obtain ⟨hdiffer, dm, hdm, htold⟩ | hsilent := h
    · exact iff_of_true ⟨dm, hdm, htold.seen host⟩ hdiffer
    · apply iff_of_false
      · rintro ⟨dm, hdm, hseen⟩
        exact Bool.false_ne_true (((hsilent dm hdm).seen host).symm.trans hseen)
      · rintro ⟨dm, hdm, hdiffer⟩
        exact not_differ_of_silent (hsilent dm hdm) hdiffer

/-- The domain stands in the line with no letter, digit or underscore next to it. -/
def hasWord (dm line : Word) : Bool :=
  let part (c : Char) := c.isAlphanum || c = '_'
  line.tails.any fun rest => dm.isPrefixOf rest && !(rest.drop dm.length).head?.any part &&
    !(line.take (line.length - rest.length)).getLast?.any part

/-- The second log has no line for the domain. -/
def truncated : Logs where
  log_one := "| VDD_MPU | OPP100 | 1.2 V\n".toList
  log_two := "| OMAPCONF".toList
  domain := .voltage
  omapconf_dm := ["VDD_MPU".toList]

end OmapconfCompare

end DeviceDriverTest
