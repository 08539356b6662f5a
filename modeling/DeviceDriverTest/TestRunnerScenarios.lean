import Mathlib.Data.List.Nodup
import DeviceDriverTest.TestRunnerOptions

/-! The command file that the runner makes of the scenario files: which lines are
written to it, and what `pan` takes for their tags. -/

namespace DeviceDriverTest

namespace TestRunnerScenarios

open TestRunner FieldSplitting TestRunnerOptions

/-- `mark` is what the substitution puts in front of the lines of a scenario, if `sed` takes it with that name. -/
structure Options where
  DONT : Bool
  EXTENDED_TEST : Bool
  mark : Word → Option Word

/-- A scenario file; the label of a line says where it is from. -/
structure Scenario (ι : Type) where
  SCEN : Word
  lines : List (ι × Word)

variable {ι : Type}

/-- `s/^[  ]*$//g`, with two spaces between the brackets -/
def blankSpaces (line : Word) : Word := if line.all (fun c => c = ' ') then [] else line

/-- The second substitution: the first dash becomes an underscore. -/
def firstDash : Word → Word
  | [] => []
  | c :: cs => if c = '-' then '_' :: cs else c :: firstDash cs

/-- `[_A-Za-z0-9]` -/
def isNameChar (c : Char) : Bool := c = '_' || c.isAlphanum

/-- `^[_A-Za-z0-9]*_EXT `: what is before the first space is all that the class can take. -/
def extended (text : Word) : Bool :=
  let name := text.takeWhile fun c => c ≠ ' '
  name.all isNameChar && "_EXT".toList.isSuffixOf name && text.contains ' '

/-- The lines that are appended to the command file for a scenario. -/
def translated (o : Options) (s : Scenario ι) : List (ι × Word) :=
  let TMPFILE := ((s.lines.filter fun e => !e.2.contains '#').map fun e => (e.1, blankSpaces e.2)).filter
    fun e => !e.2.isEmpty
  if o.DONT then TMPFILE
  else match o.mark s.SCEN with
    | none => []
    | some mark => (TMPFILE.map fun e => (e.1, mark ++ e.2)).map fun e => (e.1, firstDash e.2)

structure Result (ι : Type) where
  died : Bool
  CMDFILE : List (ι × Word)

/-- The loop over the scenarios. The filter that finds no line fails, and leaves the file as it was. -/
def sanity_check (o : Options) (CMDFILE : List (ι × Word)) : List (Scenario ι) → Result ι
  | [] => ⟨false, CMDFILE⟩
  | s :: rest =>
    let CMDFILE := CMDFILE ++ translated o s
    if o.EXTENDED_TEST then sanity_check o CMDFILE rest
    else
      let TMPFILE := CMDFILE.filter fun e => !extended e.2
      if TMPFILE.isEmpty then ⟨true, CMDFILE⟩ else sanity_check o TMPFILE rest

/-- `strsep` at the first blank -/
def tag (text : Word) : Word := text.takeWhile fun c => !isBlank c

/-! The test cases of the scenario files, and what is asked of the command file. -/

structure Case where
  scenario : Nat
  number : Nat
  SCEN : Word
  line : Word
  deriving DecidableEq

def casesOf (scenario : Nat) (SCEN : Word) (lines : List Word) : List Case :=
  lines.zipIdx.map fun l => ⟨scenario, l.2, SCEN, l.1⟩

def casesFrom (k : Nat) : List (Word × List Word) → List Case
  | [] => []
  | (SCEN, lines) :: rest => casesOf k SCEN lines ++ casesFrom (k + 1) rest

def numberedFrom (k : Nat) : List (Word × List Word) → List (Scenario Case)
  | [] => []
  | (SCEN, lines) :: rest => ⟨SCEN, (casesOf k SCEN lines).map fun c => (c, c.line)⟩ :: numberedFrom (k + 1) rest

def commandFile (o : Options) (scenarios : List (Word × List Word)) : Result Case :=
  sanity_check o [] (numberedFrom 0 scenarios)

/-- The first word of a line, if that does not open a comment. -/
def identifier (line : Word) : Option Word := (fields isBlank line).head?.filter fun id => id.head? ≠ some '#'

def IsExtended (line : Word) : Prop := ∃ id ∈ identifier line, "_EXT".toList <:+ id

def Required (o : Options) (c : Case) : Prop :=
  identifier c.line ≠ none ∧ (o.EXTENDED_TEST = false → ¬ IsExtended c.line)

/-- They are tests of different scenarios or with different identifiers. -/
def Different (c c' : Case) : Prop :=
  identifier c.line ≠ none ∧ identifier c'.line ≠ none ∧ (c.SCEN, identifier c.line) ≠ (c'.SCEN, identifier c'.line)

structure Right (o : Options) (scenarios : List (Word × List Word)) (CMDFILE : List (Case × Word)) : Prop where
  tags : ∀ e ∈ CMDFILE, ∀ e' ∈ CMDFILE, Different e.1 e'.1 → tag e.2 ≠ tag e'.2
  once : ∀ c ∈ casesFrom 0 scenarios, Required o c → (CMDFILE.map Prod.fst).count c = 1
  selected : o.EXTENDED_TEST = false → ∀ e ∈ CMDFILE, ¬ IsExtended e.1.line

/-! What becomes of one line. -/

def written (o : Options) (SCEN line : Word) : Option Word :=
  if line.contains '#' || line.all (fun c => c = ' ') then none
  else if o.DONT then some line
  else (o.mark SCEN).map fun mark => firstDash (mark ++ line)

theorem written_none {SCEN line : Word} (h : '#' ∈ line ∨ ∀ c ∈ line, c = ' ') (o : Options) :
    written o SCEN line = none :=
  if_pos (by simpa using h)

theorem written_some {SCEN line : Word} (h : ¬ ('#' ∈ line ∨ ∀ c ∈ line, c = ' ')) (o : Options) :
    written o SCEN line = if o.DONT then some line else (o.mark SCEN).map fun mark => firstDash (mark ++ line) :=
  if_neg (by simpa using h)

theorem translated_cons (o : Options) (SCEN : Word) (e : ι × Word) (lines : List (ι × Word)) :
    translated o ⟨SCEN, e :: lines⟩ =
      ((written o SCEN e.2).map fun text => (e.1, text)).toList ++ translated o ⟨SCEN, lines⟩ := by
  by_cases hdropped : '#' ∈ e.2 ∨ ∀ c ∈ e.2, c = ' '
  · rw [written_none hdropped]
    by_cases hhash : '#' ∈ e.2
    · simp [translated, hhash]
    · have hblank : blankSpaces e.2 = [] := if_pos (by simpa using hdropped.resolve_left hhash)
      simp [translated, hhash, hblank]
  · rw [written_some hdropped]
    obtain ⟨hhash, hspaces⟩ := not_or.mp hdropped
    have hblank : blankSpaces e.2 = e.2 := if_neg (by simpa using hspaces)
    have hne : e.2 ≠ [] := fun hnil => hspaces fun c hc => absurd (hnil ▸ hc) List.not_mem_nil
    cases hDONT : o.DONT with
    | true => simp [translated, hDONT, hhash, hblank, hne]
    | false =>
      cases hmark : o.mark SCEN with
      | none => simp [translated, hDONT, hmark]
      | some mark => simp [translated, hDONT, hmark, hhash, hblank, hne]

theorem translated_eq (o : Options) (SCEN : Word) (lines : List (ι × Word)) : translated o ⟨SCEN, lines⟩ =
    lines.filterMap fun e => (written o SCEN e.2).map fun text => (e.1, text) := by
  induction lines with
  | nil => cases hDONT : o.DONT <;> cases hmark : o.mark SCEN <;> simp [translated, hDONT, hmark]
  | cons e lines ih =>
    rw [translated_cons, ih]
    cases h : written o SCEN e.2 <;> simp [h]

/-! The whole loop. -/

variable {o : Options} {CMDFILE : List (ι × Word)}

theorem sanity_check_extended (h : o.EXTENDED_TEST = true) (scenarios : List (Scenario ι)) :
    sanity_check o CMDFILE scenarios = ⟨false, CMDFILE ++ scenarios.flatMap (translated o)⟩ := by
  induction scenarios generalizing CMDFILE with
  | nil => rw [List.flatMap_nil, List.append_nil, sanity_check]
  | cons s rest ih => rw [sanity_check, if_pos h, ih, List.flatMap_cons, List.append_assoc]

/-- A line that is left once is left by every later filter, so that only the first can find none. -/
theorem sanity_check_left (h : o.EXTENDED_TEST = false) (hne : CMDFILE ≠ [])
    (hleft : ∀ e ∈ CMDFILE, extended e.2 = false) (scenarios : List (Scenario ι)) :
    sanity_check o CMDFILE scenarios =
      ⟨false, CMDFILE ++ (scenarios.flatMap (translated o)).filter fun e => !extended e.2⟩ := by
  induction scenarios generalizing CMDFILE with
  | nil => rw [List.flatMap_nil, List.filter_nil, List.append_nil, sanity_check]
  | cons s rest ih =>
    have hfilter : (CMDFILE ++ translated o s).filter (fun e => !extended e.2) =
        CMDFILE ++ (translated o s).filter fun e => !extended e.2 := by
      rw [List.filter_append, List.filter_eq_self.mpr fun e he => by rw [hleft e he]; rfl]
    have hnone : (CMDFILE ++ (translated o s).filter fun e => !extended e.2).isEmpty = false := by simp [hne]
    have hmore : ∀ e ∈ CMDFILE ++ (translated o s).filter fun e => !extended e.2, extended e.2 = false := by
      intro e he
      obtain he | he := List.mem_append.mp he
      · exact hleft e he
      · simpa using (List.mem_filter.mp he).2
    rw [sanity_check, if_neg (by rw [h]; exact Bool.false_ne_true)]
    dsimp only
    rw [hfilter, hnone, if_neg Bool.false_ne_true, ih (List.append_ne_nil_of_left_ne_nil hne _) hmore,
      List.flatMap_cons, List.filter_append, List.append_assoc]

theorem sanity_check_first (h : o.EXTENDED_TEST = false) (s : Scenario ι) (rest : List (Scenario ι)) :
    sanity_check o [] (s :: rest) = if (∀ e ∈ translated o s, extended e.2 = true) then ⟨true, translated o s⟩
      else ⟨false, ((s :: rest).flatMap (translated o)).filter fun e => !extended e.2⟩ := by
  rw [sanity_check, if_neg (by rw [h]; exact Bool.false_ne_true), List.nil_append]
  dsimp only
  by_cases hall : ∀ e ∈ translated o s, extended e.2 = true
  · have hempty : ((translated o s).filter fun e => !extended e.2).isEmpty = true := by simpa using hall
    rw [if_pos hempty, if_pos hall]
  · have hempty : ((translated o s).filter fun e => !extended e.2).isEmpty ≠ true := by simpa using hall
    have hleft : ∀ e ∈ (translated o s).filter fun e => !extended e.2, extended e.2 = false := by
      intro e he
      simpa using (List.mem_filter.mp he).2
    have hne : (translated o s).filter (fun e => !extended e.2) ≠ [] := fun hnil => hempty (by rw [hnil]; rfl)
    rw [if_neg hempty, if_neg hall, sanity_check_left h hne hleft, List.flatMap_cons, List.filter_append]

def entry (o : Options) (c : Case) : Option (Case × Word) := (written o c.SCEN c.line).map fun text => (c, text)

theorem casesOf_scenario {k : Nat} {SCEN : Word} {lines : List Word} {c : Case} (hc : c ∈ casesOf k SCEN lines) :
    c.scenario = k ∧ c.SCEN = SCEN ∧ c.line ∈ lines := by
  obtain ⟨l, hl, rfl⟩ := List.mem_map.mp hc
  exact ⟨rfl, rfl, List.fst_mem_of_mem_zipIdx hl⟩

theorem translated_casesOf (k : Nat) (SCEN : Word) (lines : List Word) :
    translated o ⟨SCEN, (casesOf k SCEN lines).map fun c => (c, c.line)⟩ =
      (casesOf k SCEN lines).filterMap (entry o) := by
  rw [translated_eq, List.filterMap_map]
  refine List.filterMap_congr fun c hc => ?_
  rw [entry, (casesOf_scenario hc).2.1]
  rfl

theorem translated_numberedFrom (k : Nat) (scenarios : List (Word × List Word)) :
    (numberedFrom k scenarios).flatMap (translated o) = (casesFrom k scenarios).filterMap (entry o) := by
  induction scenarios generalizing k with
  | nil => rfl
  | cons s rest ih => rw [numberedFrom, casesFrom, List.flatMap_cons, translated_casesOf, List.filterMap_append, ih]

theorem casesFrom_scenario {k : Nat} {scenarios : List (Word × List Word)} {c : Case} (hc : c ∈ casesFrom k scenarios) :
    k ≤ c.scenario := by
  induction scenarios generalizing k with
  | nil => exact absurd hc List.not_mem_nil
  | cons s rest ih =>
    obtain hc | hc := List.mem_append.mp hc
    · exact Nat.le_of_eq (casesOf_scenario hc).1.symm
    · exact Nat.le_of_succ_le (ih hc)

theorem casesOf_nodup (k : Nat) (SCEN : Word) (lines : List Word) : (casesOf k SCEN lines).Nodup := by
  refine List.Nodup.of_map Case.number ?_
  have hnumber : (casesOf k SCEN lines).map Case.number = lines.zipIdx.map Prod.snd := by
    rw [casesOf, List.map_map]
    rfl
  rw [hnumber, List.zipIdx_map_snd]
  exact List.nodup_range'

theorem casesFrom_nodup (k : Nat) (scenarios : List (Word × List Word)) : (casesFrom k scenarios).Nodup := by
  induction scenarios generalizing k with
  | nil => exact List.nodup_nil
  | cons s rest ih =>
    refine List.nodup_append.mpr ⟨casesOf_nodup k s.1 s.2, ih (k + 1), fun c hc c' hc' heq => ?_⟩
    have hlater := casesFrom_scenario hc'
    rw [← heq, (casesOf_scenario hc).1] at hlater
    exact Nat.not_succ_le_self k hlater

/-- The first scenario has no line that the filter leaves. -/
def Dies (o : Options) (scenarios : List (Word × List Word)) : Prop :=
  o.EXTENDED_TEST = false ∧ ∃ s ∈ scenarios.head?, ∀ line ∈ s.2, ∀ text ∈ written o s.1 line, extended text = true

/-- The text that is written for a case is in the file in the end. -/
def Stays (o : Options) (scenarios : List (Word × List Word)) (c : Case) (text : Word) : Prop :=
  (Dies o scenarios → c.scenario = 0) ∧ (¬ Dies o scenarios → o.EXTENDED_TEST = false → extended text = false)

variable {scenarios : List (Word × List Word)}

theorem mem_entries {k : Nat} {e : Case × Word} : e ∈ (casesFrom k scenarios).filterMap (entry o) ↔
    e.1 ∈ casesFrom k scenarios ∧ written o e.1.SCEN e.1.line = some e.2 := by
  rw [List.mem_filterMap]
  refine ⟨fun ⟨c, hc, he⟩ => ?_, fun ⟨hc, hwritten⟩ => ⟨e.1, hc, by rw [entry, hwritten]; rfl⟩⟩
  obtain ⟨text, hwritten, rfl⟩ := Option.map_eq_some_iff.mp he
  exact ⟨hc, hwritten⟩

theorem entries_fst_sublist (cases : List Case) : ((cases.filterMap (entry o)).map Prod.fst).Sublist cases := by
  induction cases with
  | nil => exact List.Sublist.refl []
  | cons c cases ih =>
    cases hwritten : written o c.SCEN c.line with
    | none =>
      rw [List.filterMap_cons_none (by rw [entry, hwritten]; rfl)]
      exact ih.cons c
    | some text =>
      rw [List.filterMap_cons_some (b := (c, text)) (by rw [entry, hwritten]; rfl)]
      exact ih.cons_cons c

theorem dies_cons (h : o.EXTENDED_TEST = false) (s : Word × List Word) (rest : List (Word × List Word)) :
    Dies o (s :: rest) ↔ ∀ e ∈ (casesOf 0 s.1 s.2).filterMap (entry o), extended e.2 = true := by
  refine ⟨fun ⟨_, s', hs', hall⟩ e he => ?_, fun hall => ⟨h, s, rfl, fun line hline text htext => ?_⟩⟩
  · obtain rfl := Option.some.inj hs'
    obtain ⟨c, hc, he⟩ := List.mem_filterMap.mp he
    obtain ⟨text, hwritten, rfl⟩ := Option.map_eq_some_iff.mp he
    obtain ⟨_, hSCEN, hline⟩ := casesOf_scenario hc
    exact hall c.line hline text (hSCEN ▸ hwritten)
  · rw [← List.zipIdx_map_fst 0 s.2] at hline
    obtain ⟨l, hl, rfl⟩ := List.mem_map.mp hline
    have hc : (⟨0, l.2, s.1, l.1⟩ : Case) ∈ casesOf 0 s.1 s.2 := List.mem_map.mpr ⟨l, hl, rfl⟩
    exact hall (⟨0, l.2, s.1, l.1⟩, text) (List.mem_filterMap.mpr ⟨_, hc, by rw [entry, htext]; rfl⟩)

/-- The dying run leaves what the first scenario had, any other what the filter leaves of all. -/
theorem commandFile_eq (o : Options) (scenarios : List (Word × List Word)) : ∃ keeps : Case × Word → Bool,
    (commandFile o scenarios).CMDFILE = ((casesFrom 0 scenarios).filterMap (entry o)).filter keeps ∧
      ∀ e ∈ (casesFrom 0 scenarios).filterMap (entry o), keeps e = true ↔ Stays o scenarios e.1 e.2 := by
  by_cases hEXT : o.EXTENDED_TEST = true
  · have hlives : ¬ Dies o scenarios := fun hdies => Bool.false_ne_true (hdies.1.symm.trans hEXT)
    refine ⟨fun _ => true, ?_, fun e _ => iff_of_true rfl ⟨fun hdies => absurd hdies hlives, fun _ h => ?_⟩⟩
    · rw [commandFile, sanity_check_extended hEXT, translated_numberedFrom, List.filter_true]
      rfl
    · exact absurd (h.symm.trans hEXT) Bool.false_ne_true
  · rw [Bool.not_eq_true] at hEXT
    cases scenarios with
    | nil => exact ⟨fun _ => true, rfl, fun e he => absurd he List.not_mem_nil⟩
    | cons s rest =>
      rw [commandFile, numberedFrom, sanity_check_first hEXT, translated_casesOf]
      by_cases hdies : Dies o (s :: rest)
      · rw [if_pos ((dies_cons hEXT s rest).mp hdies)]
        refine ⟨fun e => e.1.scenario == 0, ?_, fun e _ => ?_⟩
        · have hall : ∀ e ∈ (casesOf 0 s.1 s.2).filterMap (entry o), (e.1.scenario == 0) = true := by
            intro e he
            obtain ⟨c, hc, he⟩ := List.mem_filterMap.mp he
            obtain ⟨text, _, rfl⟩ := Option.map_eq_some_iff.mp he
            exact beq_iff_eq.mpr (casesOf_scenario hc).1
          have hnone : ∀ e ∈ (casesFrom 1 rest).filterMap (entry o), ¬ (e.1.scenario == 0) = true := by
            intro e he
            rw [beq_iff_eq]
            exact Nat.ne_of_gt (casesFrom_scenario (mem_entries.mp he).1)
          rw [casesFrom, List.filterMap_append, List.filter_append, List.filter_eq_self.mpr hall,
            List.filter_eq_nil_iff.mpr hnone, List.append_nil]
        · rw [beq_iff_eq]
          exact ⟨fun h => ⟨fun _ => h, fun hlives => absurd hdies hlives⟩, fun hstays => hstays.1 hdies⟩
      · rw [if_neg (mt (dies_cons hEXT s rest).mpr hdies), ← numberedFrom, translated_numberedFrom]
        refine ⟨fun e => !extended e.2, rfl, fun e _ => ?_⟩
        rw [Bool.not_eq_true']
        exact ⟨fun h => ⟨fun h' => absurd h' hdies, fun _ _ => h⟩, fun hstays => hstays.2 hdies hEXT⟩

theorem mem_commandFile {e : Case × Word} : e ∈ (commandFile o scenarios).CMDFILE ↔
    e.1 ∈ casesFrom 0 scenarios ∧ written o e.1.SCEN e.1.line = some e.2 ∧ Stays o scenarios e.1 e.2 := by
  obtain ⟨keeps, hfile, hkeeps⟩ := commandFile_eq o scenarios
  rw [hfile, List.mem_filter, ← and_assoc, ← mem_entries]
  exact and_congr_right fun he => hkeeps e he

theorem commandFile_nodup (o : Options) (scenarios : List (Word × List Word)) :
    ((commandFile o scenarios).CMDFILE.map Prod.fst).Nodup := by
  obtain ⟨keeps, hfile, _⟩ := commandFile_eq o scenarios
  rw [hfile]
  exact ((List.filter_sublist.map Prod.fst).trans (entries_fst_sublist _)).nodup (casesFrom_nodup 0 scenarios)

structure Fits (o : Options) (scenarios : List (Word × List Word)) : Prop where
  hash : ∀ c ∈ casesFrom 0 scenarios, Required o c → '#' ∉ c.line
  name : o.DONT = false → ∀ c ∈ casesFrom 0 scenarios, Required o c → o.mark c.SCEN ≠ none
  stays : ∀ c ∈ casesFrom 0 scenarios, Required o c → ∀ text ∈ written o c.SCEN c.line, Stays o scenarios c text
  filtered : o.EXTENDED_TEST = false → ∀ c ∈ casesFrom 0 scenarios, IsExtended c.line →
    ∀ text ∈ written o c.SCEN c.line, ¬ Stays o scenarios c text
  tags : ∀ c ∈ casesFrom 0 scenarios, ∀ c' ∈ casesFrom 0 scenarios, Different c c' →
    ∀ text ∈ written o c.SCEN c.line, ∀ text' ∈ written o c'.SCEN c'.line,
      Stays o scenarios c text → Stays o scenarios c' text' → tag text ≠ tag text'

theorem identifier_spaces {line : Word} (h : identifier line ≠ none) : ¬ ∀ c ∈ line, c = ' ' := by
  intro hspaces
  have hfields : fields isBlank line = [] := (fields_eq_nil_iff line).mpr fun c hc => by rw [hspaces c hc]; rfl
  exact h (by rw [identifier, hfields]; rfl)

theorem written_eq_none_iff {c : Case} (h : identifier c.line ≠ none) :
    written o c.SCEN c.line = none ↔ '#' ∈ c.line ∨ o.DONT = false ∧ o.mark c.SCEN = none := by
  by_cases hhash : '#' ∈ c.line
  · exact iff_of_true (written_none (Or.inl hhash) o) (Or.inl hhash)
  · rw [written_some (not_or.mpr ⟨hhash, identifier_spaces h⟩), or_iff_right hhash]
    cases o.DONT with
    | true => simp
    | false => simp

theorem commandFile_count (o : Options) (scenarios : List (Word × List Word)) (c : Case) :
    ((commandFile o scenarios).CMDFILE.map Prod.fst).count c = 1 ↔
      ∃ text, (c, text) ∈ (commandFile o scenarios).CMDFILE := by
  have hmem : c ∈ (commandFile o scenarios).CMDFILE.map Prod.fst ↔
      ∃ text, (c, text) ∈ (commandFile o scenarios).CMDFILE :=
    List.mem_map.trans ⟨fun ⟨e, he, heq⟩ => ⟨e.2, heq ▸ he⟩, fun ⟨text, he⟩ => ⟨(c, text), he, rfl⟩⟩
  rw [(commandFile_nodup o scenarios).count, ← hmem]
  by_cases hc : c ∈ (commandFile o scenarios).CMDFILE.map Prod.fst
  · rw [if_pos hc]
    exact iff_of_true rfl hc
  · rw [if_neg hc]
    exact iff_of_false Nat.zero_ne_one hc

theorem right_of_fits (hfits : Fits o scenarios) : Right o scenarios (commandFile o scenarios).CMDFILE := by
  refine ⟨fun e he e' he' hdifferent => ?_, fun c hc hrequired => (commandFile_count o scenarios c).mpr ?_,
    fun hEXT e he hext => ?_⟩
  · obtain ⟨hc, htext, hstays⟩ := mem_commandFile.mp he
    obtain ⟨hc', htext', hstays'⟩ := mem_commandFile.mp he'
    exact hfits.tags e.1 hc e'.1 hc' hdifferent e.2 htext e'.2 htext' hstays hstays'
  · have hwritten : written o c.SCEN c.line ≠ none := by
      rw [Ne, written_eq_none_iff hrequired.1]
      rintro (hhash | ⟨hDONT, hmark⟩)
      · exact hfits.hash c hc hrequired hhash
      · exact hfits.name hDONT c hc hrequired hmark
    obtain ⟨text, htext⟩ := Option.ne_none_iff_exists'.mp hwritten
    exact ⟨text, mem_commandFile.mpr ⟨hc, htext, hfits.stays c hc hrequired text htext⟩⟩
  · obtain ⟨hc, htext, hstays⟩ := mem_commandFile.mp he
    exact hfits.filtered hEXT e.1 hc hext e.2 htext hstays

theorem fits_of_right (hright : Right o scenarios (commandFile o scenarios).CMDFILE) : Fits o scenarios := by
  have hreaches : ∀ c ∈ casesFrom 0 scenarios, Required o c →
      ∃ text, written o c.SCEN c.line = some text ∧ Stays o scenarios c text := by
    intro c hc hrequired
    obtain ⟨text, htext⟩ := (commandFile_count o scenarios c).mp (hright.once c hc hrequired)
    exact ⟨text, (mem_commandFile.mp htext).2⟩
  have hwritten : ∀ c ∈ casesFrom 0 scenarios, Required o c →
      ¬ ('#' ∈ c.line ∨ o.DONT = false ∧ o.mark c.SCEN = none) := by
    intro c hc hrequired
    obtain ⟨text, htext, _⟩ := hreaches c hc hrequired
    rw [← written_eq_none_iff hrequired.1, htext]
    exact Option.some_ne_none text
  refine ⟨fun c hc hrequired hhash => hwritten c hc hrequired (Or.inl hhash),
    fun hDONT c hc hrequired hmark => hwritten c hc hrequired (Or.inr ⟨hDONT, hmark⟩), ?_, ?_, ?_⟩
  · intro c hc hrequired text htext
    obtain ⟨text', htext', hstays⟩ := hreaches c hc hrequired
    obtain rfl := Option.some.inj (htext'.symm.trans htext)
    exact hstays
  · intro hEXT c hc hext text htext hstays
    exact hright.selected hEXT (c, text) (mem_commandFile.mpr ⟨hc, htext, hstays⟩) hext
  · intro c hc c' hc' hdifferent text htext text' htext' hstays hstays'
    exact hright.tags (c, text) (mem_commandFile.mpr ⟨hc, htext, hstays⟩) (c', text')
      (mem_commandFile.mpr ⟨hc', htext', hstays'⟩) hdifferent

/-- The command file is right exactly under these conditions. -/
theorem commandFile_right_iff (o : Options) (scenarios : List (Word × List Word)) :
    Right o scenarios (commandFile o scenarios).CMDFILE ↔ Fits o scenarios :=
  ⟨fits_of_right, right_of_fits⟩

/-- Without options, and with names that `sed` takes as they are. -/
def asTheyAre : Options := ⟨false, false, fun SCEN => some (SCEN ++ ['-'])⟩

def dashedScenario : List (Word × List Word) := [("L_DD_AUDIO-ALSA_0002".toList, ["0001_EXT x".toList])]

/-- A name with a dash of its own keeps the one that is put behind it, and the filter does not know the tag. -/
theorem dash_lets_extended_through :
    ¬ Right asTheyAre dashedScenario (commandFile asTheyAre dashedScenario).CMDFILE := by
  intro hright
  refine hright.selected rfl (⟨0, 0, "L_DD_AUDIO-ALSA_0002".toList, "0001_EXT x".toList⟩,
    "L_DD_AUDIO_ALSA_0002-0001_EXT x".toList) (by decide) ?_
  exact ⟨"0001_EXT".toList, by decide, by decide⟩

/-! Names and identifiers of the class of the filter. -/

/-- The substitutions put the names in front as they are, and no name goes on where another with an underscore ends. -/
structure Plain (o : Options) (scenarios : List (Word × List Word)) : Prop where
  DONT : o.DONT = false
  names : ∀ c ∈ casesFrom 0 scenarios, (∀ x ∈ c.SCEN, isNameChar x = true) ∧ o.mark c.SCEN = some (c.SCEN ++ ['-'])
  apart : ∀ c ∈ casesFrom 0 scenarios, ∀ c' ∈ casesFrom 0 scenarios, ¬ c.SCEN ++ ['_'] <+: c'.SCEN
  lines : ∀ c ∈ casesFrom 0 scenarios, ∀ id ∈ identifier c.line, (∀ x ∈ id, isNameChar x = true) ∧ id ≠ "EXT".toList ∧
    '#' ∉ c.line ∧ ∃ command, c.line = id ++ ' ' :: command
  first : o.EXTENDED_TEST = false → ∃ c ∈ casesFrom 0 scenarios, c.scenario = 0 ∧ Required o c

theorem extended_append {name : Word} (h : ∀ x ∈ name, isNameChar x = true) (rest : Word) :
    extended (name ++ ' ' :: rest) = true ↔ "_EXT".toList <:+ name := by
  have hname : (name ++ ' ' :: rest).takeWhile (fun c => c ≠ ' ') = name := by
    rw [List.takeWhile_append_of_pos, List.takeWhile_cons_of_neg (by decide), List.append_nil]
    intro x hx
    refine decide_eq_true fun hspace => ?_
    have hx := h x hx
    rw [hspace] at hx
    exact absurd hx (by decide)
  rw [extended, hname]
  simpa using fun _ x hx => h x hx

/-- The mark makes an extended test only of `EXT`. -/
theorem suffix_marked {SCEN id : Word} (hid : id ≠ "EXT".toList) :
    "_EXT".toList <:+ SCEN ++ '_' :: id ↔ "_EXT".toList <:+ id := by
  have hmarked : '_' :: id <:+ SCEN ++ '_' :: id := List.suffix_append SCEN ('_' :: id)
  refine ⟨fun h => ?_, fun h => (h.trans (List.suffix_cons '_' id)).trans hmarked⟩
  obtain h | h := List.suffix_or_suffix_of_suffix h hmarked
  · obtain heq | h := List.suffix_cons_iff.mp h
    · exact absurd (List.cons.inj heq).2.symm hid
    · exact h
  · have hEXT : id = "EXT".toList := by simpa [List.suffix_cons_iff] using h
    exact absurd hEXT hid

theorem isNameChar_ne {x y : Char} (hx : isNameChar x = true) (hy : isNameChar y = false) : x ≠ y := by
  rintro rfl
  exact Bool.false_ne_true (hy.symm.trans hx)

theorem firstDash_marked {SCEN : Word} (h : ∀ x ∈ SCEN, isNameChar x = true) (line : Word) :
    firstDash (SCEN ++ '-' :: line) = SCEN ++ '_' :: line := by
  induction SCEN with
  | nil => rfl
  | cons x SCEN ih =>
    rw [List.cons_append, firstDash, if_neg (isNameChar_ne (h x List.mem_cons_self) rfl),
      ih fun y hy => h y (List.mem_cons_of_mem x hy), List.cons_append]

theorem tag_append {name : Word} (h : ∀ x ∈ name, isNameChar x = true) (rest : Word) :
    tag (name ++ ' ' :: rest) = name := by
  rw [tag, List.takeWhile_append_of_pos, List.takeWhile_cons_of_neg (by decide), List.append_nil]
  intro x hx
  have hspace := isNameChar_ne (y := ' ') (h x hx) rfl
  have htab := isNameChar_ne (y := '\t') (h x hx) rfl
  have hnewline := isNameChar_ne (y := '\n') (h x hx) rfl
  simp [isBlank, hspace, htab, hnewline]

theorem Plain.written_eq (h : Plain o scenarios) {c : Case} (hc : c ∈ casesFrom 0 scenarios) {id : Word}
    (hid : id ∈ identifier c.line) : (∀ x ∈ c.SCEN ++ '_' :: id, isNameChar x = true) ∧
      ∃ command, written o c.SCEN c.line = some ((c.SCEN ++ '_' :: id) ++ ' ' :: command) := by
  obtain ⟨hname, hmark⟩ := h.names c hc
  obtain ⟨hchars, _, hhash, command, hline⟩ := h.lines c hc id hid
  refine ⟨fun x hx => ?_, command, ?_⟩
  · obtain hx | hx := List.mem_append.mp hx
    · exact hname x hx
    · obtain rfl | hx := List.mem_cons.mp hx
      · rfl
      · exact hchars x hx
  · have hne : identifier c.line ≠ none := by
      rw [hid]
      exact Option.some_ne_none id
    rw [written_some (not_or.mpr ⟨hhash, identifier_spaces hne⟩), h.DONT, if_neg Bool.false_ne_true, hmark,
      Option.map_some, List.append_assoc, List.singleton_append, firstDash_marked hname, hline,
      List.append_assoc, List.cons_append]

theorem Plain.extended_iff (h : Plain o scenarios) {c : Case} (hc : c ∈ casesFrom 0 scenarios) {id : Word}
    (hid : id ∈ identifier c.line) {text : Word} (htext : text ∈ written o c.SCEN c.line) :
    extended text = true ↔ IsExtended c.line := by
  obtain ⟨hchars, command, hwritten⟩ := h.written_eq hc hid
  obtain rfl := Option.some.inj (hwritten.symm.trans htext)
  rw [extended_append hchars, suffix_marked (h.lines c hc id hid).2.1]
  refine ⟨fun hext => ⟨id, hid, hext⟩, fun ⟨id', hid', hext⟩ => ?_⟩
  obtain rfl := Option.some.inj (hid.symm.trans hid')
  exact hext

theorem Plain.lives (h : Plain o scenarios) : ¬ Dies o scenarios := by
  intro hdies
  obtain ⟨c, hc, hzero, hrequired⟩ := h.first hdies.1
  obtain ⟨id, hid⟩ := Option.ne_none_iff_exists'.mp hrequired.1
  obtain ⟨_, command, hwritten⟩ := h.written_eq hc hid
  have hext : extended (c.SCEN ++ '_' :: id ++ ' ' :: command) = true := by
    cases scenarios with
    | nil => exact absurd hc List.not_mem_nil
    | cons s rest =>
      obtain hc | hc := List.mem_append.mp hc
      · exact (dies_cons hdies.1 s rest).mp hdies (c, c.SCEN ++ '_' :: id ++ ' ' :: command)
          (List.mem_filterMap.mpr ⟨c, hc, by rw [entry, hwritten]; rfl⟩)
      · exact absurd hzero (Nat.ne_of_gt (casesFrom_scenario hc))
  exact hrequired.2 hdies.1 ((h.extended_iff hc hid hwritten).mp hext)

theorem joined_apart {SCEN SCEN' id id' part : Word} (h : ¬ SCEN ++ ['_'] <+: SCEN') (hSCEN : SCEN' = SCEN ++ part)
    (hpart : '_' :: id = part ++ '_' :: id') (hne : SCEN' = SCEN → id ≠ id') : False := by
  cases part with
  | nil => exact hne (by rw [hSCEN, List.append_nil]) (List.cons.inj hpart).2
  | cons x part =>
    obtain ⟨rfl, _⟩ := List.cons.inj hpart
    refine h ⟨part, ?_⟩
    rw [hSCEN, List.append_assoc]
    rfl

theorem commandFile_right_of_plain (h : Plain o scenarios) : Right o scenarios (commandFile o scenarios).CMDFILE := by
  refine right_of_fits ⟨?_, ?_, ?_, ?_, ?_⟩
  · intro c hc hrequired
    obtain ⟨id, hid⟩ := Option.ne_none_iff_exists'.mp hrequired.1
    exact (h.lines c hc id hid).2.2.1
  · intro _ c hc _ hmark
    exact absurd ((h.names c hc).2.symm.trans hmark) (Option.some_ne_none _)
  · intro c hc hrequired text htext
    obtain ⟨id, hid⟩ := Option.ne_none_iff_exists'.mp hrequired.1
    refine ⟨fun hdies => absurd hdies h.lives, fun _ hEXT => ?_⟩
    rw [← Bool.not_eq_true, h.extended_iff hc hid htext]
    exact hrequired.2 hEXT
  · intro hEXT c hc hext text htext hstays
    obtain ⟨id, hid, _⟩ := id hext
    have hout := hstays.2 h.lives hEXT
    exact Bool.false_ne_true (hout.symm.trans ((h.extended_iff hc hid htext).mpr hext))
  · intro c hc c' hc' hdifferent text htext text' htext' _ _ htag
    obtain ⟨id, hid⟩ := Option.ne_none_iff_exists'.mp hdifferent.1
    obtain ⟨id', hid'⟩ := Option.ne_none_iff_exists'.mp hdifferent.2.1
    obtain ⟨hchars, command, hwritten⟩ := h.written_eq hc hid
    obtain ⟨hchars', command', hwritten'⟩ := h.written_eq hc' hid'
    obtain rfl := Option.some.inj (hwritten.symm.trans htext)
    obtain rfl := Option.some.inj (hwritten'.symm.trans htext')
    rw [tag_append hchars, tag_append hchars'] at htag
    have hpair : (c.SCEN, id) ≠ (c'.SCEN, id') := by
      have hdifferent := hdifferent.2.2
      rw [hid, hid'] at hdifferent
      exact fun heq => hdifferent (by rw [(Prod.mk.inj heq).1, (Prod.mk.inj heq).2])
    obtain ⟨part, hSCEN, hpart⟩ | ⟨part, hSCEN, hpart⟩ := List.append_eq_append_iff.mp htag
    · exact joined_apart (h.apart c hc c' hc') hSCEN hpart fun heq hideq => hpair (by rw [heq, hideq])
    · exact joined_apart (h.apart c' hc' c hc) hSCEN hpart fun heq hideq => hpair (by rw [heq, hideq])

end TestRunnerScenarios

end DeviceDriverTest
