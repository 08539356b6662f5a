import DeviceDriverTest.PathnameExpansion
import DeviceDriverTest.ShellCut
import DeviceDriverTest.ShellRead

/-! The handler that keeps commands with their priorities in a file, one pair in a line, and starts
them from there. -/

namespace DeviceDriverTest

namespace ProcessPriority

open FieldSplitting TextReach
open TestRunner (Word)
open TestRunnerOptions (isBlank expand)
open HandlerCmd (words respaced echo isEchoOption)
open PathnameExpansion ShellCut ShellRead

structure Assignment where
  command : Word
  priority : Word
  commandLine : '\n' ∉ command
  priorityLine : '\n' ∉ priority

/-- What one round of the loop finds: the files at its two expansions of the line, and the delay. -/
structure Round where
  first : Directory
  second : Directory
  delay : Word

/-- What `handlerProcessPriorityExecutor.sh assign` is started with. -/
structure Start where
  instance_ : Nat
  command : Word
  priority : Word
  delay : Word

def Assignment.line (pair : Assignment) : Word := pair.command ++ ':' :: pair.priority

/-- What `assign` makes of `$HPPR_LIST_CMDS_TOTALS`. -/
def assign (files : HandlerError.Files String) (pair : Assignment) (totals : Word) : Word :=
  if (HandlerError.test files).exit = 1 then totals else totals ++ echo false [pair.line] ++ ['\n']

def shown (directory : Directory) (line : List (Char × Bool)) : Word :=
  echo false (expand directory.names (trim line))

/-- One round of the loop over the list. -/
def start (round : Round) (instance_ : Nat) (line : List (Char × Bool)) : Start where
  instance_ := instance_
  command := cut 1 (shown round.first line)
  priority := cut 2 (shown round.second line)
  delay := round.delay

/-- `execute`, after an `assign`. -/
def execute (files : HandlerError.Files String) (rounds : Nat → Round) (totals : Word) : List Start :=
  if (HandlerError.test files).exit = 1 then []
  else (read [] totals).mapIdx fun i line => start (rounds (i + 1)) (i + 1) line

/-- The list that the assignments leave, after `clean`. -/
def assigned (files : HandlerError.Files String) (pairs : List Assignment) : Word :=
  pairs.foldl (fun totals pair => assign files pair totals) []

/-- Whatever files there are, what was assigned is what is started. -/
def RoundTrip (pairs : List Assignment) : Prop :=
  ∀ (files : HandlerError.Files String) (rounds : Nat → Round), files.halt = none →
    (execute files rounds (assigned files pairs)).map (fun s => (s.command, s.priority)) =
      pairs.map fun pair => (pair.command, pair.priority)

/-- The line comes out of the list and out of the words of the shell as it was. -/
structure Kept (pair : Assignment) : Prop where
  command : ':' ∉ pair.command
  priority : ':' ∉ pair.priority
  unescaped : '\\' ∉ pair.line
  spaced : respaced pair.line = pair.line
  option : ∀ w ∈ (words pair.line).head?, isEchoOption w = false

/-- And no files are put in the place of its words. -/
structure Survives (pair : Assignment) : Prop extends Kept pair where
  literal : ∀ w ∈ words pair.line, isPattern w = false

/-! The assignments that come through. -/

theorem shown_empty (line : List (Char × Bool)) : shown empty line = echo false (words (trim line)) := by
  rw [shown, expand, empty_names]
  rfl

variable {pair : Assignment}

theorem Assignment.lineLine (pair : Assignment) : '\n' ∉ pair.line := by
  have hcommand := pair.commandLine
  have hpriority := pair.priorityLine
  simp [Assignment.line, hcommand, hpriority]

/-- Where `echo` has no option the two fields with the colon are no longer than what was read. -/
theorem line_eq_of_cut (hoption : ∀ w ∈ (words (trim (scan pair.line).1)).head?, isEchoOption w = false)
    (hcommand : cut 1 (shown empty (scan pair.line).1) = pair.command)
    (hpriority : cut 2 (shown empty (scan pair.line).1) = pair.priority) :
    respaced (trim (scan pair.line).1) = pair.line := by
  have hcolon : ':' ∈ pair.line := by simp [Assignment.line]
  have hnewline := newline_notMem_respaced (trim (scan pair.line).1)
  rw [shown_empty, echo_words hoption] at hcommand hpriority
  have hstart := cutField_start (colon_mem_respaced hcolon)
  rw [← cut_line hnewline 1, ← cut_line hnewline 2] at hstart
  have hlength := reach_respaced_line_le (p := fun _ => true) (fun _ _ => rfl) pair.line
  rw [reach_all, reach_all] at hlength
  rw [respaced, hcommand, hpriority] at hstart
  exact (hstart.eq_of_length_le hlength).symm

/-- An option of `echo` is missing from the command. -/
theorem not_option_of_cut (hcolon : ':' ∉ pair.command)
    (hcommand : cut 1 (shown empty (scan pair.line).1) = pair.command) :
    ∀ w ∈ (words (trim (scan pair.line).1)).head?, isEchoOption w = false := by
  intro w hw
  by_contra hoption
  rw [Bool.not_eq_false] at hoption
  obtain ⟨ws, hwords⟩ := List.head?_eq_some_iff.mp hw
  have hp : ∀ c : Char, c ≠ ':' → (c != ':') = true := fun c hc => by simpa using hc
  have hecho := reach_echo_option_lt hp hoption ws
  have hline := reach_respaced_line_le hp pair.line
  rw [← hwords] at hecho
  obtain ⟨line, hstart, hfield⟩ := cut_first (hcommand ▸ pair.commandLine)
  have hreach := (length_cutField_le line).trans (reach_start_le hstart)
  rw [hfield, hcommand, shown_empty] at hreach
  have hpair : reach (fun c => c != ':') pair.line = pair.command.length := by
    rw [Assignment.line, reach_append_pass fun c hc => hp c fun heq => hcolon (heq ▸ hc), reach_cons_stop rfl,
      Nat.add_zero]
  rw [hpair] at hline
  exact absurd (hreach.trans_lt hecho) (by rw [not_lt]; exact hline)

theorem kept_of_cut (hcommand : cut 1 (shown empty (scan pair.line).1) = pair.command)
    (hpriority : cut 2 (shown empty (scan pair.line).1) = pair.priority) : Kept pair := by
  have hcolon : ':' ∉ pair.command := hcommand ▸ colon_notMem_cut (hcommand ▸ pair.commandLine)
  have hcolon' : ':' ∉ pair.priority := hpriority ▸ colon_notMem_cut (hpriority ▸ pair.priorityLine)
  have hoption := not_option_of_cut hcolon hcommand
  have hline := line_eq_of_cut hoption hcommand hpriority
  have hspaced := length_respaced_le (trim (scan pair.line).1)
  rw [hline] at hspaced
  have htaken : taken pair.line = pair.line :=
    (taken_sublist pair.line).eq_of_length_le (hspaced.trans (trim_sublist _).length_le)
  have hread : trim (scan pair.line).1 = pair.line :=
    ((trim_sublist _).trans (taken_sublist pair.line)).eq_of_length_le hspaced
  rw [hread] at hline hoption
  exact ⟨hcolon, hcolon', unescaped_of_taken htaken, hline, hoption⟩

/-! The list of the assignments. -/

def list (pairs : List Assignment) : Word := pairs.flatMap fun pair => pair.line ++ ['\n']

theorem list_cons (pair : Assignment) (pairs : List Assignment) : list (pair :: pairs) = pair.line ++ '\n' :: list pairs := by
  simp [list]

theorem count_newline_list (pairs : List Assignment) : (list pairs).count '\n' = pairs.length := by
  induction pairs with
  | nil => rfl
  | cons pair pairs ih =>
    rw [list_cons, List.count_append, List.count_eq_zero.mpr pair.lineLine, List.count_cons_self, ih, Nat.zero_add,
      List.length_cons]

theorem echo_line (pair : Assignment) : echo false [pair.line] = pair.line := by
  apply HandlerCmd.echo_element
  by_contra hoption
  rw [Bool.not_eq_false] at hoption
  exact colon_notMem_option hoption (by simp [Assignment.line])

theorem assigned_eq {files : HandlerError.Files String} (h : files.halt = none) (pairs : List Assignment) :
    assigned files pairs = list pairs := by
  have hpass := (HandlerError.test_exit_ne_iff files).mpr h
  have hfold : ∀ totals, pairs.foldl (fun totals pair => assign files pair totals) totals = totals ++ list pairs := by
    induction pairs with
    | nil =>
      intro totals
      rw [list, List.flatMap_nil, List.append_nil, List.foldl_nil]
    | cons pair pairs ih =>
      intro totals
      rw [List.foldl_cons, ih, assign, if_neg hpass, echo_line, list_cons]
      simp
  exact hfold []

/-- The fields of a line, where all expansions find the same files. -/
def fieldsOf (directory : Directory) (line : List (Char × Bool)) : Word × Word :=
  (cut 1 (shown directory line), cut 2 (shown directory line))

def Assignment.key (pair : Assignment) : Word × Word := (pair.command, pair.priority)

theorem fieldsOf_read {directory : Directory} {pairs : List Assignment}
    (h : (read [] (list pairs)).map (fieldsOf directory) = pairs.map Assignment.key) :
    ∀ pair ∈ pairs, fieldsOf directory (scan pair.line).1 = pair.key := by
  induction pairs with
  | nil =>
    intro pair hpair
    cases hpair
  | cons pair pairs ih =>
    rw [list_cons, read_line pair.lineLine, List.nil_append] at h
    cases hjoined : (scan pair.line).2 with
    | true =>
      rw [hjoined, if_pos rfl] at h
      have hlength := congrArg List.length h
      have hcount := length_read_le (scan pair.line).1 (list pairs)
      rw [count_newline_list] at hcount
      rw [List.length_map, List.length_map, List.length_cons] at hlength
      omega
    | false =>
      rw [hjoined, if_neg Bool.false_ne_true, List.map_cons, List.map_cons] at h
      obtain ⟨hpair, hpairs⟩ := List.cons.inj h
      exact List.forall_mem_cons.mpr ⟨hpair, ih hpairs⟩

theorem read_list {pairs : List Assignment} (h : ∀ pair ∈ pairs, '\\' ∉ pair.line) :
    read [] (list pairs) = pairs.map fun pair => pair.line.map fun c => (c, false) := by
  induction pairs with
  | nil => rfl
  | cons pair pairs ih =>
    rw [list_cons, read_line pair.lineLine, scan_plain (h pair List.mem_cons_self), if_neg Bool.false_ne_true,
      ih fun pair hpair => h pair (List.mem_cons_of_mem _ hpair)]
    rfl

/-! Both directions. -/

theorem Kept.cut (h : Kept pair) : cut 1 pair.line = pair.command ∧ cut 2 pair.line = pair.priority := by
  rw [cut_line pair.lineLine, cut_line pair.lineLine]
  exact ⟨cutField_one h.command pair.priority, cutField_two h.command h.priority⟩

theorem Survives.shown (h : Survives pair) (directory : Directory) :
    shown directory (pair.line.map fun c => (c, false)) = pair.line := by
  have hwords : expand directory.names pair.line = words pair.line := literal_names directory h.literal
  rw [ProcessPriority.shown, trim_plain h.spaced, hwords, echo_words h.option]
  exact h.spaced

theorem roundTrip_of_survives {pairs : List Assignment} (h : ∀ pair ∈ pairs, Survives pair) : RoundTrip pairs := by
  intro files rounds hhalt
  rw [execute, if_neg ((HandlerError.test_exit_ne_iff files).mpr hhalt), assigned_eq hhalt,
    read_list fun pair hpair => (h pair hpair).unescaped]
  apply List.ext_getElem
  · simp
  · intro i hi hi'
    have hlength : i < pairs.length := by simpa using hi'
    have hpair := h pairs[i] (List.getElem_mem hlength)
    simp [start, hpair.shown, hpair.cut.1, hpair.cut.2]

/-- For every pattern there is a file with a longer name. -/
def longer : Directory where
  names word := if isPattern word then [word ++ ['x']] else [word]
  literal word h := by rw [h, if_neg Bool.false_ne_true]

def named (word : Word) : Word := if isPattern word then word ++ ['x'] else word

theorem longer_names (words : List Word) : words.flatMap longer.names = words.map named := by
  induction words with
  | nil => rfl
  | cons word words ih =>
    rw [List.flatMap_cons, List.map_cons, ih]
    unfold longer named
    dsimp only
    split
    · rfl
    · rfl

theorem named_not_option {word : Word} (h : isEchoOption word = false) : isEchoOption (named word) = false := by
  unfold named
  split
  · by_contra hoption
    rw [Bool.not_eq_false] at hoption
    have hchars := (HandlerCmd.isEchoOption_chars hoption).2 'x' (by simp)
    exact absurd hchars (by decide)
  · exact h

theorem count_colon_named (word : Word) : (named word).count ':' = word.count ':' := by
  unfold named
  split
  · simp
  · rfl

theorem count_colon_join (words : List Word) :
    (List.intercalate [' '] (words.map named)).count ':' = (List.intercalate [' '] words).count ':' := by
  induction words with
  | nil => rfl
  | cons word words ih =>
    cases words with
    | nil => simp [count_colon_named]
    | cons next words =>
      rw [List.map_cons, List.map_cons, List.intercalate_cons_cons, List.intercalate_cons_cons, ← List.map_cons,
        List.count_append, List.count_append, List.count_append, List.count_append, ih, count_colon_named]

theorem parts_of_count {text : Word} (h : text.count ':' = 1) : ∃ a b, text = a ++ ':' :: b ∧ ':' ∉ a ∧ ':' ∉ b := by
  obtain ⟨a, b, rfl, ha⟩ := List.eq_append_cons_of_mem (List.count_pos_iff.mp (by rw [h]; exact Nat.one_pos))
  refine ⟨a, b, rfl, ha, ?_⟩
  rw [List.count_append, List.count_cons_self, List.count_eq_zero.mpr ha] at h
  exact List.count_eq_zero.mp (by omega)

theorem Kept.literal (h : Kept pair) (hfields : fieldsOf longer (pair.line.map fun c => (c, false)) = pair.key) :
    ∀ w ∈ words pair.line, isPattern w = false := by
  have hnamed : ∀ w ∈ (words pair.line).map named, w ≠ [] ∧ ∀ c ∈ w, isBlank c = false := by
    intro w hw
    obtain ⟨word, hword, rfl⟩ := List.mem_map.mp hw
    obtain ⟨hne, hchars⟩ := fields_mem hword
    unfold named
    split
    · refine ⟨by simp, ?_⟩
      intro c hc
      obtain hc | hc := List.mem_append.mp hc
      · exact (hchars c hc).2
      · rw [List.mem_singleton.mp hc]
        rfl
    · exact ⟨hne, fun c hc => (hchars c hc).2⟩
  have hshown : shown longer (pair.line.map fun c => (c, false)) =
      List.intercalate [' '] ((words pair.line).map named) := by
    rw [shown, trim_plain h.spaced, expand, longer_names]
    apply echo_words
    intro w hw
    rw [List.head?_map] at hw
    obtain ⟨word, hword, rfl⟩ := Option.map_eq_some_iff.mp hw
    exact named_not_option (h.option word hword)
  have hcount : (List.intercalate [' '] ((words pair.line).map named)).count ':' = 1 := by
    have hline := h.spaced
    rw [respaced] at hline
    rw [count_colon_join, hline, Assignment.line, List.count_append, List.count_cons_self,
      List.count_eq_zero.mpr h.command, List.count_eq_zero.mpr h.priority]
  have hnewline : '\n' ∉ List.intercalate [' '] ((words pair.line).map named) := by
    intro hmem
    obtain hspace | ⟨word, hword, hmem⟩ := intercalate_mem hmem
    · exact absurd hspace (by decide)
    · exact absurd ((hnamed word hword).2 '\n' hmem) (by decide)
  obtain ⟨a, b, hparts, ha, hb⟩ := parts_of_count hcount
  obtain ⟨hcommand, hpriority⟩ := Prod.mk.inj hfields
  rw [hshown, cut_line hnewline, hparts] at hcommand hpriority
  rw [cutField_one ha] at hcommand
  rw [cutField_two ha hb] at hpriority
  have hline : List.intercalate [' '] ((words pair.line).map named) = pair.line := by
    rw [hparts, hcommand, hpriority, Assignment.line]
  have hwords : (words pair.line).map named = words pair.line := by
    rw [← fields_intercalate_words (s := ' ') rfl hnamed, hline]
    rfl
  intro w hw
  have hself : named w = w := List.map_inj_left.mp (hwords.trans (List.map_id _).symm) w hw
  by_contra hpattern
  rw [Bool.not_eq_false] at hpattern
  rw [named, hpattern, if_pos rfl] at hself
  have hlength := congrArg List.length hself
  simp at hlength

theorem fieldsOf_of_roundTrip {pairs : List Assignment} (h : RoundTrip pairs) (directory : Directory) :
    ∀ pair ∈ pairs, fieldsOf directory (scan pair.line).1 = pair.key := by
  apply fieldsOf_read
  have hrun := h ⟨none, none⟩ (fun _ => ⟨directory, directory, []⟩) rfl
  rw [execute, if_neg ((HandlerError.test_exit_ne_iff _).mpr rfl), assigned_eq rfl] at hrun
  refine Eq.trans ?_ hrun
  apply List.ext_getElem
  · simp
  · intro i hi hi'
    simp [fieldsOf, start]

theorem roundTrip_iff (pairs : List Assignment) : RoundTrip pairs ↔ ∀ pair ∈ pairs, Survives pair := by
  constructor
  · intro h pair hpair
    obtain ⟨hcommand, hpriority⟩ := Prod.mk.inj (fieldsOf_of_roundTrip h empty pair hpair)
    have hkept := kept_of_cut hcommand hpriority
    have hfields := fieldsOf_of_roundTrip h longer pair hpair
    rw [scan_plain hkept.unescaped] at hfields
    exact ⟨hkept, hkept.literal hfields⟩
  · exact roundTrip_of_survives

/-- A command that mounts a directory of another host. -/
def remote : Assignment := ⟨"mount host:dir /mnt".toList, "5".toList, by decide, by decide⟩

theorem remote_command_cut : ¬ ∀ pairs, RoundTrip pairs := by
  intro h
  have hrun := h [remote] ⟨none, none⟩ (fun _ => ⟨empty, empty, ['0']⟩) rfl
  exact absurd hrun (by decide)

end ProcessPriority

end DeviceDriverTest
