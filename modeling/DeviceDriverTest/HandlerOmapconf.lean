import DeviceDriverTest.AndroidPM

/-! The handler that runs `omapconf` or compares its logs, and the arguments that it and the handler
of the Android system act on. -/

namespace DeviceDriverTest

namespace HandlerOmapconf

open FieldSplitting PathnameExpansion HandlerUsage
open TestRunner (Word)
open TestRunnerOptions (expand)

inductive Call
  | omapconf (omapconf_params : String)
  | compareOmapconfResults (domain log_one log_two compare_flag : Word)

def omapconf_audit : List Word := ["VOLTAGE".toList, "FREQUENCY".toList, "CLOCKS".toList]

/-- The files, the text that the elements of an array are printed as, and whether a comparison sets the flag. -/
structure Host extends Shell where
  isFile : Word → Bool
  omapconf_tool : Word
  elements : Word → Word
  failed : Call → Bool
  test_file : ∀ file, test ["!".toList, "-f".toList, file] = !isFile file
  elements_audit : elements "omapconf_audit".toList = echo omapconf_audit

variable (host : Host)

/-- The number of lines in which `grep` finds the first of the parameters. These are the words of an operand
without quotes, and the name of the array behind them. -/
def declarations (domain array_name : Word) : Option Nat :=
  let parameters := expand host.directory.names domain ++ [array_name]
  host.count (expand host.directory.names (operand parameters 0)) (host.elements (operand parameters 1))

def checkParamInArray (domain array_name : Word) (s : State Call) : State Call :=
  if declarations host domain array_name = some 0 then { s with error_val := true } else s

def missing (file : Word) : Bool :=
  host.test ("!".toList :: "-f".toList :: expand host.directory.names file)

def verifyFiles (log_one log_two : Word) (s : State Call) : State Call :=
  let files := expand host.directory.names log_one ++ expand host.directory.names log_two
  if files.any (missing host) then { s with error_val := true } else s

def flags : List Word := ["match".toList, "differ".toList]

def checkFlag (compare_flag : Word) (s : State Call) : Flow Call :=
  if countsOne host.toShell flags compare_flag then .goesOn s else verifyErrorFlag { s with error_val := true }

def checkArguments (argv : List Word) (s : State Call) : Flow Call :=
  if operand argv 0 = "run".toList ∧ argv.length = 2 then
    verifyErrorFlag (checkParamInArray host (operand argv 1) "omapconf_audit".toList s)
  else if operand argv 0 = "compare".toList ∧ argv.length = 5 then
    (verifyErrorFlag (checkParamInArray host (operand argv 1) "omapconf_audit".toList s)).andThen fun s =>
    (verifyErrorFlag (verifyFiles host (operand argv 2) (operand argv 3) s)).andThen fun s =>
    checkFlag host (operand argv 4) s
  else check false s

def checkTool (s : State Call) : Flow Call :=
  if host.isFile host.omapconf_tool then .goesOn s else verifyErrorFlag { s with error_val := true }

def omapconf_params (domain : Word) : String :=
  if domain = "FREQUENCY".toList then "opp"
  else if domain = "CLOCKS".toList then "audit clkspeed"
  else if domain = "VOLTAGE".toList then "opp"
  else ""

def operate (argv : List Word) (s : State Call) : Flow Call :=
  (check (operand argv 1 ∈ omapconf_audit) s).andThen fun s =>
  if operand argv 0 = "run".toList then perform (.omapconf (omapconf_params (operand argv 1))) s
  else if operand argv 0 = "compare".toList then
    let call := Call.compareOmapconfResults (operand argv 1) (operand argv 2) (operand argv 3) (operand argv 4)
    verified call (!host.failed call) s
  else check false s

def handler : String := "handlerOmapconf.sh"

def main (files : HandlerError.Files String) (argv : List Word) : End Call :=
  if (HandlerError.test files).exit = 1 then ⟨1, files, []⟩
  else finish handler files (((checkArguments host argv ⟨false, []⟩).andThen (checkTool host)).andThen (operate host argv))

/-- The usage text, with logs that are there. -/
inductive InGrammar : List Word → Prop
  | run {function : Word} (hfunction : function ∈ omapconf_audit) : InGrammar ["run".toList, function]
  | compare {function log_one log_two flag : Word} (hfunction : function ∈ omapconf_audit)
      (hone : host.isFile log_one = true) (htwo : host.isFile log_two = true) (hflag : flag ∈ flags) :
      InGrammar ["compare".toList, function, log_one, log_two, flag]

/-- `grep` does not find the function among the known ones. -/
def Undeclared (domain : Word) : Prop := declarations host domain "omapconf_audit".toList = some 0

/-- One of the words that the shell makes of the names of the logs is no file. -/
def Missing (log_one log_two : Word) : Prop :=
  ∃ file ∈ expand host.directory.names log_one ++ expand host.directory.names log_two, missing host file = true

/-- `grep` finds the flag in another number of lines than one. -/
def Miscounted (flag : Word) : Prop := countsOne host.toShell flags flag = false

/-- The checks that work: with the number of arguments that the usage text gives for the command. -/
inductive Rejected : List Word → Prop
  | run {domain : Word} (h : Undeclared host domain) : Rejected ["run".toList, domain]
  | compare {domain log_one log_two flag : Word}
      (h : Undeclared host domain ∨ Missing host log_one log_two ∨ Miscounted host flag) :
      Rejected ["compare".toList, domain, log_one, log_two, flag]

/-- The checks that the script makes are those that it should make. -/
def Suitable (argv : List Word) : Prop :=
  (InGrammar host argv ∧ ¬ Missing host (operand argv 2) (operand argv 3)) ∨ (¬ InGrammar host argv ∧ Rejected host argv)

variable {host} {argv : List Word} {files : HandlerError.Files String}

/-! What the grammar has to get through. -/

theorem wordy_audit : ∀ function ∈ omapconf_audit, Wordy function := by decide

theorem wordy_flags : ∀ flag ∈ flags, Wordy flag := by decide

theorem undeclared_iff {function : Word} (h : Wordy function) :
    Undeclared host function ↔ function ∉ omapconf_audit := by
  have hcount : declarations host function "omapconf_audit".toList =
      host.count [function] (host.elements "omapconf_audit".toList) := by
    rw [declarations, h.expand]
    change host.count (expand host.directory.names function) _ = _
    rw [h.expand]
    rfl
  rw [Undeclared, hcount, host.elements_audit, host.count_word function _ h wordy_audit]
  simp

theorem miscounted_iff {flag : Word} (h : Wordy flag) : Miscounted host flag ↔ flag ∉ flags := by
  rw [Miscounted, countsOne, host.count_word flag _ h wordy_flags]
  simp

theorem not_missing_nil : ¬ Missing host [] [] := by
  rintro ⟨file, hfile, -⟩
  cases hfile

theorem InGrammar.rejected_iff (h : InGrammar host argv) :
    Rejected host argv ↔ Missing host (operand argv 2) (operand argv 3) := by
  cases h with
  | run hfunction =>
    apply iff_of_false
    · intro hrejected
      cases hrejected with
      | run hundeclared => exact (undeclared_iff (wordy_audit _ hfunction)).mp hundeclared hfunction
    · exact not_missing_nil
  | compare hfunction hone htwo hflag =>
    constructor
    · intro hrejected
      cases hrejected with
      | compare hrejected =>
        obtain hundeclared | hmissing | hmiscounted := hrejected
        · exact absurd hfunction ((undeclared_iff (wordy_audit _ hfunction)).mp hundeclared)
        · exact hmissing
        · exact absurd hflag ((miscounted_iff (wordy_flags _ hflag)).mp hmiscounted)
    · intro hmissing
      exact Rejected.compare (Or.inr (Or.inl hmissing))

theorem InGrammar.operation (h : InGrammar host argv) :
    operand argv 0 = "run".toList ∨ operand argv 0 = "compare".toList := by
  cases h with
  | run => exact Or.inl rfl
  | compare => exact Or.inr rfl

/-! What the checks let through. -/

/-- The checks end the script with nothing done, or leave it as it was. -/
structure Decides (flow : Flow Call) (rejected : Prop) : Prop where
  exits : rejected → ∃ error_val, flow = .exits ⟨error_val, []⟩
  goesOn : ¬ rejected → flow = .goesOn ⟨false, []⟩

theorem decides_set (rejected : Prop) [Decidable rejected] :
    Decides (verifyErrorFlag (if rejected then ⟨true, []⟩ else ⟨false, []⟩)) rejected := by
  constructor
  · intro hrejected
    rw [if_pos hrejected]
    exact ⟨true, rfl⟩
  · intro hpasses
    rw [if_neg hpasses]
    rfl

theorem decides_checkParamInArray (domain : Word) :
    Decides (verifyErrorFlag (checkParamInArray host domain "omapconf_audit".toList ⟨false, []⟩))
      (Undeclared host domain) := decides_set (declarations host domain "omapconf_audit".toList = some 0)

theorem decides_verifyFiles (log_one log_two : Word) :
    Decides (verifyErrorFlag (verifyFiles host log_one log_two ⟨false, []⟩)) (Missing host log_one log_two) := by
  rw [Missing, ← List.any_eq_true]
  apply decides_set

theorem decides_checkFlag (flag : Word) : Decides (checkFlag host flag ⟨false, []⟩) (Miscounted host flag) := by
  unfold checkFlag Miscounted
  cases countsOne host.toShell flags flag with
  | true => exact ⟨fun h => absurd h (by decide), fun _ => rfl⟩
  | false => exact ⟨fun _ => ⟨true, rfl⟩, fun h => absurd rfl h⟩

theorem Decides.andThen {flow : Flow Call} {next : State Call → Flow Call} {rejected rejected' : Prop}
    (h : Decides flow rejected) (hnext : Decides (next ⟨false, []⟩) rejected') :
    Decides (flow.andThen next) (rejected ∨ rejected') := by
  by_cases hrejected : rejected
  · obtain ⟨error_val, hexits⟩ := h.exits hrejected
    rw [hexits]
    exact ⟨fun _ => ⟨error_val, rfl⟩, fun hnot => absurd (Or.inl hrejected) hnot⟩
  · rw [h.goesOn hrejected, or_iff_right hrejected]
    exact hnext

theorem rejected_run_iff {domain : Word} : Rejected host ["run".toList, domain] ↔ Undeclared host domain := by
  constructor
  · intro h
    cases h with
    | run hundeclared => exact hundeclared
  · exact Rejected.run

theorem rejected_compare_iff {domain log_one log_two flag : Word} :
    Rejected host ["compare".toList, domain, log_one, log_two, flag] ↔
      Undeclared host domain ∨ Missing host log_one log_two ∨ Miscounted host flag := by
  constructor
  · intro h
    cases h with
    | compare hrejected => exact hrejected
  · exact Rejected.compare

theorem decides_checkArguments (argv : List Word) :
    Decides (checkArguments host argv ⟨false, []⟩) (Rejected host argv) := by
  by_cases hrun : operand argv 0 = "run".toList ∧ argv.length = 2
  · obtain ⟨command, domain, rfl⟩ := List.length_eq_two.mp hrun.2
    obtain rfl : command = "run".toList := hrun.1
    rw [checkArguments, if_pos hrun, rejected_run_iff]
    apply decides_checkParamInArray
  by_cases hcompare : operand argv 0 = "compare".toList ∧ argv.length = 5
  · obtain ⟨command, rest, rfl⟩ := List.exists_cons_of_length_eq_add_one hcompare.2
    obtain ⟨domain, log_one, log_two, flag, rfl⟩ := List.length_eq_four.mp (Nat.succ.inj hcompare.2)
    obtain rfl : command = "compare".toList := hcompare.1
    rw [checkArguments, if_neg hrun, if_pos hcompare, rejected_compare_iff]
    apply (decides_checkParamInArray domain).andThen
    apply (decides_verifyFiles log_one log_two).andThen
    apply decides_checkFlag
  · rw [checkArguments, if_neg hrun, if_neg hcompare, check_goesOn rfl]
    refine ⟨fun h => ?_, fun _ => rfl⟩
    cases h with
    | run => exact absurd ⟨rfl, rfl⟩ hrun
    | compare => exact absurd ⟨rfl, rfl⟩ hcompare

/-! Where the script acts. -/

theorem operate_calls (h : operand argv 0 = "run".toList ∨ operand argv 0 = "compare".toList) :
    (operate host argv ⟨false, []⟩).calls ≠ [] := by
  rw [operate, check_goesOn rfl, Flow.andThen]
  split
  · apply perform_calls
  next hrun =>
    rw [if_pos (h.resolve_left hrun)]
    apply verified_calls

theorem operate_silent (hrun : operand argv 0 ≠ "run".toList) (hcompare : operand argv 0 ≠ "compare".toList) :
    operate host argv ⟨false, []⟩ = .goesOn ⟨false, []⟩ := by
  rw [operate, check_goesOn rfl, Flow.andThen, if_neg hrun, if_neg hcompare, check_goesOn rfl]

theorem main_iff (hgate : files.halt = none) (htool : host.isFile host.omapconf_tool = true) :
    AsClaimed (InGrammar host argv) handler (main host files argv) ↔ Suitable host argv := by
  rw [main, if_neg ((HandlerError.test_exit_ne_iff files).mpr hgate)]
  have hdecides := @decides_checkArguments host argv
  by_cases hrejected : Rejected host argv
  · obtain ⟨error_val, hexits⟩ := hdecides.exits hrejected
    rw [hexits]
    refine asClaimed_exits.trans ?_
    constructor
    · intro hgrammar
      exact Or.inr ⟨hgrammar, hrejected⟩
    · rintro (⟨hgrammar, hmissing⟩ | ⟨hgrammar, -⟩)
      · exact absurd (hgrammar.rejected_iff.mp hrejected) hmissing
      · exact hgrammar
  · have hsuitable : Suitable host argv ↔ InGrammar host argv := by
      constructor
      · rintro (⟨hgrammar, -⟩ | ⟨-, hrejects⟩)
        · exact hgrammar
        · exact absurd hrejects hrejected
      · intro hgrammar
        exact Or.inl ⟨hgrammar, mt hgrammar.rejected_iff.mpr hrejected⟩
    rw [hdecides.goesOn hrejected, hsuitable, Flow.andThen, checkTool, if_pos htool, Flow.andThen]
    by_cases hoperation : operand argv 0 = "run".toList ∨ operand argv 0 = "compare".toList
    · exact asClaimed_acts (operate_calls hoperation)
    · rw [not_or] at hoperation
      rw [operate_silent hoperation.1 hoperation.2]
      apply iff_of_false asClaimed_silent
      intro hgrammar
      obtain hrun | hcompare := hgrammar.operation
      · exact hoperation.1 hrun
      · exact hoperation.2 hcompare

/-! Both scripts. -/

inductive Script
  | androidPM
  | omapconf

/-- The script acts on the arguments of its usage text, and on no others. -/
def Obeys (android : AndroidPM.Host) (host : Host) (files : HandlerError.Files String) (argv : List Word) : Script → Prop
  | .androidPM => AsClaimed (AndroidPM.InGrammar argv) AndroidPM.handler (AndroidPM.main android files argv)
  | .omapconf => AsClaimed (InGrammar host argv) handler (main host files argv)

def Fits (android : AndroidPM.Host) (host : Host) (argv : List Word) : Script → Prop
  | .androidPM => AndroidPM.InGrammar argv ∨ AndroidPM.Unnumbered android argv
  | .omapconf => Suitable host argv

def isTool (file : Word) : Bool := file = "omapconf".toList

/-- A shell that finds no file but the tool, with the two kinds of tests that the scripts make. -/
def bare : Shell where
  directory := empty
  test
    | [first, operator, second] =>
      if operator = "=".toList then first = second
      else first = "!".toList ∧ operator = "-f".toList ∧ isTool second = false
    | _ => false
  count
    | [word], text => some (if word ∈ fields TestRunnerOptions.isBlank text then 1 else 0)
    | _, _ => none
  test_equal _ _ := rfl
  count_word word words _ hwords := by
    have hfields : fields TestRunnerOptions.isBlank (echo words) = words :=
      fields_intercalate_words rfl fun w hw => ⟨(hwords w hw).1, fun c hc => ((hwords w hw).char hc).1⟩
    dsimp only
    rw [hfields]

def phone : AndroidPM.Host := ⟨bare, fun _ => true, fun _ => true, fun _ => true, []⟩

def board : Host where
  toShell := bare
  isFile := isTool
  omapconf_tool := "omapconf".toList
  elements _ := echo omapconf_audit
  failed _ := false
  test_file file := by simp [bare]
  elements_audit := rfl

end HandlerOmapconf

end DeviceDriverTest
