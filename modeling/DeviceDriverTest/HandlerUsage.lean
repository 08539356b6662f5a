import DeviceDriverTest.HandlerError
import DeviceDriverTest.PathnameExpansion

/-! What the handlers share that check their arguments first: a flag that the checks set, and a
routine that ends the script where the flag is set. -/

namespace DeviceDriverTest

namespace HandlerUsage

open FieldSplitting PathnameExpansion
open TestRunner (Word)
open TestRunnerOptions (isBlank expand)

/-- A word that means itself as a pattern, and that has no end inside. -/
def Wordy (word : Word) : Prop := word ≠ [] ∧ ∀ c ∈ word, c.isAlphanum = true ∨ c = '_'

instance : DecidablePred Wordy := fun word =>
  decidable_of_iff (word ≠ [] ∧ (word.all fun c => c.isAlphanum || c == '_') = true) (by simp [Wordy])

def echo (words : List Word) : Word := List.intercalate [' '] words

/-- What the scripts find: the files, the answers of `test`, with a no for an error, and the number that
`grep -wc` prints for its arguments and a text, if it prints one. -/
structure Shell where
  directory : Directory
  test : List Word → Bool
  count : List Word → Word → Option Nat
  test_equal : ∀ first second, test [first, "=".toList, second] = decide (first = second)
  count_word : ∀ word words, Wordy word → (∀ w ∈ words, Wordy w) →
    count [word] (echo words) = some (if word ∈ words then 1 else 0)

structure State (κ : Type) where
  error_val : Bool
  calls : List κ

/-- A check or a call lets the script go on, or ends it with the error logged. -/
inductive Flow (κ : Type)
  | goesOn (s : State κ)
  | exits (s : State κ)

variable {κ : Type}

def Flow.andThen : Flow κ → (State κ → Flow κ) → Flow κ
  | .goesOn s, next => next s
  | .exits s, _ => .exits s

def Flow.calls : Flow κ → List κ
  | .goesOn s | .exits s => s.calls

def verifyErrorFlag (s : State κ) : Flow κ := if s.error_val then .exits s else .goesOn s

/-- The scripts have no function of this name: the shell says so and goes on, with the flag as it was. -/
def generalUsage (s : State κ) : State κ := s

def check (passes : Bool) (s : State κ) : Flow κ := if passes then .goesOn s else verifyErrorFlag (generalUsage s)

/-- The number of lines with the operand is not seen to differ from one. -/
def countsOne (sh : Shell) (words : List Word) (operand : Word) : Bool :=
  match sh.count [operand] (echo words) with
  | some n => n = 1
  | none => true

def perform (call : κ) (s : State κ) : Flow κ := .goesOn { s with calls := s.calls ++ [call] }

/-- A call of a function that sets the flag where it fails, and the routine after it. -/
def verified (call : κ) (succeeds : Bool) (s : State κ) : Flow κ :=
  verifyErrorFlag ⟨s.error_val || !succeeds, s.calls ++ [call]⟩

/-- `[ $operand = "text" ]`. -/
def equals (sh : Shell) (operand text : Word) : Bool := sh.test (expand sh.directory.names operand ++ ["=".toList, text])

structure End (κ : Type) where
  status : Nat
  files : HandlerError.Files String
  calls : List κ

def finish (handler : String) (files : HandlerError.Files String) : Flow κ → End κ
  | .goesOn s => ⟨if s.error_val then 1 else 0, files, s.calls⟩
  | .exits s => ⟨1, HandlerError.log files HandlerError.failed .halt handler, s.calls⟩

/-- The script acts just on the arguments of the grammar, and ends with an error logged on the others. -/
structure AsClaimed (grammar : Prop) (handler : String) (e : End κ) : Prop where
  acts : e.calls ≠ [] ↔ grammar
  rejects : ¬ grammar → e.status = 1 ∧ e.files.halt = some handler ∧ e.calls = []

def operand (argv : List Word) (i : Nat) : Word := argv.getD i []

variable {grammar : Prop} {handler : String} {files : HandlerError.Files String}

theorem check_goesOn {s : State κ} (h : s.error_val = false) (passes : Bool) : check passes s = .goesOn s := by
  cases passes with
  | true => rfl
  | false => rw [check, if_neg Bool.false_ne_true, generalUsage, verifyErrorFlag, h, if_neg Bool.false_ne_true]

theorem verifyErrorFlag_calls (s : State κ) : (verifyErrorFlag s).calls = s.calls := by
  unfold verifyErrorFlag
  split
  · rfl
  · rfl

theorem verified_calls (call : κ) (succeeds : Bool) (s : State κ) : (verified call succeeds s).calls ≠ [] := by
  rw [verified, verifyErrorFlag_calls]
  simp

theorem perform_calls (call : κ) (s : State κ) : (perform call s).calls ≠ [] := by
  simp [perform, Flow.calls]

theorem andThen_calls {flow : Flow κ} {next : State κ → Flow κ} (h : flow.calls ≠ [])
    (hnext : ∀ s, s.calls ≠ [] → (next s).calls ≠ []) : (flow.andThen next).calls ≠ [] := by
  cases flow with
  | goesOn s => exact hnext s h
  | exits s => exact h

/-- Once it acts, the arguments have to be those of the grammar. -/
theorem asClaimed_acts {flow : Flow κ} (h : flow.calls ≠ []) :
    AsClaimed grammar handler (finish handler files flow) ↔ grammar := by
  have hcalls : (finish handler files flow).calls ≠ [] := by
    cases flow with
    | goesOn s => exact h
    | exits s => exact h
  constructor
  · intro hclaimed
    exact hclaimed.acts.mp hcalls
  · intro hgrammar
    exact ⟨iff_of_true hcalls hgrammar, fun hnot => absurd hgrammar hnot⟩

theorem asClaimed_silent : ¬ AsClaimed grammar handler (finish handler files (.goesOn (⟨false, []⟩ : State κ))) := by
  intro h
  by_cases hgrammar : grammar
  · exact h.acts.mpr hgrammar rfl
  · exact absurd (h.rejects hgrammar).1 Nat.zero_ne_one

theorem asClaimed_exits {error_val : Bool} :
    AsClaimed grammar handler (finish handler files (.exits (⟨error_val, []⟩ : State κ))) ↔ ¬ grammar := by
  constructor
  · intro h hgrammar
    exact h.acts.mpr hgrammar rfl
  · intro hgrammar
    exact ⟨iff_of_false (fun h => h rfl) hgrammar, fun _ => ⟨rfl, rfl, rfl⟩⟩

/-! Words that the shell leaves as they are. -/

theorem isPattern_of_chars {word : Word} (h : ∀ c ∈ word, c ∉ ['*', '?', '[']) : isPattern word = false := by
  induction word with
  | nil => rfl
  | cons c cs ih =>
    have hc := h c List.mem_cons_self
    simp only [List.mem_cons, List.not_mem_nil, or_false, not_or] at hc
    rw [isPattern, ih fun d hd => h d (List.mem_cons_of_mem c hd)]
    simp [hc]

theorem Wordy.char {word : Word} (h : Wordy word) {c : Char} (hc : c ∈ word) : isBlank c = false ∧ c ∉ ['*', '?', '['] := by
  have hchar := h.2 c hc
  constructor
  · by_contra hblank
    rw [Bool.not_eq_false, isBlank, Bool.or_eq_true, Bool.or_eq_true, decide_eq_true_eq, decide_eq_true_eq,
      decide_eq_true_eq] at hblank
    obtain (rfl | rfl) | rfl := hblank
    · exact absurd hchar (by decide)
    · exact absurd hchar (by decide)
    · exact absurd hchar (by decide)
  · intro hmem
    simp only [List.mem_cons, List.not_mem_nil, or_false] at hmem
    obtain rfl | rfl | rfl := hmem
    · exact absurd hchar (by decide)
    · exact absurd hchar (by decide)
    · exact absurd hchar (by decide)

theorem Wordy.expand {word : Word} (h : Wordy word) (directory : Directory) :
    TestRunnerOptions.expand directory.names word = [word] := by
  rw [TestRunnerOptions.expand, fields_word h.1 fun c hc => (h.char hc).1]
  apply literal_names
  intro w hw
  rw [List.mem_singleton.mp hw]
  exact isPattern_of_chars fun c hc => (h.char hc).2

theorem Wordy.equals {word : Word} (h : Wordy word) (sh : Shell) (text : Word) :
    HandlerUsage.equals sh word text = decide (word = text) := by
  rw [HandlerUsage.equals, h.expand, List.singleton_append, sh.test_equal]

end HandlerUsage

end DeviceDriverTest
