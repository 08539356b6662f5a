import DeviceDriverTest.HandlerError
import DeviceDriverTest.TestRunner
import DeviceDriverTest.TextSearch

/-! The handler that runs `memtester` and looks for its tests in the log. -/

namespace DeviceDriverTest

namespace MemTester

open TestRunner (Word)
open TextSearch

inductive Test
  | stuckAddress
  | randomValue
  | compareXor
  | compareSub
  | compareMul
  | compareDiv
  | compareOr
  | compareAnd
  | sequentialIncrement
  | solidBits
  | blockSequential
  | checkerboard
  | bitSpread
  | bitFlip
  | walkingOnes
  | walkingZeroes
  deriving DecidableEq

def Test.name : Test → Word
  | .stuckAddress => "Stuck Address".toList
  | .randomValue => "Random Value".toList
  | .compareXor => "Compare XOR".toList
  | .compareSub => "Compare SUB".toList
  | .compareMul => "Compare MUL".toList
  | .compareDiv => "Compare DIV".toList
  | .compareOr => "Compare OR".toList
  | .compareAnd => "Compare AND".toList
  | .sequentialIncrement => "Sequential Increment".toList
  | .solidBits => "Solid Bits".toList
  | .blockSequential => "Block Sequential".toList
  | .checkerboard => "Checkerboard".toList
  | .bitSpread => "Bit Spread".toList
  | .bitFlip => "Bit Flip".toList
  | .walkingOnes => "Walking Ones".toList
  | .walkingZeroes => "Walking Zeroes".toList

/-- In the order of the fields, which is that of a loop. -/
def tests : List Test :=
  [.stuckAddress, .randomValue, .compareXor, .compareSub, .compareMul, .compareDiv, .compareOr, .compareAnd,
    .sequentialIncrement, .solidBits, .blockSequential, .checkerboard, .bitSpread, .bitFlip, .walkingOnes, .walkingZeroes]

def Test.index : Test → Nat
  | .stuckAddress => 0
  | .randomValue => 1
  | .compareXor => 2
  | .compareSub => 3
  | .compareMul => 4
  | .compareDiv => 5
  | .compareOr => 6
  | .compareAnd => 7
  | .sequentialIncrement => 8
  | .solidBits => 9
  | .blockSequential => 10
  | .checkerboard => 11
  | .bitSpread => 12
  | .bitFlip => 13
  | .walkingOnes => 14
  | .walkingZeroes => 15

def memTesterFields : List Word := tests.map Test.name

def ok : Word := "ok".toList

/-- What memtester prints between the name of a test and its result. -/
def Quiet (progress : Word) : Prop := (∀ c ∈ progress, c.isUpper = false) ∧ ¬ ok <:+: progress

/-- A run of memtester: `executed` tests, loop by loop, and then it stops. -/
structure Run where
  loops : Nat
  executed : Nat
  passed : Nat → Test → Bool
  progress : Nat → Test → Word
  /-- What is printed before the line of a test, or at last. -/
  other : Nat → List Word
  some : 0 < loops
  most : executed ≤ loops * 16
  quiet : ∀ loop t, Quiet (progress loop t)
  unnamed : ∀ i, ∀ line ∈ other i, ∀ t : Test, ¬ t.name <:+: line

def label (t : Test) : Word := "  ".toList ++ t.name ++ List.replicate (20 - t.name.length) ' '

def testLine (t : Test) (progress : Word) (passed : Bool) : Word :=
  label t ++ ':' :: ' ' :: (progress ++ if passed then ok else [])

def testAt (i : Nat) : Test := tests.get ⟨i % 16, Nat.mod_lt i (by decide)⟩

def Run.line (run : Run) (i : Nat) : Word :=
  testLine (testAt i) (run.progress (i / 16) (testAt i)) (run.passed (i / 16) (testAt i))

def Run.log (run : Run) : List Word :=
  ((List.range run.executed).flatMap fun i => run.other i ++ [run.line i]) ++ run.other run.executed

def grep (pattern : Word) (lines : List Word) : List Word := lines.filter fun line => decide (pattern <:+: line)

/-- The loop over the fields. -/
def verdict (log : List Word) : List Word → Nat
  | [] => 0
  | field :: fields => if (grep ok (grep field log)).isEmpty then 1 else verdict log fields

structure Report where
  status : Nat
  /-- How many tests memtester executed. -/
  executed : Nat

def runHandler (files : HandlerError.Files String) (run : Run) : Report :=
  if (HandlerError.test files).exit = 1 then ⟨1, 0⟩ else ⟨verdict run.log memTesterFields, run.executed⟩

/-! What the lines tell. -/

theorem mem_tests (t : Test) : t ∈ tests := by cases t <;> decide

theorem index_testAt (i : Nat) : (testAt i).index = i % 16 := by
  have hindex : ∀ r : Fin 16, (tests.get r).index = r := by decide
  exact hindex ⟨i % 16, Nat.mod_lt i (by decide)⟩

theorem index_lt (t : Test) : t.index < 16 := by cases t <;> decide

theorem index_injective {t u : Test} (h : t.index = u.index) : t = u := by
  have hall : ∀ t ∈ tests, ∀ u ∈ tests, t.index = u.index → t = u := by decide
  exact hall t (mem_tests t) u (mem_tests u) h

theorem testAt_index (loop : Nat) (t : Test) : testAt (loop * 16 + t.index) = t := by
  apply index_injective
  rw [index_testAt]
  have hlt := index_lt t
  omega

theorem name_infix_label_iff (t u : Test) : u.name <:+: label t ↔ u = t := by
  have hall : ∀ t ∈ tests, ∀ u ∈ tests, u.name <:+: label t ↔ u = t := by decide +kernel
  exact hall t (mem_tests t) u (mem_tests u)

theorem not_ok_infix_label (t : Test) : ¬ ok <:+: label t := by
  cases t <;> decide

theorem isUpper_result (passed : Bool) : ∀ c ∈ (if passed then ok else []), c.isUpper = false := by
  cases passed with
  | false =>
    intro c hc
    cases hc
  | true =>
    have hall : (ok.all fun c => !c.isUpper) = true := by decide
    simpa using hall

/-- The line of a test has its own name and no other. -/
theorem name_infix_line_iff (t u : Test) {progress : Word} (h : Quiet progress) (passed : Bool) :
    u.name <:+: testLine t progress passed ↔ u = t := by
  have hcolon : ':' ∉ u.name := by cases u <;> decide
  have hupper : u.name.any Char.isUpper = true := by cases u <;> decide
  rw [List.any_eq_true] at hupper
  obtain ⟨c, hc, hupper⟩ := hupper
  rw [testLine, infix_append_cons_iff hcolon, name_infix_label_iff]
  apply or_iff_left
  apply not_infix_of_notMem hc
  intro hmem
  have hlower : c.isUpper = false := by
    obtain rfl | hmem := List.mem_cons.mp hmem
    · rfl
    · obtain hmem | hmem := List.mem_append.mp hmem
      · exact h.1 c hmem
      · exact isUpper_result passed c hmem
  exact Bool.false_ne_true (hlower.symm.trans hupper)

theorem ok_infix_line_iff (t : Test) {progress : Word} (h : Quiet progress) (passed : Bool) :
    ok <:+: testLine t progress passed ↔ passed = true := by
  have hcolon : ':' ∉ ok := by decide
  have hblank : ' ' ∉ ok := by decide
  rw [testLine, infix_append_cons_iff hcolon, or_iff_right (not_ok_infix_label t), ← List.nil_append (' ' :: _),
    infix_append_cons_iff hblank, or_iff_right (by decide)]
  cases passed with
  | true =>
    rw [if_pos rfl]
    exact iff_of_true (List.infix_append_of_infix_right List.infix_rfl) rfl
  | false =>
    rw [if_neg Bool.false_ne_true, List.append_nil]
    exact iff_of_false h.2 Bool.false_ne_true

theorem verdict_eq_zero_iff (log fields : List Word) :
    verdict log fields = 0 ↔ ∀ field ∈ fields, ∃ line ∈ log, field <:+: line ∧ ok <:+: line := by
  induction fields with
  | nil => simp [verdict]
  | cons field fields ih =>
    rw [verdict, List.forall_mem_cons, ← ih]
    cases hgrep : grep ok (grep field log) with
    | nil =>
      rw [List.isEmpty_nil, if_pos rfl]
      refine iff_of_false Nat.one_ne_zero ?_
      rintro ⟨⟨line, hline, hfield, hok⟩, -⟩
      have hmem : line ∈ grep ok (grep field log) := by simp [grep, hline, hfield, hok]
      rw [hgrep] at hmem
      exact List.not_mem_nil hmem
    | cons line lines =>
      rw [List.isEmpty_cons, if_neg Bool.false_ne_true]
      apply (and_iff_right _).symm
      have hmem : line ∈ grep ok (grep field log) := by
        rw [hgrep]
        exact List.mem_cons_self
      simp only [grep, List.mem_filter, decide_eq_true_eq] at hmem
      exact ⟨line, hmem.1.1, hmem.1.2, hmem.2⟩

/-- The test was executed in the loop, and passed there. -/
def Run.PassedIn (run : Run) (loop : Nat) (t : Test) : Prop :=
  loop * 16 + t.index < run.executed ∧ run.passed loop t = true

/-- A test has a line with its name and `ok` when it passed in some loop. -/
theorem Run.exists_line_iff (run : Run) (t : Test) :
    (∃ line ∈ run.log, t.name <:+: line ∧ ok <:+: line) ↔ ∃ loop, run.PassedIn loop t := by
  constructor
  · rintro ⟨text, htext, hname, hok⟩
    obtain htext | htext := List.mem_append.mp htext
    · obtain ⟨i, hi, htext⟩ := List.mem_flatMap.mp htext
      obtain htext | htext := List.mem_append.mp htext
      · exact absurd hname (run.unnamed i text htext t)
      · rw [List.mem_singleton.mp htext, Run.line] at hname hok
        obtain rfl := (name_infix_line_iff _ _ (run.quiet _ _) _).mp hname
        have hpassed := (ok_infix_line_iff _ (run.quiet _ _) _).mp hok
        refine ⟨i / 16, ?_, hpassed⟩
        rw [index_testAt]
        have hlt := List.mem_range.mp hi
        omega
    · exact absurd hname (run.unnamed _ text htext t)
  · rintro ⟨loop, hlt, hpassed⟩
    have hloop : (loop * 16 + t.index) / 16 = loop := by
      have hindex := index_lt t
      omega
    have hline : run.line (loop * 16 + t.index) = testLine t (run.progress loop t) true := by
      rw [Run.line, testAt_index, hloop, hpassed]
    refine ⟨testLine t (run.progress loop t) true, ?_, ?_, ?_⟩
    · apply List.mem_append_left
      refine List.mem_flatMap.mpr ⟨loop * 16 + t.index, List.mem_range.mpr hlt, ?_⟩
      rw [hline]
      exact List.mem_append_right _ List.mem_cons_self
    · exact (name_infix_line_iff t t (run.quiet loop t) true).mpr rfl
    · exact (ok_infix_line_iff t (run.quiet loop t) true).mpr rfl

theorem Run.verdict_iff (run : Run) :
    verdict run.log memTesterFields = 0 ↔ ∀ t, ∃ loop, run.PassedIn loop t := by
  rw [verdict_eq_zero_iff, memTesterFields, List.forall_mem_map]
  constructor
  · intro h t
    exact (run.exists_line_iff t).mp (h t (mem_tests t))
  · intro h t _
    exact (run.exists_line_iff t).mpr (h t)

/-- Every test passed in every loop that was asked for, of those that the handler had executed. -/
def AllPassed (run : Run) (report : Report) : Prop :=
  ∀ loop < run.loops, ∀ t : Test, loop * 16 + t.index < report.executed ∧ run.passed loop t = true

def VerdictRight (files : HandlerError.Files String) (run : Run) : Prop :=
  (runHandler files run).status = 0 ↔ AllPassed run (runHandler files run)

/-- The verdict is right exactly when, behind an open latch, tests that have all passed at some time
have passed in every loop. -/
theorem verdictRight_iff (files : HandlerError.Files String) (run : Run) : VerdictRight files run ↔
    (files.halt = none → (∀ t, ∃ loop, run.PassedIn loop t) → ∀ loop < run.loops, ∀ t, run.PassedIn loop t) := by
  rw [VerdictRight, runHandler, ← HandlerError.test_exit_ne_iff]
  by_cases hexit : (HandlerError.test files).exit = 1
  · rw [if_pos hexit]
    refine iff_of_true (iff_of_false Nat.one_ne_zero fun h => ?_) fun hopen => absurd hexit hopen
    exact absurd (h 0 run.some .stuckAddress).1 (Nat.not_lt_zero _)
  · rw [if_neg hexit]
    dsimp only
    rw [run.verdict_iff, AllPassed]
    constructor
    · intro h _
      exact h.mp
    · intro h
      refine ⟨h hexit, fun hall t => ⟨0, hall 0 run.some t⟩⟩

/-- The test of the bit patterns fails in the first of two loops. -/
def passesLater : Run where
  loops := 2
  executed := 32
  passed loop t := loop = 1 || t ≠ .solidBits
  progress _ _ := []
  other _ := []
  some := by decide
  most := by decide
  quiet _ _ := ⟨fun _ hc => absurd hc List.not_mem_nil, by decide⟩
  unnamed _ _ hline := absurd hline List.not_mem_nil

theorem passesLater_status : (runHandler HandlerError.clean passesLater).status = 0 := by
  rw [runHandler, if_neg (by decide)]
  dsimp only
  rw [passesLater.verdict_iff]
  intro t
  refine ⟨1, ?_, rfl⟩
  cases t <;> decide

theorem later_pass_hides_failure : ¬ VerdictRight HandlerError.clean passesLater := by
  intro h
  exact absurd (h.mp passesLater_status 0 (by decide) .solidBits).2 (by decide)

end MemTester

end DeviceDriverTest
