import Mathlib.Data.List.OfFn
import Mathlib.Data.Fin.VecNotation
import Mathlib.Logic.Equiv.Defs

/-! The shared verdict: the store every test makes and the proc entry that
reports it, for threads that each store their own result. -/

namespace DeviceDriverTest

def testPassedInit : Int := -1

structure InitResult where
  testPassed : Int
  returnCode : Int

def setTestPassed (_testPassed passed : Int) : Int := passed

def setTestPassedChain (_testPassed passed : Int) : Int := passed

/-- The text a reader gets, or nothing while it waits for a result. -/
def dmaReadProc (testPassed : Int) : Option String :=
  if testPassed = testPassedInit then none
  else if testPassed ≠ 0 then some "Test PASSED\n" else some "Test FAILED\n"

@[simp] theorem dmaReadProc_passed : dmaReadProc 1 = some "Test PASSED\n" := by decide

@[simp] theorem dmaReadProc_failed : dmaReadProc 0 = some "Test FAILED\n" := by decide

inductive ThreadedTest where
  | dmaThreadAccess
  | dmaChainThreadAccess

def ThreadedTest.store : ThreadedTest → Int → Int → Int
  | .dmaThreadAccess => setTestPassed
  | .dmaChainThreadAccess => setTestPassedChain

/-- `test_passed` after the workers have stored their results one after the
other, each once, in the order in which they finish. -/
def storedVerdict {n : Nat} (test : ThreadedTest) (finish : Equiv.Perm (Fin n))
    (result : Fin n → Bool) : Int :=
  (List.ofFn fun i => result (finish i)).foldl
    (fun testPassed passed => test.store testPassed (if passed then 1 else 0)) testPassedInit

theorem ThreadedTest.store_eq (test : ThreadedTest) (testPassed passed : Int) :
    test.store testPassed passed = passed := by
  cases test <;> rfl

theorem storedVerdict_eq_last {n : Nat} (test : ThreadedTest) (finish : Equiv.Perm (Fin (n + 1)))
    (result : Fin (n + 1) → Bool) :
    storedVerdict test finish result = if result (finish (Fin.last n)) then 1 else 0 := by
  rw [storedVerdict, List.ofFn_succ', List.concat_eq_append, List.foldl_append]
  simp [ThreadedTest.store_eq]

theorem read_passed_iff_last {n : Nat} (test : ThreadedTest) (finish : Equiv.Perm (Fin (n + 1)))
    (result : Fin (n + 1) → Bool) :
    dmaReadProc (storedVerdict test finish result) = some "Test PASSED\n" ↔
      result (finish (Fin.last n)) = true := by
  rw [storedVerdict_eq_last]
  cases result (finish (Fin.last n)) <;> decide

def ReportsConjunction {n : Nat} (test : ThreadedTest) (finish : Equiv.Perm (Fin n))
    (result : Fin n → Bool) : Prop :=
  dmaReadProc (storedVerdict test finish result) = some "Test PASSED\n" ↔ ∀ w, result w = true

/-- The conjunction is reported exactly when no worker failed or the last one
to finish did. -/
theorem reportsConjunction_iff {n : Nat} (test : ThreadedTest) (finish : Equiv.Perm (Fin (n + 1)))
    (result : Fin (n + 1) → Bool) :
    ReportsConjunction test finish result ↔
      (∀ w, result w = true) ∨ result (finish (Fin.last n)) = false := by
  rw [ReportsConjunction, read_passed_iff_last]
  constructor
  · intro h
    cases hl : result (finish (Fin.last n)) with
    | true => exact .inl (h.mp hl)
    | false => exact .inr rfl
  · rintro (hall | hl)
    · exact ⟨fun _ => hall, fun _ => hall _⟩
    · refine ⟨fun h => ?_, fun hall => hall _⟩
      rw [hl] at h
      contradiction

/-- The first of two workers fails, the second passes and finishes last. -/
theorem failure_overwritten :
    ¬ ReportsConjunction .dmaThreadAccess (Equiv.refl (Fin 2)) ![false, true] ∧
      ¬ ReportsConjunction .dmaChainThreadAccess (Equiv.refl (Fin 2)) ![false, true] := by
  constructor <;> rw [ReportsConjunction, read_passed_iff_last] <;> decide

end DeviceDriverTest
