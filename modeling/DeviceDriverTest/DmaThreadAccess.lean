import DeviceDriverTest.Polling
import DeviceDriverTest.DmaVerdict
import DeviceDriverTest.DmaSingleChannel

/-! One worker of the threaded single channel test. The error variable that the
set-up loop leaves at zero is what the verdict is read from. -/

namespace DeviceDriverTest

namespace DmaThreadAccess

open SingleChannel

@[reducible] def transferCount : Nat := 13

def bufSize (i : Nat) : Nat := 512 * (i + 1) * (i + 1) + i % 2

/-- What a worker leaves: the verdict it stored, whether it reached the
increment of `count`, and its return code. -/
structure WorkerResult where
  testPassed : Int
  counted : Bool
  returnCode : Int

def FinishesAt (batch : Nat → List (Callback transferCount)) (p : Nat) : Prop :=
  p < transferPollCount ∧ AllCalledBack (Polling.seen batch p) ∧
    ∀ q < p, ¬ AllCalledBack (Polling.seen batch q)

theorem FinishesAt.unique {batch : Nat → List (Callback transferCount)} {p q : Nat}
    (hp : FinishesAt batch p) (hq : FinishesAt batch q) : p = q := by
  rcases Nat.lt_trichotomy p q with h | h | h
  · exact absurd hp.2.1 (hq.2.2 p h)
  · exact h
  · exact absurd hq.2.1 (hp.2.2 q h)

theorem allCalledBack_later {batch : Nat → List (Callback transferCount)} {p : Nat}
    (hp : FinishesAt batch p) : AllCalledBack (Polling.seen batch (p + 1)) := by
  intro k
  obtain ⟨e, he, hk⟩ := hp.2.1 k
  exact ⟨e, (Polling.seen_prefix (Nat.le_succ p)).subset he, hk⟩

section Worker

variable [OmapDma]

def pollLoop (transfers : Fin transferCount → DmaTransfer) (batch : Nat → List (Callback transferCount)) :
    Polling.Outcome (Fin transferCount → DmaTransfer) :=
  Polling.poll getTransfersFinished (KeyedFold.deliver Callback.data dmaCallback) batch transferPollCount
    transfers

def dmaTestEntry (transfers : Fin transferCount → DmaTransfer) (answers : Fin transferCount → SetUpAnswers)
    (batch : Nat → List (Callback transferCount)) (testPassed : Int) : WorkerResult :=
  let (transfers, error) := setUpTransfers bufSize answers transfers
  if error ≠ 0 then ⟨setTestPassed testPassed 0, false, 1⟩
  else
    let error : Int := match pollLoop transfers batch with
      | .found _ transfers => checkDmaTransferComplete transfers
      | .exhausted _ => error
    if error ≠ 0 then ⟨setTestPassed testPassed 0, true, 0⟩ else ⟨setTestPassed testPassed 1, true, 0⟩

/-- The worker got through its set-up, and within its polls every transfer
finished and is correct when the results are scanned. -/
def AllCorrect (transfers : Fin transferCount → DmaTransfer) (answers : Fin transferCount → SetUpAnswers)
    (batch : Nat → List (Callback transferCount)) : Prop :=
  (setUpTransfers bufSize answers transfers).2 = 0 ∧
    ∃ p s, pollLoop (setUpTransfers bufSize answers transfers).1 batch = .found p s ∧
      ∀ k, (s k).finished = true ∧ (s k).dataCorrect = true

def VerdictExact (transfers : Fin transferCount → DmaTransfer) (answers : Fin transferCount → SetUpAnswers)
    (batch : Nat → List (Callback transferCount)) (testPassed : Int) : Prop :=
  (dmaTestEntry transfers answers batch testPassed).testPassed = 1 ↔ AllCorrect transfers answers batch

theorem pollLoop_found_iff {transfers : Fin transferCount → DmaTransfer}
    (h : ∀ k, (transfers k).finished = false) {batch : Nat → List (Callback transferCount)} {p : Nat}
    {s : Fin transferCount → DmaTransfer} :
    pollLoop transfers batch = .found p s ↔ FinishesAt batch p ∧
      s = (Polling.seen batch (p + 1)).foldl (KeyedFold.deliver Callback.data dmaCallback) transfers := by
  have hready : ∀ q, getTransfersFinished ((Polling.seen batch q).foldl
      (KeyedFold.deliver Callback.data dmaCallback) transfers) = true ↔
      AllCalledBack (Polling.seen batch q) := fun q => callbacks_allFinished verifyBuffers h _
  rw [pollLoop, Polling.poll_found_iff, FinishesAt]
  simp only [Polling.stateAt, ← Bool.not_eq_true, hready, and_assoc]

theorem pollLoop_exhausted_of {transfers : Fin transferCount → DmaTransfer}
    (h : ∀ k, (transfers k).finished = false) {batch : Nat → List (Callback transferCount)}
    (hn : ¬ ∃ p, FinishesAt batch p) : ∃ s, pollLoop transfers batch = .exhausted s := by
  cases hp : pollLoop transfers batch with
  | found p s => exact absurd ⟨p, ((pollLoop_found_iff h).mp hp).1⟩ hn
  | exhausted s => exact ⟨s, rfl⟩

/-- A run that times out is recorded as passed: `error` is still the one that
the set-up left. -/
theorem testPassed_of_timeout {transfers : Fin transferCount → DmaTransfer}
    {answers : Fin transferCount → SetUpAnswers} {batch : Nat → List (Callback transferCount)}
    (h : (setUpTransfers bufSize answers transfers).2 = 0) (hn : ¬ ∃ p, FinishesAt batch p)
    (testPassed : Int) : (dmaTestEntry transfers answers batch testPassed).testPassed = 1 := by
  have hfin := setUpTransfers_finished h
  obtain ⟨s, hs⟩ := pollLoop_exhausted_of hfin hn
  simp [dmaTestEntry, h, hs, setTestPassed]

theorem testPassed_of_finishesAt {transfers : Fin transferCount → DmaTransfer}
    {answers : Fin transferCount → SetUpAnswers} {batch : Nat → List (Callback transferCount)}
    (h : (setUpTransfers bufSize answers transfers).2 = 0) {p : Nat} (hp : FinishesAt batch p)
    (testPassed : Int) :
    (dmaTestEntry transfers answers batch testPassed).testPassed = 1 ↔
      checkDmaTransferComplete ((Polling.seen batch (p + 1)).foldl
        (KeyedFold.deliver Callback.data dmaCallback) (setUpTransfers bufSize answers transfers).1) = 0 := by
  have hfin := setUpTransfers_finished h
  have hloop := (pollLoop_found_iff hfin).mpr ⟨hp, rfl⟩
  by_cases hc : checkDmaTransferComplete ((Polling.seen batch (p + 1)).foldl
      (KeyedFold.deliver Callback.data dmaCallback) (setUpTransfers bufSize answers transfers).1) = 0
  · simp [dmaTestEntry, h, hloop, hc, setTestPassed]
  · simp [dmaTestEntry, h, hloop, hc, setTestPassed]

theorem allCorrect_of_finishesAt {transfers : Fin transferCount → DmaTransfer}
    {answers : Fin transferCount → SetUpAnswers} {batch : Nat → List (Callback transferCount)}
    (h : (setUpTransfers bufSize answers transfers).2 = 0) {p : Nat} (hp : FinishesAt batch p) :
    AllCorrect transfers answers batch ↔
      ∀ k, (((Polling.seen batch (p + 1)).foldl (KeyedFold.deliver Callback.data dmaCallback)
        (setUpTransfers bufSize answers transfers).1) k).dataCorrect = true := by
  have hfin := setUpTransfers_finished h
  constructor
  · rintro ⟨_, q, s, hq, hs⟩ k
    obtain ⟨hfq, rfl⟩ := (pollLoop_found_iff hfin).mp hq
    rw [hp.unique hfq]
    exact (hs k).2
  · intro hd
    refine ⟨h, p, _, (pollLoop_found_iff hfin).mpr ⟨hp, rfl⟩, fun k => ⟨?_, hd k⟩⟩
    have hall := (callbacks_allFinished verifyBuffers hfin _).mpr (allCalledBack_later hp)
    exact getTransfersFinished_iff.mp hall k

theorem not_allCorrect_of_timeout {transfers : Fin transferCount → DmaTransfer}
    {answers : Fin transferCount → SetUpAnswers} {batch : Nat → List (Callback transferCount)}
    (hn : ¬ ∃ p, FinishesAt batch p) : ¬ AllCorrect transfers answers batch := by
  rintro ⟨h, p, s, hp, _⟩
  have hfin := setUpTransfers_finished h
  exact hn ⟨p, ((pollLoop_found_iff hfin).mp hp).1⟩

/-- With the scan reached, the verdict is exact just when the first transfer is
correct: its failure is the one that the error code cannot tell from success. -/
theorem verdictExact_of_finishesAt {transfers : Fin transferCount → DmaTransfer}
    {answers : Fin transferCount → SetUpAnswers} {batch : Nat → List (Callback transferCount)}
    (h : (setUpTransfers bufSize answers transfers).2 = 0) {p : Nat} (hp : FinishesAt batch p)
    (testPassed : Int) :
    VerdictExact transfers answers batch testPassed ↔
      (((Polling.seen batch (p + 1)).foldl (KeyedFold.deliver Callback.data dmaCallback)
        (setUpTransfers bufSize answers transfers).1) 0).dataCorrect = true := by
  rw [VerdictExact, testPassed_of_finishesAt h hp, allCorrect_of_finishesAt h hp,
    checkDmaTransferComplete_eq_zero_iff]
  constructor
  · intro hiff
    by_contra hd
    have hfail := Bool.eq_false_iff.mpr hd
    exact hd (hiff.mp (.inl hfail) 0)
  · intro hd
    refine ⟨fun hor => ?_, .inr⟩
    rcases hor with hfail | hall
    · rw [hd] at hfail
      contradiction
    · exact hall

/-- The verdict is exact when the set-up fails, and when the transfers finish
within the polls with a good last callback of the first transfer. -/
theorem verdictExact_iff (transfers : Fin transferCount → DmaTransfer)
    (answers : Fin transferCount → SetUpAnswers) (batch : Nat → List (Callback transferCount))
    (testPassed : Int) :
    VerdictExact transfers answers batch testPassed ↔
      (∃ i, ¬ (answers i).Granted) ∨
      ∃ p, FinishesAt batch p ∧ ∃ e, lastCallback 0 (Polling.seen batch (p + 1)) = some e ∧
        statusAcceptable e.transferStatus = true ∧ Matches e.mem ((answers 0).buffers (bufSize 0)) := by
  have hgranted : (∃ i, ¬ (answers i).Granted) ↔ (setUpTransfers bufSize answers transfers).2 ≠ 0 := by
    rw [Ne, setUpTransfers_succeeds, not_forall]
  rw [hgranted]
  by_cases h : (setUpTransfers bufSize answers transfers).2 = 0
  · rw [or_iff_right (not_not.mpr h)]
    have hfirst : ∀ p, FinishesAt batch p →
        (VerdictExact transfers answers batch testPassed ↔
          ∃ e, lastCallback 0 (Polling.seen batch (p + 1)) = some e ∧
            statusAcceptable e.transferStatus = true ∧
            Matches e.mem ((answers 0).buffers (bufSize 0))) := by
      intro p hp
      have hlast := callbacks_dataCorrect_iff verifyBuffers (setUpTransfers bufSize answers transfers).1
        (allCalledBack_later hp 0)
      rw [verdictExact_of_finishesAt h hp]
      apply hlast.trans
      rw [setUpTransfers_buffers h]
      simp only [Callback.Accepted, verifyBuffers_eq_zero]
      rfl
    constructor
    · intro hexact
      by_cases hp : ∃ p, FinishesAt batch p
      · obtain ⟨p, hp⟩ := hp
        exact ⟨p, hp, (hfirst p hp).mp hexact⟩
      · have hpass := testPassed_of_timeout h hp testPassed
        exact absurd (hexact.mp hpass) (not_allCorrect_of_timeout hp)
    · rintro ⟨p, hp, he⟩
      exact (hfirst p hp).mpr he
  · have hzero : (dmaTestEntry transfers answers batch testPassed).testPassed = 0 := by
      simp [dmaTestEntry, h, setTestPassed]
    simp only [h, ne_eq, not_false_eq_true, true_or, iff_true, VerdictExact, hzero, AllCorrect, false_and]
    decide

end Worker

/-- All thirteen transfers end with an unacceptable status, or none ends at all:
the worker records PASSED. -/
theorem failures_recorded_passed :
    letI : OmapDma := ⟨0x20⟩
    ¬ VerdictExact (fun _ => default) grantAll
      (fun i => if i = 0 then oneEach transferCount 2 fun _ => 0 else []) testPassedInit ∧
    ¬ VerdictExact (fun _ => default) grantAll (fun _ => []) testPassedInit := by
  let : OmapDma := ⟨0x20⟩
  have h : (setUpTransfers bufSize (grantAll (n := transferCount)) fun _ => default).2 = 0 :=
    setUpTransfers_succeeds.mpr grantAll_granted
  constructor
  · have hseen := Polling.seen_first (oneEach transferCount 2 fun _ => 0)
    have hp : FinishesAt (fun i => if i = 0 then oneEach transferCount 2 fun _ => 0 else []) 0 := by
      refine ⟨by decide, ?_, by simp⟩
      rw [hseen]
      exact oneEach_allCalledBack _ _ _
    rw [verdictExact_of_finishesAt h hp, hseen]
    intro hd
    obtain ⟨e, he, hs, _⟩ := (callbacks_dataCorrect_iff verifyBuffers _
      (oneEach_allCalledBack transferCount 2 _ 0)).mp hd
    rw [lastCallback_oneEach] at he
    cases he
    exact absurd hs (by decide)
  · have hn : ¬ ∃ p, FinishesAt (fun _ => []) p := by
      rintro ⟨p, _, hall, _⟩
      obtain ⟨e, he, _⟩ := hall 0
      simp [Polling.seen] at he
    rw [VerdictExact, testPassed_of_timeout h hn]
    exact fun hiff => not_allCorrect_of_timeout hn (hiff.mp rfl)

end DmaThreadAccess

end DeviceDriverTest
