import DeviceDriverTest.CompletionCounter
import DeviceDriverTest.DmaChainThread
import DeviceDriverTest.DmaDloadThread
import DeviceDriverTest.DmaThreadAccess

/-! The completion counters of the threaded DMA modules. Each module starts its
workers with the counter at zero and waits until it is the number of workers;
the stress module does so once a round. -/

namespace DeviceDriverTest

namespace DmaThreadCompletion

open ScheduledRun CompletionCounter SingleChannel

structure ChainWorker where
  chainId : Option Int
  link : Chain.LinkAnswers
  batch : Nat → List Chain.LinkEvent
  ct : DmaChainThread.ChainTransfer

structure SingleChannelWorker where
  transfers : Fin DmaThreadAccess.transferCount → DmaTransfer
  answers : Fin DmaThreadAccess.transferCount → SetUpAnswers
  batch : Nat → List (Callback DmaThreadAccess.transferCount)

structure DloadWorker where
  answers : DmaDloadThread.DloadAnswers
  tls : DmaDloadThread.TlistTransfer

/-- A module with what each of its workers meets. -/
inductive Workers where
  | dmaChainThreadStress (worker : Fin 2 → ChainWorker)
  | dmaThreadAccess (worker : Fin 2 → SingleChannelWorker)
  | dmaDloadThreadAccess (worker : Fin DmaDloadThread.maxThreads → DloadWorker)

@[reducible] def Workers.threadCount : Workers → Nat
  | dmaChainThreadStress _ => 2
  | dmaThreadAccess _ => 2
  | dmaDloadThreadAccess _ => DmaDloadThread.maxThreads

section Completion

variable [OmapDma]

def Workers.counted : (ws : Workers) → Fin ws.threadCount → Bool
  | dmaChainThreadStress worker, i =>
    (DmaChainThread.dmaChainThreadEntry DmaChainThread.ChainThreadModule.dmaChainThreadStress.transferCount
      (worker i).chainId (worker i).link (worker i).batch (worker i).ct testPassedInit).counted
  | dmaThreadAccess worker, i =>
    (DmaThreadAccess.dmaTestEntry (worker i).transfers (worker i).answers (worker i).batch
      testPassedInit).counted
  | dmaDloadThreadAccess worker, i =>
    (DmaDloadThread.dmasglistTest (worker i).answers (worker i).tls).2.isCounts

/-- The calls of a worker succeed: its allocations, its requests and its set-up,
and for a chain the wait for its end. -/
def Workers.CallsSucceed : (ws : Workers) → Fin ws.threadCount → Prop
  | dmaChainThreadStress worker, i => ((worker i).chainId ≠ none ∧ (worker i).link.Granted) ∧
    ∃ p, DmaChainThread.StopsAt DmaChainThread.ChainThreadModule.dmaChainThreadStress.transferCount
      ((worker i).link.buffers (1024 * 1)) (worker i).ct.transferEnd (worker i).batch p
  | dmaThreadAccess worker, i => ∀ k, ((worker i).answers k).Granted
  | dmaDloadThreadAccess worker, i => (∀ k, (worker i).answers.srcAlloc k ≠ 0) ∧
    (worker i).answers.dstAlloc ≠ 0 ∧ (worker i).answers.userSglistAlloc ≠ 0 ∧
    (worker i).answers.setSglistMode = 0

def Workers.next (ws : Workers) :
    State (Fin ws.threadCount) → Actor (Fin ws.threadCount) → State (Fin ws.threadCount) :=
  CompletionCounter.next ws.counted ws.threadCount

theorem chainWorker_counted_iff (n : Nat) (worker : ChainWorker) :
    (DmaChainThread.dmaChainThreadEntry n worker.chainId worker.link worker.batch worker.ct
        testPassedInit).counted = true ↔
      (worker.chainId ≠ none ∧ worker.link.Granted) ∧
        ∃ p, DmaChainThread.StopsAt n (worker.link.buffers (1024 * 1)) worker.ct.transferEnd worker.batch p := by
  have hsetup : (DmaChainThread.setUpRound n worker.chainId worker.link worker.ct).2 = 0 ↔
      worker.chainId ≠ none ∧ worker.link.Granted := DmaChainThread.setUpRound_succeeds
  rw [← hsetup]
  by_cases h : (DmaChainThread.setUpRound n worker.chainId worker.link worker.ct).2 = 0
  · by_cases hp : ∃ p, DmaChainThread.StopsAt n (worker.link.buffers (1024 * 1)) worker.ct.transferEnd
        worker.batch p
    · have hstops := hp
      obtain ⟨p, hp⟩ := hp
      rw [DmaChainThread.entry_of_stopsAt h hp]
      exact iff_of_true rfl ⟨h, hstops⟩
    · rw [DmaChainThread.entry_of_timeout h hp]
      exact iff_of_false Bool.false_ne_true fun hboth => hp hboth.2
  · rw [DmaChainThread.entry_of_setUp_failed h]
    exact iff_of_false Bool.false_ne_true fun hboth => h hboth.1

theorem singleChannelWorker_counted_iff (worker : SingleChannelWorker) :
    (DmaThreadAccess.dmaTestEntry worker.transfers worker.answers worker.batch testPassedInit).counted = true ↔
      ∀ k, (worker.answers k).Granted := by
  have hsetup : (setUpTransfers DmaThreadAccess.bufSize worker.answers worker.transfers).2 = 0 ↔
      ∀ k, (worker.answers k).Granted := setUpTransfers_succeeds
  rw [← hsetup, DmaThreadAccess.dmaTestEntry]
  by_cases h : (setUpTransfers DmaThreadAccess.bufSize worker.answers worker.transfers).2 = 0
  · simp only [h, ne_eq, not_true_eq_false, if_false, iff_true]
    split_ifs <;> rfl
  · simp [h]

theorem Workers.counted_iff (ws : Workers) (i : Fin ws.threadCount) :
    ws.counted i = true ↔ ws.CallsSucceed i := by
  cases ws with
  | dmaChainThreadStress worker => exact chainWorker_counted_iff _ (worker i)
  | dmaThreadAccess worker => exact singleChannelWorker_counted_iff (worker i)
  | dmaDloadThreadAccess worker => exact DmaDloadThread.dmasglistTest_isCounts_iff

/-- The counter of a module keeps its account throughout exactly the runs in
which the calls of every worker succeed, no increment is overtaken by another
one, and the waiter does not look between the last increment and the return. -/
theorem accounted_iff (ws : Workers) (schedule : List (Actor (Fin ws.threadCount))) :
    Throughout ws.next Accounted (start (Fin ws.threadCount)) schedule ↔
      StepsMeet ws.next (Proper ws.CallsSucceed) (start (Fin ws.threadCount)) schedule := by
  have hiff := accounted_iff_proper ws.counted_iff schedule
  rw [Fintype.card_fin] at hiff
  exact hiff

theorem not_accounted_of_failure (ws : Workers) {i : Fin ws.threadCount} (h : ¬ ws.CallsSucceed i) :
    ¬ Throughout ws.next Accounted (start (Fin ws.threadCount)) [.worker i] := by
  intro hall
  have hnot : ¬ Proper ws.CallsSucceed (start (Fin ws.threadCount)) (.worker i) := fun hok => h (hok.1 rfl)
  have hbreak := exact_start.not_accounted ws.counted_iff (.worker i) hnot
  rw [Fintype.card_fin] at hbreak
  exact hbreak (throughout_foldl hall)

end Completion

def noChain : ChainWorker := ⟨none, Chain.pageLink 0, fun _ => [], DmaChainThread.freshTransfer⟩

def noChannel : SingleChannelWorker :=
  ⟨fun _ => default, fun k => { grantAll k with channel := none }, fun _ => []⟩

def noList (t : Fin DmaDloadThread.maxThreads) : DloadWorker :=
  ⟨{ DmaDloadThread.grantedAnswers t with userSglistAlloc := 0 }, default⟩

/-- In each module a worker whose request, or whose descriptor list, is refused
returns without counting. -/
theorem refused_worker_not_counted :
    letI : OmapDma := ⟨0x20⟩
    ¬ Throughout (Workers.dmaChainThreadStress fun _ => noChain).next Accounted (start (Fin 2)) [.worker 0] ∧
    ¬ Throughout (Workers.dmaThreadAccess fun _ => noChannel).next Accounted (start (Fin 2)) [.worker 0] ∧
    ¬ Throughout (Workers.dmaDloadThreadAccess noList).next Accounted
      (start (Fin DmaDloadThread.maxThreads)) [.worker 0] := by
  let : OmapDma := ⟨0x20⟩
  refine ⟨?_, ?_, ?_⟩
  · exact not_accounted_of_failure (.dmaChainThreadStress _) fun h => h.1.1 rfl
  · exact not_accounted_of_failure (.dmaThreadAccess _) fun h => (h 0).1 rfl
  · exact not_accounted_of_failure (.dmaDloadThreadAccess _) fun h => h.2.2.1 rfl

end DmaThreadCompletion

end DeviceDriverTest
