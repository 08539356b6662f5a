import DeviceDriverTest.CompletionCounter
import DeviceDriverTest.DmaBuffers
import DeviceDriverTest.DmaVerdict

/-! The threads of the descriptor load test. A thread counts itself when it has
started its transfer; the final callback compares the buffers later, and the
module frees them once the counter reaches the number of threads. -/

namespace DeviceDriverTest

namespace DmaDloadThread

open ScheduledRun CompletionCounter

abbrev maxThreads : Nat := 4

abbrev numElementsInList : Nat := 2

def testElementSize : Nat := 100

def pageSize : Nat := 4096

/-- `struct tlist_transfer`; a null pointer is address 0. -/
structure TlistTransfer where
  srcAddr : Fin numElementsInList → Nat
  transferSizes : Fin numElementsInList → Nat
  totalNumElements : Nat
  dstAddr : Nat
  sglistId : Int
  userSglist : Nat
  deriving Inhabited

structure DloadAnswers where
  srcAlloc : Fin numElementsInList → Nat
  dstAlloc : Nat
  requestDma : Option Int
  userSglistAlloc : Nat
  setSglistMode : Int
  startTransfers : Int

/-- How the body of a thread ends: killed while it fills a buffer that was not
allocated, returning early, or at its increment of the counter. -/
inductive Ending where
  | killed
  | returned (rc : Int)
  | counts (rc : Int)
  deriving DecidableEq

def Ending.isCounts : Ending → Bool
  | .counts _ => true
  | _ => false

/-- The loop that allocates and fills the source elements still to come, with
whether it got through. -/
def fillSources (answers : DloadAnswers) : List (Fin numElementsInList) → TlistTransfer → TlistTransfer × Bool
  | [], tls => (tls, true)
  | i :: rest, tls =>
    let tls := { tls with
      transferSizes := Function.update tls.transferSizes i ((i + 10) * testElementSize)
      srcAddr := Function.update tls.srcAddr i (answers.srcAlloc i) }
    if tls.srcAddr i = 0 then (tls, false)
    else fillSources answers rest { tls with totalNumElements := tls.totalNumElements + tls.transferSizes i }

def dmasglistTest (answers : DloadAnswers) (tls : TlistTransfer) : TlistTransfer × Ending :=
  let (tls, filled) := fillSources answers (List.finRange numElementsInList) tls
  if !filled then (tls, .killed)
  else if answers.dstAlloc = 0 then (tls, .killed)
  else
    let tls := { tls with
      dstAddr := answers.dstAlloc
      sglistId := answers.requestDma.getD tls.sglistId }
    if answers.userSglistAlloc = 0 then (tls, .returned (-105))
    else
      let tls := { tls with userSglist := answers.userSglistAlloc }
      if answers.setSglistMode ≠ 0 then (tls, .returned answers.setSglistMode)
      else (tls, .counts answers.startTransfers)

/-- The final callback of a thread. While it compares, it has the elements still
to compare, the index in the first of them and the destination pointer. -/
inductive CallbackPhase where
  | idle
  | waiting
  | comparing (elements : List (Fin numElementsInList)) (j dst : Nat)
  | finished
  deriving DecidableEq

inductive Buffer where
  | dst
  | userSglist
  | src (i : Fin numElementsInList)
  deriving DecidableEq

structure Freed where
  thread : Fin maxThreads
  buffer : Buffer
  address : Nat
  bytes : Nat

structure State where
  counter : CompletionCounter.State (Fin maxThreads)
  tls : Fin maxThreads → TlistTransfer
  callback : Fin maxThreads → CallbackPhase
  testPassed : Int
  toFree : List (Fin maxThreads × Buffer)
  freed : List Freed

/-- Who takes the next step; a callback meets the memory as it is then. -/
inductive Actor where
  | thread (t : Fin maxThreads)
  | callback (t : Fin maxThreads) (mem : Memory)
  | module

def freeingLoop : List (Fin maxThreads × Buffer) :=
  (List.finRange maxThreads).flatMap fun t =>
    (t, .dst) :: (t, .userSglist) :: (List.finRange numElementsInList).map fun i => (t, .src i)

def dmatestInit : State where
  counter := start (Fin maxThreads)
  tls := fun _ => default
  callback := fun _ => .idle
  testPassed := testPassedInit
  toFree := freeingLoop
  freed := []

def threadStep (answers : Fin maxThreads → DloadAnswers) (s : State) (t : Fin maxThreads) : State :=
  let counter := workerStep (fun t => (dmasglistTest (answers t) (s.tls t)).2.isCounts) s.counter t
  if s.counter.phase t = .running then
    let (tls, ending) := dmasglistTest (answers t) (s.tls t)
    -- only a transfer that was started has a callback
    { s with
      counter := counter
      tls := Function.update s.tls t tls
      callback := if ending = .counts 0 then Function.update s.callback t .waiting else s.callback }
  else { s with counter := counter }

/-- One step of `verify_dest_buffer`, with whether it ends the comparison
without a difference. -/
def verifyStep (tl : TlistTransfer) (mem : Memory) (j dst : Nat) :
    List (Fin numElementsInList) → CallbackPhase × Bool
  | [] => (.finished, true)
  | i :: rest =>
    if j < tl.transferSizes i * 4 then
      if mem (tl.srcAddr i + j) ≠ mem dst then (.finished, false)
      else (.comparing (i :: rest) (j + 1) (dst + 1), false)
    else (.comparing rest 0 dst, false)

def dmaSglistCbFinal (s : State) (t : Fin maxThreads) (mem : Memory) : State :=
  match s.callback t with
  | .idle => s
  | .waiting =>
    { s with callback :=
        Function.update s.callback t (.comparing (List.finRange numElementsInList) 0 (s.tls t).dstAddr) }
  | .comparing elements j dst =>
    let (phase, equal) := verifyStep (s.tls t) mem j dst elements
    { s with
      callback := Function.update s.callback t phase
      testPassed := if equal then setTestPassed s.testPassed 1 else s.testPassed }
  | .finished => s

def State.free (s : State) (t : Fin maxThreads) : Buffer → Freed
  | .dst => ⟨t, .dst, (s.tls t).dstAddr, (s.tls t).totalNumElements * 4⟩
  | .userSglist => ⟨t, .userSglist, (s.tls t).userSglist, pageSize⟩
  | .src i => ⟨t, .src i, (s.tls t).srcAddr i, (s.tls t).transferSizes i * 4⟩

def moduleStep (s : State) : State :=
  if s.counter.passed then
    match s.toFree with
    | [] => s
    | (t, buffer) :: rest => { s with toFree := rest, freed := s.freed ++ [s.free t buffer] }
  else { s with counter := waiterStep maxThreads s.counter }

def next (answers : Fin maxThreads → DloadAnswers) (s : State) : Actor → State
  | .thread t => threadStep answers s t
  | .callback t mem => dmaSglistCbFinal s t mem
  | .module => moduleStep s

theorem fillSources_succeeds {answers : DloadAnswers} {is : List (Fin numElementsInList)}
    {tls : TlistTransfer} : (fillSources answers is tls).2 = true ↔ ∀ i ∈ is, answers.srcAlloc i ≠ 0 := by
  induction is generalizing tls with
  | nil => simp [fillSources]
  | cons i rest ih =>
    rw [fillSources, List.forall_mem_cons]
    by_cases hi : answers.srcAlloc i = 0
    · simp [hi]
    · simp [hi, ih]

/-- A thread gets to its increment when every allocation was granted and the
list was accepted, whether or not the transfer starts. -/
theorem dmasglistTest_isCounts_iff {answers : DloadAnswers} {tls : TlistTransfer} :
    (dmasglistTest answers tls).2.isCounts = true ↔ (∀ i, answers.srcAlloc i ≠ 0) ∧
      answers.dstAlloc ≠ 0 ∧ answers.userSglistAlloc ≠ 0 ∧ answers.setSglistMode = 0 := by
  have hfill : (fillSources answers (List.finRange numElementsInList) tls).2 = true ↔
      ∀ i, answers.srcAlloc i ≠ 0 := by
    rw [fillSources_succeeds]
    simp
  rw [← hfill]
  by_cases hs : (fillSources answers (List.finRange numElementsInList) tls).2 = true
  · by_cases hd : answers.dstAlloc = 0
    · simp [dmasglistTest, hs, hd, Ending.isCounts]
    · by_cases hu : answers.userSglistAlloc = 0
      · simp [dmasglistTest, hs, hd, hu, Ending.isCounts]
      · by_cases hm : answers.setSglistMode = 0
        · simp [dmasglistTest, hs, hd, hu, hm, Ending.isCounts]
        · simp [dmasglistTest, hs, hd, hu, hm, Ending.isCounts]
  · simp [dmasglistTest, hs, Ending.isCounts]

/-- No source or destination buffer was freed before the final callback of its
thread was done with the comparison. -/
def FreedAfterCallback (s : State) : Prop :=
  ∀ f ∈ s.freed, f.buffer ≠ .userSglist → s.callback f.thread = .finished

/-- A thread stores the counter only when its final callback is done. -/
def CountsAfterCallback (s : State) : Actor → Prop
  | .thread t => ∀ value, s.counter.phase t = .loaded value → s.callback t = .finished
  | _ => True

instance (s : State) : Decidable (FreedAfterCallback s) :=
  inferInstanceAs (Decidable (∀ f ∈ s.freed, f.buffer ≠ .userSglist → s.callback f.thread = .finished))

instance (s : State) : DecidablePred (CountsAfterCallback s)
  | .thread t => match hp : s.counter.phase t with
    | .loaded value => decidable_of_iff (s.callback t = .finished) (by simp [CountsAfterCallback, hp])
    | .running | .counting | .stored | .ended => .isTrue (by simp [CountsAfterCallback, hp])
  | .callback _ _ | .module => .isTrue trivial

structure Invariant (s : State) : Prop where
  bounded : Bounded s.counter
  stored_finished : ∀ t, s.counter.stores t = 1 → s.callback t = .finished
  passed_stored : s.counter.passed = true → ∀ t, s.counter.stores t = 1
  freed_passed : s.freed ≠ [] → s.counter.passed = true

theorem invariant_init : Invariant dmatestInit := by
  refine ⟨bounded_start, fun t ht => ?_, fun hpassed => ?_, fun hfreed => ?_⟩
  · exact absurd ht (by simp [dmatestInit])
  · exact absurd hpassed (by simp [dmatestInit])
  · exact absurd rfl hfreed

theorem Invariant.freedAfterCallback {s : State} (h : Invariant s) : FreedAfterCallback s := by
  intro f hf _
  have hpassed := h.freed_passed (List.ne_nil_of_mem hf)
  exact h.stored_finished f.thread (h.passed_stored hpassed f.thread)

theorem threadStep_counter (answers : Fin maxThreads → DloadAnswers) (s : State) (t : Fin maxThreads) :
    (threadStep answers s t).counter =
      workerStep (fun t => (dmasglistTest (answers t) (s.tls t)).2.isCounts) s.counter t := by
  unfold threadStep
  split_ifs <;> rfl

theorem threadStep_freed (answers : Fin maxThreads → DloadAnswers) (s : State) (t : Fin maxThreads) :
    (threadStep answers s t).freed = s.freed := by
  unfold threadStep
  split_ifs <;> rfl

theorem threadStep_callback (answers : Fin maxThreads → DloadAnswers) (s : State) (t u : Fin maxThreads) :
    (threadStep answers s t).callback u = s.callback u ∨ u = t ∧ s.counter.phase t = .running := by
  by_cases hp : s.counter.phase t = .running
  · by_cases hu : u = t
    · exact .inr ⟨hu, hp⟩
    · left
      simp only [threadStep, hp, if_true]
      split_ifs
      · exact Function.update_of_ne hu _ _
      · rfl
  · left
    simp [threadStep, hp]

theorem dmaSglistCbFinal_finished {s : State} {u : Fin maxThreads} (hu : s.callback u = .finished)
    (t : Fin maxThreads) (mem : Memory) : (dmaSglistCbFinal s t mem).callback u = .finished := by
  cases hp : s.callback t with
  | idle => simp [dmaSglistCbFinal, hp, hu]
  | finished => simp [dmaSglistCbFinal, hp, hu]
  | waiting =>
    have hne : u ≠ t := fun h => by simp [h, hp] at hu
    simp [dmaSglistCbFinal, hp, hne, hu]
  | comparing elements j dst =>
    have hne : u ≠ t := fun h => by simp [h, hp] at hu
    simp [dmaSglistCbFinal, hp, hne, hu]

theorem dmaSglistCbFinal_fields (s : State) (t : Fin maxThreads) (mem : Memory) :
    (dmaSglistCbFinal s t mem).counter = s.counter ∧ (dmaSglistCbFinal s t mem).freed = s.freed := by
  unfold dmaSglistCbFinal
  split <;> exact ⟨rfl, rfl⟩

theorem moduleStep_cases (s : State) :
    (s.counter.passed = true ∧ (moduleStep s).counter = s.counter ∧ (moduleStep s).callback = s.callback) ∨
    (s.counter.passed = false ∧ moduleStep s = { s with counter := waiterStep maxThreads s.counter }) := by
  cases hp : s.counter.passed with
  | false => exact .inr ⟨rfl, by simp [moduleStep, hp]⟩
  | true =>
    left
    rw [moduleStep, if_pos hp]
    split <;> exact ⟨rfl, rfl, rfl⟩

theorem Invariant.thread {answers : Fin maxThreads → DloadAnswers} {s : State} (h : Invariant s)
    (t : Fin maxThreads) (hok : CountsAfterCallback s (.thread t)) : Invariant (threadStep answers s t) := by
  have hcounter := threadStep_counter answers s t
  have hfresh : ∀ phase, s.counter.phase t = phase → phase ≠ .stored → phase ≠ .ended →
      s.counter.stores t = 0 := fun phase hp hs ho => h.bounded.stores_before t (hp ▸ hs) (hp ▸ ho)
  have hkept : ∀ u, s.counter.stores u = 1 → s.callback u = .finished →
      (threadStep answers s t).callback u = .finished := by
    intro u hone hu
    rcases threadStep_callback answers s t u with heq | ⟨rfl, hp⟩
    · exact heq.trans hu
    · have hzero := hfresh _ hp (by simp) (by simp)
      omega
  constructor
  case bounded => exact hcounter ▸ h.bounded.step _ t
  case stored_finished =>
    intro u hone
    rw [hcounter] at hone
    rcases workerStep_stores (fun t => (dmasglistTest (answers t) (s.tls t)).2.isCounts) s.counter t u with
      heq | ⟨rfl, value, hp⟩
    · have hone' : s.counter.stores u = 1 := heq.symm.trans hone
      exact hkept u hone' (h.stored_finished u hone')
    · rcases threadStep_callback answers s u u with heq | ⟨_, hrunning⟩
      · exact heq.trans (hok value hp)
      · rw [hp] at hrunning
        contradiction
  case passed_stored =>
    intro hpassed u
    rw [hcounter, workerStep_passed] at hpassed
    have hone := h.passed_stored hpassed u
    rw [hcounter]
    rcases workerStep_stores (fun t => (dmasglistTest (answers t) (s.tls t)).2.isCounts) s.counter t u with
      heq | ⟨rfl, value, hp⟩
    · exact heq.trans hone
    · have hzero := hfresh _ hp (by simp) (by simp)
      omega
  case freed_passed =>
    intro hfreed
    rw [threadStep_freed] at hfreed
    rw [hcounter, workerStep_passed]
    exact h.freed_passed hfreed

theorem Invariant.callback {s : State} (h : Invariant s) (t : Fin maxThreads) (mem : Memory) :
    Invariant (dmaSglistCbFinal s t mem) := by
  obtain ⟨hcounter, hfreed⟩ := dmaSglistCbFinal_fields s t mem
  constructor
  case bounded => exact hcounter ▸ h.bounded
  case stored_finished =>
    intro u hone
    rw [hcounter] at hone
    exact dmaSglistCbFinal_finished (h.stored_finished u hone) t mem
  case passed_stored => exact hcounter ▸ h.passed_stored
  case freed_passed => exact hcounter ▸ hfreed ▸ h.freed_passed

theorem Invariant.module {s : State} (h : Invariant s) : Invariant (moduleStep s) := by
  rcases moduleStep_cases s with ⟨hpassed, hcounter, hcallback⟩ | ⟨hpassed, heq⟩
  · constructor
    case bounded => exact hcounter ▸ h.bounded
    case stored_finished => exact hcounter ▸ hcallback ▸ h.stored_finished
    case passed_stored => exact hcounter ▸ h.passed_stored
    case freed_passed => exact fun _ => hcounter ▸ hpassed
  · have hnone : s.freed = [] := by
      by_contra hne
      rw [h.freed_passed hne] at hpassed
      contradiction
    rw [heq]
    rcases waiterStep_cases maxThreads s.counter with ⟨_, hwait⟩ | ⟨hcount, hwait⟩ <;> rw [hwait]
    · exact h
    · have hall : ∀ t, s.counter.stores t = 1 := h.bounded.all_stored (by simpa using hcount)
      refine ⟨⟨h.bounded.stores_le, h.bounded.stores_before, h.bounded.count_le, h.bounded.loaded_le⟩,
        h.stored_finished, fun _ => hall, fun hne => absurd hnone hne⟩

/-- In a run in which every thread counts itself only when its final callback is
done, nothing is freed before. -/
theorem freedAfterCallback_of_counts (answers : Fin maxThreads → DloadAnswers) (schedule : List Actor)
    (h : StepsMeet (next answers) CountsAfterCallback dmatestInit schedule) :
    Throughout (next answers) FreedAfterCallback dmatestInit schedule := by
  refine throughout_of_stepsMeet (fun _ hinv => hinv.freedAfterCallback) (fun s a hinv hok => ?_)
    invariant_init h
  cases a with
  | thread t => exact hinv.thread t hok
  | callback t mem => exact hinv.callback t mem
  | module => exact hinv.module

/-- A kernel that grants everything, each buffer in pages of its own. -/
def grantedAnswers (t : Fin maxThreads) : DloadAnswers where
  srcAlloc := fun i => 8192 * (4 * t + i + 1)
  dstAlloc := 8192 * (4 * t + 3)
  requestDma := some t
  userSglistAlloc := 8192 * (4 * t + 4)
  setSglistMode := 0
  startTransfers := 0

def pageMemory : Memory := fun a => UInt8.ofNat (a / 8192)

/-- Each callback is done before its thread counts; then the module frees all. -/
def patientSchedule : List Actor :=
  ((List.finRange maxThreads).flatMap fun t =>
    [.thread t, .callback t pageMemory, .callback t pageMemory, .thread t, .thread t, .thread t]) ++
    List.replicate 17 .module

/-- The threads start their transfers and count, and no callback has come yet
when the module frees. -/
def eagerSchedule : List Actor :=
  ((List.finRange maxThreads).flatMap fun t => List.replicate 3 (.thread t)) ++ List.replicate 2 .module

theorem patient_frees_after_callbacks :
    (patientSchedule.foldl (next grantedAnswers) dmatestInit).freed.length = 16 ∧
      Throughout (next grantedAnswers) FreedAfterCallback dmatestInit patientSchedule := by
  have hok : StepsMeet (next grantedAnswers) CountsAfterCallback dmatestInit patientSchedule := by
    decide +kernel
  exact ⟨by decide +kernel, freedAfterCallback_of_counts grantedAnswers patientSchedule hok⟩

/-- The destination of thread 0 is freed while its callback is still to come. -/
theorem eager_frees_under_callback :
    ¬ Throughout (next grantedAnswers) FreedAfterCallback dmatestInit eagerSchedule := by
  intro h
  have hlast := throughout_foldl h
  have hnot : ¬ FreedAfterCallback (eagerSchedule.foldl (next grantedAnswers) dmatestInit) := by
    decide +kernel
  exact hnot hlast

end DmaDloadThread

end DeviceDriverTest
