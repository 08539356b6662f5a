import DeviceDriverTest.Polling
import DeviceDriverTest.DmaVerdict
import DeviceDriverTest.DmaSingleChannel

/-! The modules that set up their transfers, start them, poll until all have
finished and then scan the results. They differ in the number and the size of
their transfers, in how they compare the buffers, and in what they ask of the
first transfer to finish. -/

namespace DeviceDriverTest

open SingleChannel

inductive SingleChannelModule where
  | dmaAddrmodeDoubleidx
  | dmaAddrmodePostinc
  | dmaAddrmodeSingleidx
  | dmaAddrmodeConstant
  | dmaAddrmodeConstantOswr
  | dmaBurstDisabled
  | dmaBurstMode4
  | dmaBurstMode8
  | dmaBurstMode16
  | dmaStaticSelfLink
  | dmaUnlinkBeforeStopChannels
  | dmaUnlinkNonlinkedChannels
  | dmaPriorityHigh
  | dmaPriorityLow

/-- The transfers of a module, and the order in which the priority modules
record them; the entries from the length of the array on are the memory
behind it. -/
structure ModuleState (n : Nat) where
  transfers : Fin n → DmaTransfer
  transferFinishedOrder : Nat → Int
  transferFinishedCount : Nat

/-- The comparison of the unlink modules: the source pointer stays. -/
def verifyBuffersConstant (mem : Memory) (buffers : DmaBuffersInfo) : Int :=
  verifyLoop 0 mem buffers.srcBuf buffers.destBuf buffers.bufSize

def MatchesConstant (mem : Memory) (buffers : DmaBuffersInfo) : Prop :=
  ∀ i < buffers.bufSize, mem buffers.srcBuf = mem (buffers.destBuf + i)

namespace SingleChannelModule

@[reducible] def transferCount : SingleChannelModule → Nat
  | dmaAddrmodeDoubleidx | dmaAddrmodePostinc | dmaAddrmodeSingleidx | dmaAddrmodeConstant => 13
  | dmaAddrmodeConstantOswr => 1
  | dmaBurstDisabled | dmaBurstMode4 | dmaBurstMode8 | dmaBurstMode16 => 3
  | dmaStaticSelfLink | dmaUnlinkBeforeStopChannels | dmaUnlinkNonlinkedChannels => 2
  | dmaPriorityHigh | dmaPriorityLow => 4

def bufSize : SingleChannelModule → Nat → Nat
  | dmaAddrmodeDoubleidx, i => 10240 * (i + 1) * (i + 1) + i % 2
  | dmaAddrmodePostinc, i => 512 * (i + 1) * (i + 1) + i % 2
  | dmaAddrmodeSingleidx, i => 1024 * (i + 1) * (i + 1) + i % 2
  | dmaAddrmodeConstant, i => 128 * (i + 1) * (i + 1) + i % 2
  | dmaAddrmodeConstantOswr, i => 128 * (i + 1) * (i + 1) + i % 2
  | dmaBurstDisabled, _ => 1024 * 1024
  | dmaBurstMode4, _ => 1024 * 1024
  | dmaBurstMode8, _ => 1024 * 1
  | dmaBurstMode16, _ => 1024 * 1
  | dmaStaticSelfLink, _ => 1024 * 1024
  | dmaUnlinkBeforeStopChannels, i => 10240 * (i + 1) * (i + 1) + i % 2
  | dmaUnlinkNonlinkedChannels, i => 10240 * (i + 1) * (i + 1) + i % 2
  | dmaPriorityHigh, _ => 1024 * 1024
  | dmaPriorityLow, _ => 1024 * 1024

def verify : SingleChannelModule → Memory → DmaBuffersInfo → Int
  | dmaUnlinkBeforeStopChannels | dmaUnlinkNonlinkedChannels => verifyBuffersConstant
  | _ => verifyBuffers

def recordsOrder : SingleChannelModule → Bool
  | dmaPriorityHigh | dmaPriorityLow => true
  | _ => false

def dmaCallback [OmapDma] (m : SingleChannelModule) (s : ModuleState m.transferCount)
    (e : Callback m.transferCount) : ModuleState m.transferCount :=
  let s := if m.recordsOrder then
    { s with
      transferFinishedOrder :=
        Function.update s.transferFinishedOrder s.transferFinishedCount (s.transfers e.data).transferId
      transferFinishedCount := s.transferFinishedCount + 1 }
    else s
  { s with transfers := KeyedFold.deliver Callback.data (dmaCallbackWith m.verify) s.transfers e }

/-- What the priority modules reject: the last transfer, of high priority, is
not the first to finish; the first transfer, of low priority, is. -/
def firstFinishedWrong : (m : SingleChannelModule) → ModuleState m.transferCount → Bool
  | dmaPriorityHigh, s => s.transferFinishedOrder 0 != (s.transfers ⟨3, by decide⟩).transferId
  | dmaPriorityLow, s => s.transferFinishedOrder 0 == (s.transfers ⟨0, by decide⟩).transferId
  | _, _ => false

def checkTestPassed (m : SingleChannelModule) (s : ModuleState m.transferCount) (testPassed : Int) : Int :=
  let error := (List.finRange m.transferCount).any fun i => !(s.transfers i).dataCorrect
  let error := if !error then m.firstFinishedWrong s else error
  if !error then setTestPassed testPassed 1 else setTestPassed testPassed 0

def started (m : SingleChannelModule) (transfers : Fin m.transferCount → DmaTransfer) :
    ModuleState m.transferCount :=
  { transfers := transfers, transferFinishedOrder := fun _ => 0, transferFinishedCount := 0 }

def pollLoop [OmapDma] (m : SingleChannelModule) (transfers : Fin m.transferCount → DmaTransfer)
    (batch : Nat → List (Callback m.transferCount)) : Polling.Outcome (ModuleState m.transferCount) :=
  Polling.poll (fun s => getTransfersFinished s.transfers) m.dmaCallback batch transferPollCount
    (m.started transfers)

def createTransfers (m : SingleChannelModule) (answers : Fin m.transferCount → SetUpAnswers) :
    (Fin m.transferCount → DmaTransfer) × Int :=
  setUpTransfers m.bufSize answers fun _ => default

def dmaModuleInit [OmapDma] (m : SingleChannelModule) (answers : Fin m.transferCount → SetUpAnswers)
    (batch : Nat → List (Callback m.transferCount)) : InitResult :=
  let (transfers, error) := m.createTransfers answers
  if error ≠ 0 then ⟨setTestPassed testPassedInit 0, 1⟩
  else
    match m.pollLoop transfers batch with
    | .found _ s => ⟨m.checkTestPassed s testPassedInit, 0⟩
    | .exhausted _ => ⟨setTestPassed testPassedInit 0, 1⟩

def Compared : SingleChannelModule → Memory → DmaBuffersInfo → Prop
  | dmaUnlinkBeforeStopChannels | dmaUnlinkNonlinkedChannels => MatchesConstant
  | _ => Matches

def FirstFinishedRight : (m : SingleChannelModule) → (Fin m.transferCount → DmaTransfer) →
    List (Callback m.transferCount) → Prop
  | dmaPriorityHigh, transfers, es => ∃ e, es.head? = some e ∧
      (transfers e.data).transferId = (transfers ⟨3, by decide⟩).transferId
  | dmaPriorityLow, transfers, es => ∃ e, es.head? = some e ∧
      (transfers e.data).transferId ≠ (transfers ⟨0, by decide⟩).transferId
  | _, _, _ => True

/-- The last callback of every transfer had an acceptable status and found its
buffers equal, in the sense of the module. -/
def LastAccepted [OmapDma] (m : SingleChannelModule) (transfers : Fin m.transferCount → DmaTransfer)
    (es : List (Callback m.transferCount)) : Prop :=
  ∀ k, ∃ e, lastCallback k es = some e ∧ statusAcceptable e.transferStatus = true ∧
    m.Compared e.mem (transfers k).buffers

theorem verify_eq_zero {m : SingleChannelModule} {mem : Memory} {buffers : DmaBuffersInfo} :
    m.verify mem buffers = 0 ↔ m.Compared mem buffers := by
  cases m <;>
    simp only [verify, Compared, verifyBuffers_eq_zero, verifyBuffersConstant, verifyLoop_eq_zero,
      MatchesConstant, Nat.zero_mul, Nat.add_zero]

theorem createTransfers_finished {m : SingleChannelModule} {answers : Fin m.transferCount → SetUpAnswers}
    (h : (m.createTransfers answers).2 = 0) (k : Fin m.transferCount) :
    ((m.createTransfers answers).1 k).finished = false :=
  setUpTransfers_finished h k

section Callbacks

variable [OmapDma] {m : SingleChannelModule}

theorem dmaCallback_transfers (s : ModuleState m.transferCount) (es : List (Callback m.transferCount)) :
    (es.foldl m.dmaCallback s).transfers =
      es.foldl (KeyedFold.deliver Callback.data (dmaCallbackWith m.verify)) s.transfers := by
  induction es generalizing s with
  | nil => rfl
  | cons e es ih =>
    rw [List.foldl_cons, ih, List.foldl_cons]
    congr 1
    unfold dmaCallback
    split_ifs <;> rfl

theorem order_zero_kept {s : ModuleState m.transferCount} (h : 0 < s.transferFinishedCount)
    (es : List (Callback m.transferCount)) :
    (es.foldl m.dmaCallback s).transferFinishedOrder 0 = s.transferFinishedOrder 0 := by
  induction es generalizing s with
  | nil => rfl
  | cons e es ih =>
    rw [List.foldl_cons]
    by_cases hr : m.recordsOrder = true
    · rw [ih (by simp [dmaCallback, hr])]
      simp [dmaCallback, hr, Function.update_of_ne (Nat.ne_of_lt h)]
    · rw [ih (by simpa [dmaCallback, hr] using h)]
      simp [dmaCallback, hr]

theorem order_zero (hr : m.recordsOrder = true) (transfers : Fin m.transferCount → DmaTransfer)
    (e : Callback m.transferCount) (es : List (Callback m.transferCount)) :
    ((e :: es).foldl m.dmaCallback (m.started transfers)).transferFinishedOrder 0 =
      (transfers e.data).transferId := by
  rw [List.foldl_cons, order_zero_kept (by simp [dmaCallback, hr])]
  simp [dmaCallback, hr, started]

theorem firstFinishedWrong_iff (transfers : Fin m.transferCount → DmaTransfer)
    {es : List (Callback m.transferCount)} (hne : es ≠ []) :
    m.firstFinishedWrong (es.foldl m.dmaCallback (m.started transfers)) = false ↔
      m.FirstFinishedRight transfers es := by
  obtain ⟨e, es, rfl⟩ := List.exists_cons_of_ne_nil hne
  have hid : ∀ k, (((e :: es).foldl m.dmaCallback (m.started transfers)).transfers k).transferId =
      (transfers k).transferId := fun k => by
    rw [dmaCallback_transfers]
    exact callbacks_transferId m.verify transfers (e :: es) k
  have hfirst := fun hr => order_zero hr transfers e es
  cases m with
  | dmaPriorityHigh => simp only [firstFinishedWrong, FirstFinishedRight, hfirst rfl, hid]; simp
  | dmaPriorityLow => simp only [firstFinishedWrong, FirstFinishedRight, hfirst rfl, hid]; simp
  | _ => simp [firstFinishedWrong, FirstFinishedRight]

theorem checkTestPassed_eq_one_iff {transfers : Fin m.transferCount → DmaTransfer}
    {es : List (Callback m.transferCount)} (h : AllCalledBack es) (testPassed : Int) :
    m.checkTestPassed (es.foldl m.dmaCallback (m.started transfers)) testPassed = 1 ↔
      m.LastAccepted transfers es ∧ m.FirstFinishedRight transfers es := by
  have hne : es ≠ [] := by
    rintro rfl
    have hk : 0 < m.transferCount := by cases m <;> decide
    obtain ⟨e, he, _⟩ := h ⟨0, hk⟩
    cases he
  have hscan : ((List.finRange m.transferCount).any fun i =>
      !((es.foldl m.dmaCallback (m.started transfers)).transfers i).dataCorrect) = false ↔
      m.LastAccepted transfers es := by
    simp only [List.any_eq_false, List.mem_finRange, forall_true_left, Bool.not_eq_true',
      Bool.not_eq_false, dmaCallback_transfers]
    refine forall_congr' fun k => ?_
    simp only [started, callbacks_dataCorrect_iff m.verify transfers (h k), Callback.Accepted, verify_eq_zero]
  rw [← hscan, ← firstFinishedWrong_iff transfers hne, checkTestPassed]
  cases (List.finRange m.transferCount).any fun i =>
      !((es.foldl m.dmaCallback (m.started transfers)).transfers i).dataCorrect with
  | true => simp [setTestPassed]
  | false =>
    cases m.firstFinishedWrong (es.foldl m.dmaCallback (m.started transfers)) <;> simp [setTestPassed]

theorem ready_iff {transfers : Fin m.transferCount → DmaTransfer}
    (h : ∀ k, (transfers k).finished = false) (batch : Nat → List (Callback m.transferCount)) (q : Nat) :
    getTransfersFinished (Polling.stateAt m.dmaCallback batch (m.started transfers) q).transfers = true ↔
      AllCalledBack (Polling.seen batch q) := by
  rw [Polling.stateAt, dmaCallback_transfers]
  exact callbacks_allFinished m.verify h _

theorem pollLoop_found {transfers : Fin m.transferCount → DmaTransfer}
    (h : ∀ k, (transfers k).finished = false) {batch : Nat → List (Callback m.transferCount)}
    {p : Nat} {s : ModuleState m.transferCount} (hf : m.pollLoop transfers batch = .found p s) :
    AllCalledBack (Polling.seen batch p) ∧
      s = (Polling.seen batch (p + 1)).foldl m.dmaCallback (m.started transfers) := by
  obtain ⟨_, hr, _, hs⟩ := Polling.poll_found_iff.mp hf
  exact ⟨(ready_iff h batch p).mp hr, hs⟩

theorem pollLoop_exhausted_of_silent {transfers : Fin m.transferCount → DmaTransfer}
    (h : ∀ k, (transfers k).finished = false) :
    ∃ s, m.pollLoop transfers (fun _ => []) = .exhausted s := by
  refine ⟨_, Polling.poll_exhausted_iff.mpr ⟨fun q _ => ?_, rfl⟩⟩
  rw [Bool.eq_false_iff, Ne, ready_iff h]
  intro hall
  have hk : 0 < m.transferCount := by cases m <;> decide
  obtain ⟨e, he, _⟩ := hall ⟨0, hk⟩
  simp [Polling.seen] at he

theorem dmaModuleInit_of_found {answers : Fin m.transferCount → SetUpAnswers}
    (h : (m.createTransfers answers).2 = 0) {batch : Nat → List (Callback m.transferCount)} {p : Nat}
    {s : ModuleState m.transferCount}
    (hf : m.pollLoop (m.createTransfers answers).1 batch = .found p s) :
    m.dmaModuleInit answers batch = ⟨m.checkTestPassed s testPassedInit, 0⟩ := by
  simp [dmaModuleInit, h, hf]

theorem dmaModuleInit_of_exhausted {answers : Fin m.transferCount → SetUpAnswers}
    (h : (m.createTransfers answers).2 = 0) {batch : Nat → List (Callback m.transferCount)}
    {s : ModuleState m.transferCount}
    (hf : m.pollLoop (m.createTransfers answers).1 batch = .exhausted s) :
    m.dmaModuleInit answers batch = ⟨0, 1⟩ := by
  simp [dmaModuleInit, h, hf, setTestPassed]

end Callbacks

section Concrete

variable (m : SingleChannelModule)

theorem createTransfers_grantAll : (m.createTransfers grantAll).2 = 0 :=
  setUpTransfers_succeeds.mpr grantAll_granted

theorem createTransfers_grantAll_buffers (k : Fin m.transferCount) :
    ((m.createTransfers grantAll).1 k).buffers =
      { srcBuf := 0x1000000 * (2 * k + 1), srcBufPhys := 0x1000000 * (2 * k + 1),
        destBuf := 0x1000000 * (2 * k + 2), destBufPhys := 0x1000000 * (2 * k + 2), bufSize := m.bufSize k } :=
  setUpTransfers_buffers m.createTransfers_grantAll k

variable [OmapDma]

def promptBatch (mem : Memory) (i : Nat) : List (Callback m.transferCount) :=
  if i = 0 then oneEach m.transferCount 0 mem else []

theorem pollLoop_promptBatch (mem : Memory) :
    m.pollLoop (m.createTransfers grantAll).1 (m.promptBatch mem) =
      .found 0 ((oneEach m.transferCount 0 mem).foldl m.dmaCallback
        (m.started (m.createTransfers grantAll).1)) := by
  refine Polling.poll_found_iff.mpr ⟨by decide, ?_, by simp, ?_⟩
  · rw [ready_iff (createTransfers_finished m.createTransfers_grantAll)]
    exact Polling.seen_first _ _ ▸ oneEach_allCalledBack _ 0 mem
  · exact congrArg (List.foldl _ _) (Polling.seen_first _ 1).symm

theorem lastAccepted_oneEach {mem : Memory} {transfers : Fin m.transferCount → DmaTransfer} :
    m.LastAccepted transfers (oneEach m.transferCount 0 mem) ↔
      ∀ k, m.Compared mem (transfers k).buffers := by
  simp [LastAccepted, lastCallback_oneEach]

end Concrete

end SingleChannelModule

end DeviceDriverTest
