import DeviceDriverTest.ArrayLoop
import DeviceDriverTest.DmaCallbacks

/-! The single channel helpers: how a transfer is requested, set up and
finished by its callback, and the two scans over an array of transfers. -/

namespace DeviceDriverTest

def Callback.Accepted [OmapDma] {n : Nat} (verify : Memory → DmaBuffersInfo → Int)
    (buffers : DmaBuffersInfo) (e : Callback n) : Prop :=
  statusAcceptable e.transferStatus = true ∧ verify e.mem buffers = 0

instance [OmapDma] {n : Nat} (verify : Memory → DmaBuffersInfo → Int) (buffers : DmaBuffersInfo)
    (e : Callback n) : Decidable (e.Accepted verify buffers) :=
  inferInstanceAs (Decidable (_ ∧ _))

namespace SingleChannel

/-- `struct dma_transfer` of the single channel tests. -/
structure DmaTransfer where
  elementsInFrame : Nat
  frameCount : Nat
  requestSuccess : Bool
  dataCorrect : Bool
  finished : Bool
  dataType : DataType
  transferId : Int
  buffers : DmaBuffersInfo
  deriving Inhabited

/-- What the kernel answers while one transfer is set up: the channel, if one
is granted, the two buffers, and their two bus addresses. -/
structure SetUpAnswers where
  channel : Option Int
  alloc : KmallocPair
  srcPhys : Nat
  destPhys : Nat

def requestDma (channel : Option Int) (transfer : DmaTransfer) : DmaTransfer × Int :=
  let transfer := { transfer with finished := false }
  match channel with
  | none => ({ transfer with requestSuccess := false }, 1)
  | some transferId => ({ transfer with transferId := transferId, requestSuccess := true }, 0)

def setupDmaTransfer (srcPhys destPhys : Nat) (transfer : DmaTransfer) : DmaTransfer :=
  let transfer := { transfer with
    frameCount := 1
    elementsInFrame := transfer.dataType.elementsInFrame transfer.buffers.bufSize }
  { transfer with buffers := mapToPhysBuffers srcPhys destPhys transfer.buffers }

def setUpTransfer (bufSize : Nat) (answers : SetUpAnswers) (transfer : DmaTransfer) :
    DmaTransfer × Int :=
  let transfer := { transfer with dataType := .s8, buffers := { transfer.buffers with bufSize := bufSize } }
  let (transfer, error) := requestDma answers.channel transfer
  if error ≠ 0 then (transfer, 1)
  else
    let (buffers, error) := createTransferBuffers answers.alloc transfer.buffers
    let transfer := { transfer with buffers := buffers }
    if error ≠ 0 then (transfer, 1)
    else (setupDmaTransfer answers.srcPhys answers.destPhys transfer, 0)

def setUpTransfers {n : Nat} (bufSize : Nat → Nat) (answers : Fin n → SetUpAnswers)
    (transfers : Fin n → DmaTransfer) : (Fin n → DmaTransfer) × Int :=
  ArrayLoop.sweep (fun i => setUpTransfer (bufSize i) (answers i)) transfers

def dmaCallbackWith [OmapDma] {n : Nat} (verify : Memory → DmaBuffersInfo → Int)
    (transfer : DmaTransfer) (e : Callback n) : DmaTransfer :=
  let transfer := { transfer with dataCorrect := false, finished := true }
  if statusAcceptable e.transferStatus then
    if verify e.mem transfer.buffers ≠ 0 then transfer else { transfer with dataCorrect := true }
  else transfer

def dmaCallback [OmapDma] {n : Nat} : DmaTransfer → Callback n → DmaTransfer :=
  dmaCallbackWith verifyBuffers

def getTransfersFinished {n : Nat} (transfers : Fin n → DmaTransfer) : Bool :=
  (List.finRange n).all fun i => (transfers i).finished

def checkLoop {n : Nat} (transfers : Fin n → DmaTransfer) : List (Fin n) → Int
  | [] => 0
  | i :: rest => if !(transfers i).dataCorrect then -(i : Int) else checkLoop transfers rest

def checkDmaTransferComplete {n : Nat} (transfers : Fin n → DmaTransfer) : Int :=
  checkLoop transfers (List.finRange n)

def SetUpAnswers.Granted (answers : SetUpAnswers) : Prop :=
  answers.channel ≠ none ∧ answers.alloc.src ≠ 0 ∧ answers.alloc.dest ≠ 0

theorem setUpTransfer_succeeds (bufSize : Nat) {answers : SetUpAnswers} (transfer : DmaTransfer) :
    (setUpTransfer bufSize answers transfer).2 = 0 ↔ answers.Granted := by
  unfold SetUpAnswers.Granted setUpTransfer requestDma
  cases answers.channel with
  | none => simp
  | some transferId =>
    rw [← createTransferBuffers_succeeds
      { transfer.buffers with bufSize := bufSize }]
    by_cases h : (createTransferBuffers answers.alloc
        { transfer.buffers with bufSize := bufSize }).2 = 0 <;> simp [h]

theorem setUpTransfer_finished {bufSize : Nat} {answers : SetUpAnswers} {transfer : DmaTransfer} :
    (setUpTransfer bufSize answers transfer).1.finished = false := by
  unfold setUpTransfer requestDma setupDmaTransfer
  cases answers.channel with
  | none => rfl
  | some transferId =>
    dsimp only
    split_ifs <;> rfl

def SetUpAnswers.buffers (answers : SetUpAnswers) (bufSize : Nat) : DmaBuffersInfo where
  srcBuf := answers.alloc.src
  srcBufPhys := answers.srcPhys
  destBuf := answers.alloc.dest
  destBufPhys := answers.destPhys
  bufSize := bufSize

theorem setUpTransfer_buffers {bufSize : Nat} {answers : SetUpAnswers} (h : answers.Granted)
    (transfer : DmaTransfer) :
    (setUpTransfer bufSize answers transfer).1.buffers = answers.buffers bufSize := by
  obtain ⟨hc, hs, hd⟩ := h
  obtain ⟨transferId, hc⟩ := Option.ne_none_iff_exists'.mp hc
  simp [setUpTransfer, requestDma, setupDmaTransfer, mapToPhysBuffers, createTransferBuffers,
    SetUpAnswers.buffers, hc, hs, hd]

theorem setUpTransfers_succeeds {n : Nat} {bufSize : Nat → Nat} {answers : Fin n → SetUpAnswers}
    {transfers : Fin n → DmaTransfer} :
    (setUpTransfers bufSize answers transfers).2 = 0 ↔ ∀ i, (answers i).Granted := by
  rw [setUpTransfers, ArrayLoop.sweep_succeeds_iff]
  exact forall_congr' fun i => setUpTransfer_succeeds (bufSize i) (transfers i)

theorem setUpTransfers_apply {n : Nat} {bufSize : Nat → Nat} {answers : Fin n → SetUpAnswers}
    {transfers : Fin n → DmaTransfer} (h : (setUpTransfers bufSize answers transfers).2 = 0) (k : Fin n) :
    (setUpTransfers bufSize answers transfers).1 k =
      (setUpTransfer (bufSize k) (answers k) (transfers k)).1 :=
  ArrayLoop.sweep_apply h k

theorem dmaCallbackWith_dataCorrect [OmapDma] {n : Nat} (verify : Memory → DmaBuffersInfo → Int)
    (transfer : DmaTransfer) (e : Callback n) :
    (dmaCallbackWith verify transfer e).dataCorrect = decide (e.Accepted verify transfer.buffers) := by
  unfold dmaCallbackWith Callback.Accepted
  by_cases hs : statusAcceptable e.transferStatus = true <;>
    by_cases hv : verify e.mem transfer.buffers = 0 <;> simp [hs, hv]

@[simp] theorem dmaCallbackWith_finished [OmapDma] {n : Nat} (verify : Memory → DmaBuffersInfo → Int)
    (transfer : DmaTransfer) (e : Callback n) :
    (dmaCallbackWith verify transfer e).finished = true := by
  unfold dmaCallbackWith
  dsimp only
  split_ifs <;> rfl

@[simp] theorem dmaCallbackWith_buffers [OmapDma] {n : Nat} (verify : Memory → DmaBuffersInfo → Int)
    (transfer : DmaTransfer) (e : Callback n) :
    (dmaCallbackWith verify transfer e).buffers = transfer.buffers := by
  unfold dmaCallbackWith
  dsimp only
  split_ifs <;> rfl

@[simp] theorem dmaCallbackWith_transferId [OmapDma] {n : Nat} (verify : Memory → DmaBuffersInfo → Int)
    (transfer : DmaTransfer) (e : Callback n) :
    (dmaCallbackWith verify transfer e).transferId = transfer.transferId := by
  unfold dmaCallbackWith
  dsimp only
  split_ifs <;> rfl

theorem getTransfersFinished_iff {n : Nat} {transfers : Fin n → DmaTransfer} :
    getTransfersFinished transfers = true ↔ ∀ k, (transfers k).finished = true := by
  simp [getTransfersFinished]

def grantAll {n : Nat} (i : Fin n) : SetUpAnswers where
  channel := some i
  alloc := { src := 0x1000000 * (2 * i + 1), dest := 0x1000000 * (2 * i + 2) }
  srcPhys := 0x1000000 * (2 * i + 1)
  destPhys := 0x1000000 * (2 * i + 2)

theorem grantAll_granted {n : Nat} (i : Fin n) : (grantAll i).Granted := by
  refine ⟨by simp [grantAll], ?_, ?_⟩
  · show 0x1000000 * (2 * (i : Nat) + 1) ≠ 0
    omega
  · show 0x1000000 * (2 * (i : Nat) + 2) ≠ 0
    omega

theorem setUpTransfers_finished {n : Nat} {bufSize : Nat → Nat} {answers : Fin n → SetUpAnswers}
    {transfers : Fin n → DmaTransfer} (h : (setUpTransfers bufSize answers transfers).2 = 0) (k : Fin n) :
    ((setUpTransfers bufSize answers transfers).1 k).finished = false := by
  rw [setUpTransfers_apply h, setUpTransfer_finished]

theorem setUpTransfers_buffers {n : Nat} {bufSize : Nat → Nat} {answers : Fin n → SetUpAnswers}
    {transfers : Fin n → DmaTransfer} (h : (setUpTransfers bufSize answers transfers).2 = 0) (k : Fin n) :
    ((setUpTransfers bufSize answers transfers).1 k).buffers = (answers k).buffers (bufSize k) := by
  have hk : (answers k).Granted := setUpTransfers_succeeds.mp h k
  rw [setUpTransfers_apply h, setUpTransfer_buffers hk]

theorem checkLoop_eq_zero_iff {n : Nat} {transfers : Fin n → DmaTransfer} {is : List (Fin n)}
    (h : ∀ i ∈ is, (i : Nat) ≠ 0) :
    checkLoop transfers is = 0 ↔ ∀ i ∈ is, (transfers i).dataCorrect = true := by
  induction is with
  | nil => simp [checkLoop]
  | cons i rest ih =>
    obtain ⟨hi, hrest⟩ := List.forall_mem_cons.mp h
    rw [checkLoop, List.forall_mem_cons]
    cases hd : (transfers i).dataCorrect with
    | true => simpa using ih hrest
    | false => simpa using hi

/-- The error code of a failure at index 0 is `-0`, the code of success. -/
theorem checkDmaTransferComplete_eq_zero_iff {n : Nat} {transfers : Fin (n + 1) → DmaTransfer} :
    checkDmaTransferComplete transfers = 0 ↔
      (transfers 0).dataCorrect = false ∨ ∀ k, (transfers k).dataCorrect = true := by
  have htail : ∀ i ∈ (List.finRange n).map Fin.succ, (i : Nat) ≠ 0 := by simp
  rw [checkDmaTransferComplete, List.finRange_succ, checkLoop]
  cases hd : (transfers 0).dataCorrect with
  | true =>
    have hloop := @checkLoop_eq_zero_iff _ transfers _ htail
    simp only [List.forall_mem_map, List.mem_finRange, forall_true_left] at hloop
    simp [hloop, Fin.forall_fin_succ, hd]
  | false => simp

section Runs

variable [OmapDma] {n : Nat} (verify : Memory → DmaBuffersInfo → Int)

theorem callbacks_finished (transfers : Fin n → DmaTransfer) (es : List (Callback n)) (k : Fin n) :
    ((es.foldl (KeyedFold.deliver Callback.data (dmaCallbackWith verify)) transfers) k).finished =
      ((transfers k).finished || (lastCallback k es).isSome) := by
  rw [KeyedFold.foldl_deliver_apply,
    KeyedFold.foldl_project_last (fun _ => True) DmaTransfer.finished (fun _ => true)
      (fun _ _ h => h) (fun _ _ _ => by simp) _ trivial, lastCallback]
  cases (KeyedFold.addressed Callback.data k es).getLast? <;> simp

theorem callbacks_transferId (transfers : Fin n → DmaTransfer) (es : List (Callback n)) (k : Fin n) :
    ((es.foldl (KeyedFold.deliver Callback.data (dmaCallbackWith verify)) transfers) k).transferId =
      (transfers k).transferId := by
  rw [KeyedFold.foldl_deliver_apply]
  exact KeyedFold.foldl_project_const (by simp) _ _

theorem callbacks_dataCorrect (transfers : Fin n → DmaTransfer) (es : List (Callback n)) (k : Fin n) :
    ((es.foldl (KeyedFold.deliver Callback.data (dmaCallbackWith verify)) transfers) k).dataCorrect =
      ((lastCallback k es).map fun e => decide (e.Accepted verify (transfers k).buffers)).getD
        (transfers k).dataCorrect := by
  rw [KeyedFold.foldl_deliver_apply]
  refine KeyedFold.foldl_project_last (fun t => t.buffers = (transfers k).buffers)
    DmaTransfer.dataCorrect _ (fun t e h => by simp [h]) (fun t e h => ?_) _ rfl
  rw [dmaCallbackWith_dataCorrect, h]

theorem callbacks_allFinished {transfers : Fin n → DmaTransfer}
    (h : ∀ k, (transfers k).finished = false) (es : List (Callback n)) :
    getTransfersFinished (es.foldl (KeyedFold.deliver Callback.data (dmaCallbackWith verify)) transfers) = true ↔
      AllCalledBack es := by
  rw [getTransfersFinished_iff]
  refine forall_congr' fun k => ?_
  rw [callbacks_finished, h, Bool.false_or, lastCallback_isSome_iff]

/-- Once every transfer has had a callback, the flags say what the last
callbacks found. -/
theorem callbacks_dataCorrect_iff (transfers : Fin n → DmaTransfer) {es : List (Callback n)} {k : Fin n}
    (h : ∃ e ∈ es, e.data = k) :
    ((es.foldl (KeyedFold.deliver Callback.data (dmaCallbackWith verify)) transfers) k).dataCorrect = true ↔
      ∃ e, lastCallback k es = some e ∧ e.Accepted verify (transfers k).buffers := by
  obtain ⟨e, he⟩ := Option.isSome_iff_exists.mp (lastCallback_isSome_iff.mpr h)
  rw [callbacks_dataCorrect, he]
  simp

end Runs

end SingleChannel

end DeviceDriverTest
