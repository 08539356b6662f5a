import DeviceDriverTest.DmaCallbacks

/-! The chain helpers: a chain and its transfers, how they are requested and
chained, and the callback that counts the rounds of a static chain. -/

namespace DeviceDriverTest

namespace Chain

/-- `struct dma_transfer` of the chain tests. -/
structure DmaTransfer where
  requestSuccess : Bool
  chainId : Int
  rounds : Nat
  elementsInFrame : Nat
  frameCount : Nat
  finished : Bool
  dataCorrect : Bool
  buffers : DmaBuffersInfo
  deriving Inhabited

structure DmaChain where
  channelCount : Nat
  chainId : Int
  requestSuccess : Bool
  finished : Bool
  dataType : DataType
  deriving Inhabited

/-- What the kernel answers while one transfer gets its buffers and is chained. -/
structure LinkAnswers where
  alloc : KmallocPair
  srcPhys : Nat
  destPhys : Nat
  chained : Bool

/-- One invocation of a callback that chains a further transfer: the status
word, the memory it finds, and the kernel's answers should it chain one. -/
structure LinkEvent where
  transferStatus : UInt16
  mem : Memory
  link : LinkAnswers

def verifyBuffersChain (mem : Memory) (buffers : DmaBuffersInfo) : Int :=
  verifyLoop 1 mem buffers.srcBuf buffers.destBuf buffers.bufSize

def createTransferBuffersChain (alloc : KmallocPair) (buffers : DmaBuffersInfo) : DmaBuffersInfo × Int :=
  let buffers := { buffers with srcBuf := alloc.src, destBuf := alloc.dest }
  if buffers.srcBuf = 0 then (buffers, 1)
  else if buffers.destBuf = 0 then (buffers, 1)
  else (buffers, 0)

def requestDmaChain (chainId : Option Int) (chain : DmaChain) : DmaChain × Int :=
  let chain := { chain with finished := false }
  match chainId with
  | none => ({ chain with requestSuccess := false }, 1)
  | some chainId => ({ chain with chainId := chainId, requestSuccess := true }, 0)

def chainTransfer (answers : LinkAnswers) (chain : DmaChain) (transfer : DmaTransfer) : DmaTransfer × Int :=
  let transfer := { transfer with
    finished := false
    dataCorrect := false
    frameCount := 1
    requestSuccess := false
    elementsInFrame := chain.dataType.elementsInFrame transfer.buffers.bufSize
    buffers := mapToPhysBuffers answers.srcPhys answers.destPhys transfer.buffers
    chainId := chain.chainId }
  if !answers.chained then (transfer, 1) else ({ transfer with requestSuccess := true }, 0)

/-- The buffers of a transfer are created and the transfer is chained, as the
modules and the callbacks do it. -/
def linkTransfer (bufSize : Nat) (answers : LinkAnswers) (chain : DmaChain) (transfer : DmaTransfer) :
    DmaTransfer × Int :=
  let (buffers, error) :=
    createTransferBuffersChain answers.alloc { transfer.buffers with bufSize := bufSize }
  let transfer := { transfer with buffers := buffers }
  if error ≠ 0 then (transfer, 1) else chainTransfer answers chain transfer

def dmaCallbackChain [OmapDma] {n : Nat} (maxRounds : Nat) (transfer : DmaTransfer) (e : Callback n) :
    DmaTransfer :=
  if transfer.rounds = maxRounds then transfer
  else
    let transfer := { transfer with
      rounds := transfer.rounds + 1, dataCorrect := false, finished := true }
    if statusAcceptable e.transferStatus then
      if verifyBuffersChain e.mem transfer.buffers ≠ 0 then { transfer with rounds := maxRounds }
      else { transfer with dataCorrect := true }
    else { transfer with rounds := maxRounds }

def checkLoop {Index : Type} (transfers : Index → DmaTransfer) : List Index → Int
  | [] => 0
  | i :: rest => if !(transfers i).dataCorrect then 1 else checkLoop transfers rest

def LinkAnswers.Granted (answers : LinkAnswers) : Prop :=
  answers.alloc.src ≠ 0 ∧ answers.alloc.dest ≠ 0 ∧ answers.chained = true

def LinkAnswers.Allocated (answers : LinkAnswers) : Prop :=
  answers.alloc.src ≠ 0 ∧ answers.alloc.dest ≠ 0

def LinkAnswers.buffers (answers : LinkAnswers) (bufSize : Nat) : DmaBuffersInfo where
  srcBuf := answers.alloc.src
  srcBufPhys := answers.srcPhys
  destBuf := answers.alloc.dest
  destBufPhys := answers.destPhys
  bufSize := bufSize

theorem checkLoop_eq_zero_iff {Index : Type} {transfers : Index → DmaTransfer} {is : List Index} :
    checkLoop transfers is = 0 ↔ ∀ i ∈ is, (transfers i).dataCorrect = true := by
  induction is with
  | nil => simp [checkLoop]
  | cons i rest ih =>
    rw [checkLoop, List.forall_mem_cons]
    cases (transfers i).dataCorrect with
    | true => simpa using ih
    | false => simp

theorem verifyBuffersChain_eq_zero {mem : Memory} {buffers : DmaBuffersInfo} :
    verifyBuffersChain mem buffers = 0 ↔ Matches mem buffers :=
  verifyBuffers_eq_zero

theorem createTransferBuffersChain_succeeds {alloc : KmallocPair} (buffers : DmaBuffersInfo) :
    (createTransferBuffersChain alloc buffers).2 = 0 ↔ alloc.src ≠ 0 ∧ alloc.dest ≠ 0 :=
  createTransferBuffers_succeeds buffers

theorem linkTransfer_cases (bufSize : Nat) (answers : LinkAnswers) (chain : DmaChain)
    (transfer : DmaTransfer) :
    (answers.Granted ∧ (linkTransfer bufSize answers chain transfer).2 = 0 ∧
      (linkTransfer bufSize answers chain transfer).1.dataCorrect = false ∧
      (linkTransfer bufSize answers chain transfer).1.rounds = transfer.rounds ∧
      (linkTransfer bufSize answers chain transfer).1.buffers = answers.buffers bufSize) ∨
    (¬ answers.Granted ∧ (linkTransfer bufSize answers chain transfer).2 ≠ 0 ∧
      ((linkTransfer bufSize answers chain transfer).1.dataCorrect = true →
        transfer.dataCorrect = true)) := by
  unfold LinkAnswers.Granted
  by_cases hs : answers.alloc.src = 0
  · right
    simp [linkTransfer, createTransferBuffersChain, hs]
  by_cases hd : answers.alloc.dest = 0
  · right
    simp [linkTransfer, createTransferBuffersChain, hs, hd]
  cases hc : answers.chained with
  | false =>
    right
    simp [linkTransfer, createTransferBuffersChain, chainTransfer, hs, hd, hc]
  | true =>
    left
    simp [linkTransfer, createTransferBuffersChain, chainTransfer, mapToPhysBuffers, LinkAnswers.buffers,
      hs, hd, hc]

theorem linkTransfer_succeeds {bufSize : Nat} {answers : LinkAnswers} {chain : DmaChain}
    {transfer : DmaTransfer} :
    (linkTransfer bufSize answers chain transfer).2 = 0 ↔ answers.Granted := by
  rcases linkTransfer_cases bufSize answers chain transfer with ⟨hg, hz, _⟩ | ⟨hg, hz, _⟩
  · exact iff_of_true hz hg
  · exact iff_of_false hz hg

/-- A kernel that grants the link of transfer `k`, each buffer in a page of its
own. -/
def pageLink (k : Nat) : LinkAnswers where
  alloc := { src := 4096 * (2 * k + 1), dest := 4096 * (2 * k + 2) }
  srcPhys := 4096 * (2 * k + 1)
  destPhys := 4096 * (2 * k + 2)
  chained := true

def pageBuffers (k : Nat) : DmaBuffersInfo := (pageLink k).buffers (1024 * 1)

theorem pageLink_granted (k : Nat) : (pageLink k).Granted := by
  refine ⟨?_, ?_, rfl⟩ <;> simp [pageLink]

theorem pageBuffers_disjoint (k : Nat) :
    (pageBuffers k).srcBuf + (pageBuffers k).bufSize ≤ (pageBuffers k).destBuf := by
  show 4096 * (2 * k + 1) + 1024 * 1 ≤ 4096 * (2 * k + 2)
  omega

/-- A callback of transfer `k` that finds its data moved; the kernel grants the
link of the next transfer. -/
def movedEvent (k : Nat) : LinkEvent where
  transferStatus := 0
  mem := copied (pageBuffers k) (fillSourceBuffer (pageBuffers k) fun _ => 0)
  link := pageLink (k + 1)

/-- A callback of transfer `k` that finds its destination never written. -/
def idleEvent (k : Nat) : LinkEvent where
  transferStatus := 0
  mem := fillSourceBuffer (pageBuffers k) fun _ => 0
  link := pageLink (k + 1)

theorem movedEvent_matches (k : Nat) : Matches (movedEvent k).mem (pageBuffers k) :=
  matches_copied _ (pageBuffers_disjoint k)

theorem idleEvent_differs (k : Nat) : ¬ Matches (idleEvent k).mem (pageBuffers k) := by
  have hsize : (pageBuffers k).bufSize = 1024 := rfl
  have hpos : 0 < (pageBuffers k).bufSize := by omega
  have hbyte : fillByte (pageBuffers k).bufSize 0 ≠ 0 := by
    rw [hsize]
    decide
  have hbad := not_matches_fill hpos (pageBuffers_disjoint k) hbyte
  simp only [idleEvent]
  exact hbad

end Chain

end DeviceDriverTest
