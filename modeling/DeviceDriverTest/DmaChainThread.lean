import DeviceDriverTest.Polling
import DeviceDriverTest.DmaVerdict
import DeviceDriverTest.DmaChainTransfer

/-! A worker of the threaded chain tests. Its callback marks the transfer that
`current_transfer` points to, and verifies and chains again the first one. -/

namespace DeviceDriverTest

namespace DmaChainThread

open Chain

inductive ChainThreadModule where
  | dmaChainThreadStress
  | dmaChainThreadAccess

def ChainThreadModule.transferCount : ChainThreadModule → Nat
  | dmaChainThreadStress => 14
  | dmaChainThreadAccess => 10

inductive Op where
  | map (k : Nat)
  | unmap (k : Nat)
  | submit (k : Nat)
  | compare (k : Nat) (equal : Bool)
  | mark (k : Nat)
  | stop
  deriving DecidableEq

/-- `struct chain_transfer`, with the operations of the current round. The entry
of `transfers` behind the array lies on fields of the chain that are only read
when the chain is requested. -/
structure ChainTransfer where
  transfers : Nat → DmaTransfer
  chain : DmaChain
  currentTransfer : Nat
  transferEnd : Bool
  trace : List Op

namespace ChainTransfer

def set (ct : ChainTransfer) (k : Nat) (transfer : DmaTransfer) : ChainTransfer :=
  { ct with transfers := Function.update ct.transfers k transfer }

def log (ct : ChainTransfer) (ops : List Op) : ChainTransfer :=
  { ct with trace := ct.trace ++ ops }

def mark (ct : ChainTransfer) (k : Nat) : ChainTransfer :=
  (ct.set k { ct.transfers k with dataCorrect := true }).log [.mark k]

def setFinished (ct : ChainTransfer) (k : Nat) : ChainTransfer :=
  ct.set k { ct.transfers k with finished := true }

def setBuffers (ct : ChainTransfer) (k : Nat) (buffers : DmaBuffersInfo) : ChainTransfer :=
  ct.set k { ct.transfers k with buffers := buffers }

def ended (ct : ChainTransfer) : ChainTransfer :=
  { ct with transferEnd := true }

def advance (ct : ChainTransfer) : ChainTransfer :=
  { ct with currentTransfer := ct.currentTransfer + 1 }

variable (ct : ChainTransfer) (j k : Nat)

@[simp] theorem log_fields (ops : List Op) : (ct.log ops).transfers = ct.transfers ∧
    (ct.log ops).chain = ct.chain ∧ (ct.log ops).currentTransfer = ct.currentTransfer ∧
    (ct.log ops).transferEnd = ct.transferEnd ∧ (ct.log ops).trace = ct.trace ++ ops :=
  ⟨rfl, rfl, rfl, rfl, rfl⟩

@[simp] theorem set_fields (transfer : DmaTransfer) : (ct.set k transfer).chain = ct.chain ∧
    (ct.set k transfer).currentTransfer = ct.currentTransfer ∧
    (ct.set k transfer).transferEnd = ct.transferEnd ∧ (ct.set k transfer).trace = ct.trace :=
  ⟨rfl, rfl, rfl, rfl⟩

@[simp] theorem ended_fields : ct.ended.transfers = ct.transfers ∧
    ct.ended.currentTransfer = ct.currentTransfer ∧ ct.ended.transferEnd = true ∧
    ct.ended.trace = ct.trace :=
  ⟨rfl, rfl, rfl, rfl⟩

@[simp] theorem advance_fields : ct.advance.transfers = ct.transfers ∧ ct.advance.chain = ct.chain ∧
    ct.advance.currentTransfer = ct.currentTransfer + 1 ∧ ct.advance.transferEnd = ct.transferEnd ∧
    ct.advance.trace = ct.trace :=
  ⟨rfl, rfl, rfl, rfl, rfl⟩

@[simp] theorem mark_fields : (ct.mark k).chain = ct.chain ∧
    (ct.mark k).currentTransfer = ct.currentTransfer ∧ (ct.mark k).transferEnd = ct.transferEnd ∧
    (ct.mark k).trace = ct.trace ++ [.mark k] :=
  ⟨rfl, rfl, rfl, rfl⟩

@[simp] theorem setFinished_fields : (ct.setFinished k).chain = ct.chain ∧
    (ct.setFinished k).currentTransfer = ct.currentTransfer ∧
    (ct.setFinished k).transferEnd = ct.transferEnd ∧ (ct.setFinished k).trace = ct.trace :=
  ⟨rfl, rfl, rfl, rfl⟩

@[simp] theorem setBuffers_fields (buffers : DmaBuffersInfo) : (ct.setBuffers k buffers).chain = ct.chain ∧
    (ct.setBuffers k buffers).currentTransfer = ct.currentTransfer ∧
    (ct.setBuffers k buffers).transferEnd = ct.transferEnd ∧ (ct.setBuffers k buffers).trace = ct.trace :=
  ⟨rfl, rfl, rfl, rfl⟩

theorem set_transfers (transfer : DmaTransfer) :
    (ct.set k transfer).transfers j = if j = k then transfer else ct.transfers j :=
  Function.update_apply ct.transfers k transfer j

@[simp] theorem mark_dataCorrect :
    ((ct.mark k).transfers j).dataCorrect = (decide (j = k) || (ct.transfers j).dataCorrect) := by
  rw [mark, (log_fields _ _).1, set_transfers]
  by_cases h : j = k <;> simp [h]

@[simp] theorem mark_buffers : ((ct.mark k).transfers j).buffers = (ct.transfers j).buffers := by
  rw [mark, (log_fields _ _).1, set_transfers]
  by_cases h : j = k <;> simp [h]

@[simp] theorem setFinished_dataCorrect :
    ((ct.setFinished k).transfers j).dataCorrect = (ct.transfers j).dataCorrect := by
  rw [setFinished, set_transfers]
  by_cases h : j = k <;> simp [h]

@[simp] theorem setFinished_buffers : ((ct.setFinished k).transfers j).buffers = (ct.transfers j).buffers := by
  rw [setFinished, set_transfers]
  by_cases h : j = k <;> simp [h]

@[simp] theorem setBuffers_dataCorrect (buffers : DmaBuffersInfo) :
    ((ct.setBuffers k buffers).transfers j).dataCorrect = (ct.transfers j).dataCorrect := by
  rw [setBuffers, set_transfers]
  by_cases h : j = k <;> simp [h]

@[simp] theorem setBuffers_buffers (buffers : DmaBuffersInfo) :
    ((ct.setBuffers k buffers).transfers j).buffers = if j = k then buffers else (ct.transfers j).buffers := by
  rw [setBuffers, set_transfers]
  by_cases h : j = k <;> simp [h]

end ChainTransfer

structure WorkerResult where
  testPassed : Int
  counted : Bool
  returnCode : Int
  ct : ChainTransfer

def checkTestPassed (n : Nat) (transfers : Nat → DmaTransfer) (testPassed : Int) : Int :=
  if checkLoop transfers (List.range n) = 0 then setTestPassedChain testPassed 1
  else setTestPassedChain testPassed 0

/-- `chain_transfer` for the first transfer of the array. -/
def chainFirst (answers : LinkAnswers) (ct : ChainTransfer) : ChainTransfer × Int :=
  let (transfer, error) := chainTransfer answers ct.chain (ct.transfers 0)
  ((ct.set 0 transfer).log [.map 0, .submit 0], error)

/-- The transfer that is chained again is the first of the array too. -/
def dynamicChainTransfer (answers : LinkAnswers) (ct : ChainTransfer) : ChainTransfer × Int :=
  chainFirst answers ct

section Worker

variable [OmapDma]

def dmaCallbackChain (n : Nat) (ct : ChainTransfer) (e : LinkEvent) : ChainTransfer :=
  let ct := (ct.mark 0).setFinished 0
  if ct.currentTransfer = n then (ct.log [.stop]).ended
  else
    let ct := ct.log [.unmap 0, .unmap 0]
    if statusAcceptable e.transferStatus then
      let error := verifyBuffersChain e.mem (ct.transfers 0).buffers
      let ct := ct.log [.compare 0 (error == 0)]
      if error ≠ 0 then ct.ended
      else
        let ct := (ct.mark ct.currentTransfer).advance
        let (buffers, error) := createTransferBuffersChain e.link.alloc
          { (ct.transfers ct.currentTransfer).buffers with bufSize := 1024 * 1 }
        let ct := ct.setBuffers ct.currentTransfer buffers
        if error ≠ 0 then ct.ended
        else
          let (ct, error) := dynamicChainTransfer e.link ct
          if error ≠ 0 then ct.ended else ct
    else ct.ended

/-- The set-up of a round: the chain is requested, the first transfer gets its
buffers and is chained, and `current_transfer` is reset. -/
def setUpRound (n : Nat) (chainId : Option Int) (link : LinkAnswers) (ct : ChainTransfer) :
    ChainTransfer × Int :=
  let ct := { ct with trace := [], chain := { ct.chain with dataType := .s8, channelCount := n } }
  let (chain, error) := requestDmaChain chainId ct.chain
  let ct := { ct with chain := chain }
  if error ≠ 0 then (ct, 1)
  else
    let (buffers, error) :=
      createTransferBuffersChain link.alloc { (ct.transfers 0).buffers with bufSize := 1024 * 1 }
    let ct := ct.setBuffers 0 buffers
    if error ≠ 0 then (ct, 1)
    else
      let (ct, error) := chainFirst link ct
      if error ≠ 0 then (ct, 1) else ({ ct with currentTransfer := 0 }, 0)

def pollLoop (n : Nat) (ct : ChainTransfer) (batch : Nat → List LinkEvent) : Polling.Outcome ChainTransfer :=
  Polling.poll ChainTransfer.transferEnd (dmaCallbackChain n) batch transferPollCount ct

def dmaChainThreadEntry (n : Nat) (chainId : Option Int) (link : LinkAnswers)
    (batch : Nat → List LinkEvent) (ct : ChainTransfer) (testPassed : Int) : WorkerResult :=
  let (ct, error) := setUpRound n chainId link ct
  if error ≠ 0 then ⟨setTestPassedChain testPassed 0, false, 1, ct⟩
  else
    match pollLoop n ct batch with
    | .found _ ct => ⟨checkTestPassed n ct.transfers testPassed, true, 0, ct⟩
    | .exhausted ct => ⟨setTestPassedChain testPassed 0, false, 1, ct⟩

end Worker

def SameData (b b' : DmaBuffersInfo) : Prop :=
  b.srcBuf = b'.srcBuf ∧ b.destBuf = b'.destBuf ∧ b.bufSize = b'.bufSize

theorem SameData.verifyBuffersChain_eq {b b' : DmaBuffersInfo} (h : SameData b b') (mem : Memory) :
    verifyBuffersChain mem b = verifyBuffersChain mem b' := by
  obtain ⟨hs, hd, hn⟩ := h
  rw [verifyBuffersChain, verifyBuffersChain, hs, hd, hn]

theorem chainFirst_effect (answers : LinkAnswers) (ct : ChainTransfer) :
    (chainFirst answers ct).1.currentTransfer = ct.currentTransfer ∧
      (chainFirst answers ct).1.transferEnd = ct.transferEnd ∧
      (chainFirst answers ct).1.trace = ct.trace ++ [.map 0, .submit 0] ∧
      ((chainFirst answers ct).2 = 0 ↔ answers.chained = true) ∧
      ((chainFirst answers ct).1.transfers 0).dataCorrect = false ∧
      SameData ((chainFirst answers ct).1.transfers 0).buffers (ct.transfers 0).buffers ∧
      ∀ k ≠ 0, (chainFirst answers ct).1.transfers k = ct.transfers k := by
  refine ⟨rfl, rfl, rfl, ?_, ?_, ?_, fun k hk => Function.update_of_ne hk _ _⟩
  all_goals
    cases hc : answers.chained <;>
      simp [chainFirst, chainTransfer, hc, ChainTransfer.set_transfers, SameData, mapToPhysBuffers]

def FirstOnly (ops : List Op) : Prop :=
  ∀ k ≠ 0, Op.submit k ∉ ops ∧ ∀ equal, Op.compare k equal ∉ ops

theorem FirstOnly.append {ops ops' : List Op} (h : FirstOnly ops) (h' : FirstOnly ops') :
    FirstOnly (ops ++ ops') := by
  intro k hk
  refine ⟨fun hmem => ?_, fun equal hmem => ?_⟩
  · rcases List.mem_append.mp hmem with hmem | hmem
    · exact (h k hk).1 hmem
    · exact (h' k hk).1 hmem
  · rcases List.mem_append.mp hmem with hmem | hmem
    · exact (h k hk).2 equal hmem
    · exact (h' k hk).2 equal hmem

/-- Every transfer is submitted with its own buffers and then compared equal,
and no transfer is marked without a comparison of its own. -/
def OwnVerified (n : Nat) (trace : List Op) : Prop :=
  (∀ k < n, List.Sublist [.submit k, .compare k true] trace) ∧
    ∀ k before after, trace = before ++ .mark k :: after → .compare k true ∈ before

theorem FirstOnly.not_ownVerified {n : Nat} {trace : List Op} (h : FirstOnly trace) (hn : 1 < n) :
    ¬ OwnVerified n trace := by
  rintro ⟨hown, _⟩
  have hsub := (hown 1 hn).subset (List.mem_cons_self (a := Op.submit 1))
  exact (h 1 (by decide)).1 hsub

/-- What a callback with good data has done when the buffers of the next transfer
were asked for, with the answer. -/
def verifiedStep (ct : ChainTransfer) (e : LinkEvent) : ChainTransfer × Int :=
  let ct := (((ct.mark 0).setFinished 0).log [.unmap 0, .unmap 0]).log [.compare 0 true]
  let ct := (ct.mark ct.currentTransfer).advance
  let (buffers, error) := createTransferBuffersChain e.link.alloc
    { (ct.transfers ct.currentTransfer).buffers with bufSize := 1024 * 1 }
  (ct.setBuffers ct.currentTransfer buffers, error)

theorem verifiedStep_effect (ct : ChainTransfer) (e : LinkEvent) :
    (verifiedStep ct e).1.currentTransfer = ct.currentTransfer + 1 ∧
      (verifiedStep ct e).1.transferEnd = ct.transferEnd ∧
      (verifiedStep ct e).1.trace = ct.trace ++
        [.mark 0, .unmap 0, .unmap 0, .compare 0 true, .mark ct.currentTransfer] ∧
      SameData ((verifiedStep ct e).1.transfers 0).buffers (ct.transfers 0).buffers ∧
      (∀ k, ((verifiedStep ct e).1.transfers k).dataCorrect =
        (decide (k = ct.currentTransfer) || (decide (k = 0) || (ct.transfers k).dataCorrect))) ∧
      ((verifiedStep ct e).2 = 0 ↔ e.link.Allocated) := by
  refine ⟨?_, ?_, ?_, ?_, ?_, createTransferBuffersChain_succeeds _⟩
  all_goals simp [verifiedStep, SameData]

section Callbacks

variable [OmapDma]

def good (b : DmaBuffersInfo) (e : LinkEvent) : Bool :=
  statusAcceptable e.transferStatus && verifyBuffersChain e.mem b == 0

structure Effect (n : Nat) (ct : ChainTransfer) (e : LinkEvent) (ct' : ChainTransfer) : Prop where
  currentTransfer : ct'.currentTransfer =
    if ct.currentTransfer ≠ n ∧ good (ct.transfers 0).buffers e = true then ct.currentTransfer + 1
    else ct.currentTransfer
  transferEnd : ct'.transferEnd = true ↔ ct.transferEnd = true ∨ ct.currentTransfer = n ∨
    ¬ (good (ct.transfers 0).buffers e = true ∧ e.link.Granted)
  dataCorrect_zero : (ct'.transfers 0).dataCorrect = true ↔
    ¬ (ct.currentTransfer ≠ n ∧ good (ct.transfers 0).buffers e = true ∧ e.link.Allocated)
  dataCorrect : ∀ k ≠ 0, (ct'.transfers k).dataCorrect = true ↔ (ct.transfers k).dataCorrect = true ∨
    ct.currentTransfer ≠ n ∧ good (ct.transfers 0).buffers e = true ∧ k = ct.currentTransfer
  buffers : SameData (ct'.transfers 0).buffers (ct.transfers 0).buffers
  trace : ∃ ops, ct'.trace = ct.trace ++ ops ∧ FirstOnly ops

theorem effect_full {n : Nat} {ct : ChainTransfer} (e : LinkEvent) (hn : ct.currentTransfer = n) :
    Effect n ct e (dmaCallbackChain n ct e) := by
  have heq : dmaCallbackChain n ct e = (((ct.mark 0).setFinished 0).log [.stop]).ended := by
    simp [dmaCallbackChain, hn]
  rw [heq]
  constructor
  case trace => exact ⟨[.mark 0, .stop], by simp, by simp [FirstOnly]⟩
  case dataCorrect => intro k hk; simp [hn, hk]
  all_goals simp [hn, SameData]

theorem effect_rejected {n : Nat} {ct : ChainTransfer} {e : LinkEvent} (hn : ct.currentTransfer ≠ n)
    (hg : good (ct.transfers 0).buffers e = false) : Effect n ct e (dmaCallbackChain n ct e) := by
  have heq : ∃ ops, dmaCallbackChain n ct e = (((ct.mark 0).setFinished 0).log ops).ended ∧
      FirstOnly ops := by
    by_cases hs : statusAcceptable e.transferStatus = true
    · have hz : verifyBuffersChain e.mem (ct.transfers 0).buffers ≠ 0 := by
        simpa [good, hs] using hg
      have hb : (verifyBuffersChain e.mem (ct.transfers 0).buffers == 0) = false := by simpa using hz
      refine ⟨[.unmap 0, .unmap 0, .compare 0 false], ?_, by simp [FirstOnly]⟩
      simp [dmaCallbackChain, hn, hs, hz, hb, ChainTransfer.log]
    · exact ⟨[.unmap 0, .unmap 0], by simp [dmaCallbackChain, hn, hs], by simp [FirstOnly]⟩
  obtain ⟨ops, heq, hops⟩ := heq
  rw [heq]
  constructor
  case trace => exact ⟨.mark 0 :: ops, by simp, fun k hk => by simpa using hops k hk⟩
  case dataCorrect => intro k hk; simp [hk, hg]
  all_goals simp [hn, hg, SameData]

theorem dmaCallbackChain_accepted {n : Nat} {ct : ChainTransfer} {e : LinkEvent}
    (hn : ct.currentTransfer ≠ n) (hg : good (ct.transfers 0).buffers e = true) :
    dmaCallbackChain n ct e =
      if (verifiedStep ct e).2 ≠ 0 then (verifiedStep ct e).1.ended
      else if (dynamicChainTransfer e.link (verifiedStep ct e).1).2 ≠ 0 then
        (dynamicChainTransfer e.link (verifiedStep ct e).1).1.ended
      else (dynamicChainTransfer e.link (verifiedStep ct e).1).1 := by
  obtain ⟨hs, hz⟩ : statusAcceptable e.transferStatus = true ∧
      verifyBuffersChain e.mem (ct.transfers 0).buffers = 0 := by
    simpa [good] using hg
  simp [dmaCallbackChain, hn, hs, hz, verifiedStep]

theorem effect_refused {n : Nat} {ct : ChainTransfer} {e : LinkEvent} (hn : ct.currentTransfer ≠ n)
    (hg : good (ct.transfers 0).buffers e = true) (ha : ¬ e.link.Allocated) :
    Effect n ct e (dmaCallbackChain n ct e) := by
  obtain ⟨hcur, _, htrace, hdata, hmarks, hcreated⟩ := verifiedStep_effect ct e
  rw [dmaCallbackChain_accepted hn hg, if_pos fun h => ha (hcreated.mp h)]
  have hng : ¬ e.link.Granted := fun h => ha ⟨h.1, h.2.1⟩
  constructor
  case currentTransfer => simp [hcur, hn, hg]
  case transferEnd => simp [hng]
  case dataCorrect_zero => simp [hmarks, ha]
  case dataCorrect =>
    intro k hk
    simp [hmarks, hk, hn, hg, or_comm]
  case buffers => simpa using hdata
  case trace => exact ⟨_, by simpa using htrace, fun k hk => by simp [hk]⟩

/-- The transfer that is chained again is the first one, and only the answer to
that decides whether the chain ends. -/
theorem dmaCallbackChain_linked {n : Nat} {ct : ChainTransfer} {e : LinkEvent}
    (hn : ct.currentTransfer ≠ n) (hg : good (ct.transfers 0).buffers e = true) (ha : e.link.Allocated) :
    (dmaCallbackChain n ct e).currentTransfer = ct.currentTransfer + 1 ∧
      ((dmaCallbackChain n ct e).transferEnd = true ↔ ct.transferEnd = true ∨ ¬ e.link.chained = true) ∧
      (dmaCallbackChain n ct e).transfers = (chainFirst e.link (verifiedStep ct e).1).1.transfers ∧
      (dmaCallbackChain n ct e).trace = (chainFirst e.link (verifiedStep ct e).1).1.trace := by
  obtain ⟨hcur, hend, _, _, _, hcreated⟩ := verifiedStep_effect ct e
  obtain ⟨hcur', hend', _, herror, _⟩ := chainFirst_effect e.link (verifiedStep ct e).1
  rw [dmaCallbackChain_accepted hn hg, if_neg (not_not.mpr (hcreated.mpr ha)), dynamicChainTransfer]
  by_cases hc : e.link.chained = true
  · rw [if_neg (not_not.mpr (herror.mpr hc))]
    exact ⟨hcur'.trans hcur, by simp [hend', hend, hc], rfl, rfl⟩
  · rw [if_pos fun h => hc (herror.mp h)]
    exact ⟨hcur'.trans hcur, by simp [hc], rfl, rfl⟩

theorem effect_linked {n : Nat} {ct : ChainTransfer} {e : LinkEvent} (hn : ct.currentTransfer ≠ n)
    (hg : good (ct.transfers 0).buffers e = true) (ha : e.link.Allocated) :
    Effect n ct e (dmaCallbackChain n ct e) := by
  obtain ⟨_, _, htrace, hdata, hmarks, _⟩ := verifiedStep_effect ct e
  obtain ⟨_, _, htrace', _, hzero, hdata', hkeep⟩ := chainFirst_effect e.link (verifiedStep ct e).1
  obtain ⟨hcur, hend, htransfers, hops⟩ := dmaCallbackChain_linked hn hg ha
  obtain ⟨hsrc, hdest⟩ := ha
  constructor
  case currentTransfer => simp [hcur, hn, hg]
  case transferEnd => rw [hend]; simp [hn, hg, LinkAnswers.Granted, hsrc, hdest]
  case dataCorrect_zero => rw [htransfers, hzero]; simp [hn, hg, LinkAnswers.Allocated, hsrc, hdest]
  case dataCorrect =>
    intro k hk
    rw [htransfers, hkeep k hk, hmarks]
    simp [hk, hn, hg, or_comm]
  case buffers =>
    rw [htransfers]
    exact ⟨hdata'.1.trans hdata.1, hdata'.2.1.trans hdata.2.1, hdata'.2.2.trans hdata.2.2⟩
  case trace =>
    rw [hops, htrace', htrace]
    exact ⟨_, List.append_assoc _ _ _, fun k hk => by simp [hk]⟩

theorem dmaCallbackChain_effect (n : Nat) (ct : ChainTransfer) (e : LinkEvent) :
    Effect n ct e (dmaCallbackChain n ct e) := by
  by_cases hn : ct.currentTransfer = n
  · exact effect_full e hn
  · cases hg : good (ct.transfers 0).buffers e with
    | false => exact effect_rejected hn hg
    | true =>
      by_cases ha : e.link.Allocated
      · exact effect_linked hn hg ha
      · exact effect_refused hn hg ha

def Passing (b : DmaBuffersInfo) (e : LinkEvent) : Prop :=
  good b e = true ∧ e.link.Granted

/-- The callbacks of a round end it: there is one too many, or one that does
not get through. -/
def Ended (n : Nat) (b : DmaBuffersInfo) (es : List LinkEvent) : Prop :=
  n < es.length ∨ ∃ e ∈ es, ¬ Passing b e

/-- The first transfer is left unmarked: no callback has come, or the last one
chained it again. -/
def LeavesFirstUnmarked (n : Nat) (b : DmaBuffersInfo) (es : List LinkEvent) : Prop :=
  es = [] ∨ ∃ before last, es = before ++ [last] ∧ before.countP (good b) < n ∧
    good b last = true ∧ last.link.Allocated

/-- The state of a worker after the callbacks `es` of a round, against the state
`ct` in which the round was started. -/
structure After (n : Nat) (b : DmaBuffersInfo) (ct : ChainTransfer) (es : List LinkEvent)
    (ct' : ChainTransfer) : Prop where
  currentTransfer : ct'.currentTransfer = min n (es.countP (good b))
  transferEnd : ct'.transferEnd = true ↔ ct.transferEnd = true ∨ Ended n b es
  first : (ct'.transfers 0).dataCorrect = true ↔ ¬ LeavesFirstUnmarked n b es
  others : ∀ k ≠ 0, k < n → ((ct'.transfers k).dataCorrect = true ↔
    (ct.transfers k).dataCorrect = true ∨ k < es.countP (good b))
  buffers : SameData (ct'.transfers 0).buffers b

theorem good_congr {b b' : DmaBuffersInfo} (h : SameData b b') (e : LinkEvent) : good b e = good b' e := by
  rw [good, good, h.verifyBuffersChain_eq]

theorem ended_append {n : Nat} {b : DmaBuffersInfo} {es : List LinkEvent} {e : LinkEvent} :
    Ended n b (es ++ [e]) ↔ Ended n b es ∨ min n (es.countP (good b)) = n ∨ ¬ Passing b e := by
  have hle : es.countP (good b) ≤ es.length := List.countP_le_length
  unfold Ended
  constructor
  · rintro (hlen | ⟨x, hx, hbad⟩)
    · by_cases hall : ∀ x ∈ es, Passing b x
      · have heq : es.countP (good b) = es.length := List.countP_eq_length.mpr fun x hx => (hall x hx).1
        rw [List.length_append, List.length_singleton] at hlen
        exact .inr (.inl (by omega))
      · obtain ⟨x, hx⟩ := not_forall.mp hall
        exact .inl (.inr ⟨x, by_contra fun h => hx fun h' => absurd h' h, fun h => hx fun _ => h⟩)
    · rcases List.mem_append.mp hx with hx | hx
      · exact .inl (.inr ⟨x, hx, hbad⟩)
      · rw [List.mem_singleton.mp hx] at hbad
        exact .inr (.inr hbad)
  · rintro ((hlen | ⟨x, hx, hbad⟩) | hfull | hbad)
    · left
      rw [List.length_append]
      omega
    · exact .inr ⟨x, List.mem_append_left _ hx, hbad⟩
    · left
      rw [List.length_append, List.length_singleton]
      omega
    · exact .inr ⟨e, by simp, hbad⟩

theorem leavesFirstUnmarked_append {n : Nat} {b : DmaBuffersInfo} {es : List LinkEvent} {e : LinkEvent} :
    LeavesFirstUnmarked n b (es ++ [e]) ↔
      min n (es.countP (good b)) ≠ n ∧ good b e = true ∧ e.link.Allocated := by
  constructor
  · rintro (hnil | ⟨before, last, heq, hlt, hgood, halloc⟩)
    · simp at hnil
    · obtain ⟨rfl, hlast⟩ := List.append_inj' heq rfl
      cases hlast
      exact ⟨by omega, hgood, halloc⟩
  · rintro ⟨hlt, hgood, halloc⟩
    exact .inr ⟨es, e, rfl, by omega, hgood, halloc⟩

theorem After.step {n : Nat} {b : DmaBuffersInfo} {ct ct' : ChainTransfer} {es : List LinkEvent}
    (h : After n b ct es ct') (e : LinkEvent) : After n b ct (es ++ [e]) (dmaCallbackChain n ct' e) := by
  have heff := dmaCallbackChain_effect n ct' e
  have hgood := good_congr h.buffers e
  have hcount : (es ++ [e]).countP (good b) = es.countP (good b) + if good b e = true then 1 else 0 := by
    rw [List.countP_append, List.countP_singleton]
  constructor
  case currentTransfer =>
    rw [heff.currentTransfer, hgood, h.currentTransfer, hcount]
    cases good b e with
    | true =>
      simp only [and_true, if_true]
      split_ifs <;> omega
    | false => simp
  case transferEnd =>
    rw [heff.transferEnd, hgood, h.currentTransfer, h.transferEnd, ended_append, or_assoc]
    rfl
  case first => rw [heff.dataCorrect_zero, hgood, h.currentTransfer, leavesFirstUnmarked_append]
  case others =>
    intro k hk hkn
    rw [heff.dataCorrect k hk, hgood, h.currentTransfer, h.others k hk hkn, hcount, or_assoc]
    refine or_congr_right ?_
    cases good b e with
    | true =>
      simp only [if_true, true_and]
      omega
    | false => simp
  case buffers =>
    obtain ⟨hs, hd, hn⟩ := heff.buffers
    exact ⟨hs.trans h.buffers.1, hd.trans h.buffers.2.1, hn.trans h.buffers.2.2⟩

theorem After.run {n : Nat} {b : DmaBuffersInfo} {ct : ChainTransfer} (h : After n b ct [] ct)
    (es : List LinkEvent) : After n b ct es (es.foldl (dmaCallbackChain n) ct) := by
  induction es using List.reverseRecOn with
  | nil => exact h
  | append_singleton es e ih =>
    rw [List.foldl_append, List.foldl_cons, List.foldl_nil]
    exact ih.step e

theorem foldl_firstOnly {n : Nat} {ct : ChainTransfer} (h : FirstOnly ct.trace) (es : List LinkEvent) :
    FirstOnly (es.foldl (dmaCallbackChain n) ct).trace := by
  induction es generalizing ct with
  | nil => exact h
  | cons e es ih =>
    obtain ⟨ops, heq, hops⟩ := (dmaCallbackChain_effect n ct e).trace
    apply ih
    rw [heq]
    exact h.append hops

end Callbacks

section SetUp

variable {n : Nat} {chainId : Option Int} {link : LinkAnswers} {ct : ChainTransfer}

theorem setUpRound_succeeds : (setUpRound n chainId link ct).2 = 0 ↔ chainId ≠ none ∧ link.Granted := by
  cases chainId with
  | none => simp [setUpRound, requestDmaChain]
  | some chainId =>
    by_cases hs : link.alloc.src = 0
    · simp [setUpRound, requestDmaChain, createTransferBuffersChain, hs, LinkAnswers.Granted]
    by_cases hd : link.alloc.dest = 0
    · simp [setUpRound, requestDmaChain, createTransferBuffersChain, hs, hd, LinkAnswers.Granted]
    cases hc : link.chained <;>
      simp [setUpRound, requestDmaChain, createTransferBuffersChain, chainFirst, chainTransfer, hs, hd, hc,
        LinkAnswers.Granted]

theorem setUpRound_firstOnly : FirstOnly (setUpRound n chainId link ct).1.trace := by
  cases chainId with
  | none => simp [setUpRound, requestDmaChain, FirstOnly]
  | some chainId =>
    unfold setUpRound
    dsimp only [requestDmaChain]
    split_ifs <;> simp [FirstOnly, chainFirst]

theorem setUpRound_fields (h : (setUpRound n chainId link ct).2 = 0) :
    (setUpRound n chainId link ct).1.currentTransfer = 0 ∧
      (setUpRound n chainId link ct).1.transferEnd = ct.transferEnd ∧
      ((setUpRound n chainId link ct).1.transfers 0).dataCorrect = false ∧
      SameData ((setUpRound n chainId link ct).1.transfers 0).buffers (link.buffers (1024 * 1)) ∧
      ∀ k ≠ 0, ((setUpRound n chainId link ct).1.transfers k).dataCorrect = (ct.transfers k).dataCorrect := by
  obtain ⟨hid, hs, hd, hc⟩ := setUpRound_succeeds.mp h
  obtain ⟨chainId, rfl⟩ := Option.ne_none_iff_exists'.mp hid
  refine ⟨?_, ?_, ?_, ?_, fun k hk => ?_⟩
  case refine_5 =>
    simp [setUpRound, requestDmaChain, createTransferBuffersChain, chainFirst, chainTransfer, hs, hd, hc,
      ChainTransfer.set_transfers, hk]
  all_goals
    simp [setUpRound, requestDmaChain, createTransferBuffersChain, chainFirst, chainTransfer, hs, hd, hc,
      ChainTransfer.set_transfers, SameData, mapToPhysBuffers, LinkAnswers.buffers]

variable [OmapDma]

theorem setUpRound_after (h : (setUpRound n chainId link ct).2 = 0) :
    After n (link.buffers (1024 * 1)) (setUpRound n chainId link ct).1 [] (setUpRound n chainId link ct).1 := by
  obtain ⟨hcur, _, hfirst, hdata, _⟩ := setUpRound_fields h
  constructor
  case currentTransfer => simp [hcur]
  case transferEnd => simp [Ended]
  case first => simp [hfirst, LeavesFirstUnmarked]
  case others => simp
  case buffers => exact hdata

/-- The poll at which a worker stops waiting, from the callbacks of its round and
what the round before left in `transfer_end`. -/
def StopsAt (n : Nat) (b : DmaBuffersInfo) (transferEnd : Bool) (batch : Nat → List LinkEvent) (p : Nat) :
    Prop :=
  p < transferPollCount ∧ (transferEnd = true ∨ Ended n b (Polling.seen batch p)) ∧
    ∀ q < p, ¬ (transferEnd = true ∨ Ended n b (Polling.seen batch q))

theorem pollLoop_found_iff (h : (setUpRound n chainId link ct).2 = 0) {batch : Nat → List LinkEvent} {p : Nat}
    {s : ChainTransfer} :
    pollLoop n (setUpRound n chainId link ct).1 batch = .found p s ↔
      StopsAt n (link.buffers (1024 * 1)) ct.transferEnd batch p ∧
      s = (Polling.seen batch (p + 1)).foldl (dmaCallbackChain n) (setUpRound n chainId link ct).1 := by
  have hready : ∀ q, ((Polling.seen batch q).foldl (dmaCallbackChain n)
      (setUpRound n chainId link ct).1).transferEnd = true ↔
      ct.transferEnd = true ∨ Ended n (link.buffers (1024 * 1)) (Polling.seen batch q) := by
    intro q
    rw [((setUpRound_after h).run _).transferEnd, (setUpRound_fields h).2.1]
  rw [pollLoop, Polling.poll_found_iff, StopsAt]
  simp only [Polling.stateAt, ← Bool.not_eq_true, hready, and_assoc]

/-- What the check of a round finds: the first transfer is marked, and every
other one was marked by this round or an earlier one. -/
def AllMarked (n : Nat) (b : DmaBuffersInfo) (ct : ChainTransfer) (es : List LinkEvent) : Prop :=
  ¬ LeavesFirstUnmarked n b es ∧
    ∀ k ≠ 0, k < n → (ct.transfers k).dataCorrect = true ∨ k < es.countP (good b)

theorem check_iff (h : (setUpRound n chainId link ct).2 = 0) (hn : 0 < n) (es : List LinkEvent) :
    checkLoop (es.foldl (dmaCallbackChain n) (setUpRound n chainId link ct).1).transfers (List.range n) = 0 ↔
      AllMarked n (link.buffers (1024 * 1)) ct es := by
  have hafter := (setUpRound_after h).run es
  have hkeep := (setUpRound_fields h).2.2.2.2
  rw [checkLoop_eq_zero_iff, AllMarked, ← hafter.first]
  constructor
  · intro hall
    refine ⟨hall 0 (List.mem_range.mpr hn), fun k hk hkn => ?_⟩
    rw [← hkeep k hk, ← hafter.others k hk hkn]
    exact hall k (List.mem_range.mpr hkn)
  · rintro ⟨hfirst, hothers⟩ k hk
    by_cases hz : k = 0
    · exact hz ▸ hfirst
    · have hkn := List.mem_range.mp hk
      rw [hafter.others k hz hkn, hkeep k hz]
      exact hothers k hz hkn

variable {batch : Nat → List LinkEvent}

theorem entry_of_setUp_failed (h : (setUpRound n chainId link ct).2 ≠ 0) (testPassed : Int) :
    dmaChainThreadEntry n chainId link batch ct testPassed =
      ⟨0, false, 1, (setUpRound n chainId link ct).1⟩ := by
  simp [dmaChainThreadEntry, h, setTestPassedChain]

theorem entry_of_stopsAt (h : (setUpRound n chainId link ct).2 = 0) {p : Nat}
    (hp : StopsAt n (link.buffers (1024 * 1)) ct.transferEnd batch p) (testPassed : Int) :
    dmaChainThreadEntry n chainId link batch ct testPassed =
      ⟨checkTestPassed n ((Polling.seen batch (p + 1)).foldl (dmaCallbackChain n)
        (setUpRound n chainId link ct).1).transfers testPassed, true, 0,
        (Polling.seen batch (p + 1)).foldl (dmaCallbackChain n) (setUpRound n chainId link ct).1⟩ := by
  have hloop := (pollLoop_found_iff h).mpr ⟨hp, rfl⟩
  simp [dmaChainThreadEntry, h, hloop]

theorem entry_of_timeout (h : (setUpRound n chainId link ct).2 = 0)
    (hn : ¬ ∃ p, StopsAt n (link.buffers (1024 * 1)) ct.transferEnd batch p) (testPassed : Int) :
    dmaChainThreadEntry n chainId link batch ct testPassed =
      ⟨0, false, 1, Polling.stateAt (dmaCallbackChain n) batch (setUpRound n chainId link ct).1
        transferPollCount⟩ := by
  rcases Polling.poll_cases ChainTransfer.transferEnd (dmaCallbackChain n) batch transferPollCount
    (setUpRound n chainId link ct).1 with ⟨p, hp⟩ | hp
  · exact absurd ⟨p, ((pollLoop_found_iff h).mp hp).1⟩ hn
  · simp [dmaChainThreadEntry, h, pollLoop, hp, setTestPassedChain]

theorem testPassed_of_stopsAt (h : (setUpRound n chainId link ct).2 = 0) (hpos : 0 < n) {p : Nat}
    (hp : StopsAt n (link.buffers (1024 * 1)) ct.transferEnd batch p) (testPassed : Int)
    [Decidable (AllMarked n (link.buffers (1024 * 1)) ct (Polling.seen batch (p + 1)))] :
    (dmaChainThreadEntry n chainId link batch ct testPassed).testPassed =
      if AllMarked n (link.buffers (1024 * 1)) ct (Polling.seen batch (p + 1)) then 1 else 0 := by
  rw [entry_of_stopsAt h hp]
  simp only [checkTestPassed, check_iff h hpos, setTestPassedChain]

def PassMeansOwnVerified (m : ChainThreadModule) (chainId : Option Int) (link : LinkAnswers)
    (batch : Nat → List LinkEvent) (ct : ChainTransfer) : Prop :=
  (dmaChainThreadEntry m.transferCount chainId link batch ct testPassedInit).testPassed = 1 →
    OwnVerified m.transferCount
      (dmaChainThreadEntry m.transferCount chainId link batch ct testPassedInit).ct.trace

theorem entry_firstOnly (chainId : Option Int) (link : LinkAnswers) (batch : Nat → List LinkEvent)
    (ct : ChainTransfer) (testPassed : Int) :
    FirstOnly (dmaChainThreadEntry n chainId link batch ct testPassed).ct.trace := by
  have hstart : FirstOnly (setUpRound n chainId link ct).1.trace := setUpRound_firstOnly
  by_cases h : (setUpRound n chainId link ct).2 = 0
  · by_cases hp : ∃ p, StopsAt n (link.buffers (1024 * 1)) ct.transferEnd batch p
    · obtain ⟨p, hp⟩ := hp
      rw [entry_of_stopsAt h hp]
      exact foldl_firstOnly hstart _
    · rw [entry_of_timeout h hp]
      exact foldl_firstOnly hstart _
  · rw [entry_of_setUp_failed h]
    exact hstart

/-- No run verifies the transfers with their own buffers: only the first one is
ever submitted and compared. -/
theorem never_ownVerified (m : ChainThreadModule) (chainId : Option Int) (link : LinkAnswers)
    (batch : Nat → List LinkEvent) (ct : ChainTransfer) (testPassed : Int) :
    ¬ OwnVerified m.transferCount
      (dmaChainThreadEntry m.transferCount chainId link batch ct testPassed).ct.trace := by
  have hcount : 1 < m.transferCount := by cases m <;> decide
  exact (entry_firstOnly chainId link batch ct testPassed).not_ownVerified hcount

end SetUp

def freshTransfer : ChainTransfer := ⟨fun _ => default, default, 0, false, []⟩

def movedBatch (n : Nat) (i : Nat) : List LinkEvent :=
  if i = 0 then List.replicate (n + 1) (movedEvent 0) else []

section Moved

variable [OmapDma]

theorem movedEvent_passing : Passing (pageBuffers 0) (movedEvent 0) := by
  refine ⟨?_, pageLink_granted 1⟩
  rw [good, verifyBuffersChain_eq_zero.mpr (movedEvent_matches 0)]
  exact Bool.and_eq_true_iff.mpr ⟨statusAcceptable_zero, rfl⟩

theorem countP_moved (m : Nat) : (List.replicate m (movedEvent 0)).countP (good (pageBuffers 0)) = m := by
  rw [List.countP_replicate, if_pos movedEvent_passing.1]

theorem moved_marks_all (n : Nat) (ct : ChainTransfer) :
    Ended n (pageBuffers 0) (List.replicate (n + 1) (movedEvent 0)) ∧
      AllMarked n (pageBuffers 0) ct (List.replicate (n + 1) (movedEvent 0)) := by
  refine ⟨.inl (by simp), ?_, fun k _ hk => .inr ?_⟩
  · rw [List.replicate_succ', leavesFirstUnmarked_append, countP_moved, Nat.min_self]
    exact fun h => h.1 rfl
  · rw [countP_moved]
    omega

theorem moved_passes {n : Nat} (hn : 0 < n) (ct : ChainTransfer) :
    (dmaChainThreadEntry n (some 0) (pageLink 0) (movedBatch n) ct testPassedInit).testPassed = 1 := by
  classical
  obtain ⟨hended, hmarked⟩ := moved_marks_all n ct
  have hseen : ∀ q, Polling.seen (movedBatch n) q = List.replicate (n + 1) (movedEvent 0) :=
    Polling.seen_first _
  have h : (setUpRound n (some 0) (pageLink 0) ct).2 = 0 :=
    setUpRound_succeeds.mpr ⟨by simp, pageLink_granted 0⟩
  have hp : StopsAt n (pageBuffers 0) ct.transferEnd (movedBatch n) 0 := by
    refine ⟨by decide, .inr ?_, fun q hq => absurd hq (Nat.not_lt_zero q)⟩
    rw [hseen]
    exact hended
  rw [testPassed_of_stopsAt h hn hp, hseen]
  exact if_pos hmarked

end Moved

/-- Both modules pass on callbacks for the first transfer alone. -/
theorem first_transfer_alone_passes :
    letI : OmapDma := ⟨0x20⟩
    ¬ PassMeansOwnVerified .dmaChainThreadStress (some 0) (pageLink 0)
      (movedBatch ChainThreadModule.dmaChainThreadStress.transferCount) freshTransfer ∧
    ¬ PassMeansOwnVerified .dmaChainThreadAccess (some 0) (pageLink 0)
      (movedBatch ChainThreadModule.dmaChainThreadAccess.transferCount) freshTransfer := by
  let : OmapDma := ⟨0x20⟩
  have hnot : ∀ m : ChainThreadModule,
      ¬ PassMeansOwnVerified m (some 0) (pageLink 0) (movedBatch m.transferCount) freshTransfer := by
    intro m hown
    have hcount : 1 < m.transferCount := by cases m <;> decide
    have hpass := moved_passes (Nat.lt_trans Nat.zero_lt_one hcount) freshTransfer
    have hfirst := entry_firstOnly (n := m.transferCount) (some 0) (pageLink 0) (movedBatch m.transferCount)
      freshTransfer testPassedInit
    exact hfirst.not_ownVerified hcount (hown hpass)
  exact ⟨hnot _, hnot _⟩

end DmaChainThread

end DeviceDriverTest
