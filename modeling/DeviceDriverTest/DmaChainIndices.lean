import DeviceDriverTest.ScheduledRun
import DeviceDriverTest.DmaChainThread

/-! The indices at which the threaded chain tests use `transfers`. The callback
tests `current_transfer` when it is entered, advances it, and goes on with the
advanced value. -/

namespace DeviceDriverTest

namespace DmaChainIndices

open Chain DmaChainThread ScheduledRun

section Callbacks

variable [OmapDma]

/-- The callback again, with the indices it uses in
`transfers[current_transfer]`. The helper that chains again uses none: it takes
the first element of the array. -/
def dmaCallbackChainIndices (n : Nat) (ct : ChainTransfer) (e : LinkEvent) : ChainTransfer × List Nat :=
  let ct := (ct.mark 0).setFinished 0
  if ct.currentTransfer = n then ((ct.log [.stop]).ended, [])
  else
    let ct := ct.log [.unmap 0, .unmap 0]
    if statusAcceptable e.transferStatus then
      let error := verifyBuffersChain e.mem (ct.transfers 0).buffers
      let ct := ct.log [.compare 0 (error == 0)]
      if error ≠ 0 then (ct.ended, [])
      else
        let marked := ct.currentTransfer
        let ct := (ct.mark marked).advance
        let filled := ct.currentTransfer
        let (buffers, error) := createTransferBuffersChain e.link.alloc
          { (ct.transfers filled).buffers with bufSize := 1024 * 1 }
        let ct := ct.setBuffers filled buffers
        -- the mark, the size, the two allocations
        if error ≠ 0 then (ct.ended, [marked, filled, filled])
        else
          -- and the source that is filled
          let (ct, error) := dynamicChainTransfer e.link ct
          (if error ≠ 0 then ct.ended else ct, [marked, filled, filled, filled])
    else (ct.ended, [])

theorem dmaCallbackChainIndices_fst (n : Nat) (ct : ChainTransfer) (e : LinkEvent) :
    (dmaCallbackChainIndices n ct e).1 = DmaChainThread.dmaCallbackChain n ct e := by
  unfold dmaCallbackChainIndices DmaChainThread.dmaCallbackChain
  dsimp only
  split_ifs <;> rfl

def InRange (n : Nat) (ct : ChainTransfer) (e : LinkEvent) : Prop :=
  ∀ k ∈ (dmaCallbackChainIndices n ct e).2, k < n

/-- A callback uses an index only when it advances, and then the advanced one
too. -/
theorem inRange_iff {n : Nat} {ct : ChainTransfer} {e : LinkEvent} :
    InRange n ct e ↔
      (ct.currentTransfer ≠ n ∧ good (ct.transfers 0).buffers e = true → ct.currentTransfer + 1 < n) := by
  unfold InRange
  by_cases hn : ct.currentTransfer = n
  · simp [dmaCallbackChainIndices, hn]
  by_cases hs : statusAcceptable e.transferStatus = true
  · by_cases hv : verifyBuffersChain e.mem (ct.transfers 0).buffers = 0
    · have hgood : good (ct.transfers 0).buffers e = true := by simp [good, hs, hv]
      have hindices : ∀ k ∈ (dmaCallbackChainIndices n ct e).2,
          k = ct.currentTransfer ∨ k = ct.currentTransfer + 1 := by
        intro k hk
        simp only [dmaCallbackChainIndices, hs, if_true] at hk
        split_ifs at hk <;> simp_all
      have hmem : ct.currentTransfer + 1 ∈ (dmaCallbackChainIndices n ct e).2 := by
        simp only [dmaCallbackChainIndices, hs, if_true]
        split_ifs <;> simp_all
      constructor
      · exact fun hall _ => hall _ hmem
      · intro hnext k hk
        have hlt := hnext ⟨hn, hgood⟩
        rcases hindices k hk with rfl | rfl <;> omega
    · simp [dmaCallbackChainIndices, hn, hs, hv, good]
  · simp [dmaCallbackChainIndices, hn, hs, good]

/-- Over the callbacks of a round, the index of the next transfer counts the good
ones; the last of the array is the last that may be filled. -/
theorem stepsMeet_inRange_iff {n : Nat} {b : DmaBuffersInfo} {ct : ChainTransfer} (h : After n b ct [] ct)
    (hn : 0 < n) (es : List LinkEvent) :
    StepsMeet (DmaChainThread.dmaCallbackChain n) (InRange n) ct es ↔ es.countP (good b) < n := by
  induction es using List.reverseRecOn with
  | nil => exact iff_of_true trivial (by simpa using hn)
  | append_singleton es e ih =>
    have hafter := h.run es
    have hgood := good_congr hafter.buffers e
    rw [stepsMeet_concat, ih, inRange_iff, hgood, hafter.currentTransfer, List.countP_append,
      List.countP_singleton]
    cases good b e with
    | true =>
      simp only [and_true, if_true]
      omega
    | false => simp

def IndicesInRange (m : ChainThreadModule) (chainId : Option Int) (link : LinkAnswers) (ct : ChainTransfer)
    (callbacks : List LinkEvent) : Prop :=
  let (ct, error) := setUpRound m.transferCount chainId link ct
  error = 0 → StepsMeet (DmaChainThread.dmaCallbackChain m.transferCount) (InRange m.transferCount) ct callbacks

/-- The array is left exactly in the rounds with as many good callbacks as it has
transfers. -/
theorem indicesInRange_iff (m : ChainThreadModule) (chainId : Option Int) (link : LinkAnswers)
    (ct : ChainTransfer) (callbacks : List LinkEvent) :
    IndicesInRange m chainId link ct callbacks ↔
      (chainId = none ∨ ¬ link.Granted) ∨
        callbacks.countP (good (link.buffers (1024 * 1))) < m.transferCount := by
  have hpos : 0 < m.transferCount := by cases m <;> decide
  have hsetup : (chainId = none ∨ ¬ link.Granted) ↔
      ¬ (setUpRound m.transferCount chainId link ct).2 = 0 := by
    rw [setUpRound_succeeds, not_and_or, not_not]
  rw [hsetup]
  show ((setUpRound m.transferCount chainId link ct).2 = 0 → _) ↔ _
  rw [imp_iff_not_or]
  by_cases h : (setUpRound m.transferCount chainId link ct).2 = 0
  · exact or_congr_right (stepsMeet_inRange_iff (setUpRound_after h) hpos callbacks)
  · exact iff_of_true (.inl h) (.inl h)

/-- As many good callbacks as transfers: the last of them fills the entry behind
the array. -/
theorem last_good_callback_overruns (m : ChainThreadModule) (ct : ChainTransfer) :
    ¬ IndicesInRange m (some 0) (pageLink 0) ct (List.replicate m.transferCount (movedEvent 0)) := by
  have hpos : 0 < m.transferCount := by cases m <;> decide
  have h : (setUpRound m.transferCount (some 0) (pageLink 0) ct).2 = 0 :=
    setUpRound_succeeds.mpr ⟨by simp, pageLink_granted 0⟩
  intro hrange
  have hlt := (stepsMeet_inRange_iff (setUpRound_after h) hpos _).mp (hrange h)
  have hcount : (List.replicate m.transferCount (movedEvent 0)).countP
      (good ((pageLink 0).buffers (1024 * 1))) = m.transferCount := countP_moved _
  omega

end Callbacks

theorem fourteenth_callback_overruns :
    letI : OmapDma := ⟨0x20⟩
    ¬ IndicesInRange .dmaChainThreadStress (some 0) (pageLink 0) freshTransfer
      (List.replicate 14 (movedEvent 0)) ∧
    ¬ IndicesInRange .dmaChainThreadAccess (some 0) (pageLink 0) freshTransfer
      (List.replicate 10 (movedEvent 0)) := by
  let : OmapDma := ⟨0x20⟩
  exact ⟨last_good_callback_overruns _ _, last_good_callback_overruns _ _⟩

end DmaChainIndices

end DeviceDriverTest
