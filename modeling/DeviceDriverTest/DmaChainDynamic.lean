import DeviceDriverTest.Polling
import DeviceDriverTest.DmaVerdict
import DeviceDriverTest.DmaChainTransfer

/-! The dynamic chain test. The callback of one transfer verifies it and chains
the next; the framework hands the callback the transfers in the order in which
they were chained. The callback that finds the count reached verifies nothing. -/

namespace DeviceDriverTest

namespace DmaChainDynamic

open Chain

def transferCount : Nat := 10

/-- A callback that was delivered: the index of its transfer, the status word,
the memory, and the buffers of the transfer at that moment. -/
structure Delivered where
  transfer : Nat
  transferStatus : UInt16
  mem : Memory
  buffers : DmaBuffersInfo

/-- The globals of the module, the chained transfers whose callback is still to
come, and the callbacks delivered so far. Entries of `transfers` from
`transferCount` on are the memory behind the array. -/
structure State where
  transfers : Nat → DmaTransfer
  chain : DmaChain
  currentTransfer : Nat
  transferEnd : Bool
  pending : List Nat
  delivered : List Delivered

def State.set (s : State) (k : Nat) (transfer : DmaTransfer) : State :=
  { s with transfers := Function.update s.transfers k transfer }

def checkTestPassed (s : State) (testPassed : Int) : Int :=
  if checkLoop s.transfers (List.range transferCount) = 0 then setTestPassedChain testPassed 1
  else setTestPassedChain testPassed 0

@[simp] theorem State.set_transfers (s : State) (k : Nat) (transfer : DmaTransfer) :
    (s.set k transfer).transfers = Function.update s.transfers k transfer := rfl

theorem checkTestPassed_eq_one_iff {s : State} {testPassed : Int} :
    checkTestPassed s testPassed = 1 ↔ ∀ k < transferCount, (s.transfers k).dataCorrect = true := by
  have hscan : checkLoop s.transfers (List.range transferCount) = 0 ↔
      ∀ k < transferCount, (s.transfers k).dataCorrect = true := by
    simp [checkLoop_eq_zero_iff]
  rw [checkTestPassed, ← hscan]
  by_cases h : checkLoop s.transfers (List.range transferCount) = 0
  · simp [h, setTestPassedChain]
  · simp [h, setTestPassedChain]

/-- The set-up: a chain is requested, transfer 0 gets its buffers and is linked.
The globals start as the zeroes of a module that was just loaded. -/
def linkFirst (chainId : Option Int) (link : LinkAnswers) : State × Int :=
  let s : State := ⟨fun _ => default, { (default : DmaChain) with channelCount := transferCount }, 0, false, [], []⟩
  let (chain, error) := requestDmaChain chainId s.chain
  let s := { s with chain := chain }
  if error ≠ 0 then (s, 1)
  else
    let (first, error) := linkTransfer (1024 * 1) link s.chain (s.transfers 0)
    let s := s.set 0 first
    if error ≠ 0 then (s, 1) else ({ s with currentTransfer := 1, pending := [0] }, 0)

theorem linkFirst_failed {chainId : Option Int} {link : LinkAnswers} (h : (linkFirst chainId link).2 ≠ 0) :
    (linkFirst chainId link).1.pending = [] ∧ (linkFirst chainId link).1.delivered = [] := by
  cases chainId with
  | none => exact ⟨rfl, rfl⟩
  | some chainId =>
    by_cases hl : (linkTransfer (1024 * 1) link
        { (default : DmaChain) with
          channelCount := transferCount, chainId := chainId, requestSuccess := true, finished := false }
        default).2 = 0
    · exact absurd (by simp [linkFirst, requestDmaChain, hl]) h
    · simp [linkFirst, requestDmaChain, hl, State.set]

section Callbacks

variable [OmapDma]

def dmaCallbackChain (s : State) (k : Nat) (e : LinkEvent) : State :=
  if s.currentTransfer = transferCount then
    { s.set k { s.transfers k with dataCorrect := true, finished := true } with transferEnd := true }
  else
    let s := s.set k { s.transfers k with dataCorrect := false, finished := true }
    if statusAcceptable e.transferStatus then
      if verifyBuffersChain e.mem (s.transfers k).buffers ≠ 0 then { s with transferEnd := true }
      else
        let (next, error) := linkTransfer (1024 * 1) e.link s.chain (s.transfers s.currentTransfer)
        let s := s.set s.currentTransfer next
        if error ≠ 0 then { s with transferEnd := true }
        else
          let s := { s with
            pending := s.pending ++ [s.currentTransfer]
            currentTransfer := s.currentTransfer + 1 }
          s.set k { s.transfers k with dataCorrect := true }
    else { s with transferEnd := true }

/-- The framework takes the next chained transfer; without one there is no
callback. -/
def deliver (s : State) (e : LinkEvent) : State :=
  match s.pending with
  | [] => s
  | k :: rest =>
    let d : Delivered := ⟨k, e.transferStatus, e.mem, (s.transfers k).buffers⟩
    dmaCallbackChain { s with pending := rest, delivered := s.delivered ++ [d] } k e

def run (chainId : Option Int) (link : LinkAnswers) (es : List LinkEvent) : State :=
  es.foldl deliver (linkFirst chainId link).1

/-- What the module records when the check comes after the callbacks `es`. -/
def recorded (chainId : Option Int) (link : LinkAnswers) (es : List LinkEvent) : Int :=
  if (linkFirst chainId link).2 ≠ 0 then setTestPassedChain testPassedInit 0
  else checkTestPassed (run chainId link es) testPassedInit

def dmaModuleInit (chainId : Option Int) (link : LinkAnswers) (batch : Nat → List LinkEvent) : InitResult :=
  let (s, error) := linkFirst chainId link
  if error ≠ 0 then ⟨setTestPassedChain testPassedInit 0, 1⟩
  else
    match Polling.poll State.transferEnd deliver batch transferPollCount s with
    | .found _ s => ⟨checkTestPassed s testPassedInit, 0⟩
    | .exhausted _ => ⟨setTestPassedChain testPassedInit 0, 1⟩

def Delivered.Good (d : Delivered) : Prop :=
  statusAcceptable d.transferStatus = true ∧ Matches d.mem d.buffers

def Verified (s : State) (k : Nat) : Prop :=
  ∃ d ∈ s.delivered, d.transfer = k ∧ d.Good

/-- A recorded pass means that every transfer was verified by a callback of
its own. -/
def PassMeansVerified (chainId : Option Int) (link : LinkAnswers) (es : List LinkEvent) : Prop :=
  recorded chainId link es = 1 → ∀ k < transferCount, Verified (run chainId link es) k

/-- How far a run has come. Either transfer `c` is on its way, everything before
it verified; or something failed and nothing is chained any more; or the last
transfer had its callback, good or not. -/
inductive Phase (s : State) : Prop where
  | running (c : Nat) (hc : c < transferCount) (hcur : s.currentTransfer = c + 1)
      (hpend : s.pending = [c]) (hdone : ∀ k < c, (s.transfers k).dataCorrect = true ∧ Verified s k)
      (hnext : (s.transfers c).dataCorrect = false) (hlog : ∀ d ∈ s.delivered, d.transfer < c)
  | failed (c : Nat) (hc : c + 1 < transferCount) (hpend : s.pending = [])
      (hbad : (s.transfers c).dataCorrect = false) (hlog : ∀ d ∈ s.delivered, d.transfer ≤ c)
  | complete (hpend : s.pending = [])
      (hall : ∀ k < transferCount, (s.transfers k).dataCorrect = true)
      (hdone : ∀ k < transferCount - 1, Verified s k)
      (hlast : ∃ d ∈ s.delivered, d.transfer = transferCount - 1 ∧
        ∀ d' ∈ s.delivered, d'.transfer = transferCount - 1 → d' = d)

theorem dmaCallbackChain_linked {s : State} {c : Nat} (hcur : s.currentTransfer = c + 1) {e : LinkEvent}
    (hn : c + 1 ≠ transferCount) (hs : statusAcceptable e.transferStatus = true)
    (hv : Matches e.mem (s.transfers c).buffers) (hg : e.link.Granted) :
    ∃ transfers, dmaCallbackChain s c e =
        { s with transfers := transfers, pending := s.pending ++ [c + 1], currentTransfer := c + 2 } ∧
      (transfers c).dataCorrect = true ∧ (transfers (c + 1)).dataCorrect = false ∧
      (transfers (c + 1)).buffers = e.link.buffers (1024 * 1) ∧ ∀ k < c, transfers k = s.transfers k := by
  have hcount : ¬ s.currentTransfer = transferCount := by omega
  have hz : verifyBuffersChain e.mem (s.transfers c).buffers = 0 := verifyBuffersChain_eq_zero.mpr hv
  rcases linkTransfer_cases (1024 * 1) e.link s.chain (s.transfers (c + 1)) with
    ⟨_, hl, hdc, _, hb⟩ | ⟨hng, _⟩
  · refine ⟨_, by
      rw [dmaCallbackChain, if_neg hcount]; simp [hs, hz, hl, State.set, hcur]; rfl, by simp, ?_, ?_, ?_⟩
    · simpa using hdc
    · simpa using hb
    · intro k hk
      have hk1 : k ≠ c := by omega
      have hk2 : k ≠ c + 1 := by omega
      simp [hk1, hk2]
  · exact absurd hg hng

/-- The exits of the callback of transfer `c`, with transfer `c + 1` the one to
chain next: the count is reached, the transfer or the link fails, or the next
transfer is on its way. -/
theorem dmaCallbackChain_cases {s : State} {c : Nat} (hcur : s.currentTransfer = c + 1) (e : LinkEvent) :
    (c + 1 = transferCount ∧ ∃ transfers, dmaCallbackChain s c e =
        { s with transfers := transfers, transferEnd := true } ∧
      (transfers c).dataCorrect = true ∧ ∀ k, k ≠ c → transfers k = s.transfers k) ∨
    (c + 1 ≠ transferCount ∧ ∃ transfers, dmaCallbackChain s c e =
        { s with transfers := transfers, transferEnd := true } ∧
      (transfers c).dataCorrect = false) ∨
    (c + 1 ≠ transferCount ∧ statusAcceptable e.transferStatus = true ∧
      Matches e.mem (s.transfers c).buffers ∧ ∃ transfers, dmaCallbackChain s c e =
        { s with transfers := transfers, pending := s.pending ++ [c + 1], currentTransfer := c + 2 } ∧
      (transfers c).dataCorrect = true ∧ (transfers (c + 1)).dataCorrect = false ∧
      ∀ k < c, transfers k = s.transfers k) := by
  by_cases hn : c + 1 = transferCount
  · left
    refine ⟨hn, _, by rw [dmaCallbackChain, if_pos (hcur.trans hn)]; rfl, by simp [State.set], fun k hk => ?_⟩
    exact Function.update_of_ne hk _ _
  right
  have hcount : ¬ s.currentTransfer = transferCount := by omega
  cases hs : statusAcceptable e.transferStatus with
  | false =>
    left
    refine ⟨hn, _, by rw [dmaCallbackChain, if_neg hcount]; simp [hs, State.set]; rfl, by simp⟩
  | true =>
    by_cases hv : Matches e.mem (s.transfers c).buffers
    · have hz : verifyBuffersChain e.mem (s.transfers c).buffers = 0 := verifyBuffersChain_eq_zero.mpr hv
      by_cases hg : e.link.Granted
      · right
        obtain ⟨transfers, hstep, hdc, hdc', _, hkeep⟩ := dmaCallbackChain_linked hcur hn hs hv hg
        exact ⟨hn, rfl, hv, transfers, hstep, hdc, hdc', hkeep⟩
      · left
        have hl : (linkTransfer (1024 * 1) e.link s.chain (s.transfers (c + 1))).2 ≠ 0 :=
          fun h => hg (linkTransfer_succeeds.mp h)
        refine ⟨hn, _, by
          rw [dmaCallbackChain, if_neg hcount]; simp [hs, hz, hl, State.set, hcur]; rfl, by simp⟩
    · have hz : verifyBuffersChain e.mem (s.transfers c).buffers ≠ 0 :=
        fun h => hv (verifyBuffersChain_eq_zero.mp h)
      left
      refine ⟨hn, _, by rw [dmaCallbackChain, if_neg hcount]; simp [hs, hz, State.set]; rfl, by simp⟩

theorem run_concat (chainId : Option Int) (link : LinkAnswers) (es : List LinkEvent) (e : LinkEvent) :
    run chainId link (es ++ [e]) = deliver (run chainId link es) e := by
  rw [run, List.foldl_append, List.foldl_cons, List.foldl_nil, run]

theorem deliver_delivered {s : State} {k : Nat} {rest : List Nat} (h : s.pending = k :: rest) (e : LinkEvent) :
    (deliver s e).delivered = s.delivered ++ [⟨k, e.transferStatus, e.mem, (s.transfers k).buffers⟩] := by
  rw [deliver, h]
  unfold dmaCallbackChain
  dsimp only
  split_ifs <;> rfl

theorem dmaModuleInit_recorded (chainId : Option Int) (link : LinkAnswers) (batch : Nat → List LinkEvent) :
    (dmaModuleInit chainId link batch).testPassed = 0 ∨
      ∃ p, (dmaModuleInit chainId link batch).testPassed = recorded chainId link (Polling.seen batch (p + 1)) := by
  by_cases h : (linkFirst chainId link).2 = 0
  · rcases Polling.poll_cases State.transferEnd deliver batch transferPollCount (linkFirst chainId link).1 with
      ⟨p, hp⟩ | hp
    · right
      refine ⟨p, ?_⟩
      simp [dmaModuleInit, recorded, h, hp, run, Polling.stateAt]
    · left
      simp [dmaModuleInit, h, hp, setTestPassedChain]
  · left
    simp [dmaModuleInit, h, setTestPassedChain]

theorem Verified.append {s t : State} {ds : List Delivered} (h : t.delivered = s.delivered ++ ds) {k : Nat}
    (hv : Verified s k) : Verified t k := by
  obtain ⟨d, hd, hk⟩ := hv
  exact ⟨d, h ▸ List.mem_append_left ds hd, hk⟩

theorem phase_deliver {s : State} (h : Phase s) (e : LinkEvent) : Phase (deliver s e) := by
  cases h with
  | running c hc hcur hpend hdone hnext hlog =>
    let d : Delivered := ⟨c, e.transferStatus, e.mem, (s.transfers c).buffers⟩
    let s' : State := { s with pending := [], delivered := s.delivered ++ [d] }
    have hdel : deliver s e = dmaCallbackChain s' c e := by rw [deliver, hpend]
    have hlog' : ∀ d' ∈ s.delivered ++ [d], d' ∈ s.delivered ∧ d'.transfer < c ∨ d' = d := by
      intro d' hd'
      rcases List.mem_append.mp hd' with hd' | hd'
      · exact .inl ⟨hd', hlog d' hd'⟩
      · exact .inr (List.mem_singleton.mp hd')
    have hcur' : s'.currentTransfer = c + 1 := hcur
    rw [hdel]
    rcases dmaCallbackChain_cases hcur' e with
      ⟨hn, transfers, hs, hdc, hkeep⟩ | ⟨hn, transfers, hs, hdc⟩ |
      ⟨hn, hstatus, hmatch, transfers, hs, hdc, hdc', hkeep⟩
    · rw [hs]
      refine .complete rfl (fun k hk => ?_) (fun k hk => ?_) ⟨d, List.mem_append_right _ (List.mem_singleton_self d), ?_, fun d' hd' hl => ?_⟩
      · by_cases hkc : k = c
        · exact hkc ▸ hdc
        · have hlt : k < c := by omega
          show (transfers k).dataCorrect = true
          rw [hkeep k hkc]
          exact (hdone k hlt).1
      · exact ((hdone k (by omega)).2).append rfl
      · show c = transferCount - 1
        omega
      · rcases hlog' d' hd' with ⟨_, hlt⟩ | heq
        · omega
        · exact heq
    · rw [hs]
      refine .failed c (by omega) rfl hdc fun d' hd' => ?_
      rcases hlog' d' hd' with ⟨_, hlt⟩ | heq
      · exact Nat.le_of_lt hlt
      · exact heq ▸ Nat.le_refl c
    · rw [hs]
      refine .running (c + 1) (by omega) rfl rfl (fun k hk => ?_) hdc' fun d' hd' => ?_
      · by_cases hkc : k = c
        · subst hkc
          exact ⟨hdc, d, List.mem_append_right _ (List.mem_singleton_self d), rfl, hstatus, hmatch⟩
        · have hlt : k < c := by omega
          refine ⟨?_, ((hdone k hlt).2).append rfl⟩
          show (transfers k).dataCorrect = true
          rw [hkeep k hlt]
          exact (hdone k hlt).1
      · rcases hlog' d' hd' with ⟨_, hlt⟩ | heq
        · omega
        · exact heq ▸ Nat.lt_succ_self c
  | failed c hc hpend hbad hlog =>
    rw [deliver, hpend]
    exact .failed c hc hpend hbad hlog
  | complete hpend hall hdone hlast =>
    rw [deliver, hpend]
    exact .complete hpend hall hdone hlast

theorem phase_linkFirst {chainId : Option Int} {link : LinkAnswers} (h : (linkFirst chainId link).2 = 0) :
    Phase (linkFirst chainId link).1 := by
  cases chainId with
  | none => exact absurd h (by simp [linkFirst, requestDmaChain])
  | some chainId =>
    rcases linkTransfer_cases (1024 * 1) link
        { (default : DmaChain) with
          channelCount := transferCount, chainId := chainId, requestSuccess := true, finished := false }
        default with ⟨_, hl, hdc, _⟩ | ⟨_, hl, _⟩
    · refine .running 0 (by decide) ?_ ?_ (fun k hk => absurd hk (Nat.not_lt_zero k)) ?_ ?_ <;>
        simp [linkFirst, requestDmaChain, hl, hdc, State.set]
    · exact absurd h (by simp [linkFirst, requestDmaChain, hl])

theorem phase_run {chainId : Option Int} {link : LinkAnswers} (h : (linkFirst chainId link).2 = 0)
    (es : List LinkEvent) : Phase (run chainId link es) := by
  have hkeep : ∀ s, Phase s → Phase (es.foldl deliver s) := by
    induction es with
    | nil => exact fun s hs => hs
    | cons e es ih => exact fun s hs => ih _ (phase_deliver hs e)
  exact hkeep _ (phase_linkFirst h)

theorem run_of_linkFirst_failed {chainId : Option Int} {link : LinkAnswers}
    (h : (linkFirst chainId link).2 ≠ 0) (es : List LinkEvent) : (run chainId link es).delivered = [] := by
  obtain ⟨hpend, hdel⟩ := linkFirst_failed h
  have hstuck : ∀ s : State, s.pending = [] → es.foldl deliver s = s := by
    induction es with
    | nil => exact fun s _ => rfl
    | cons e es ih =>
      intro s hs
      have hd : deliver s e = s := by rw [deliver, hs]
      rw [List.foldl_cons, hd, ih s hs]
  rw [run, hstuck _ hpend, hdel]

theorem phase_passMeansVerified {s : State} (h : Phase s) (testPassed : Int) :
    (checkTestPassed s testPassed = 1 → ∀ k < transferCount, Verified s k) ↔
      ∀ d ∈ s.delivered, d.transfer = transferCount - 1 → d.Good := by
  rw [checkTestPassed_eq_one_iff]
  cases h with
  | running c hc hcur hpend hdone hnext hlog =>
    have hfail : ¬ ∀ k < transferCount, (s.transfers k).dataCorrect = true := by
      intro hall
      have := hall c hc
      rw [hnext] at this
      contradiction
    refine iff_of_true (fun hall => absurd hall hfail) fun d hd hl => ?_
    have := hlog d hd
    omega
  | failed c hc hpend hbad hlog =>
    have hfail : ¬ ∀ k < transferCount, (s.transfers k).dataCorrect = true := by
      intro hall
      have := hall c (by omega)
      rw [hbad] at this
      contradiction
    refine iff_of_true (fun hall => absurd hall hfail) fun d hd hl => ?_
    have := hlog d hd
    omega
  | complete hpend hall hdone hlast =>
    obtain ⟨d, hd, hl, huniq⟩ := hlast
    constructor
    · intro hver d' hd' hl'
      obtain ⟨d'', hd'', hl'', hgood⟩ := hver hall (transferCount - 1) (by decide)
      rw [huniq d' hd' hl', ← huniq d'' hd'' hl'']
      exact hgood
    · intro hgood _ k hk
      by_cases hkl : k = transferCount - 1
      · exact ⟨d, hd, hl.trans hkl.symm, hgood d hd hl⟩
      · exact hdone k (by omega)

/-- A pass is trustworthy exactly in the runs that deliver no bad callback of
the last transfer. -/
theorem passMeansVerified_iff (chainId : Option Int) (link : LinkAnswers) (es : List LinkEvent) :
    PassMeansVerified chainId link es ↔
      ∀ d ∈ (run chainId link es).delivered, d.transfer = transferCount - 1 → d.Good := by
  by_cases h : (linkFirst chainId link).2 = 0
  · have hrec : recorded chainId link es = checkTestPassed (run chainId link es) testPassedInit := by
      simp [recorded, h]
    rw [PassMeansVerified, hrec, phase_passMeansVerified (phase_run h es)]
  · have hrec : recorded chainId link es = 0 := by
      simp [recorded, h, setTestPassedChain]
    refine iff_of_true (fun hp => ?_) fun d hd => ?_
    · rw [hrec] at hp
      contradiction
    · rw [run_of_linkFirst_failed h es] at hd
      cases hd

end Callbacks

section Counterexample

variable [OmapDma]

theorem run_moved {c : Nat} (hc : c < transferCount) :
    (run (some 0) (pageLink 0) ((List.range c).map movedEvent)).currentTransfer = c + 1 ∧
      (run (some 0) (pageLink 0) ((List.range c).map movedEvent)).pending = [c] ∧
      ((run (some 0) (pageLink 0) ((List.range c).map movedEvent)).transfers c).buffers = pageBuffers c := by
  induction c with
  | zero => exact ⟨rfl, rfl, rfl⟩
  | succ c ih =>
    obtain ⟨hcur, hpend, hbuf⟩ := ih (by omega)
    generalize hs : run (some 0) (pageLink 0) ((List.range c).map movedEvent) = s at hcur hpend hbuf
    have hnext : run (some 0) (pageLink 0) ((List.range (c + 1)).map movedEvent) = deliver s (movedEvent c) := by
      rw [← hs, List.range_succ, List.map_append, List.map_singleton, run_concat]
    have hmatch : Matches (movedEvent c).mem (s.transfers c).buffers := by
      rw [hbuf]
      exact movedEvent_matches c
    let s' : State := { s with
      pending := []
      delivered := s.delivered ++ [⟨c, 0, (movedEvent c).mem, (s.transfers c).buffers⟩] }
    have hdel : deliver s (movedEvent c) = dmaCallbackChain s' c (movedEvent c) := by
      rw [deliver, hpend]
      rfl
    have hcur' : s'.currentTransfer = c + 1 := hcur
    have hstatus : statusAcceptable (movedEvent c).transferStatus = true := statusAcceptable_zero
    have hgranted : (movedEvent c).link.Granted := pageLink_granted (c + 1)
    obtain ⟨transfers, hstep, _, _, hb, _⟩ := dmaCallbackChain_linked hcur' (by omega) hstatus hmatch hgranted
    rw [hnext, hdel, hstep]
    exact ⟨rfl, rfl, hb⟩

end Counterexample

/-- Nine transfers arrive, the tenth never writes its destination, and the test
records a pass. -/
theorem idle_last_transfer_passes :
    letI : OmapDma := ⟨0x20⟩
    ¬ PassMeansVerified (some 0) (pageLink 0) ((List.range 9).map movedEvent ++ [idleEvent 9]) := by
  let : OmapDma := ⟨0x20⟩
  have hlink : (linkFirst (some 0) (pageLink 0)).2 = 0 := rfl
  obtain ⟨_, hpend, hbuf⟩ := run_moved (show 9 < transferCount by decide)
  intro hpass
  have hrec : ∀ es, recorded (some 0) (pageLink 0) es =
      checkTestPassed (run (some 0) (pageLink 0) es) testPassedInit := fun es => by
    simp [recorded, hlink]
  rw [PassMeansVerified, hrec, phase_passMeansVerified (phase_run hlink _)] at hpass
  rw [run_concat, deliver_delivered hpend, hbuf] at hpass
  have hlog := List.mem_append_right
    (run (some 0) (pageLink 0) ((List.range 9).map movedEvent)).delivered (List.mem_singleton_self
      (⟨9, 0, (idleEvent 9).mem, pageBuffers 9⟩ : Delivered))
  have hgood := hpass _ hlog rfl
  simp only [Delivered.Good] at hgood
  exact idleEvent_differs 9 hgood.2

end DmaChainDynamic

end DeviceDriverTest
