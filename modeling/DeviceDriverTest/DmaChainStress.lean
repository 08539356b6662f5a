import DeviceDriverTest.DmaChainThread

/-! The rounds of the stress module. Each round starts its workers on the
structures that the round before left; neither `transfer_end` nor the marks of
the transfers from the second on are reset. -/

namespace DeviceDriverTest

namespace DmaChainStress

open Chain DmaChainThread

abbrev transferCount : Nat := ChainThreadModule.dmaChainThreadStress.transferCount

/-- What one worker meets in one round: the answers of the kernel, the callbacks
around its polls, and those that still come before its chain is stopped. -/
structure Round where
  chainId : Option Int
  link : LinkAnswers
  batch : Nat → List LinkEvent
  trailing : List LinkEvent

def passRound : Round := ⟨some 0, pageLink 0, movedBatch transferCount, []⟩

def idleRound : Round := ⟨some 0, pageLink 0, fun i => if i = 0 then [idleEvent 0] else [], []⟩

theorem setUp_granted (ct : ChainTransfer) : (setUpRound transferCount (some 0) (pageLink 0) ct).2 = 0 :=
  setUpRound_succeeds.mpr ⟨by simp, pageLink_granted 0⟩

section Rounds

variable [OmapDma]

def runRound (round : Round) (ct : ChainTransfer) : WorkerResult :=
  dmaChainThreadEntry transferCount round.chainId round.link round.batch ct testPassedInit

/-- The module waits for the count, so a round that a worker left without
counting has no next round. -/
def nextRound (ct : ChainTransfer) (round : Round) : Option ChainTransfer :=
  let result := runRound round ct
  if result.counted then some (round.trailing.foldl (dmaCallbackChain transferCount) result.ct) else none

def afterRounds (history : List Round) : Option ChainTransfer :=
  history.foldlM nextRound freshTransfer

def Round.buffers (round : Round) : DmaBuffersInfo := round.link.buffers (1024 * 1)

/-- Round `r` is independent of the rounds before it: any two histories that get
that far give the same verdict, and the check comes after the end of the
round's own transfers. -/
def RoundIndependent (r : Nat) (round : Round) : Prop :=
  ∀ history history' : List Round, history.length = r → history'.length = r →
    ∀ ct ct', afterRounds history = some ct → afterRounds history' = some ct' →
      (runRound round ct).testPassed = (runRound round ct').testPassed ∧
      ((setUpRound transferCount round.chainId round.link ct).2 = 0 →
        ∀ p s, pollLoop transferCount (setUpRound transferCount round.chainId round.link ct).1 round.batch
          = .found p s → Ended transferCount round.buffers (Polling.seen round.batch (p + 1)))

theorem ended_later {n : Nat} {b : DmaBuffersInfo} {es fs : List LinkEvent} (h : es.IsPrefix fs)
    (he : Ended n b es) : Ended n b fs := by
  rcases he with hlen | ⟨e, he, hbad⟩
  · exact .inl (Nat.lt_of_lt_of_le hlen h.length_le)
  · exact .inr ⟨e, h.subset he, hbad⟩

theorem nextRound_of_stopsAt {round : Round} {ct : ChainTransfer}
    (h : (setUpRound transferCount round.chainId round.link ct).2 = 0) {p : Nat}
    (hp : StopsAt transferCount round.buffers ct.transferEnd round.batch p) :
    ∃ ct', nextRound ct round = some ct' ∧
      After transferCount round.buffers (setUpRound transferCount round.chainId round.link ct).1
        (Polling.seen round.batch (p + 1) ++ round.trailing) ct' := by
  refine ⟨_, ?_, (setUpRound_after h).run _⟩
  rw [nextRound, runRound, entry_of_stopsAt h hp, List.foldl_append]
  rfl

theorem nextRound_marks {round : Round} {ct : ChainTransfer}
    (h : (setUpRound transferCount round.chainId round.link ct).2 = 0) {p : Nat}
    (hp : StopsAt transferCount round.buffers ct.transferEnd round.batch p) :
    ∃ ct', nextRound ct round = some ct' ∧ ∀ k ≠ 0, k < transferCount →
      ((ct'.transfers k).dataCorrect = true ↔ (ct.transfers k).dataCorrect = true ∨
        k < (Polling.seen round.batch (p + 1) ++ round.trailing).countP (good round.buffers)) := by
  obtain ⟨ct', hnext, hafter⟩ := nextRound_of_stopsAt h hp
  refine ⟨ct', hnext, fun k hk hkn => ?_⟩
  rw [hafter.others k hk hkn, (setUpRound_fields h).2.2.2.2 k hk]

theorem nextRound_cases {round : Round} {ct ct' : ChainTransfer} (hnext : nextRound ct round = some ct') :
    ∃ p, (setUpRound transferCount round.chainId round.link ct).2 = 0 ∧
      StopsAt transferCount round.buffers ct.transferEnd round.batch p := by
  by_cases h : (setUpRound transferCount round.chainId round.link ct).2 = 0
  · by_cases hp : ∃ p, StopsAt transferCount round.buffers ct.transferEnd round.batch p
    · obtain ⟨p, hp⟩ := hp
      exact ⟨p, h, hp⟩
    · rw [nextRound, runRound, entry_of_timeout h hp] at hnext
      exact absurd hnext (by simp)
  · rw [nextRound, runRound, entry_of_setUp_failed h] at hnext
    exact absurd hnext (by simp)

theorem nextRound_transferEnd {round : Round} {ct ct' : ChainTransfer} (hnext : nextRound ct round = some ct') :
    ct'.transferEnd = true := by
  obtain ⟨p, h, hp⟩ := nextRound_cases hnext
  obtain ⟨ct'', hnext', hafter⟩ := nextRound_of_stopsAt h hp
  have heq : ct' = ct'' := Option.some.inj (hnext.symm.trans hnext')
  rw [heq, hafter.transferEnd, (setUpRound_fields h).2.1]
  rcases hp.2.1 with hend | hended
  · exact .inl hend
  · have hlater := ended_later (Polling.seen_prefix (Nat.le_succ p)) hended
    exact .inr (ended_later (List.prefix_append _ _) hlater)

theorem afterRounds_nil : afterRounds [] = some freshTransfer := rfl

theorem afterRounds_concat (history : List Round) (round : Round) :
    afterRounds (history ++ [round]) = (afterRounds history).bind fun ct => nextRound ct round := by
  rw [afterRounds, List.foldlM_append, afterRounds]
  cases history.foldlM nextRound freshTransfer with
  | none => rfl
  | some ct => simp

theorem afterRounds_transferEnd {history : List Round} (hne : history ≠ []) {ct : ChainTransfer}
    (h : afterRounds history = some ct) : ct.transferEnd = true := by
  cases history using List.reverseRecOn with
  | nil => exact absurd rfl hne
  | append_singleton history round =>
    rw [afterRounds_concat] at h
    obtain ⟨ct', _, hnext⟩ := Option.bind_eq_some_iff.mp h
    exact nextRound_transferEnd hnext

theorem stopsAt_stale {n : Nat} {b : DmaBuffersInfo} {batch : Nat → List LinkEvent} {p : Nat} :
    StopsAt n b true batch p ↔ p = 0 := by
  constructor
  · rintro ⟨_, _, hno⟩
    by_contra hp
    exact hno 0 (Nat.pos_of_ne_zero hp) (.inl rfl)
  · rintro rfl
    exact ⟨by decide, .inl rfl, fun q hq => absurd hq (Nat.not_lt_zero q)⟩

theorem idle_rejected : good idleRound.buffers (idleEvent 0) = false := by
  have hbad : verifyBuffersChain (idleEvent 0).mem (pageBuffers 0) ≠ 0 := by
    rw [Ne, verifyBuffersChain_eq_zero]
    exact idleEvent_differs 0
  have hgood : good (pageBuffers 0) (idleEvent 0) = false := by
    rw [good]
    simp [hbad]
  exact hgood

theorem nextRound_passRound (ct : ChainTransfer) : ∃ ct', nextRound ct passRound = some ct' ∧
    ∀ k ≠ 0, k < transferCount → (ct'.transfers k).dataCorrect = true := by
  have hseen : ∀ q, Polling.seen passRound.batch q = List.replicate (transferCount + 1) (movedEvent 0) :=
    Polling.seen_first _
  have hp : StopsAt transferCount passRound.buffers ct.transferEnd passRound.batch 0 := by
    refine ⟨by decide, .inr ?_, fun q hq => absurd hq (Nat.not_lt_zero q)⟩
    rw [hseen]
    exact (moved_marks_all transferCount ct).1
  have hcount : (Polling.seen passRound.batch 1 ++ passRound.trailing).countP (good passRound.buffers) =
      transferCount + 1 := by
    rw [hseen, show passRound.trailing = [] from rfl, List.append_nil]
    exact countP_moved _
  obtain ⟨ct', hnext, hmarks⟩ := nextRound_marks (setUp_granted ct) hp
  refine ⟨ct', hnext, fun k hk hkn => (hmarks k hk hkn).mpr (.inr ?_)⟩
  rw [hcount]
  exact Nat.lt_succ_of_lt hkn

theorem nextRound_idleRound (ct : ChainTransfer) : ∃ ct', nextRound ct idleRound = some ct' ∧
    ∀ k ≠ 0, k < transferCount → (ct'.transfers k).dataCorrect = (ct.transfers k).dataCorrect := by
  have hseen : ∀ q, Polling.seen idleRound.batch q = [idleEvent 0] := Polling.seen_first _
  have hp : StopsAt transferCount idleRound.buffers ct.transferEnd idleRound.batch 0 := by
    refine ⟨by decide, .inr ?_, fun q hq => absurd hq (Nat.not_lt_zero q)⟩
    rw [hseen]
    refine .inr ⟨idleEvent 0, List.mem_singleton_self _, fun hpass => ?_⟩
    exact absurd hpass.1 (by simp [idle_rejected])
  have hcount : (Polling.seen idleRound.batch 1 ++ idleRound.trailing).countP (good idleRound.buffers) = 0 := by
    rw [hseen, show idleRound.trailing = [] from rfl, List.append_nil, List.countP_singleton, idle_rejected]
    rfl
  obtain ⟨ct', hnext, hmarks⟩ := nextRound_marks (setUp_granted ct) hp
  refine ⟨ct', hnext, fun k hk hkn => ?_⟩
  rw [Bool.eq_iff_iff, hmarks k hk hkn, hcount]
  simp

theorem afterRounds_pass (r : Nat) : ∃ ct, afterRounds (List.replicate (r + 1) passRound) = some ct ∧
    ∀ k ≠ 0, k < transferCount → (ct.transfers k).dataCorrect = true := by
  induction r with
  | zero =>
    obtain ⟨ct, hnext, hmarked⟩ := nextRound_passRound freshTransfer
    refine ⟨ct, ?_, hmarked⟩
    rw [List.replicate_one, ← List.nil_append [passRound], afterRounds_concat, afterRounds_nil, Option.bind_some]
    exact hnext
  | succ r ih =>
    obtain ⟨ct, hct, _⟩ := ih
    rw [List.replicate_succ', afterRounds_concat, hct, Option.bind_some]
    exact nextRound_passRound ct

theorem afterRounds_idle (r : Nat) : ∃ ct, afterRounds (List.replicate r idleRound) = some ct ∧
    ∀ k ≠ 0, k < transferCount → (ct.transfers k).dataCorrect = false := by
  induction r with
  | zero => exact ⟨freshTransfer, rfl, fun _ _ _ => rfl⟩
  | succ r ih =>
    obtain ⟨ct, hct, hunmarked⟩ := ih
    obtain ⟨ct', hnext, hkeep⟩ := nextRound_idleRound ct
    rw [List.replicate_succ', afterRounds_concat, hct]
    exact ⟨ct', hnext, fun k hk hkn => (hkeep k hk hkn).trans (hunmarked k hk hkn)⟩

/-- The check of a round is not reached early and finds the same marks under
every history: nothing is left to the marks of earlier rounds. -/
def SelfContained (round : Round) : Prop :=
  Ended transferCount round.buffers (Polling.seen round.batch 1) ∧
    (transferCount ≤ (Polling.seen round.batch 1).countP (good round.buffers) ∨
      LeavesFirstUnmarked transferCount round.buffers (Polling.seen round.batch 1))

theorem roundIndependent_zero (round : Round) : RoundIndependent 0 round := by
  intro history history' hlen hlen' ct ct' hrun hrun'
  rw [List.length_eq_zero_iff.mp hlen, afterRounds_nil] at hrun
  rw [List.length_eq_zero_iff.mp hlen', afterRounds_nil] at hrun'
  obtain rfl := Option.some.inj hrun
  obtain rfl := Option.some.inj hrun'
  refine ⟨rfl, fun h p s hfound => ?_⟩
  obtain ⟨_, hend | hended, _⟩ := ((pollLoop_found_iff h).mp hfound).1
  · contradiction
  · exact ended_later (Polling.seen_prefix (Nat.le_succ p)) hended

theorem roundIndependent_of_setUp_failed {round : Round} (r : Nat)
    (h : round.chainId = none ∨ ¬ round.link.Granted) : RoundIndependent r round := by
  have hfailed : ∀ ct, (setUpRound transferCount round.chainId round.link ct).2 ≠ 0 := by
    intro ct hzero
    obtain ⟨hid, hgranted⟩ := setUpRound_succeeds.mp hzero
    exact h.elim hid fun hnot => hnot hgranted
  intro history history' _ _ ct ct' _ _
  refine ⟨?_, fun hzero => absurd hzero (hfailed ct)⟩
  rw [runRound, runRound, entry_of_setUp_failed (hfailed ct), entry_of_setUp_failed (hfailed ct')]

theorem runRound_stale {round : Round} {ct : ChainTransfer} (hend : ct.transferEnd = true)
    (h : (setUpRound transferCount round.chainId round.link ct).2 = 0) :
    (runRound round ct).testPassed = 1 ∧
        AllMarked transferCount round.buffers ct (Polling.seen round.batch 1) ∨
      (runRound round ct).testPassed = 0 ∧
        ¬ AllMarked transferCount round.buffers ct (Polling.seen round.batch 1) := by
  classical
  have hp : StopsAt transferCount round.buffers ct.transferEnd round.batch 0 := by
    rw [hend, stopsAt_stale]
  have hverdict := testPassed_of_stopsAt h (by decide) hp testPassedInit
  by_cases hall : AllMarked transferCount round.buffers ct (Polling.seen round.batch 1)
  · exact .inl ⟨hverdict.trans (if_pos hall), hall⟩
  · exact .inr ⟨hverdict.trans (if_neg hall), hall⟩

theorem SelfContained.allMarked_iff {round : Round} (h : SelfContained round) (ct : ChainTransfer) :
    AllMarked transferCount round.buffers ct (Polling.seen round.batch 1) ↔
      ¬ LeavesFirstUnmarked transferCount round.buffers (Polling.seen round.batch 1) := by
  refine ⟨fun hall => hall.1, fun hfirst => ⟨hfirst, fun k _ hk => .inr ?_⟩⟩
  rcases h.2 with hcount | hleft
  · exact Nat.lt_of_lt_of_le hk hcount
  · contradiction

theorem SelfContained.roundIndependent {r : Nat} {round : Round} (hself : SelfContained round)
    (hgranted : round.chainId ≠ none ∧ round.link.Granted) (hr : r ≠ 0) : RoundIndependent r round := by
  intro history history' hlen hlen' ct ct' hrun hrun'
  have h : ∀ ct, (setUpRound transferCount round.chainId round.link ct).2 = 0 :=
    fun ct => setUpRound_succeeds.mpr hgranted
  have hend : ct.transferEnd = true :=
    afterRounds_transferEnd (List.ne_nil_of_length_pos (by omega)) hrun
  have hend' : ct'.transferEnd = true :=
    afterRounds_transferEnd (List.ne_nil_of_length_pos (by omega)) hrun'
  refine ⟨?_, fun _ p s hfound => ?_⟩
  · have hiff := (hself.allMarked_iff ct).trans (hself.allMarked_iff ct').symm
    rcases runRound_stale hend (h ct) with ⟨hv, hall⟩ | ⟨hv, hnot⟩
    · rcases runRound_stale hend' (h ct') with ⟨hv', _⟩ | ⟨_, hnot'⟩
      · rw [hv, hv']
      · exact absurd (hiff.mp hall) hnot'
    · rcases runRound_stale hend' (h ct') with ⟨_, hall'⟩ | ⟨hv', _⟩
      · exact absurd (hiff.mpr hall') hnot
      · rw [hv, hv']
  · have hstops := ((pollLoop_found_iff (h ct)).mp hfound).1
    rw [hend, stopsAt_stale] at hstops
    exact hstops ▸ hself.1

/-- After rounds that pass, the other transfers are marked whatever the round
does; after rounds whose first transfer fails, the round has to mark them. -/
theorem selfContained_of_roundIndependent {r : Nat} {round : Round} (hind : RoundIndependent r round)
    (hgranted : round.chainId ≠ none ∧ round.link.Granted) (hr : r ≠ 0) : SelfContained round := by
  have h : ∀ ct, (setUpRound transferCount round.chainId round.link ct).2 = 0 :=
    fun ct => setUpRound_succeeds.mpr hgranted
  obtain ⟨r, rfl⟩ := Nat.exists_eq_succ_of_ne_zero hr
  obtain ⟨ct, hrun, hmarked⟩ := afterRounds_pass r
  obtain ⟨ct', hrun', hunmarked⟩ := afterRounds_idle (r + 1)
  have hend : ct.transferEnd = true := afterRounds_transferEnd (by simp) hrun
  have hend' : ct'.transferEnd = true := afterRounds_transferEnd (by simp) hrun'
  obtain ⟨hsame, hafter⟩ := hind _ _ (List.length_replicate ..) (List.length_replicate ..) ct ct' hrun hrun'
  refine ⟨?_, ?_⟩
  · have hp : StopsAt transferCount round.buffers ct.transferEnd round.batch 0 := by
      rw [hend, stopsAt_stale]
    exact hafter (h ct) 0 _ ((pollLoop_found_iff (h ct)).mpr ⟨hp, rfl⟩)
  · by_contra! hneither
    obtain ⟨hcount, hfirst⟩ := hneither
    have hall : AllMarked transferCount round.buffers ct (Polling.seen round.batch 1) :=
      ⟨hfirst, fun k hk hkn => .inl (hmarked k hk hkn)⟩
    have hnot : ¬ AllMarked transferCount round.buffers ct' (Polling.seen round.batch 1) := by
      intro hall'
      -- the last transfer can only have been marked by the round itself
      have hlast : 13 < transferCount := by decide
      rcases hall'.2 13 (by decide) hlast with hold | hnew
      · rw [hunmarked 13 (by decide) hlast] at hold
        exact absurd hold Bool.false_ne_true
      · have htotal : transferCount = 14 := rfl
        omega
    rcases runRound_stale hend (h ct) with ⟨hv, _⟩ | ⟨_, hbad⟩
    · rcases runRound_stale hend' (h ct') with ⟨_, hgood⟩ | ⟨hv', _⟩
      · exact hnot hgood
      · rw [hv, hv'] at hsame
        exact Int.one_ne_zero hsame
    · exact hbad hall

/-- From the second round on, a round whose set-up succeeds is independent of
the earlier ones only when it is over before its first poll, and then passes on
callbacks of its own for all transfers or fails on its first transfer. -/
theorem roundIndependent_iff (r : Nat) (round : Round) :
    RoundIndependent r round ↔
      r = 0 ∨ (round.chainId = none ∨ ¬ round.link.Granted) ∨ SelfContained round := by
  constructor
  · intro hind
    by_contra! hnone
    obtain ⟨hr, hgranted, hself⟩ := hnone
    exact hself (selfContained_of_roundIndependent hind hgranted hr)
  · rintro (rfl | hfailed | hself)
    · exact roundIndependent_zero round
    · exact roundIndependent_of_setUp_failed r hfailed
    · by_cases hr : r = 0
      · exact hr ▸ roundIndependent_zero round
      · by_cases hgranted : round.chainId ≠ none ∧ round.link.Granted
        · exact hself.roundIndependent hgranted hr
        · exact roundIndependent_of_setUp_failed r (by simpa [imp_iff_not_or] using hgranted)

end Rounds

/-- A first transfer that is not moved passes after a round that passed, and
fails after one that failed. -/
theorem second_round_inherits :
    letI : OmapDma := ⟨0x20⟩
    (∃ ct ct', afterRounds [passRound] = some ct ∧ afterRounds [idleRound] = some ct' ∧
      (runRound idleRound ct).testPassed = 1 ∧ (runRound idleRound ct').testPassed = 0) ∧
    ¬ RoundIndependent 1 idleRound := by
  let : OmapDma := ⟨0x20⟩
  obtain ⟨ct, hrun, hmarked⟩ := afterRounds_pass 0
  obtain ⟨ct', hrun', hunmarked⟩ := afterRounds_idle 1
  have hend : ct.transferEnd = true := afterRounds_transferEnd (by simp) hrun
  have hend' : ct'.transferEnd = true := afterRounds_transferEnd (by simp) hrun'
  have h : ∀ ct, (setUpRound transferCount idleRound.chainId idleRound.link ct).2 = 0 := setUp_granted
  have hseen : Polling.seen idleRound.batch 1 = [idleEvent 0] := Polling.seen_first _ 1
  have hfirst : ¬ LeavesFirstUnmarked transferCount idleRound.buffers [idleEvent 0] := by
    intro h
    rw [← List.nil_append [idleEvent 0], leavesFirstUnmarked_append] at h
    have hgood : good idleRound.buffers (idleEvent 0) = true := h.2.1
    rw [idle_rejected] at hgood
    exact Bool.false_ne_true hgood
  have hall : AllMarked transferCount idleRound.buffers ct (Polling.seen idleRound.batch 1) := by
    rw [hseen]
    exact ⟨hfirst, fun k hk hkn => .inl (hmarked k hk hkn)⟩
  have hnot : ¬ AllMarked transferCount idleRound.buffers ct' (Polling.seen idleRound.batch 1) := by
    intro hall'
    rw [hseen] at hall'
    have hone : 1 < transferCount := by decide
    rcases hall'.2 1 (by decide) hone with hold | hnew
    · rw [hunmarked 1 (by decide) hone] at hold
      exact Bool.false_ne_true hold
    · rw [List.countP_singleton, idle_rejected] at hnew
      exact absurd hnew (by decide)
  have hpass : (runRound idleRound ct).testPassed = 1 := by
    rcases runRound_stale hend (h ct) with ⟨hv, _⟩ | ⟨_, hbad⟩
    · exact hv
    · exact absurd hall hbad
  have hfail : (runRound idleRound ct').testPassed = 0 := by
    rcases runRound_stale hend' (h ct') with ⟨_, hgood⟩ | ⟨hv, _⟩
    · exact absurd hgood hnot
    · exact hv
  refine ⟨⟨ct, ct', hrun, hrun', hpass, hfail⟩, fun hind => ?_⟩
  have hsame := (hind [passRound] [idleRound] rfl rfl ct ct' hrun hrun').1
  rw [hpass, hfail] at hsame
  exact Int.one_ne_zero hsame

end DmaChainStress

end DeviceDriverTest
