import Mathlib.Data.List.Infix
import DeviceDriverTest.ArrayLoop
import DeviceDriverTest.Polling
import DeviceDriverTest.DmaVerdict
import DeviceDriverTest.DmaChainTransfer

/-! The static chain test. Four chained transfers run round after round; each
counts its rounds up to the maximum, and jumps there when a round fails. The
poll takes the first transfer at the maximum for the end of all of them. -/

namespace DeviceDriverTest

namespace DmaChainStatic

open Chain

@[reducible] def transferCount : Nat := 4

def transferRounds : Nat := 5

def getTransfersFinished (transfers : Fin transferCount → DmaTransfer) : Bool :=
  (List.finRange transferCount).any fun i => (transfers i).rounds == transferRounds

def checkTestPassed (transfers : Fin transferCount → DmaTransfer) (testPassed : Int) : Int :=
  if checkLoop transfers (List.finRange transferCount) = 0 then setTestPassedChain testPassed 1
  else setTestPassedChain testPassed 0

def createTransfers (chainId : Option Int) (links : Fin transferCount → LinkAnswers) :
    (Fin transferCount → DmaTransfer) × Int :=
  let (chain, error) :=
    requestDmaChain chainId { (default : DmaChain) with channelCount := transferCount }
  if error ≠ 0 then (fun _ => default, 1)
  else ArrayLoop.sweep (fun i => linkTransfer (1024 * 16) (links i) chain) fun _ => default

theorem checkTestPassed_eq {transfers : Fin transferCount → DmaTransfer} (testPassed : Int)
    [Decidable (∀ k, (transfers k).dataCorrect = true)] :
    checkTestPassed transfers testPassed = if ∀ k, (transfers k).dataCorrect = true then 1 else 0 := by
  have hscan : checkLoop transfers (List.finRange transferCount) = 0 ↔
      ∀ k, (transfers k).dataCorrect = true := by
    simp [checkLoop_eq_zero_iff]
  simp only [checkTestPassed, hscan, setTestPassedChain]

theorem createTransfers_succeeds {chainId : Option Int} {links : Fin transferCount → LinkAnswers} :
    (createTransfers chainId links).2 = 0 ↔ chainId ≠ none ∧ ∀ k, (links k).Granted := by
  cases chainId with
  | none => simp [createTransfers, requestDmaChain]
  | some chainId =>
    simp only [createTransfers, requestDmaChain, ne_eq, not_true_eq_false, if_false, reduceCtorEq,
      not_false_eq_true, true_and, ArrayLoop.sweep_succeeds_iff, linkTransfer_succeeds]

theorem createTransfers_apply {chainId : Option Int} {links : Fin transferCount → LinkAnswers}
    (h : (createTransfers chainId links).2 = 0) (k : Fin transferCount) :
    ((createTransfers chainId links).1 k).dataCorrect = false ∧
      ((createTransfers chainId links).1 k).rounds = 0 ∧
      ((createTransfers chainId links).1 k).buffers = (links k).buffers (1024 * 16) := by
  have hgranted := (createTransfers_succeeds.mp h).2 k
  cases chainId with
  | none => exact absurd h (by simp [createTransfers, requestDmaChain])
  | some chainId =>
    simp only [createTransfers, requestDmaChain, ne_eq, not_true_eq_false, if_false] at h ⊢
    rw [ArrayLoop.sweep_apply h]
    rcases linkTransfer_cases (1024 * 16) (links k) _ default with ⟨_, _, hdc, hr, hb⟩ | ⟨hng, _⟩
    · exact ⟨hdc, hr, hb⟩
    · exact absurd hgranted hng

/-- The callbacks of transfer `k` that count as rounds. -/
def rounds (k : Fin transferCount) (es : List (Callback transferCount)) : List (Callback transferCount) :=
  (KeyedFold.addressed Callback.data k es).take transferRounds

theorem rounds_length {k : Fin transferCount} {es : List (Callback transferCount)} :
    (rounds k es).length = transferRounds ↔
      transferRounds ≤ (KeyedFold.addressed Callback.data k es).length := by
  rw [rounds, List.length_take]
  omega

theorem rounds_subset {k : Fin transferCount} {es fs : List (Callback transferCount)} (h : es.IsPrefix fs) :
    rounds k es ⊆ rounds k fs := by
  have hpre : (KeyedFold.addressed Callback.data k es).IsPrefix (KeyedFold.addressed Callback.data k fs) :=
    h.filter _
  exact (hpre.take transferRounds).subset

section Rounds

variable [OmapDma]

def pollLoop (transfers : Fin transferCount → DmaTransfer) (batch : Nat → List (Callback transferCount)) :
    Polling.Outcome (Fin transferCount → DmaTransfer) :=
  Polling.poll getTransfersFinished (KeyedFold.deliver Callback.data (dmaCallbackChain transferRounds)) batch
    transferPollCount transfers

def dmaModuleInit (chainId : Option Int) (links : Fin transferCount → LinkAnswers)
    (batch : Nat → List (Callback transferCount)) : InitResult :=
  let (transfers, error) := createTransfers chainId links
  if error ≠ 0 then ⟨setTestPassedChain testPassedInit 0, 1⟩
  else
    match pollLoop transfers batch with
    | .found _ transfers => ⟨checkTestPassed transfers testPassedInit, 0⟩
    | .exhausted _ => ⟨setTestPassedChain testPassedInit 0, 1⟩

def GoodRound (buffers : DmaBuffersInfo) (e : Callback transferCount) : Prop :=
  statusAcceptable e.transferStatus = true ∧ Matches e.mem buffers

theorem dmaCallbackChain_cases (maxRounds : Nat) (transfer : DmaTransfer) (e : Callback transferCount) :
    (transfer.rounds = maxRounds ∧ dmaCallbackChain maxRounds transfer e = transfer) ∨
    (transfer.rounds ≠ maxRounds ∧
      (dmaCallbackChain maxRounds transfer e).buffers = transfer.buffers ∧
      (GoodRound transfer.buffers e ∧
        (dmaCallbackChain maxRounds transfer e).rounds = transfer.rounds + 1 ∧
        (dmaCallbackChain maxRounds transfer e).dataCorrect = true ∨
      ¬ GoodRound transfer.buffers e ∧
        (dmaCallbackChain maxRounds transfer e).rounds = maxRounds ∧
        (dmaCallbackChain maxRounds transfer e).dataCorrect = false)) := by
  by_cases hr : transfer.rounds = maxRounds
  · exact .inl ⟨hr, by rw [dmaCallbackChain, if_pos hr]⟩
  right
  unfold GoodRound
  rw [← verifyBuffersChain_eq_zero, dmaCallbackChain, if_neg hr]
  by_cases hs : statusAcceptable e.transferStatus = true
  · by_cases hv : verifyBuffersChain e.mem transfer.buffers = 0
    · simp [hr, hs, hv]
    · simp [hr, hs, hv]
  · simp [hr, hs]

/-- Over the callbacks of one transfer with some rounds left, the flag says that
every counted round was good, and the count is at its maximum once the rounds
are used up or one of them failed. -/
theorem foldl_dmaCallbackChain (maxRounds : Nat) (es : List (Callback transferCount)) {left : Nat}
    {transfer : DmaTransfer} (h : transfer.rounds + left = maxRounds) :
    ((es.foldl (dmaCallbackChain maxRounds) transfer).dataCorrect = true ↔
      if es.take left = [] then transfer.dataCorrect = true
      else ∀ e ∈ es.take left, GoodRound transfer.buffers e) ∧
    ((es.foldl (dmaCallbackChain maxRounds) transfer).rounds = maxRounds ↔
      left ≤ es.length ∨ ∃ e ∈ es.take left, ¬ GoodRound transfer.buffers e) := by
  induction es generalizing transfer left with
  | nil =>
    refine ⟨by simp, ?_⟩
    simp only [List.foldl_nil, List.length_nil, List.take_nil, List.not_mem_nil, false_and, exists_false,
      or_false]
    omega
  | cons e es ih =>
    rw [List.foldl_cons]
    rcases dmaCallbackChain_cases maxRounds transfer e with ⟨hr, heq⟩ | ⟨hr, hb, hstep⟩
    · have hl : left = 0 := by omega
      subst hl
      rw [heq]
      have hrest := ih h
      simpa using hrest
    · obtain ⟨left, rfl⟩ : ∃ m, left = m + 1 := ⟨left - 1, by omega⟩
      rw [List.take_succ_cons, if_neg (List.cons_ne_nil _ _), List.forall_mem_cons, List.exists_mem_cons_iff,
        List.length_cons, Nat.add_le_add_iff_right]
      rcases hstep with ⟨hgood, hrounds, hdc⟩ | ⟨hbad, hrounds, hdc⟩
      · have hleft : (dmaCallbackChain maxRounds transfer e).rounds + left = maxRounds := by omega
        have hrest := ih hleft
        rw [hb, hdc] at hrest
        refine ⟨?_, ?_⟩
        · rw [hrest.1]
          by_cases hnil : es.take left = []
          · simp [hnil, hgood]
          · simp [hnil, hgood]
        · rw [hrest.2]
          simp [hgood]
      · have hleft : (dmaCallbackChain maxRounds transfer e).rounds + 0 = maxRounds := by omega
        have hrest := ih hleft
        rw [hb, hdc] at hrest
        refine ⟨?_, ?_⟩
        · rw [hrest.1]
          simp [hbad]
        · rw [hrest.2]
          simp [hbad]

def SomeAtMaximum (links : Fin transferCount → LinkAnswers) (es : List (Callback transferCount)) : Prop :=
  ∃ k, (rounds k es).length = transferRounds ∨
    ∃ e ∈ rounds k es, ¬ GoodRound ((links k).buffers (1024 * 16)) e

def ChecksAfter (links : Fin transferCount → LinkAnswers) (batch : Nat → List (Callback transferCount))
    (p : Nat) : Prop :=
  p < transferPollCount ∧ SomeAtMaximum links (Polling.seen batch p) ∧
    ∀ q < p, ¬ SomeAtMaximum links (Polling.seen batch q)

/-- A recorded pass means that every transfer has completed all its rounds and
each was good; a round that fails before the check makes the run fail. -/
def VerdictSound (chainId : Option Int) (links : Fin transferCount → LinkAnswers)
    (batch : Nat → List (Callback transferCount)) : Prop :=
  ((dmaModuleInit chainId links batch).testPassed = 1 →
    ∃ p s, pollLoop (createTransfers chainId links).1 batch = .found p s ∧
      ∀ k, (rounds k (Polling.seen batch (p + 1))).length = transferRounds ∧
        ∀ e ∈ rounds k (Polling.seen batch (p + 1)), GoodRound ((links k).buffers (1024 * 16)) e) ∧
  ∀ q, (∀ p s, pollLoop (createTransfers chainId links).1 batch = .found p s → q ≤ p + 1) →
    (∃ k, ∃ e ∈ rounds k (Polling.seen batch q), ¬ GoodRound ((links k).buffers (1024 * 16)) e) →
    (dmaModuleInit chainId links batch).testPassed = 0

variable {chainId : Option Int} {links : Fin transferCount → LinkAnswers}

theorem transfer_at (h : (createTransfers chainId links).2 = 0) (es : List (Callback transferCount))
    (k : Fin transferCount) :
    (((es.foldl (KeyedFold.deliver Callback.data (dmaCallbackChain transferRounds))
        (createTransfers chainId links).1) k).dataCorrect = true ↔
      rounds k es ≠ [] ∧ ∀ e ∈ rounds k es, GoodRound ((links k).buffers (1024 * 16)) e) ∧
    (((es.foldl (KeyedFold.deliver Callback.data (dmaCallbackChain transferRounds))
        (createTransfers chainId links).1) k).rounds = transferRounds ↔
      (rounds k es).length = transferRounds ∨
        ∃ e ∈ rounds k es, ¬ GoodRound ((links k).buffers (1024 * 16)) e) := by
  obtain ⟨hdc, hr, hb⟩ := createTransfers_apply h k
  have hleft : ((createTransfers chainId links).1 k).rounds + transferRounds = transferRounds := by
    rw [hr, Nat.zero_add]
  obtain ⟨hflag, hcount⟩ :=
    foldl_dmaCallbackChain transferRounds (KeyedFold.addressed Callback.data k es) hleft
  rw [hdc, hb] at hflag
  rw [hb] at hcount
  rw [KeyedFold.foldl_deliver_apply, hflag, hcount, rounds_length]
  refine ⟨?_, Iff.rfl⟩
  show (if rounds k es = [] then false = true else _) ↔ _
  by_cases hnil : rounds k es = []
  · simp [hnil]
  · rw [if_neg hnil]
    exact ⟨fun hall => ⟨hnil, hall⟩, fun hall => hall.2⟩

theorem pollLoop_found_iff (h : (createTransfers chainId links).2 = 0)
    {batch : Nat → List (Callback transferCount)} {p : Nat} {s : Fin transferCount → DmaTransfer} :
    pollLoop (createTransfers chainId links).1 batch = .found p s ↔ ChecksAfter links batch p ∧
      s = (Polling.seen batch (p + 1)).foldl
        (KeyedFold.deliver Callback.data (dmaCallbackChain transferRounds)) (createTransfers chainId links).1 := by
  have hready : ∀ q, getTransfersFinished ((Polling.seen batch q).foldl
      (KeyedFold.deliver Callback.data (dmaCallbackChain transferRounds)) (createTransfers chainId links).1)
        = true ↔ SomeAtMaximum links (Polling.seen batch q) := by
    intro q
    rw [getTransfersFinished, List.any_eq_true]
    simp only [List.mem_finRange, true_and, beq_iff_eq]
    exact exists_congr fun k => (transfer_at h _ k).2
  rw [pollLoop, Polling.poll_found_iff, ChecksAfter]
  simp only [Polling.stateAt, ← Bool.not_eq_true, hready, and_assoc]

theorem testPassed_of_checksAfter (h : (createTransfers chainId links).2 = 0)
    {batch : Nat → List (Callback transferCount)} {p : Nat} (hp : ChecksAfter links batch p) :
    (dmaModuleInit chainId links batch).testPassed = 1 ∧
        (∀ k, rounds k (Polling.seen batch (p + 1)) ≠ [] ∧ ∀ e ∈ rounds k (Polling.seen batch (p + 1)),
          GoodRound ((links k).buffers (1024 * 16)) e) ∨
      (dmaModuleInit chainId links batch).testPassed = 0 ∧
        ∃ k, rounds k (Polling.seen batch (p + 1)) = [] ∨ ∃ e ∈ rounds k (Polling.seen batch (p + 1)),
          ¬ GoodRound ((links k).buffers (1024 * 16)) e := by
  classical
  have hloop := (pollLoop_found_iff h).mpr ⟨hp, rfl⟩
  have hverdict : (dmaModuleInit chainId links batch).testPassed =
      if ∀ k, rounds k (Polling.seen batch (p + 1)) ≠ [] ∧
        ∀ e ∈ rounds k (Polling.seen batch (p + 1)), GoodRound ((links k).buffers (1024 * 16)) e
      then 1 else 0 := by
    simp only [dmaModuleInit, h, hloop, ne_eq, not_true_eq_false, if_false, checkTestPassed_eq,
      (transfer_at h _ _).1]
  rw [hverdict]
  by_cases hall : ∀ k, rounds k (Polling.seen batch (p + 1)) ≠ [] ∧
      ∀ e ∈ rounds k (Polling.seen batch (p + 1)), GoodRound ((links k).buffers (1024 * 16)) e
  · exact .inl ⟨if_pos hall, hall⟩
  · refine .inr ⟨if_neg hall, ?_⟩
    obtain ⟨k, hk⟩ := not_forall.mp hall
    refine ⟨k, ?_⟩
    by_cases hnil : rounds k (Polling.seen batch (p + 1)) = []
    · exact .inl hnil
    · right
      by_contra hno
      exact hk ⟨hnil, fun e he => by_contra fun hbad => hno ⟨e, he, hbad⟩⟩

theorem testPassed_of_timeout (h : (createTransfers chainId links).2 = 0)
    {batch : Nat → List (Callback transferCount)} (hn : ¬ ∃ p, ChecksAfter links batch p) :
    (dmaModuleInit chainId links batch).testPassed = 0 := by
  cases hloop : pollLoop (createTransfers chainId links).1 batch with
  | found p s => exact absurd ⟨p, ((pollLoop_found_iff h).mp hloop).1⟩ hn
  | exhausted s => simp [dmaModuleInit, h, hloop, setTestPassedChain]

theorem failed_round_fails {batch : Nat → List (Callback transferCount)} {q : Nat}
    (hq : ∀ p s, pollLoop (createTransfers chainId links).1 batch = .found p s → q ≤ p + 1)
    (hbad : ∃ k, ∃ e ∈ rounds k (Polling.seen batch q), ¬ GoodRound ((links k).buffers (1024 * 16)) e) :
    (dmaModuleInit chainId links batch).testPassed = 0 := by
  by_cases h : (createTransfers chainId links).2 = 0
  · by_cases hp : ∃ p, ChecksAfter links batch p
    · obtain ⟨p, hp⟩ := hp
      obtain ⟨k, e, he, hbad⟩ := hbad
      have hqp : q ≤ p + 1 := hq p _ ((pollLoop_found_iff h).mpr ⟨hp, rfl⟩)
      have he' : e ∈ rounds k (Polling.seen batch (p + 1)) := rounds_subset (Polling.seen_prefix hqp) he
      rcases testPassed_of_checksAfter h hp with ⟨_, hall⟩ | ⟨hzero, _⟩
      · exact absurd ((hall k).2 e he') hbad
      · exact hzero
    · exact testPassed_of_timeout h hp
  · simp [dmaModuleInit, h, setTestPassedChain]

/-- The verdict is sound when the set-up fails, and otherwise in the runs whose
check comes after every transfer has had its rounds, before some transfer has
had its first, or after some round failed. -/
theorem verdictSound_iff (chainId : Option Int) (links : Fin transferCount → LinkAnswers)
    (batch : Nat → List (Callback transferCount)) :
    VerdictSound chainId links batch ↔
      (chainId = none ∨ ∃ k, ¬ (links k).Granted) ∨
      ∀ p, ChecksAfter links batch p →
        (∀ k, (rounds k (Polling.seen batch (p + 1))).length = transferRounds) ∨
        (∃ k, rounds k (Polling.seen batch (p + 1)) = []) ∨
        ∃ k, ∃ e ∈ rounds k (Polling.seen batch (p + 1)), ¬ GoodRound ((links k).buffers (1024 * 16)) e := by
  have hsetup : (chainId = none ∨ ∃ k, ¬ (links k).Granted) ↔ ¬ (createTransfers chainId links).2 = 0 := by
    rw [createTransfers_succeeds, not_and_or, not_not, not_forall]
  have hsticky : VerdictSound chainId links batch ↔
      ((dmaModuleInit chainId links batch).testPassed = 1 →
        ∃ p s, pollLoop (createTransfers chainId links).1 batch = .found p s ∧
          ∀ k, (rounds k (Polling.seen batch (p + 1))).length = transferRounds ∧
            ∀ e ∈ rounds k (Polling.seen batch (p + 1)), GoodRound ((links k).buffers (1024 * 16)) e) :=
    and_iff_left fun q hq hbad => failed_round_fails hq hbad
  rw [hsticky, hsetup]
  by_cases h : (createTransfers chainId links).2 = 0
  · rw [or_iff_right (not_not.mpr h)]
    constructor
    · intro hsound p hp
      rcases testPassed_of_checksAfter h hp with ⟨hone, hall⟩ | ⟨_, k, hnil | hbad⟩
      · left
        obtain ⟨p', s, hf, hrounds⟩ := hsound hone
        have hf' := (pollLoop_found_iff h).mpr ⟨hp, rfl⟩
        rw [hf'] at hf
        cases hf
        exact fun k => (hrounds k).1
      · exact .inr (.inl ⟨k, hnil⟩)
      · exact .inr (.inr ⟨k, hbad⟩)
    · intro hcond hone
      by_cases hp : ∃ p, ChecksAfter links batch p
      · obtain ⟨p, hp⟩ := hp
        rcases testPassed_of_checksAfter h hp with ⟨_, hall⟩ | ⟨hzero, _⟩
        · refine ⟨p, _, (pollLoop_found_iff h).mpr ⟨hp, rfl⟩, fun k => ⟨?_, (hall k).2⟩⟩
          rcases hcond p hp with hfull | ⟨j, hnil⟩ | ⟨j, e, he, hbad⟩
          · exact hfull k
          · exact absurd hnil (hall j).1
          · exact absurd ((hall j).2 e he) hbad
        · rw [hzero] at hone
          contradiction
      · rw [testPassed_of_timeout h hp] at hone
        contradiction
  · have hzero : (dmaModuleInit chainId links batch).testPassed = 0 := by
      simp [dmaModuleInit, h, setTestPassedChain]
    refine iff_of_true (fun hone => ?_) (.inl h)
    rw [hzero] at hone
    contradiction

end Rounds

/-- A kernel that grants every link, the buffers in adjacent blocks of their
size. -/
def blockLink (k : Fin transferCount) : LinkAnswers where
  alloc := { src := 16384 * (2 * k + 1), dest := 16384 * (2 * k + 2) }
  srcPhys := 16384 * (2 * k + 1)
  destPhys := 16384 * (2 * k + 2)
  chained := true

theorem blockLink_granted (k : Fin transferCount) : (blockLink k).Granted := by
  refine ⟨?_, ?_, rfl⟩ <;> simp [blockLink]

def movedMemory (a : Nat) : UInt8 := fillByte 16384 (a % 16384)

theorem movedMemory_matches (k : Fin transferCount) :
    Matches movedMemory ((blockLink k).buffers (1024 * 16)) := by
  intro i _
  show fillByte 16384 ((16384 * (2 * (k : Nat) + 1) + i) % 16384) =
    fillByte 16384 ((16384 * (2 * (k : Nat) + 2) + i) % 16384)
  rw [show (16384 * (2 * (k : Nat) + 1) + i) % 16384 = (16384 * (2 * (k : Nat) + 2) + i) % 16384 by omega]

def unevenRounds : List (Callback transferCount) :=
  [0, 1, 2, 3, 0, 0, 0, 0].map fun k => { data := k, transferStatus := 0, mem := movedMemory }

/-- The first transfer is through with its rounds, the others have had one: the
module records a pass. -/
theorem uneven_rounds_pass :
    letI : OmapDma := ⟨0x20⟩
    ¬ VerdictSound (some 0) blockLink fun i => if i = 0 then unevenRounds else [] := by
  let : OmapDma := ⟨0x20⟩
  have hseen := Polling.seen_first unevenRounds
  have h : (createTransfers (some 0) blockLink).2 = 0 :=
    createTransfers_succeeds.mpr ⟨by simp, blockLink_granted⟩
  have hp : ChecksAfter blockLink (fun i => if i = 0 then unevenRounds else []) 0 := by
    refine ⟨by decide, ⟨0, ?_⟩, fun q hq => absurd hq (Nat.not_lt_zero q)⟩
    rw [hseen]
    exact .inl rfl
  have hgood : ∀ k, ∀ e ∈ rounds k unevenRounds, GoodRound ((blockLink k).buffers (1024 * 16)) e := by
    intro k e he
    have hmem : e ∈ unevenRounds := (KeyedFold.mem_addressed.mp (List.mem_of_mem_take he)).1
    obtain ⟨j, _, rfl⟩ := List.mem_map.mp hmem
    exact ⟨statusAcceptable_zero, movedMemory_matches k⟩
  rintro ⟨hsound, _⟩
  rcases testPassed_of_checksAfter h hp with ⟨hone, _⟩ | ⟨_, k, hk⟩
  · obtain ⟨p, s, _, hrounds⟩ := hsound hone
    have hlen := (hrounds 1).1
    rw [hseen] at hlen
    exact absurd hlen (by decide)
  · rw [hseen] at hk
    rcases hk with hnil | ⟨e, he, hbad⟩
    · have hne : ∀ k, rounds k unevenRounds ≠ [] := by decide
      exact hne k hnil
    · exact hbad (hgood k e he)

end DmaChainStatic

end DeviceDriverTest
