import DeviceDriverTest.MappingLedger
import DeviceDriverTest.DmaChainDynamic
import DeviceDriverTest.DmaChainStatic
import DeviceDriverTest.DmaChainThread

/-! The mappings of the chain tests. `chain_transfer` maps the buffers of a
transfer once; the callbacks undo the mapping, in the static test at the end of
every round and in the threaded tests twice at the end of one. -/

namespace DeviceDriverTest

namespace DmaMapping

open Chain MappingLedger ScheduledRun

def unmapped {Key : Type} (_ : Key) : Bool := false

/-- The mapping calls made while the transfers are chained one after the other,
up to the first that is refused. -/
def linkOps {Index : Type} (links : Index → LinkAnswers) : List Index → List (Op Index)
  | [] => []
  | k :: rest =>
    if (createTransferBuffersChain (links k).alloc default).2 ≠ 0 then []
    else .map k :: if !(links k).chained then [] else linkOps links rest

theorem linkOps_disciplined {Index : Type} [DecidableEq Index] {links : Index → LinkAnswers}
    {is : List Index} (live : Index → Bool) : Disciplined live (linkOps links is) := by
  induction is generalizing live with
  | nil => trivial
  | cons k rest ih =>
    rw [linkOps]
    split_ifs
    · trivial
    · exact ⟨trivial, trivial⟩
    · exact ⟨trivial, ih _⟩

theorem linkOps_granted {Index : Type} {links : Index → LinkAnswers} {is : List Index}
    (h : ∀ k ∈ is, (links k).Granted) : linkOps links is = is.map .map := by
  induction is with
  | nil => rfl
  | cons k rest ih =>
    obtain ⟨hs, hd, hc⟩ := h k List.mem_cons_self
    have hrest := ih fun j hj => h j (List.mem_cons_of_mem k hj)
    have halloc : (createTransferBuffersChain (links k).alloc default).2 = 0 :=
      (createTransferBuffersChain_succeeds default).mpr ⟨hs, hd⟩
    rw [linkOps, if_neg (not_not.mpr halloc), hc, hrest]
    rfl

namespace Static

open DmaChainStatic

def setUpOps (chainId : Option Int) (links : Fin transferCount → LinkAnswers) :
    List (Op (Fin transferCount)) :=
  if chainId = none then [] else linkOps links (List.finRange transferCount)

theorem setUpOps_disciplined {chainId : Option Int} {links : Fin transferCount → LinkAnswers}
    (live : Fin transferCount → Bool) : Disciplined live (setUpOps chainId links) := by
  rw [setUpOps]
  split_ifs
  · trivial
  · exact linkOps_disciplined live

theorem setUpOps_live {chainId : Option Int} {links : Fin transferCount → LinkAnswers}
    (h : (createTransfers chainId links).2 = 0) (k : Fin transferCount) :
    (setUpOps chainId links).foldl next unmapped k = true := by
  obtain ⟨hid, hgranted⟩ := createTransfers_succeeds.mp h
  rw [setUpOps, if_neg hid, linkOps_granted fun k _ => hgranted k]
  exact foldl_maps (List.mem_finRange k)

/-- A round of the transfer completes; the callback undoes the mapping before it
looks at the status, unless the rounds were used up. -/
def callbackOps (transfers : Fin transferCount → DmaTransfer) (e : Callback transferCount) :
    List (Op (Fin transferCount)) :=
  .complete e.data :: if (transfers e.data).rounds = transferRounds then [] else [.unmap e.data]

variable [OmapDma]

def callbacksOps : (Fin transferCount → DmaTransfer) → List (Callback transferCount) →
    List (Op (Fin transferCount))
  | _, [] => []
  | transfers, e :: es => callbackOps transfers e ++
      callbacksOps (KeyedFold.deliver Callback.data (dmaCallbackChain transferRounds) transfers e) es

def ops (chainId : Option Int) (links : Fin transferCount → LinkAnswers)
    (es : List (Callback transferCount)) : List (Op (Fin transferCount)) :=
  setUpOps chainId links ++
    if (createTransfers chainId links).2 ≠ 0 then [] else callbacksOps (createTransfers chainId links).1 es

/-- As long as a mapped transfer has rounds left, its first callback undoes the
mapping, and a second one no longer finds it. -/
theorem callbacksOps_disciplined_iff {transfers : Fin transferCount → DmaTransfer}
    {live : Fin transferCount → Bool}
    (h : ∀ k, live k = true → (transfers k).rounds ≠ transferRounds) (es : List (Callback transferCount)) :
    Disciplined live (callbacksOps transfers es) ↔
      (es.map Callback.data).Nodup ∧ ∀ e ∈ es, live e.data = true := by
  induction es generalizing transfers live with
  | nil => simp [callbacksOps, disciplined_nil]
  | cons e es ih =>
    cases hlive : live e.data with
    | false =>
      refine iff_of_false (fun hops => ?_) fun hall => ?_
      · have hcomplete : live e.data = true := (disciplined_cons.mp hops).1
        rw [hlive] at hcomplete
        contradiction
      · have htrue := hall.2 e List.mem_cons_self
        rw [hlive] at htrue
        contradiction
    | true =>
      have hkeep : ∀ k, Function.update live e.data false k = true →
          (KeyedFold.deliver Callback.data (dmaCallbackChain transferRounds) transfers e k).rounds ≠
            transferRounds := by
        intro k hk
        have hne : k ≠ e.data := by
          rintro rfl
          simp at hk
        rw [Function.update_of_ne hne] at hk
        rw [KeyedFold.deliver, Function.update_of_ne hne]
        exact h k hk
      have hrest := ih hkeep
      have hops : callbacksOps transfers (e :: es) = .complete e.data :: .unmap e.data ::
          callbacksOps (KeyedFold.deliver Callback.data (dmaCallbackChain transferRounds) transfers e) es := by
        rw [callbacksOps, callbackOps, if_neg (h e.data hlive)]
        rfl
      have hothers : (∀ e' ∈ es, Function.update live e.data false e'.data = true) ↔
          e.data ∉ es.map Callback.data ∧ ∀ e' ∈ es, live e'.data = true := by
        simpa only [next, List.forall_mem_map] using @live_unmap_iff _ _ live e.data (es.map Callback.data)
      rw [hops, disciplined_cons, disciplined_cons, List.map_cons, List.nodup_cons, List.forall_mem_cons]
      have hfold : Disciplined (next (next live (.complete e.data)) (.unmap e.data))
          (callbacksOps (KeyedFold.deliver Callback.data (dmaCallbackChain transferRounds) transfers e) es) ↔
          (es.map Callback.data).Nodup ∧ e.data ∉ es.map Callback.data ∧ ∀ e' ∈ es, live e'.data = true := by
        rw [← hothers]
        exact hrest
      rw [hfold]
      constructor
      · rintro ⟨_, _, hnd, hnot, hall⟩
        exact ⟨⟨hnot, hnd⟩, hlive, hall⟩
      · rintro ⟨⟨hnot, hnd⟩, _, hall⟩
        exact ⟨hlive, hlive, hnd, hnot, hall⟩

theorem ops_disciplined_iff (chainId : Option Int) (links : Fin transferCount → LinkAnswers)
    (es : List (Callback transferCount)) :
    Disciplined unmapped (ops chainId links es) ↔
      (chainId = none ∨ ∃ k, ¬ (links k).Granted) ∨ (es.map Callback.data).Nodup := by
  have hsetup : (chainId = none ∨ ∃ k, ¬ (links k).Granted) ↔ ¬ (createTransfers chainId links).2 = 0 := by
    rw [createTransfers_succeeds, not_and_or, not_not, not_forall]
  rw [ops, disciplined_append, hsetup]
  by_cases h : (createTransfers chainId links).2 = 0
  · rw [if_neg (not_not.mpr h), or_iff_right (not_not.mpr h),
      callbacksOps_disciplined_iff fun k _ => ?_]
    · constructor
      · exact fun hall => hall.2.1
      · exact fun hnd => ⟨setUpOps_disciplined _, hnd, fun e _ => setUpOps_live h e.data⟩
    · rw [(createTransfers_apply h k).2.1]
      decide
  · rw [if_pos h]
    exact iff_of_true ⟨setUpOps_disciplined _, trivial⟩ (.inl h)

end Static

namespace Dynamic

open DmaChainDynamic

theorem linkFirst_succeeds {chainId : Option Int} {link : LinkAnswers} :
    (linkFirst chainId link).2 = 0 ↔ chainId ≠ none ∧ link.Granted := by
  cases chainId with
  | none => simp [linkFirst, requestDmaChain]
  | some chainId =>
    by_cases hg : link.Granted
    · have hl : ∀ chain transfer, (linkTransfer (1024 * 1) link chain transfer).2 = 0 :=
        fun _ _ => linkTransfer_succeeds.mpr hg
      simp [linkFirst, requestDmaChain, hl, hg]
    · have hl : ∀ chain transfer, (linkTransfer (1024 * 1) link chain transfer).2 ≠ 0 :=
        fun _ _ hz => hg (linkTransfer_succeeds.mp hz)
      simp [linkFirst, requestDmaChain, hl, hg]

theorem linkFirst_pending {chainId : Option Int} {link : LinkAnswers} (h : (linkFirst chainId link).2 = 0) :
    (linkFirst chainId link).1.pending = [0] := by
  obtain ⟨hid, hg⟩ := linkFirst_succeeds.mp h
  obtain ⟨chainId, rfl⟩ := Option.ne_none_iff_exists'.mp hid
  have hl : ∀ chain transfer, (linkTransfer (1024 * 1) link chain transfer).2 = 0 :=
    fun _ _ => linkTransfer_succeeds.mpr hg
  simp [linkFirst, requestDmaChain, hl]

variable [OmapDma]

def callbackOps (s : State) (k : Nat) (e : LinkEvent) : List (Op Nat) :=
  .complete k ::
    if s.currentTransfer = transferCount then []
    else .unmap k ::
      if statusAcceptable e.transferStatus then
        if verifyBuffersChain e.mem (s.transfers k).buffers ≠ 0 then []
        else if (createTransferBuffersChain e.link.alloc default).2 ≠ 0 then []
        else [.map s.currentTransfer]
      else []

def callbacksOps : State → List LinkEvent → List (Op Nat)
  | _, [] => []
  | s, e :: es =>
    (match s.pending with
      | [] => []
      | k :: _ => callbackOps s k e) ++ callbacksOps (deliver s e) es

def setUpOps (chainId : Option Int) (link : LinkAnswers) : List (Op Nat) :=
  if chainId = none then [] else linkOps (fun _ => link) [0]

def ops (chainId : Option Int) (link : LinkAnswers) (es : List LinkEvent) : List (Op Nat) :=
  setUpOps chainId link ++ callbacksOps (linkFirst chainId link).1 es

/-- The transfer on its way, if there is one, is mapped. -/
def PendingMapped (s : State) (live : Nat → Bool) : Prop :=
  s.pending = [] ∨ ∃ k, s.pending = [k] ∧ live k = true

theorem deliver_pending {s : State} {k : Nat} (h : s.pending = [k]) (e : LinkEvent) :
    (deliver s e).pending = [] ∨ (deliver s e).pending = [s.currentTransfer] ∧
      callbackOps s k e = [.complete k, .unmap k, .map s.currentTransfer] := by
  rw [deliver, h]
  dsimp only
  by_cases hcount : s.currentTransfer = transferCount
  · exact .inl (by rw [DmaChainDynamic.dmaCallbackChain, if_pos hcount]; rfl)
  by_cases hs : statusAcceptable e.transferStatus = true
  · by_cases hv : verifyBuffersChain e.mem (s.transfers k).buffers = 0
    · by_cases hg : e.link.Granted
      · right
        have halloc : (createTransferBuffersChain e.link.alloc default).2 = 0 :=
          (createTransferBuffersChain_succeeds default).mpr ⟨hg.1, hg.2.1⟩
        refine ⟨?_, by simp [callbackOps, hcount, hs, hv, halloc]⟩
        have hlink : ∀ transfer, (linkTransfer (1024 * 1) e.link s.chain transfer).2 = 0 :=
          fun _ => linkTransfer_succeeds.mpr hg
        simp [DmaChainDynamic.dmaCallbackChain, hcount, hs, hv, hlink, State.set]
      · left
        have hlink : ∀ transfer, (linkTransfer (1024 * 1) e.link s.chain transfer).2 ≠ 0 :=
          fun _ hz => hg (linkTransfer_succeeds.mp hz)
        simp [DmaChainDynamic.dmaCallbackChain, hcount, hs, hv, hlink, State.set]
    · exact .inl (by simp [DmaChainDynamic.dmaCallbackChain, hcount, hs, hv, State.set])
  · exact .inl (by simp [DmaChainDynamic.dmaCallbackChain, hcount, hs, State.set])

theorem callbackOps_disciplined {s : State} {k : Nat} {live : Nat → Bool} (h : live k = true)
    (e : LinkEvent) : Disciplined live (callbackOps s k e) := by
  refine ⟨h, ?_⟩
  split_ifs
  · trivial
  · exact ⟨h, trivial⟩
  · exact ⟨h, trivial⟩
  · exact ⟨h, trivial, trivial⟩
  · exact ⟨h, trivial⟩

theorem PendingMapped.disciplined {s : State} {live : Nat → Bool} (h : PendingMapped s live)
    (es : List LinkEvent) : Disciplined live (callbacksOps s es) := by
  induction es generalizing s live with
  | nil => trivial
  | cons e es ih =>
    rw [callbacksOps, disciplined_append]
    rcases h with hnone | ⟨k, hk, hlive⟩
    · have hsame : deliver s e = s := by rw [deliver, hnone]
      rw [hnone, hsame]
      exact ⟨trivial, ih (.inl hnone)⟩
    · rw [hk]
      refine ⟨callbackOps_disciplined hlive e, ih ?_⟩
      rcases deliver_pending hk e with hnil | ⟨hnext, hops⟩
      · exact .inl hnil
      · refine .inr ⟨s.currentTransfer, hnext, ?_⟩
        have hmapped := Function.update_self s.currentTransfer true (Function.update live k false)
        show (callbackOps s k e).foldl next live s.currentTransfer = true
        rw [hops]
        exact hmapped

theorem ops_disciplined (chainId : Option Int) (link : LinkAnswers) (es : List LinkEvent) :
    Disciplined unmapped (ops chainId link es) := by
  rw [ops, disciplined_append]
  have hsetup : Disciplined unmapped (setUpOps chainId link) := by
    rw [setUpOps]
    split_ifs
    · trivial
    · exact linkOps_disciplined _
  refine ⟨hsetup, PendingMapped.disciplined ?_ es⟩
  by_cases h : (linkFirst chainId link).2 = 0
  · obtain ⟨hid, hg⟩ := linkFirst_succeeds.mp h
    refine .inr ⟨0, (linkFirst_pending h), ?_⟩
    rw [setUpOps, if_neg hid, linkOps_granted fun _ _ => hg]
    exact foldl_maps List.mem_cons_self
  · exact .inl (linkFirst_failed h).1

end Dynamic

namespace Threads

open DmaChainThread

/-- One round of a worker: the answers of the kernel and the callbacks that come
before its chain is stopped. -/
structure Round where
  chainId : Option Int
  link : LinkAnswers
  callbacks : List LinkEvent

def mappingOps (trace : List DmaChainThread.Op) : List (Op Nat) :=
  trace.filterMap fun op =>
    match op with
    | .map k => some (.map k)
    | .unmap k => some (.unmap k)
    | _ => none

theorem mappingOps_setUp_disciplined (n : Nat) (round : Round) (ct : ChainTransfer) (live : Nat → Bool) :
    Disciplined live (mappingOps (setUpRound n round.chainId round.link ct).1.trace) := by
  have htrace : (setUpRound n round.chainId round.link ct).1.trace = [] ∨
      (setUpRound n round.chainId round.link ct).1.trace = [.map 0, .submit 0] := by
    cases round.chainId with
    | none => exact .inl (by simp [setUpRound, requestDmaChain])
    | some chainId =>
      unfold setUpRound
      dsimp only [requestDmaChain]
      split_ifs <;> simp [chainFirst]
  rcases htrace with htrace | htrace <;> rw [htrace]
  · trivial
  · exact ⟨trivial, trivial⟩

variable [OmapDma]

/-- The chain hands every callback the structure of the worker, whose first
transfer is the one that completes. -/
def callbacksOps (n : Nat) : ChainTransfer → List LinkEvent → List (Op Nat)
  | _, [] => []
  | ct, e :: es =>
    .complete 0 :: mappingOps ((dmaCallbackChain n ct e).trace.drop ct.trace.length) ++
      callbacksOps n (dmaCallbackChain n ct e) es

/-- A worker whose set-up fails is not counted, and no further round starts. -/
def ops (n : Nat) : ChainTransfer → List Round → List (Op Nat)
  | _, [] => []
  | ct, round :: rest =>
    let (ct, error) := setUpRound n round.chainId round.link ct
    mappingOps ct.trace ++
      if error ≠ 0 then []
      else callbacksOps n ct round.callbacks ++ ops n (round.callbacks.foldl (dmaCallbackChain n) ct) rest

def Round.Granted (round : Round) : Prop :=
  round.chainId ≠ none ∧ round.link.Granted

instance (round : Round) : Decidable round.Granted :=
  inferInstanceAs (Decidable (round.chainId ≠ none ∧ round.link.alloc.src ≠ 0 ∧ round.link.alloc.dest ≠ 0 ∧
    round.link.chained = true))

/-- Short of the count, a callback undoes the mapping twice before it looks at
the status. -/
theorem dmaCallbackChain_unmaps {n : Nat} {ct : ChainTransfer} (hn : ct.currentTransfer ≠ n) (e : LinkEvent) :
    ∃ later, (dmaCallbackChain n ct e).trace = ct.trace ++ .mark 0 :: .unmap 0 :: .unmap 0 :: later := by
  cases hg : good (ct.transfers 0).buffers e with
  | true =>
    rw [dmaCallbackChain_accepted hn hg]
    have hstep := (verifiedStep_effect ct e).2.2.1
    have hlink : (dynamicChainTransfer e.link (verifiedStep ct e).1).1.trace =
        (verifiedStep ct e).1.trace ++ [.map 0, .submit 0] := (chainFirst_effect e.link _).2.2.1
    split_ifs <;> simp [hlink, hstep]
  | false =>
    by_cases hs : statusAcceptable e.transferStatus = true
    · have hz : verifyBuffersChain e.mem (ct.transfers 0).buffers ≠ 0 := by simpa [good, hs] using hg
      simp [DmaChainThread.dmaCallbackChain, hn, hs, hz]
    · simp [DmaChainThread.dmaCallbackChain, hn, hs]

theorem callbacksOps_disciplined_iff {n : Nat} {ct : ChainTransfer} (hn : ct.currentTransfer ≠ n)
    {live : Nat → Bool} (es : List LinkEvent) : Disciplined live (callbacksOps n ct es) ↔ es = [] := by
  cases es with
  | nil => exact iff_of_true trivial rfl
  | cons e es =>
    refine iff_of_false (fun hops => ?_) (List.cons_ne_nil e es)
    obtain ⟨later, htrace⟩ := dmaCallbackChain_unmaps hn e
    have hlog : mappingOps ((dmaCallbackChain n ct e).trace.drop ct.trace.length) =
        .unmap 0 :: .unmap 0 :: mappingOps later := by
      rw [htrace, List.drop_left]
      rfl
    rw [callbacksOps, hlog] at hops
    -- the second undoing finds the mapping gone
    have hsecond : Function.update live 0 false 0 = true := hops.2.2.1
    simp at hsecond

/-- A worker whose set-up fails ends the run, so only the rounds before that
matter. -/
theorem ops_disciplined_iff {n : Nat} (hn : 0 < n) (ct : ChainTransfer) (rounds : List Round)
    (live : Nat → Bool) :
    Disciplined live (ops n ct rounds) ↔
      ∀ round ∈ rounds.takeWhile fun round => decide round.Granted, round.callbacks = [] := by
  induction rounds generalizing ct live with
  | nil => simp [ops, disciplined_nil]
  | cons round rest ih =>
    rw [ops, disciplined_append]
    have hsetup := mappingOps_setUp_disciplined n round ct live
    by_cases h : (setUpRound n round.chainId round.link ct).2 = 0
    · have hgranted : round.Granted := setUpRound_succeeds.mp h
      have hcur : (setUpRound n round.chainId round.link ct).1.currentTransfer ≠ n := by
        have hzero := (setUpRound_fields h).1
        omega
      rw [if_neg (not_not.mpr h), disciplined_append, callbacksOps_disciplined_iff hcur, ih,
        List.takeWhile_cons_of_pos (by simpa using hgranted), List.forall_mem_cons]
      exact and_iff_right hsetup
    · have hgranted : ¬ round.Granted := fun hg => h (setUpRound_succeeds.mpr hg)
      rw [if_pos h, List.takeWhile_cons_of_neg (by simpa using hgranted)]
      exact iff_of_true ⟨hsetup, trivial⟩ (by simp)

end Threads

open DmaChainThread (ChainThreadModule ChainTransfer)

/-- What can happen to the mappings of one test: its set-up and the callbacks,
for a worker of the threaded tests round after round. -/
inductive ChainRun where
  | dmaChainStatic (chainId : Option Int) (links : Fin DmaChainStatic.transferCount → LinkAnswers)
      (callbacks : List (Callback DmaChainStatic.transferCount))
  | dmaChainDynamic (chainId : Option Int) (link : LinkAnswers) (callbacks : List LinkEvent)
  | dmaChainThread (m : ChainThreadModule) (ct : ChainTransfer) (rounds : List Threads.Round)

section Runs

variable [OmapDma]

def ChainRun.MappingsDisciplined : ChainRun → Prop
  | dmaChainStatic chainId links callbacks => Disciplined unmapped (Static.ops chainId links callbacks)
  | dmaChainDynamic chainId link callbacks => Disciplined unmapped (Dynamic.ops chainId link callbacks)
  | dmaChainThread m ct rounds => Disciplined unmapped (Threads.ops m.transferCount ct rounds)

/-- The static test never calls a transfer back twice; the threaded tests are
never called back. -/
def ChainRun.CallsBackOnce : ChainRun → Prop
  | dmaChainStatic chainId links callbacks =>
    (chainId = none ∨ ∃ k, ¬ (links k).Granted) ∨ (callbacks.map Callback.data).Nodup
  | dmaChainDynamic .. => True
  | dmaChainThread _ _ rounds =>
    ∀ round ∈ rounds.takeWhile fun round => decide round.Granted, round.callbacks = []

theorem mappingsDisciplined_iff (run : ChainRun) : run.MappingsDisciplined ↔ run.CallsBackOnce := by
  cases run with
  | dmaChainStatic chainId links callbacks => exact Static.ops_disciplined_iff chainId links callbacks
  | dmaChainDynamic chainId link callbacks =>
    exact iff_of_true (Dynamic.ops_disciplined chainId link callbacks) trivial
  | dmaChainThread m ct rounds =>
    have hn : 0 < m.transferCount := by cases m <;> decide
    exact Threads.ops_disciplined_iff hn ct rounds unmapped

end Runs

/-- The second round of a static transfer, and the first callback of a worker. -/
theorem second_unmap :
    letI : OmapDma := ⟨0x20⟩
    ¬ (ChainRun.dmaChainStatic (some 0) DmaChainStatic.blockLink
      ([0, 0].map fun k => ⟨k, 0, DmaChainStatic.movedMemory⟩)).MappingsDisciplined ∧
    ¬ (ChainRun.dmaChainThread .dmaChainThreadStress DmaChainThread.freshTransfer
      [⟨some 0, pageLink 0, [movedEvent 0]⟩]).MappingsDisciplined := by
  let : OmapDma := ⟨0x20⟩
  constructor
  · intro hdisciplined
    rcases (Static.ops_disciplined_iff _ _ _).mp hdisciplined with (hnone | ⟨k, hk⟩) | hnd
    · contradiction
    · exact hk (DmaChainStatic.blockLink_granted k)
    · exact absurd hnd (by decide)
  · intro hdisciplined
    have hnone := (Threads.ops_disciplined_iff (by decide) _ _ _).mp hdisciplined
    have hgranted : Threads.Round.Granted ⟨some 0, pageLink 0, [movedEvent 0]⟩ :=
      ⟨by simp, pageLink_granted 0⟩
    rw [List.takeWhile_cons_of_pos (by simpa using hgranted)] at hnone
    have hnil := hnone _ List.mem_cons_self
    exact absurd hnil (List.cons_ne_nil _ _)

end DmaMapping

end DeviceDriverTest
