import DeviceDriverTest.FifoDriver
import DeviceDriverTest.VideoBufferPools

/-! The write-back streaming program. A source is shown and captured again by the
write-back device; what that returns is copied to a second display. -/

namespace DeviceDriverTest

namespace VideoStreamingWb

open ScheduledRun FifoDriver

inductive Pipe where
  | source
  | wb
  | disp
  deriving DecidableEq

/-- A call to one of the drivers, or the copy of a write-back buffer. -/
inductive Event where
  | use (pipe : Pipe) (u : Use)
  | copy (i : Nat)

/-- The buffers that the drivers own, and the one that the write-back driver
returned last. -/
structure Drivers where
  source : List Nat
  wb : List Nat
  disp : List Nat
  taken : Option Nat

def Drivers.idle : Drivers := ⟨[], [], [], none⟩

def Drivers.after (d : Drivers) : Event → Drivers
  | .use .source u => { d with source := FifoDriver.next d.source u }
  | .use .wb u =>
    { d with wb := FifoDriver.next d.wb u, taken := if u = .dqbuf then d.wb.head? else d.taken }
  | .use .disp u => { d with disp := FifoDriver.next d.disp u }
  | .copy _ => d

structure Counts where
  source : Nat
  wb : Nat
  disp : Nat

def Meets (granted : Counts) (d : Drivers) : Event → Prop
  | .use .source u => Allowed granted.source d.source u
  | .use .wb u => Allowed granted.wb d.wb u
  | .use .disp u => Allowed granted.disp d.disp u
  | .copy i => d.taken = some i

instance Meets.decidable (granted : Counts) (d : Drivers) : ∀ e, Decidable (Meets granted d e)
  | .use .source u => inferInstanceAs (Decidable (Allowed granted.source d.source u))
  | .use .wb u => inferInstanceAs (Decidable (Allowed granted.wb d.wb u))
  | .use .disp u => inferInstanceAs (Decidable (Allowed granted.disp d.disp u))
  | .copy i => inferInstanceAs (Decidable (d.taken = some i))

/-- What the program meets: the set-up of the three pipelines, and which frames
it can read before the loop and in it. -/
structure Answers where
  source : SetUpAnswers
  wb : SetUpAnswers
  disp : SetUpAnswers
  formatKnown : Bool
  prefilled : Nat → Bool
  refilled : Nat → Bool

/-- The buffers queued before the loop, and whether all of them were. -/
def prefill (answers : Answers) : List Nat → List Event × Bool
  | [] => ([], true)
  | i :: rest =>
    if answers.prefilled i then
      let (events, all) := prefill answers rest
      (.use .source (.qbuf i) :: .use .wb (.qbuf i) :: events, all)
    else ([], false)

structure Counters where
  vout : Nat
  wb : Nat
  disp : Nat

def showWriteback (granted : Counts) (numBuffers : Int) (c : Counters) : List Event :=
  [.use .source .dqbuf, .use .wb .dqbuf, .copy (c.wb % granted.wb), .use .disp (.qbuf (c.disp % granted.disp))] ++
    if numBuffers ≤ c.disp + 1 then [.use .disp .dqbuf] else []

def requeue (granted : Counts) (c : Counters) : List Event :=
  [.use .source (.qbuf (c.vout % granted.source)), .use .wb (.qbuf (c.wb % granted.wb))]

def streamLoop (granted : Counts) (answers : Answers) (numBuffers : Int) : Nat → Counters → List Event
  | 0, _ => []
  | fuel + 1, c =>
    if c.vout < 2000 then
      showWriteback granted numBuffers c ++
        if answers.refilled c.disp then
          requeue granted c ++
            streamLoop granted answers numBuffers fuel ⟨c.vout + 1, c.wb + 1, c.disp + 1⟩
        else []
    else []

def stream (granted : Counts) (numBuffers : Int32) (answers : Answers) (fuel : Nat) : List Event :=
  let (events, all) := prefill answers (List.range numBuffers.toInt.toNat)
  if !all then events
  -- with no buffer queued the first VIDIOC_DQBUF of the loop does not come back
  else if numBuffers.toInt ≤ 0 then events
  else events ++ streamLoop granted answers numBuffers.toInt fuel ⟨granted.source, granted.wb, 0⟩

/-- The events of the program, and the pools its clean-up walks through if it is
reached: a program that returns from the stream leaves them as they are. -/
def streamingVideo (numBuffers : Int32) (answers : Answers) (fuel : Nat) : List Event × List Pool :=
  let (source, ending) := setupPipeline numBuffers answers.source
  match ending with
  | .crashed => ([], [])
  | .failed => ([], [source])
  | .ok =>
    let (wb, ending) := setupPipeline numBuffers answers.wb
    match ending with
    | .crashed => ([], [])
    | .failed => ([], [wb, source])
    | .ok =>
      let (disp, ending) := setupPipeline numBuffers answers.disp
      match ending with
      | .crashed => ([], [])
      | .failed => ([], [disp, wb, source])
      | .ok =>
        if !answers.formatKnown then ([], [disp, wb, source])
        else (stream ⟨source.count, wb.count, disp.count⟩ numBuffers answers fuel, [disp, wb, source])

def Answers.counts (answers : Answers) (numBuffers : Int32) : Counts where
  source := (setupPipeline numBuffers answers.source).1.count
  wb := (setupPipeline numBuffers answers.wb).1.count
  disp := (setupPipeline numBuffers answers.disp).1.count

def WritebackSound (numBuffers : Int32) (answers : Answers) : Prop :=
  ∀ fuel,
    (∀ pool ∈ (streamingVideo numBuffers answers fuel).2, pool.CleansUp) ∧
      StepsMeet Drivers.after (Meets (answers.counts numBuffers)) .idle (streamingVideo numBuffers answers fuel).1

/-- The buffers of the display: the last ones shown, all but one of those that
the program keeps queued. -/
def shown (p granted t : Nat) : List Nat :=
  (List.range' (t - (p - 1)) (t - (t - (p - 1)))).map (· % granted)

theorem shown_queue (p granted t : Nat) :
    shown p granted t ++ [t % granted] = (List.range' (t - (p - 1)) (t + 1 - (t - (p - 1)))).map (· % granted) := by
  have hlen : t + 1 - (t - (p - 1)) = t - (t - (p - 1)) + 1 := by omega
  have hlast : t - (p - 1) + (t - (t - (p - 1))) = t := by omega
  rw [hlen, List.range'_1_concat, List.map_append, List.map_singleton, hlast, shown]

theorem shown_succ {p : Nat} (granted t : Nat) (hp : 1 ≤ p) :
    (if p ≤ t + 1 then (shown p granted t ++ [t % granted]).tail else shown p granted t ++ [t % granted]) =
      shown p granted (t + 1) := by
  rw [shown_queue]
  by_cases hle : p ≤ t + 1
  · have hlen : t + 1 - (t - (p - 1)) = t + 1 - (t + 1 - (p - 1)) + 1 := by omega
    have hfirst : t - (p - 1) + 1 = t + 1 - (p - 1) := by omega
    rw [if_pos hle, hlen, List.range'_succ, List.map_cons, List.tail_cons, hfirst, shown]
  · have hfirst : t - (p - 1) = t + 1 - (p - 1) := by omega
    rw [if_neg hle, hfirst, shown]

theorem mod_notMem_shown {p granted t : Nat} (hp : 1 ≤ p) (h : p ≤ granted ∨ t < granted) :
    t % granted ∉ shown p granted t := by
  have hrecent : Recent granted (t - (p - 1)) t (shown p granted t) := by
    intro i hi
    obtain ⟨m, hm, rfl⟩ := List.mem_map.mp hi
    have hm := List.mem_range'_1.mp hm
    exact ⟨m, by omega, by omega, rfl⟩
  exact hrecent.free (by omega)

theorem zero_mem_shown {p granted : Nat} (hlt : granted < p) (hpos : 0 < granted) :
    granted % granted ∈ shown p granted granted := by
  have hfirst : granted - (p - 1) = 0 := by omega
  rw [shown, hfirst, Nat.mod_self]
  exact List.mem_map.mpr ⟨0, List.mem_range'_1.mpr ⟨le_rfl, by omega⟩, Nat.zero_mod _⟩

/-- The copy takes the buffer that came back, and the display buffer it fills is
free to be queued. -/
def TurnSound (granted : Counts) (p t : Nat) : Prop :=
  t % granted.wb = slot p granted.wb t ∧ t % granted.disp < granted.disp ∧
    t % granted.disp ∉ shown p granted.disp t

structure AtTurn (granted : Counts) (p t : Nat) (d : Drivers) : Prop where
  source : d.source = held p granted.source t
  wb : d.wb = held p granted.wb t
  disp : d.disp = shown p granted.disp t

section Loop

variable {granted : Counts} {p t : Nat} {d : Drivers}

theorem stepsMeet_showWriteback (h : AtTurn granted p t d) (hp : 1 ≤ p) (rest : List Event) :
    StepsMeet Drivers.after (Meets granted) d
        (showWriteback granted p ⟨granted.source + t, granted.wb + t, t⟩ ++ rest) ↔
      TurnSound granted p t ∧
        StepsMeet Drivers.after (Meets granted)
          ⟨d.source.tail, d.wb.tail, shown p granted.disp (t + 1), some (slot p granted.wb t)⟩ rest := by
  have hsource : d.source ≠ [] := by
    rw [h.source, held_cons _ _ hp]
    exact List.cons_ne_nil _ _
  have hwb : d.wb ≠ [] := by
    rw [h.wb, held_cons _ _ hp]
    exact List.cons_ne_nil _ _
  have htaken : d.wb.head? = some (slot p granted.wb t) := by
    rw [h.wb, held_cons _ _ hp]
    rfl
  have hcopy : (granted.wb + t) % granted.wb = t % granted.wb := Nat.add_mod_left _ _
  have hdisp := shown_succ granted.disp t hp
  by_cases hfull : p ≤ t + 1
  · have hcount : (p : Int) ≤ (t : Int) + 1 := by omega
    have hqueued : d.disp ++ [t % granted.disp] ≠ [] := List.append_ne_nil_of_right_ne_nil _ (List.cons_ne_nil _ _)
    rw [if_pos hfull, ← h.disp] at hdisp
    simp only [showWriteback, if_pos hcount, List.cons_append, List.nil_append, StepsMeet, Meets, Allowed,
      Drivers.after, FifoDriver.next, if_true, hcopy, htaken, hdisp]
    rw [TurnSound, ← h.disp]
    constructor
    · rintro ⟨_, _, hcopied, hfree, _, hrest⟩
      exact ⟨⟨(Option.some.inj hcopied).symm, hfree⟩, hrest⟩
    · rintro ⟨⟨hcopied, hfree⟩, hrest⟩
      exact ⟨hsource, hwb, congrArg some hcopied.symm, hfree, hqueued, hrest⟩
  · have hcount : ¬ (p : Int) ≤ (t : Int) + 1 := by omega
    rw [if_neg hfull, ← h.disp] at hdisp
    simp only [showWriteback, if_neg hcount, List.cons_append, List.nil_append, StepsMeet, Meets, Allowed,
      Drivers.after, FifoDriver.next, if_true, hcopy, htaken, hdisp]
    rw [TurnSound, ← h.disp]
    constructor
    · rintro ⟨_, _, hcopied, hfree, hrest⟩
      exact ⟨⟨(Option.some.inj hcopied).symm, hfree⟩, hrest⟩
    · rintro ⟨⟨hcopied, hfree⟩, hrest⟩
      exact ⟨hsource, hwb, congrArg some hcopied.symm, hfree, hrest⟩

theorem stepsMeet_requeue (h : AtTurn granted p t d) (hp : 1 ≤ p) (hsource : p ≤ granted.source)
    (hwb : p ≤ granted.wb) (taken : Option Nat) (rest : List Event) :
    ∃ d', AtTurn granted p (t + 1) d' ∧
      (StepsMeet Drivers.after (Meets granted) ⟨d.source.tail, d.wb.tail, shown p granted.disp (t + 1), taken⟩
          (requeue granted ⟨granted.source + t, granted.wb + t, t⟩ ++ rest) ↔
        StepsMeet Drivers.after (Meets granted) d' rest) := by
  have hsourceFree : t % granted.source < granted.source ∧ t % granted.source ∉ d.source.tail := by
    rw [h.source]
    exact ⟨Nat.mod_lt _ (by omega), held_free t hp hsource⟩
  have hwbFree : t % granted.wb < granted.wb ∧ t % granted.wb ∉ d.wb.tail := by
    rw [h.wb]
    exact ⟨Nat.mod_lt _ (by omega), held_free t hp hwb⟩
  refine ⟨⟨d.source.tail ++ [t % granted.source], d.wb.tail ++ [t % granted.wb], shown p granted.disp (t + 1), taken⟩,
    ⟨?_, ?_, rfl⟩, ?_⟩
  · rw [h.source]
    exact held_succ _ _ hp
  · rw [h.wb]
    exact held_succ _ _ hp
  · simp only [requeue, List.cons_append, List.nil_append, StepsMeet, Meets, Allowed, Drivers.after,
      FifoDriver.next, Nat.add_mod_left, reduceCtorEq, if_false]
    exact ⟨fun hsteps => hsteps.2.2, fun hrest => ⟨hsourceFree, hwbFree, hrest⟩⟩

/-- From a turn on, the loop keeps to the drivers' buffers exactly when every turn
that it reaches is sound. -/
theorem stepsMeet_streamLoop (answers : Answers) (hp : 1 ≤ p) (hsource : p ≤ granted.source)
    (hwb : p ≤ granted.wb) (fuel : Nat) (h : AtTurn granted p t d) :
    StepsMeet Drivers.after (Meets granted) d
        (streamLoop granted answers p fuel ⟨granted.source + t, granted.wb + t, t⟩) ↔
      ∀ s, t ≤ s → s < t + fuel → granted.source + s < 2000 →
        (∀ r, t ≤ r → r < s → answers.refilled r = true) → TurnSound granted p s := by
  induction fuel generalizing t d with
  | zero => exact iff_of_true trivial fun s hlo hhi => by omega
  | succ fuel ih =>
    by_cases hcount : granted.source + t < 2000
    · rw [streamLoop, if_pos hcount, stepsMeet_showWriteback h hp]
      by_cases hread : answers.refilled t = true
      · obtain ⟨d', hd', hrequeue⟩ := stepsMeet_requeue h hp hsource hwb (some (slot p granted.wb t))
          (streamLoop granted answers p fuel ⟨granted.source + (t + 1), granted.wb + (t + 1), t + 1⟩)
        rw [if_pos hread]
        refine (and_congr_right fun _ => hrequeue.trans (ih hd')).trans ?_
        constructor
        · rintro ⟨hturn, hrest⟩ s hlo hhi hlast hreads
          rcases Nat.eq_or_lt_of_le hlo with rfl | hlt
          · exact hturn
          · exact hrest s hlt (by omega) hlast fun r hr hrs => hreads r (by omega) hrs
        · intro hall
          refine ⟨hall t le_rfl (by omega) hcount fun r hr hrt => by omega, fun s hlo hhi hlast hreads => ?_⟩
          refine hall s (by omega) (by omega) hlast fun r hr hrs => ?_
          rcases Nat.eq_or_lt_of_le hr with rfl | hlt
          · exact hread
          · exact hreads r hlt hrs
      · rw [if_neg hread]
        refine (and_iff_left trivial).trans ?_
        constructor
        · intro hturn s hlo hhi hlast hreads
          rcases Nat.eq_or_lt_of_le hlo with rfl | hlt
          · exact hturn
          · exact absurd (hreads t le_rfl hlt) hread
        · exact fun hall => hall t le_rfl (by omega) hcount fun r hr hrt => by omega
    · rw [streamLoop, if_neg hcount]
      refine iff_of_true trivial fun s hlo hhi hlast => ?_
      omega

end Loop

def Queued (numBuffers : Int32) (answers : Answers) (i : Nat) : Prop :=
  i < numBuffers.toInt.toNat ∧ ∀ j ≤ i, answers.prefilled j = true

def Reached (granted : Counts) (answers : Answers) (t : Nat) : Prop :=
  granted.source + t < 2000 ∧ ∀ s < t, answers.refilled s = true

theorem Reached.of_le {granted : Counts} {answers : Answers} {s t : Nat} (h : Reached granted answers t)
    (hle : s ≤ t) : Reached granted answers s :=
  ⟨by have := h.1; omega, fun r hr => h.2 r (by omega)⟩

/-- All the turns that the loop reaches are sound exactly when it ends before it
comes back to a buffer, or the counts agree. -/
theorem turnsSound_iff {granted : Counts} {answers : Answers} {p : Nat} (hp : 1 ≤ p) (hwb : p ≤ granted.wb) :
    (∀ t, Reached granted answers t → TurnSound granted p t) ↔
      (Reached granted answers p → p = granted.wb) ∧ (Reached granted answers granted.disp → p ≤ granted.disp) := by
  constructor
  · intro hall
    constructor
    · intro hreached
      by_contra hne
      exact mod_ne_slot hp (by omega) (hall p hreached).1
    · intro hreached
      by_contra hlt
      have hturn := (hall granted.disp hreached).2
      by_cases hpos : 0 < granted.disp
      · exact hturn.2 (zero_mem_shown (by omega) hpos)
      · omega
  · rintro ⟨hcopy, hshow⟩ t hreached
    have hdisp : p ≤ granted.disp ∨ t < granted.disp := by
      by_cases hle : granted.disp ≤ t
      · exact .inl (hshow (hreached.of_le hle))
      · exact .inr (by omega)
    have hturn : t < p ∨ p = granted.wb := by
      by_cases hle : p ≤ t
      · exact .inr (hcopy (hreached.of_le hle))
      · exact .inl (by omega)
    exact ⟨mod_eq_slot hwb hturn, Nat.mod_lt _ (by omega), mod_notMem_shown hp hdisp⟩

section Prefill

variable {granted : Counts} {answers : Answers}

theorem stepsMeet_prefill {first : Nat} {d : Drivers} (n : Nat) (hsource : d.source = List.range first)
    (hwb : d.wb = List.range first) :
    StepsMeet Drivers.after (Meets granted) d (prefill answers (List.range' first n)).1 ↔
      ∀ i, first ≤ i → i < first + n → (∀ j, first ≤ j → j ≤ i → answers.prefilled j = true) →
        i < granted.source ∧ i < granted.wb := by
  induction n generalizing first d with
  | zero => exact iff_of_true trivial fun i hlo hhi => by omega
  | succ n ih =>
    rw [List.range'_succ, prefill]
    by_cases hread : answers.prefilled first = true
    · have hsource' : d.source ++ [first] = List.range (first + 1) := by rw [hsource, List.range_succ]
      have hwb' : d.wb ++ [first] = List.range (first + 1) := by rw [hwb, List.range_succ]
      have hfree : first ∉ List.range first := by simp
      have hrest := @ih (first + 1) ⟨d.source ++ [first], d.wb ++ [first], d.disp, d.taken⟩ hsource' hwb'
      simp only [if_pos hread, StepsMeet, Meets, Allowed, Drivers.after, FifoDriver.next, reduceCtorEq, if_false,
        hrest]
      rw [hsource, hwb]
      constructor
      · rintro ⟨⟨hfirst, _⟩, ⟨hfirst', _⟩, hall⟩ i hlo hhi hreads
        rcases Nat.eq_or_lt_of_le hlo with rfl | hlt
        · exact ⟨hfirst, hfirst'⟩
        · exact hall i hlt (by omega) fun j hj hji => hreads j (by omega) hji
      · intro hall
        have hone : ∀ j, first ≤ j → j ≤ first → answers.prefilled j = true := by
          intro j hj hji
          rw [Nat.le_antisymm hji hj]
          exact hread
        have hfirst := hall first le_rfl (by omega) hone
        refine ⟨⟨hfirst.1, hfree⟩, ⟨hfirst.2, hfree⟩, fun i hlo hhi hreads => ?_⟩
        refine hall i (by omega) (by omega) fun j hj hji => ?_
        rcases Nat.eq_or_lt_of_le hj with rfl | hlt
        · exact hread
        · exact hreads j hlt hji
    · simp only [if_neg hread]
      refine iff_of_true trivial fun i hlo hhi hreads => ?_
      exact absurd (hreads first le_rfl hlo) hread

theorem prefill_all {is : List Nat} : (prefill answers is).2 = true ↔ ∀ i ∈ is, answers.prefilled i = true := by
  induction is with
  | nil => simp [prefill]
  | cons i rest ih =>
    rw [prefill, List.forall_mem_cons]
    by_cases hread : answers.prefilled i = true
    · rw [if_pos hread, and_iff_right hread]
      exact ih
    · simp [hread]

theorem foldl_prefill {is : List Nat} (hall : ∀ i ∈ is, answers.prefilled i = true) (d : Drivers) :
    (prefill answers is).1.foldl Drivers.after d = ⟨d.source ++ is, d.wb ++ is, d.disp, d.taken⟩ := by
  induction is generalizing d with
  | nil => simp [prefill]
  | cons i rest ih =>
    obtain ⟨hread, hrest⟩ := List.forall_mem_cons.mp hall
    rw [prefill, if_pos hread]
    simp [Drivers.after, FifoDriver.next, ih hrest]

end Prefill

/-- What keeps the stream sound: the buffers queued at first exist, and where the
loop comes back to one the counts agree. -/
structure StreamSound (granted : Counts) (numBuffers : Int32) (answers : Answers) : Prop where
  queued : ∀ i, Queued numBuffers answers i → i < granted.source ∧ i < granted.wb
  looped : 0 < numBuffers.toInt → (∀ i < numBuffers.toInt.toNat, answers.prefilled i = true) →
    (Reached granted answers numBuffers.toInt.toNat → numBuffers.toInt.toNat = granted.wb) ∧
      (Reached granted answers granted.disp → numBuffers.toInt.toNat ≤ granted.disp)

section Stream

variable {granted : Counts} {numBuffers : Int32} {answers : Answers}

theorem stepsMeet_prefill_iff :
    StepsMeet Drivers.after (Meets granted) .idle (prefill answers (List.range numBuffers.toInt.toNat)).1 ↔
      ∀ i, Queued numBuffers answers i → i < granted.source ∧ i < granted.wb := by
  rw [List.range_eq_range', stepsMeet_prefill _ rfl rfl]
  constructor
  · exact fun hall i hi => hall i (Nat.zero_le i) (by have := hi.1; omega) fun j _ hj => hi.2 j hj
  · exact fun hall i _ hi hreads => hall i ⟨by omega, fun j hj => hreads j (Nat.zero_le j) hj⟩

theorem stepsMeet_loop_iff (answers : Answers) {p : Nat} (hp : 1 ≤ p) (hsource : p ≤ granted.source) (hwb : p ≤ granted.wb)
    {d : Drivers} (h : AtTurn granted p 0 d) :
    (∀ fuel, StepsMeet Drivers.after (Meets granted) d
        (streamLoop granted answers p fuel ⟨granted.source, granted.wb, 0⟩)) ↔
      (Reached granted answers p → p = granted.wb) ∧ (Reached granted answers granted.disp → p ≤ granted.disp) := by
  have hturns := fun fuel => stepsMeet_streamLoop answers hp hsource hwb fuel h
  rw [← turnsSound_iff hp hwb]
  constructor
  · intro hall t hreached
    exact (hturns (t + 1)).mp (hall _) t (Nat.zero_le t) (by omega) hreached.1 fun r _ hr => hreached.2 r hr
  · intro hall fuel
    exact (hturns fuel).mpr fun s _ _ hlast hreads => hall s ⟨hlast, fun r hr => hreads r (Nat.zero_le r) hr⟩

theorem streamSound_iff :
    (∀ fuel, StepsMeet Drivers.after (Meets granted) .idle (stream granted numBuffers answers fuel)) ↔
      StreamSound granted numBuffers answers := by
  by_cases hall : ∀ i ∈ List.range numBuffers.toInt.toNat, answers.prefilled i = true
  · have hfull := prefill_all.mpr hall
    have hreads : ∀ i < numBuffers.toInt.toNat, answers.prefilled i = true :=
      fun i hi => hall i (List.mem_range.mpr hi)
    by_cases hn : numBuffers.toInt ≤ 0
    · have hstream : ∀ fuel, stream granted numBuffers answers fuel =
          (prefill answers (List.range numBuffers.toInt.toNat)).1 := by
        intro fuel
        simp only [stream, hfull, Bool.not_true, Bool.false_eq_true, if_false, if_pos hn]
      simp only [hstream, stepsMeet_prefill_iff, forall_const]
      exact ⟨fun hqueued => ⟨hqueued, fun hpos => by omega⟩, fun h => h.queued⟩
    · have hstream : ∀ fuel, stream granted numBuffers answers fuel =
          (prefill answers (List.range numBuffers.toInt.toNat)).1 ++
            streamLoop granted answers numBuffers.toInt fuel ⟨granted.source, granted.wb, 0⟩ := by
        intro fuel
        simp only [stream, hfull, Bool.not_true, Bool.false_eq_true, if_false, if_neg hn]
      have hp : 1 ≤ numBuffers.toInt.toNat := by omega
      have hcast : numBuffers.toInt = (numBuffers.toInt.toNat : Int) := by omega
      have hturn : AtTurn granted numBuffers.toInt.toNat 0
          ⟨List.range numBuffers.toInt.toNat, List.range numBuffers.toInt.toNat, [], none⟩ :=
        ⟨(held_zero _ _).symm, (held_zero _ _).symm, by simp [shown]⟩
      have hloop : (∀ i, Queued numBuffers answers i → i < granted.source ∧ i < granted.wb) →
          ((∀ fuel, StepsMeet Drivers.after (Meets granted)
            ⟨List.range numBuffers.toInt.toNat, List.range numBuffers.toInt.toNat, [], none⟩
            (streamLoop granted answers numBuffers.toInt fuel ⟨granted.source, granted.wb, 0⟩)) ↔
              (Reached granted answers numBuffers.toInt.toNat → numBuffers.toInt.toNat = granted.wb) ∧
                (Reached granted answers granted.disp → numBuffers.toInt.toNat ≤ granted.disp)) := by
        intro hqueued
        have hlast := hqueued (numBuffers.toInt.toNat - 1) ⟨by omega, fun j hj => hreads j (by omega)⟩
        have hiff := stepsMeet_loop_iff answers hp (by omega) (by omega) hturn
        rwa [← hcast] at hiff
      simp only [hstream, stepsMeet_append, stepsMeet_prefill_iff, foldl_prefill hall, forall_and_left]
      constructor
      · rintro ⟨hqueued, hsteps⟩
        exact ⟨hqueued, fun _ _ => (hloop hqueued).mp hsteps⟩
      · intro h
        exact ⟨h.queued, (hloop h.queued).mpr (h.looped (by omega) hreads)⟩
  · have hshort : (prefill answers (List.range numBuffers.toInt.toNat)).2 = false := by
      rw [← Bool.not_eq_true, prefill_all]
      exact hall
    have hstream : ∀ fuel, stream granted numBuffers answers fuel =
        (prefill answers (List.range numBuffers.toInt.toNat)).1 := by
      intro fuel
      simp only [stream, hshort, Bool.not_false, if_true]
    simp only [hstream, stepsMeet_prefill_iff, forall_const]
    refine ⟨fun hqueued => ⟨hqueued, fun _ hreads => ?_⟩, fun h => h.queued⟩
    exact absurd (fun i hi => hreads i (List.mem_range.mp hi)) hall

end Stream

/-- The write-back stream is sound exactly when each set-up that comes to its turn
leaves its pool clean, and the counts fit where all of them succeed. -/
theorem writebackSound_iff (numBuffers : Int32) (answers : Answers) :
    WritebackSound numBuffers answers ↔
      LeavesClean numBuffers answers.source ∧
        (Succeeds answers.source →
          LeavesClean numBuffers answers.wb ∧
            (Succeeds answers.wb →
              LeavesClean numBuffers answers.disp ∧
                (Succeeds answers.disp → answers.formatKnown = true →
                  StreamSound (answers.counts numBuffers) numBuffers answers))) := by
  have hidle : StepsMeet Drivers.after (Meets (answers.counts numBuffers)) .idle [] := trivial
  rw [WritebackSound]
  rcases setupPipeline_cases numBuffers answers.source with
    ⟨hend, hnot, hclean⟩ | ⟨hend, hnot, hclean⟩ | ⟨hend, hok, hclean, hpool⟩
  · simp [streamingVideo, hend, hnot, hclean, hidle]
  · simp [streamingVideo, hend, hnot, hclean, hidle]
  rw [and_iff_right hclean, forall_prop_of_true hok]
  rcases setupPipeline_cases numBuffers answers.wb with
    ⟨hend', hnot, hclean⟩ | ⟨hend', hnot, hclean⟩ | ⟨hend', hok, hclean, hpool'⟩
  · simp [streamingVideo, hend, hend', hnot, hclean, hidle]
  · simp [streamingVideo, hend, hend', hnot, hclean, hidle, hpool]
  rw [and_iff_right hclean, forall_prop_of_true hok]
  rcases setupPipeline_cases numBuffers answers.disp with
    ⟨hend'', hnot, hclean⟩ | ⟨hend'', hnot, hclean⟩ | ⟨hend'', hok, hclean, hpool''⟩
  · simp [streamingVideo, hend, hend', hend'', hnot, hclean, hidle]
  · simp [streamingVideo, hend, hend', hend'', hnot, hclean, hidle, hpool, hpool']
  rw [and_iff_right hclean, forall_prop_of_true hok]
  cases hformat : answers.formatKnown with
  | false => simp [streamingVideo, hend, hend', hend'', hformat, hidle, hpool, hpool', hpool'']
  | true =>
    rw [forall_prop_of_true rfl, ← streamSound_iff]
    simp [streamingVideo, hend, hend', hend'', hformat, hpool, hpool', hpool'', Answers.counts]

def grants (granted : Option Nat) : SetUpAnswers where
  ready := true
  reqbufs := granted
  calloc := true
  querybuf := fun _ => true
  mmap := fun _ => true

/-- Devices with the counts that each grants, and a file without end. -/
def endless (source wb disp : Option Nat) : Answers where
  source := grants source
  wb := grants wb
  disp := grants disp
  formatKnown := true
  prefilled := fun _ => true
  refilled := fun _ => true

/-- With three write-back buffers for two the third copy takes one that the driver
still owns; a refused request for buffers leaves a count without an array. -/
theorem third_copy_takes_another :
    ¬ WritebackSound 2 (endless (some 2) (some 3) (some 2)) ∧
      ¬ WritebackSound 2 (endless none (some 2) (some 2)) := by
  constructor
  · intro hsound
    have hsteps := (hsound 3).2
    revert hsteps
    decide
  · intro hsound
    have hclean := (hsound 0).1 ⟨2, none⟩ List.mem_cons_self
    exact absurd ((cleansUp_none 2).mp hclean) (by decide)

end VideoStreamingWb

end DeviceDriverTest
