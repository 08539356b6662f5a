import Mathlib.Data.List.Range
import Mathlib.Logic.Function.Basic
import Mathlib.Tactic.Common

/-! The buffer pools of the write-back program: how a pool is set up, and what
the clean-up does with it from wherever the set-up ended. -/

namespace DeviceDriverTest

namespace VideoStreamingWb

inductive Start where
  | null
  | mapped
  | mapFailed
  deriving DecidableEq

/-- `reqbuf.count` with the array of the entries, `none` for NULL. -/
structure Pool where
  count : Nat
  array : Option (Nat → Start)

/-- What a device answers while its pipeline is set up: whether the calls before
`VIDIOC_REQBUFS` succeed, what that grants, whether there is memory for the
array, and which entries can be queried and mapped. -/
structure SetUpAnswers where
  ready : Bool
  reqbufs : Option Nat
  calloc : Bool
  querybuf : Nat → Bool
  mmap : Nat → Bool

inductive SetUpEnd where
  | ok
  | failed
  | crashed
  deriving DecidableEq

def mapEntries (answers : SetUpAnswers) : List Nat → (Nat → Start) → (Nat → Start) × SetUpEnd
  | [], start => (start, .ok)
  | i :: rest, start =>
    if !answers.querybuf i then (start, .failed)
    else if !answers.mmap i then (Function.update start i .mapFailed, .failed)
    else mapEntries answers rest (Function.update start i .mapped)

/-- One of the three set-up functions; they differ in the calls that come before
`VIDIOC_REQBUFS`. -/
def setupPipeline (numBuffers : Int32) (answers : SetUpAnswers) : Pool × SetUpEnd :=
  if !answers.ready then (⟨0, none⟩, .failed)
  else
    match answers.reqbufs with
    | none => (⟨numBuffers.toUInt32.toNat, none⟩, .failed)
    | some granted =>
      if answers.calloc then
        let (start, ending) := mapEntries answers (List.range granted) fun _ => .null
        (⟨granted, some start⟩, ending)
      -- without an array the loop ends at its first entry
      else if granted = 0 then (⟨0, none⟩, .ok)
      else if !answers.querybuf 0 then (⟨granted, none⟩, .failed)
      else (⟨granted, none⟩, .crashed)

/-- A touch of the clean-up: it reads the `start` of an entry, or unmaps it. -/
inductive Touch where
  | start (i : Nat)
  | munmap (i : Nat)

def Pool.cleanUp (pool : Pool) : List Touch :=
  (List.range pool.count).flatMap fun i =>
    if (pool.array.elim .mapFailed fun start => start i) = .null then [.start i] else [.start i, .munmap i]

/-- The array is there, and what is unmapped is mapped. -/
def Pool.Holds (pool : Pool) : Touch → Prop
  | .start _ => pool.array.isSome = true
  | .munmap i => ∃ start, pool.array = some start ∧ start i = .mapped

def Pool.CleansUp (pool : Pool) : Prop := ∀ touch ∈ pool.cleanUp, pool.Holds touch

theorem cleansUp_none (count : Nat) : (⟨count, none⟩ : Pool).CleansUp ↔ count = 0 := by
  constructor
  · intro h
    by_contra hcount
    have hfirst : Touch.start 0 ∈ (⟨count, none⟩ : Pool).cleanUp :=
      List.mem_flatMap.mpr ⟨0, List.mem_range.mpr (Nat.pos_of_ne_zero hcount), by simp⟩
    have hsome : (none : Option (Nat → Start)).isSome = true := h _ hfirst
    contradiction
  · rintro rfl touch htouch
    contradiction

theorem cleansUp_some (count : Nat) (start : Nat → Start) :
    (⟨count, some start⟩ : Pool).CleansUp ↔ ∀ i < count, start i ≠ .mapFailed := by
  constructor
  · intro h i hi hfailed
    have hunmap : Touch.munmap i ∈ (⟨count, some start⟩ : Pool).cleanUp :=
      List.mem_flatMap.mpr ⟨i, List.mem_range.mpr hi, by simp [hfailed]⟩
    obtain ⟨start', hsome, hmapped⟩ := h _ hunmap
    rw [← Option.some.inj hsome, hfailed] at hmapped
    contradiction
  · intro hall touch htouch
    obtain ⟨i, hi, hmem⟩ := List.mem_flatMap.mp htouch
    have hi := hall i (List.mem_range.mp hi)
    cases hstart : start i with
    | null =>
      have heq : touch = .start i := by simpa [hstart] using hmem
      rw [heq]
      rfl
    | mapped =>
      have heq : touch = .start i ∨ touch = .munmap i := by simpa [hstart] using hmem
      rcases heq with rfl | rfl
      · rfl
      · exact ⟨start, rfl, hstart⟩
    | mapFailed => exact absurd hstart hi

def SetUpAnswers.Maps (answers : SetUpAnswers) (i : Nat) : Prop :=
  answers.querybuf i = true ∧ answers.mmap i = true

def MapsReached (answers : SetUpAnswers) (granted : Nat) : Prop :=
  ∀ i < granted, (∀ j < i, answers.Maps j) → answers.querybuf i = true → answers.mmap i = true

section Entries

variable {answers : SetUpAnswers}

theorem mapEntries_other {is : List Nat} {start : Nat → Start} {i : Nat} (hi : i ∉ is) :
    (mapEntries answers is start).1 i = start i := by
  induction is generalizing start with
  | nil => rfl
  | cons k rest ih =>
    have hne : i ≠ k := fun h => hi (h ▸ List.mem_cons_self)
    have hrest : i ∉ rest := fun h => hi (List.mem_cons_of_mem _ h)
    rw [mapEntries]
    split
    · rfl
    · split
      · exact Function.update_of_ne hne _ _
      · rw [ih hrest, Function.update_of_ne hne]

theorem mapEntries_ok {is : List Nat} {start : Nat → Start} :
    (mapEntries answers is start).2 = .ok ↔ ∀ i ∈ is, answers.Maps i := by
  induction is generalizing start with
  | nil => simp [mapEntries]
  | cons i rest ih =>
    rw [mapEntries, List.forall_mem_cons, SetUpAnswers.Maps]
    cases hq : answers.querybuf i with
    | false => simp
    | true =>
      cases hm : answers.mmap i with
      | false => simp
      | true => simp [ih]

theorem mapEntries_range' (answers : SetUpAnswers) (first n : Nat) {start : Nat → Start} (hstart : ∀ i, start i ≠ .mapFailed) :
    (∀ i, (mapEntries answers (List.range' first n) start).1 i ≠ .mapFailed) ↔
      ∀ i, first ≤ i → i < first + n → (∀ j, first ≤ j → j < i → answers.Maps j) →
        answers.querybuf i = true → answers.mmap i = true := by
  induction n generalizing first start with
  | zero => exact iff_of_true hstart fun i hlo hhi => by omega
  | succ n ih =>
    rw [List.range'_succ, mapEntries]
    by_cases hq : answers.querybuf first = true
    · by_cases hm : answers.mmap first = true
      · have hmapped : ∀ i, Function.update start first .mapped i ≠ .mapFailed := by
          intro i
          rw [Function.update_apply]
          split
          · decide
          · exact hstart i
        simp only [hq, hm, Bool.not_true, Bool.false_eq_true, if_false, ih _ hmapped]
        constructor
        · intro hall i hlo hhi hbefore hqi
          rcases Nat.eq_or_lt_of_le hlo with rfl | hlt
          · exact hm
          · exact hall i hlt (by omega) (fun j hj hji => hbefore j (by omega) hji) hqi
        · intro hall i hlo hhi hbefore hqi
          refine hall i (by omega) (by omega) (fun j hj hji => ?_) hqi
          rcases Nat.eq_or_lt_of_le hj with rfl | hlt
          · exact ⟨hq, hm⟩
          · exact hbefore j hlt hji
      · simp only [hq, hm, Bool.not_true, Bool.not_false, Bool.false_eq_true, if_false, if_true]
        refine iff_of_false (fun hall => hall first (Function.update_self _ _ _)) fun hall => ?_
        exact hm (hall first le_rfl (by omega) (fun j hj hji => by omega) hq)
    · simp only [hq, Bool.not_false, if_true]
      refine iff_of_true hstart fun i hlo hhi hbefore hqi => ?_
      rcases Nat.eq_or_lt_of_le hlo with rfl | hlt
      · exact absurd hqi hq
      · exact absurd (hbefore first le_rfl hlt).1 hq

end Entries

/-- The calls that end the set-up are none of those that leave something the
clean-up trips over: a refused request for buffers, a missing array, an entry
that cannot be mapped. -/
def LeavesClean (numBuffers : Int32) (answers : SetUpAnswers) : Prop :=
  answers.ready = true →
    match answers.reqbufs with
    | none => numBuffers = 0
    | some granted =>
      if answers.calloc then MapsReached answers granted else granted = 0 ∨ answers.querybuf 0 = true

def Succeeds (answers : SetUpAnswers) : Prop :=
  answers.ready = true ∧ ∃ granted, answers.reqbufs = some granted ∧
    if answers.calloc then ∀ i < granted, answers.Maps i else granted = 0

theorem setupPipeline_ok {numBuffers : Int32} {answers : SetUpAnswers} :
    (setupPipeline numBuffers answers).2 = .ok ↔ Succeeds answers := by
  rw [setupPipeline, Succeeds]
  cases answers.ready with
  | false => simp
  | true =>
    cases answers.reqbufs with
    | none => simp
    | some granted =>
      cases answers.calloc with
      | true => simp [mapEntries_ok]
      | false =>
        by_cases hg : granted = 0
        · simp [hg]
        · cases answers.querybuf 0 <;> simp [hg]

theorem toNat_toUInt32_eq_zero {n : Int32} : n.toUInt32.toNat = 0 ↔ n = 0 := by
  constructor
  · intro h
    have hzero : n.toUInt32 = (0 : Int32).toUInt32 := UInt32.toNat_inj.mp h
    exact Int32.toBitVec_inj.mp (congrArg UInt32.toBitVec hzero)
  · rintro rfl
    rfl

/-- Wherever the set-up of a pool ends, the clean-up of that pool is sound exactly
when it leaves the pool clean. -/
theorem setupPipeline_cleansUp {numBuffers : Int32} {answers : SetUpAnswers}
    (h : (setupPipeline numBuffers answers).2 ≠ .crashed) :
    (setupPipeline numBuffers answers).1.CleansUp ↔ LeavesClean numBuffers answers := by
  rw [setupPipeline] at h ⊢
  rw [LeavesClean]
  cases hready : answers.ready with
  | false => simp [cleansUp_none]
  | true =>
    cases hreq : answers.reqbufs with
    | none => simp [cleansUp_none, toNat_toUInt32_eq_zero]
    | some granted =>
      cases hcalloc : answers.calloc with
      | true =>
        have hnull : ∀ i : Nat, (fun _ : Nat => Start.null) i ≠ .mapFailed := fun _ => Start.noConfusion
        have hentries := mapEntries_range' answers 0 granted hnull
        rw [← List.range_eq_range', Nat.zero_add] at hentries
        have hreached : MapsReached answers granted ↔
            ∀ i < granted, (mapEntries answers (List.range granted) fun _ => .null).1 i ≠ .mapFailed := by
          constructor
          · intro hall i _
            exact hentries.mpr (fun k _ hk hbefore => hall k hk fun j hj => hbefore j (Nat.zero_le j) hj) i
          · intro hall
            have hstart : ∀ i, (mapEntries answers (List.range granted) fun _ => .null).1 i ≠ .mapFailed := by
              intro i
              by_cases hi : i < granted
              · exact hall i hi
              · rw [mapEntries_other (fun hmem => hi (List.mem_range.mp hmem))]
                exact hnull i
            exact fun i hi hbefore => hentries.mp hstart i (Nat.zero_le i) hi fun j _ hj => hbefore j hj
        simp [cleansUp_some, hreached]
      | false =>
        by_cases hg : granted = 0
        · simp [hg, cleansUp_none]
        · cases hq : answers.querybuf 0 with
          | false => simp [hg, cleansUp_none]
          | true => simp [hready, hreq, hcalloc, hg, hq] at h

theorem Succeeds.leavesClean {answers : SetUpAnswers} (h : Succeeds answers) (numBuffers : Int32) :
    LeavesClean numBuffers answers := by
  obtain ⟨_, granted, hreq, hentries⟩ := h
  intro _
  rw [hreq]
  cases hcalloc : answers.calloc with
  | true =>
    rw [hcalloc] at hentries
    exact fun i hi _ _ => (hentries i hi).2
  | false =>
    rw [hcalloc] at hentries
    exact .inl hentries

theorem leavesClean_of_crashed {numBuffers : Int32} {answers : SetUpAnswers}
    (h : (setupPipeline numBuffers answers).2 = .crashed) : LeavesClean numBuffers answers := by
  intro hready
  cases hreq : answers.reqbufs with
  | none => simp [setupPipeline, hready, hreq] at h
  | some granted =>
    cases hcalloc : answers.calloc with
    | true =>
      have hends : ∀ (is : List Nat) (start : Nat → Start), (mapEntries answers is start).2 ≠ .crashed := by
        intro is
        induction is with
        | nil => exact fun start => SetUpEnd.noConfusion
        | cons i rest ih =>
          intro start
          rw [mapEntries]
          split
          · exact SetUpEnd.noConfusion
          · split
            · exact SetUpEnd.noConfusion
            · exact ih _
      simp [setupPipeline, hready, hreq, hcalloc, hends] at h
    | false =>
      cases hq : answers.querybuf 0 with
      | true => exact .inr rfl
      | false =>
        by_cases hg : granted = 0
        · exact .inl hg
        · simp [setupPipeline, hready, hreq, hcalloc, hq, hg] at h

theorem setupPipeline_cases (numBuffers : Int32) (answers : SetUpAnswers) :
    ((setupPipeline numBuffers answers).2 = .crashed ∧ ¬ Succeeds answers ∧ LeavesClean numBuffers answers) ∨
      ((setupPipeline numBuffers answers).2 = .failed ∧ ¬ Succeeds answers ∧
        ((setupPipeline numBuffers answers).1.CleansUp ↔ LeavesClean numBuffers answers)) ∨
      ((setupPipeline numBuffers answers).2 = .ok ∧ Succeeds answers ∧ LeavesClean numBuffers answers ∧
        (setupPipeline numBuffers answers).1.CleansUp) := by
  have hok : (setupPipeline numBuffers answers).2 = .ok ↔ Succeeds answers := setupPipeline_ok
  cases hend : (setupPipeline numBuffers answers).2 with
  | crashed =>
    have hnot : ¬ Succeeds answers := fun h => by
      rw [← hok, hend] at h
      contradiction
    exact .inl ⟨rfl, hnot, leavesClean_of_crashed hend⟩
  | failed =>
    have hnot : ¬ Succeeds answers := fun h => by
      rw [← hok, hend] at h
      contradiction
    exact .inr (.inl ⟨rfl, hnot, setupPipeline_cleansUp (by simp [hend])⟩)
  | ok =>
    have hsucceeds := hok.mp hend
    have hclean := hsucceeds.leavesClean numBuffers
    exact .inr (.inr ⟨rfl, hsucceeds, hclean, (setupPipeline_cleansUp (by simp [hend])).mpr hclean⟩)

end VideoStreamingWb

end DeviceDriverTest
