import Mathlib.Data.List.Induction
import DeviceDriverTest.DvfsOppTuple

/-! The first DVFS test: the OPPs of the three domains are changed from each
valid tuple of the table to each later one and back. -/

namespace DeviceDriverTest

namespace Dvfs

structure RateAnswers where
  setRate : Int
  getRate : Nat

def asInt (value : Nat) : Int := Int.bmod value (2 ^ 32)

variable {Device : Type*}

def doOppChange (vdd : DvfsData Device) (freq : Int) (answers : RateAnswers) : Int :=
  let reqFreq := freq.tdiv freqInMhz
  if answers.setRate ≠ 0 then answers.setRate
  else
    let curFreq : Int := (answers.getRate / freqInMhz : Nat)
    if curFreq ≠ reqFreq then
      if vdd.vddNum = 3 then 0 else -1
    else 0

def tuppleSteps (t : OppTupple) : List (VoltDomain × Nat) :=
  [(.mpu, t.vdd1Oppnum), (.dsp, t.vdd2Oppnum), (.l3, t.vdd3Oppnum)]

/-- Changes one after the other up to the first that fails; the `n`-th has the
`n`-th answers. -/
def changeSteps (vdds : VoltDomain → DvfsData Device) (answers : Nat → RateAnswers) :
    Nat → List (VoltDomain × Nat) → Int
  | _, [] => 0
  | n, (domain, oppnum) :: rest =>
    let ret := doOppChange (vdds domain) (asInt ((vdds domain).rateTable oppnum)) (answers n)
    if ret ≠ 0 then ret else changeSteps vdds answers (n + 1) rest

def oppChangeTupple (vdds : VoltDomain → DvfsData Device) (data : Nat → OppTupple) (src dst : Nat)
    (answers : Nat → RateAnswers) : Int :=
  changeSteps vdds answers 0 (tuppleSteps (data dst) ++ tuppleSteps (data src))

/-- The pairs attempted so far, `k` of them, and the variable `ret`. -/
structure Sweep where
  attempted : List (Nat × Nat)
  ret : Int

/-- The body of the inner loop; the `k`-th pair has the `k`-th answers. -/
def attempt (vdds : VoltDomain → DvfsData Device) (data : Nat → OppTupple)
    (answers : Nat → Nat → RateAnswers) (s : Sweep) (pair : Nat × Nat) : Sweep where
  attempted := s.attempted ++ [pair]
  ret := oppChangeTupple vdds data pair.1 pair.2 (answers s.attempted.length)

def startDvfsTest1 (vdds : VoltDomain → DvfsData Device) (data : Nat → OppTupple)
    (answers : Nat → Nat → RateAnswers) : Sweep :=
  (List.range (oppTuppleCount vdds)).foldl (fun s i =>
    if (data i).validOpp then
      (List.range' (i + 1) (oppTuppleCount vdds - (i + 1))).foldl (fun s j =>
        if (data j).validOpp then attempt vdds data answers s (i, j) else s) s
    else s) ⟨[], 0⟩

section Verdict

variable (vdds : VoltDomain → DvfsData Device) (data : Nat → OppTupple) (answers : Nat → Nat → RateAnswers)

/-- Every pair of valid tuples is attempted once, and the result tells whether
all the changes went well. -/
structure SweepVerdict : Prop where
  every : ∀ i j, (i, j) ∈ (startDvfsTest1 vdds data answers).attempted ↔
    i < j ∧ j < oppTuppleCount vdds ∧ (data i).validOpp ∧ (data j).validOpp
  once : (startDvfsTest1 vdds data answers).attempted.Nodup
  verdict : (startDvfsTest1 vdds data answers).ret = 0 ↔
    ∀ k i j, (startDvfsTest1 vdds data answers).attempted[k]? = some (i, j) →
      oppChangeTupple vdds data i j (answers k) = 0

def validPairs : List (Nat × Nat) :=
  ((List.range (oppTuppleCount vdds)).filter fun i => (data i).validOpp).flatMap fun i =>
    ((List.range' (i + 1) (oppTuppleCount vdds - (i + 1))).filter fun j => (data j).validOpp).map fun j => (i, j)

/-- The framework refuses a change, or reads back another rate where that matters. -/
def ChangeFails (vdd : DvfsData Device) (freq : Int) (answers : RateAnswers) : Prop :=
  answers.setRate ≠ 0 ∨ ((answers.getRate / freqInMhz : Nat) : Int) ≠ freq.tdiv freqInMhz ∧ vdd.vddNum ≠ 3

def PairFails (pair : Nat × Nat) (answers : Nat → RateAnswers) : Prop :=
  ∃ n domain oppnum, (tuppleSteps (data pair.2) ++ tuppleSteps (data pair.1))[n]? = some (domain, oppnum) ∧
    ChangeFails (vdds domain) (asInt ((vdds domain).rateTable oppnum)) (answers n)

/-- No pair fails, or the last one does. -/
def LastPairDecides : Prop :=
  (∀ k pair, (validPairs vdds data)[k]? = some pair → ¬ PairFails vdds data pair (answers k)) ∨
    ∃ before last, validPairs vdds data = before ++ [last] ∧ PairFails vdds data last (answers before.length)

end Verdict

theorem doOppChange_ne_zero {vdd : DvfsData Device} {freq : Int} {answers : RateAnswers} :
    doOppChange vdd freq answers ≠ 0 ↔ ChangeFails vdd freq answers := by
  rw [doOppChange, ChangeFails]
  dsimp only
  by_cases hset : answers.setRate = 0
  · simp only [hset, ne_eq, not_true_eq_false, if_false, false_or]
    by_cases hrate : ((answers.getRate / freqInMhz : Nat) : Int) = freq.tdiv freqInMhz
    · simp [hrate]
    · by_cases hnum : vdd.vddNum = 3 <;> simp [hnum]
  · simp [hset]

theorem changeSteps_ne_zero {vdds : VoltDomain → DvfsData Device} {answers : Nat → RateAnswers}
    {steps : List (VoltDomain × Nat)} {start : Nat} :
    changeSteps vdds answers start steps ≠ 0 ↔
      ∃ n domain oppnum, steps[n]? = some (domain, oppnum) ∧
        ChangeFails (vdds domain) (asInt ((vdds domain).rateTable oppnum)) (answers (start + n)) := by
  induction steps generalizing start with
  | nil => simp [changeSteps]
  | cons step rest ih =>
    obtain ⟨domain, oppnum⟩ := step
    rw [changeSteps]
    by_cases hfirst : doOppChange (vdds domain) (asInt ((vdds domain).rateTable oppnum)) (answers start) = 0
    · have hok : ¬ ChangeFails (vdds domain) (asInt ((vdds domain).rateTable oppnum)) (answers start) := by
        rw [← doOppChange_ne_zero]
        exact not_not.mpr hfirst
      rw [if_neg (not_not.mpr hfirst), ih]
      constructor
      · rintro ⟨n, d, o, hstep, hfails⟩
        refine ⟨n + 1, d, o, hstep, ?_⟩
        rw [← Nat.add_assoc, Nat.add_right_comm]
        exact hfails
      · rintro ⟨n, d, o, hstep, hfails⟩
        cases n with
        | zero =>
          obtain ⟨rfl, rfl⟩ := Prod.mk.inj (Option.some.inj hstep)
          exact absurd hfails hok
        | succ n =>
          refine ⟨n, d, o, hstep, ?_⟩
          rw [Nat.add_right_comm, Nat.add_assoc]
          exact hfails
    · rw [if_pos hfirst]
      refine iff_of_true hfirst ⟨0, domain, oppnum, rfl, ?_⟩
      exact doOppChange_ne_zero.mp hfirst

theorem oppChangeTupple_ne_zero {vdds : VoltDomain → DvfsData Device} {data : Nat → OppTupple} {i j : Nat}
    {answers : Nat → RateAnswers} :
    oppChangeTupple vdds data i j answers ≠ 0 ↔ PairFails vdds data (i, j) answers := by
  rw [oppChangeTupple, changeSteps_ne_zero, PairFails]
  simp only [Nat.zero_add]

section Sweep

variable {vdds : VoltDomain → DvfsData Device} {data : Nat → OppTupple} {answers : Nat → Nat → RateAnswers}

theorem startDvfsTest1_eq (vdds : VoltDomain → DvfsData Device) (data : Nat → OppTupple)
    (answers : Nat → Nat → RateAnswers) :
    startDvfsTest1 vdds data answers = (validPairs vdds data).foldl (attempt vdds data answers) ⟨[], 0⟩ := by
  simp only [startDvfsTest1, validPairs, List.foldl_flatMap, List.foldl_map, List.foldl_filter]

theorem foldl_attempt_attempted (pairs : List (Nat × Nat)) (s : Sweep) :
    (pairs.foldl (attempt vdds data answers) s).attempted = s.attempted ++ pairs := by
  induction pairs generalizing s with
  | nil => rw [List.foldl_nil, List.append_nil]
  | cons pair rest ih => rw [List.foldl_cons, ih, attempt, List.append_assoc, List.singleton_append]

theorem startDvfsTest1_attempted : (startDvfsTest1 vdds data answers).attempted = validPairs vdds data := by
  rw [startDvfsTest1_eq, foldl_attempt_attempted, List.nil_append]

theorem startDvfsTest1_ret :
    (validPairs vdds data = [] ∧ (startDvfsTest1 vdds data answers).ret = 0) ∨
      ∃ before last, validPairs vdds data = before ++ [last] ∧
        (startDvfsTest1 vdds data answers).ret =
          oppChangeTupple vdds data last.1 last.2 (answers before.length) := by
  rw [startDvfsTest1_eq]
  obtain hnil | ⟨before, last, hlast⟩ := List.eq_nil_or_concat (validPairs vdds data)
  · rw [hnil]
    exact Or.inl ⟨rfl, rfl⟩
  · rw [List.concat_eq_append] at hlast
    refine Or.inr ⟨before, last, hlast, ?_⟩
    rw [hlast, List.foldl_append, List.foldl_cons, List.foldl_nil, attempt, foldl_attempt_attempted,
      List.nil_append]

theorem mem_validPairs {i j : Nat} :
    (i, j) ∈ validPairs vdds data ↔
      i < j ∧ j < oppTuppleCount vdds ∧ (data i).validOpp ∧ (data j).validOpp := by
  simp only [validPairs, List.mem_flatMap, List.mem_filter, List.mem_range, List.mem_map, List.mem_range'_1,
    Prod.mk.injEq]
  constructor
  · rintro ⟨i', ⟨hi, hvi⟩, j', ⟨⟨hlo, hhi⟩, hvj⟩, rfl, rfl⟩
    exact ⟨hlo, by omega, hvi, hvj⟩
  · rintro ⟨hij, hj, hvi, hvj⟩
    exact ⟨i, ⟨by omega, hvi⟩, j, ⟨⟨hij, by omega⟩, hvj⟩, rfl, rfl⟩

theorem nodup_validPairs (vdds : VoltDomain → DvfsData Device) (data : Nat → OppTupple) :
    (validPairs vdds data).Nodup := by
  rw [validPairs, List.nodup_flatMap]
  refine ⟨fun i _ => ?_, ?_⟩
  · have hrow : (List.range' (i + 1) (oppTuppleCount vdds - (i + 1))).Nodup := List.nodup_range'
    exact (hrow.filter _).map fun j j' h => (Prod.mk.inj h).2
  · have hrows : (List.range (oppTuppleCount vdds)).Nodup := List.nodup_range
    refine (hrows.filter _).imp fun {i i'} hne => ?_
    rintro ⟨a, b⟩ hleft hright
    obtain ⟨j, -, hj⟩ := List.mem_map.mp hleft
    obtain ⟨j', -, hj'⟩ := List.mem_map.mp hright
    exact hne ((Prod.mk.inj hj).1.trans (Prod.mk.inj hj').1.symm)

/-- The result tells the truth exactly when the last pair fails or none does. -/
theorem ret_eq_zero_iff_iff :
    ((startDvfsTest1 vdds data answers).ret = 0 ↔
      ∀ k i j, (validPairs vdds data)[k]? = some (i, j) → oppChangeTupple vdds data i j (answers k) = 0) ↔
      LastPairDecides vdds data answers := by
  have hnone : (∀ k i j, (validPairs vdds data)[k]? = some (i, j) → oppChangeTupple vdds data i j (answers k) = 0) ↔
      ∀ k pair, (validPairs vdds data)[k]? = some pair → ¬ PairFails vdds data pair (answers k) := by
    refine forall_congr' fun k => ⟨fun h pair hk => ?_, fun h i j hk => ?_⟩
    · rw [← oppChangeTupple_ne_zero]
      exact not_not.mpr (h pair.1 pair.2 hk)
    · by_contra hne
      exact h (i, j) hk (oppChangeTupple_ne_zero.mp hne)
  rw [hnone, LastPairDecides]
  obtain ⟨hnil, hret⟩ | ⟨before, last, hpairs, hret⟩ := @startDvfsTest1_ret Device vdds data answers
  · rw [hret, hnil]
    simp
  · have hzero : (startDvfsTest1 vdds data answers).ret = 0 ↔ ¬ PairFails vdds data last (answers before.length) := by
      rw [hret, ← oppChangeTupple_ne_zero, not_not]
    have hget : (validPairs vdds data)[before.length]? = some last := by
      rw [hpairs, List.getElem?_concat_length]
    rw [hzero]
    constructor
    · intro h
      by_cases hlast : PairFails vdds data last (answers before.length)
      · exact Or.inr ⟨before, last, hpairs, hlast⟩
      · exact Or.inl (h.mp hlast)
    · rintro (hall | ⟨before', last', hpairs', hfails⟩)
      · exact iff_of_true (hall _ _ hget) hall
      · obtain ⟨rfl, hsingle⟩ := List.append_inj' (hpairs.symm.trans hpairs') rfl
        obtain rfl := List.head_eq_of_cons_eq hsingle
        exact iff_of_false (not_not.mpr hfails) fun hall => hall _ _ hget hfails

theorem sweepVerdict_iff (vdds : VoltDomain → DvfsData Device) (data : Nat → OppTupple)
    (answers : Nat → Nat → RateAnswers) : SweepVerdict vdds data answers ↔ LastPairDecides vdds data answers := by
  rw [← ret_eq_zero_iff_iff]
  constructor
  · intro h
    have hverdict := h.verdict
    rw [startDvfsTest1_attempted] at hverdict
    exact hverdict
  · intro h
    refine ⟨fun i j => ?_, ?_, ?_⟩
    · rw [startDvfsTest1_attempted, mem_validPairs]
    · rw [startDvfsTest1_attempted]
      exact nodup_validPairs vdds data
    · rw [startDvfsTest1_attempted]
      exact h

end Sweep

def threeTuples (s : Nat) : OppTupple := ⟨s, 0, 0, true⟩

/-- Every change of the first pair is refused, the other pairs go well. -/
def firstPairRefused (k _ : Nat) : RateAnswers := ⟨if k = 0 then -1 else 0, 0⟩

theorem first_failure_overwritten :
    ¬ SweepVerdict (countedVdds 3 1 1) threeTuples firstPairRefused ∧
      (startDvfsTest1 (countedVdds 3 1 1) threeTuples firstPairRefused).ret = 0 := by
  have hret : (startDvfsTest1 (countedVdds 3 1 1) threeTuples firstPairRefused).ret = 0 := by decide
  refine ⟨fun h => ?_, hret⟩
  have hzero := h.verdict.mp hret 0 0 1 (by decide)
  exact absurd hzero (by decide)

end Dvfs

end DeviceDriverTest
