import DeviceDriverTest.DvfsSweep

/-! The second DVFS test: each domain under test is stressed by a run of its
own, and the flags the runs leave are folded into one result. -/

namespace DeviceDriverTest

namespace Dvfs

structure Turn where
  rndNumber : Nat
  answers : RateAnswers
  timeDelta : Int

variable {Device : Type*}

/-- The result with which the loop ends in a turn, where it does. -/
def stressTurn (vdd : DvfsData Device) (turn : Turn) : Option Int :=
  let freq := asInt (vdd.rateTable (turn.rndNumber % vdd.oppCnt))
  let reqFreq := freq.tdiv freqInMhz
  if turn.answers.setRate ≠ 0 then some turn.answers.setRate
  else
    let curFreq : Int := (turn.answers.getRate / freqInMhz : Nat)
    if curFreq ≠ reqFreq ∧ vdd.vddNum ≠ 3 then some (-1)
    else if turn.timeDelta > 60 then some 0
    else none

structure StressRun (vdd : DvfsData Device) where
  turns : List Turn
  ret : Int
  ends : turns.findSome? (stressTurn vdd) = some ret

def dvfsStressTest (vdd : DvfsData Device) (run : StressRun vdd) : DvfsData Device × Int :=
  ({ vdd with testPassed := decide (run.ret = 0) }, run.ret)

/-- What becomes of the thread of a domain: it runs, `kthread_create` returns an
error number, or it cannot be woken. -/
inductive ThreadStart where
  | running
  | createError (errno : Nat)
  | notWoken

def voltDomains : List VoltDomain := [.mpu, .dsp, .l3]

/-- The threads started for the domains still to come, and the value returned
where one does not start. -/
def startThreads (vdds : VoltDomain → DvfsData Device) (starts : VoltDomain → ThreadStart) :
    List VoltDomain → List VoltDomain × Option Int
  | [] => ([], none)
  | d :: rest =>
    if (vdds d).enableTest then
      match starts d with
      | .createError errno => ([], some (-(errno + 1)))
      | .notWoken => ([], some (-1))
      | .running =>
        let (ran, error) := startThreads vdds starts rest
        (d :: ran, error)
    else startThreads vdds starts rest

/-- The domains with a run, and the value that `dvfs_test_init` records as
PASSED where it is zero. -/
structure StressOutcome where
  ran : List VoltDomain
  ret : Int

def afterRuns (vdds : VoltDomain → DvfsData Device) (runs : ∀ d, StressRun (vdds d)) (ran : List VoltDomain) :
    VoltDomain → DvfsData Device :=
  fun d => if d ∈ ran then (dvfsStressTest (vdds d) (runs d)).1 else vdds d

def foldTestPassed (vdds : VoltDomain → DvfsData Device) : Int :=
  let testPass := (vdds .mpu).testPassed
  let testPass := testPass || (vdds .dsp).testPassed
  let testPass := testPass || (vdds .l3).testPassed
  if testPass then 0 else -1

def startDvfsTest2 (testVdd : Nat) (vdds : VoltDomain → DvfsData Device) (starts : VoltDomain → ThreadStart)
    (runs : ∀ d, StressRun (vdds d)) : StressOutcome :=
  match testVdd with
  | 1 => ⟨[.mpu], (dvfsStressTest (vdds .mpu) (runs .mpu)).2⟩
  | 2 => ⟨[.dsp], (dvfsStressTest (vdds .dsp) (runs .dsp)).2⟩
  | 4 => ⟨[.l3], (dvfsStressTest (vdds .l3) (runs .l3)).2⟩
  | 7 =>
    match startThreads vdds starts voltDomains with
    | (ran, some error) => ⟨ran, error⟩
    | (ran, none) => ⟨ran, foldTestPassed (afterRuns vdds runs ran)⟩
  | _ => ⟨[], 0⟩

def UnderTest (testVdd : Nat) (vdds : VoltDomain → DvfsData Device) (d : VoltDomain) : Prop :=
  testVdd = 1 ∧ d = .mpu ∨ testVdd = 2 ∧ d = .dsp ∨ testVdd = 4 ∧ d = .l3 ∨
    testVdd = 7 ∧ (vdds d).enableTest = true

section Verdict

variable (testVdd : Nat) (vdds : VoltDomain → DvfsData Device) (starts : VoltDomain → ThreadStart)
  (runs : ∀ d, StressRun (vdds d))

def StressVerdict : Prop :=
  (startDvfsTest2 testVdd vdds starts runs).ret = 0 ↔
    ∀ d, UnderTest testVdd vdds d → d ∈ (startDvfsTest2 testVdd vdds starts runs).ran ∧ (runs d).ret = 0

/-- Of the runs started together there is one at least, and all end the same way. -/
def RunsAgree : Prop :=
  testVdd = 7 → (∀ d, (vdds d).enableTest = true → starts d = .running) →
    (∃ d, (vdds d).enableTest = true) ∧
      ((∀ d, (vdds d).enableTest = true → (runs d).ret = 0) ∨
        ∀ d, (vdds d).enableTest = true → (runs d).ret ≠ 0)

end Verdict

section Threads

variable {vdds : VoltDomain → DvfsData Device} {starts : VoltDomain → ThreadStart}

theorem startThreads_cases (ds : List VoltDomain) :
    (∃ error, (startThreads vdds starts ds).2 = some error ∧ error ≠ 0 ∧
        ∃ d ∈ ds, (vdds d).enableTest = true ∧ starts d ≠ .running ∧ d ∉ (startThreads vdds starts ds).1) ∨
      ((startThreads vdds starts ds).2 = none ∧
        (∀ d ∈ ds, (vdds d).enableTest = true → starts d = .running) ∧
        ∀ d, d ∈ (startThreads vdds starts ds).1 ↔ d ∈ ds ∧ (vdds d).enableTest = true) := by
  induction ds with
  | nil => exact Or.inr ⟨rfl, by simp, by simp [startThreads]⟩
  | cons d rest ih =>
    by_cases henable : (vdds d).enableTest = true
    · cases hstart : starts d with
      | createError errno =>
        refine Or.inl ⟨-(errno + 1), ?_, by omega, d, by simp, henable, by simp [hstart], ?_⟩ <;>
          simp [startThreads, henable, hstart]
      | notWoken =>
        refine Or.inl ⟨-1, ?_, by decide, d, by simp, henable, by simp [hstart], ?_⟩ <;>
          simp [startThreads, henable, hstart]
      | running =>
        have hstep : startThreads vdds starts (d :: rest) =
            (d :: (startThreads vdds starts rest).1, (startThreads vdds starts rest).2) := by
          rw [startThreads, if_pos henable, hstart]
        rw [hstep]
        obtain ⟨error, herror, hne, e, he, henabled, hnot, hran⟩ | ⟨hnone, hall, hran⟩ := ih
        · have hed : e ≠ d := by
            rintro rfl
            exact hnot hstart
          refine Or.inl ⟨error, herror, hne, e, List.mem_cons_of_mem d he, henabled, hnot, ?_⟩
          simp [hed, hran]
        · refine Or.inr ⟨hnone, fun e he henabled => ?_, fun e => ?_⟩
          · obtain rfl | he := List.mem_cons.mp he
            · exact hstart
            · exact hall e he henabled
          · rw [List.mem_cons, List.mem_cons, hran, or_and_right]
            refine or_congr_left ⟨fun h => ⟨h, h ▸ henable⟩, fun h => h.1⟩
    · have hstep : startThreads vdds starts (d :: rest) = startThreads vdds starts rest := by
        rw [startThreads, if_neg henable]
      rw [hstep]
      obtain ⟨error, herror, hne, e, he, henabled, hnot, hran⟩ | ⟨hnone, hall, hran⟩ := ih
      · exact Or.inl ⟨error, herror, hne, e, List.mem_cons_of_mem d he, henabled, hnot, hran⟩
      · refine Or.inr ⟨hnone, fun e he henabled => ?_, fun e => ?_⟩
        · obtain rfl | he := List.mem_cons.mp he
          · exact absurd henabled henable
          · exact hall e he henabled
        · rw [hran, List.mem_cons, or_and_right]
          refine (or_iff_right fun h => henable ?_).symm
          rw [← h.1]
          exact h.2

theorem mem_voltDomains (d : VoltDomain) : d ∈ voltDomains := by
  cases d <;> decide

end Threads

section Verdict

variable {testVdd : Nat} {vdds : VoltDomain → DvfsData Device} {starts : VoltDomain → ThreadStart}
  {runs : ∀ d, StressRun (vdds d)}

theorem foldTestPassed_eq_zero (vdds : VoltDomain → DvfsData Device) :
    foldTestPassed vdds = 0 ↔ ∃ d, (vdds d).testPassed = true := by
  have hor : (∃ d, (vdds d).testPassed = true) ↔
      ((vdds .mpu).testPassed || (vdds .dsp).testPassed || (vdds .l3).testPassed) = true := by
    rw [Bool.or_eq_true, Bool.or_eq_true]
    constructor
    · rintro ⟨d, h⟩
      cases d with
      | mpu => exact Or.inl (Or.inl h)
      | dsp => exact Or.inl (Or.inr h)
      | l3 => exact Or.inr h
    · rintro ((h | h) | h)
      · exact ⟨.mpu, h⟩
      · exact ⟨.dsp, h⟩
      · exact ⟨.l3, h⟩
  rw [hor, foldTestPassed]
  split_ifs with htest
  · exact iff_of_true rfl htest
  · exact iff_of_false (by decide) htest

theorem afterRuns_testPassed {ran : List VoltDomain} (hran : ∀ d, d ∈ ran ↔ (vdds d).enableTest = true)
    (hfresh : ∀ d, (vdds d).enableTest = false → (vdds d).testPassed = false) (d : VoltDomain) :
    (afterRuns vdds runs ran d).testPassed = true ↔ (vdds d).enableTest = true ∧ (runs d).ret = 0 := by
  by_cases henabled : (vdds d).enableTest = true
  · rw [afterRuns, if_pos ((hran d).mpr henabled), dvfsStressTest, and_iff_right henabled, decide_eq_true_iff]
  · rw [afterRuns, if_neg (mt (hran d).mp henabled), hfresh d (Bool.eq_false_iff.mpr henabled)]
    exact iff_of_false Bool.false_ne_true fun h => henabled h.1

theorem startDvfsTest2_started (hfresh : ∀ d, (vdds d).enableTest = false → (vdds d).testPassed = false)
    (hall : ∀ d, (vdds d).enableTest = true → starts d = .running) :
    ((startDvfsTest2 7 vdds starts runs).ret = 0 ↔ ∃ d, (vdds d).enableTest = true ∧ (runs d).ret = 0) ∧
      ∀ d, d ∈ (startDvfsTest2 7 vdds starts runs).ran ↔ (vdds d).enableTest = true := by
  rw [startDvfsTest2]
  obtain ⟨error, -, -, d, -, henabled, hnot, -⟩ | ⟨hnone, -, hran⟩ :=
    @startThreads_cases Device vdds starts voltDomains
  · exact absurd (hall d henabled) hnot
  · generalize startThreads vdds starts voltDomains = started at hnone hran
    obtain ⟨ran, error⟩ := started
    obtain rfl : error = none := hnone
    have hmem : ∀ d, d ∈ ran ↔ (vdds d).enableTest = true :=
      fun d => (hran d).trans (and_iff_right (mem_voltDomains d))
    refine ⟨?_, hmem⟩
    dsimp only
    rw [foldTestPassed_eq_zero]
    exact exists_congr fun d => afterRuns_testPassed hmem hfresh d

/-- A thread that does not start fails the test, and its domain has no run. -/
theorem startDvfsTest2_not_started {d : VoltDomain} (henabled : (vdds d).enableTest = true)
    (hstart : starts d ≠ .running) :
    (startDvfsTest2 7 vdds starts runs).ret ≠ 0 ∧
      ∃ e, (vdds e).enableTest = true ∧ e ∉ (startDvfsTest2 7 vdds starts runs).ran := by
  rw [startDvfsTest2]
  obtain ⟨error, herror, hne, e, -, he, -, hran⟩ | ⟨-, hall, -⟩ :=
    @startThreads_cases Device vdds starts voltDomains
  · generalize startThreads vdds starts voltDomains = started at herror hran
    obtain ⟨ran, last⟩ := started
    obtain rfl : last = some error := herror
    exact ⟨hne, e, he, hran⟩
  · exact absurd (hall d (mem_voltDomains d) henabled) hstart

theorem stressVerdict_all_iff (hfresh : ∀ d, (vdds d).enableTest = false → (vdds d).testPassed = false) :
    StressVerdict 7 vdds starts runs ↔ RunsAgree 7 vdds starts runs := by
  have hunder : ∀ d, UnderTest 7 vdds d ↔ (vdds d).enableTest = true := by
    intro d
    simp [UnderTest]
  simp only [StressVerdict, RunsAgree, hunder, true_implies]
  by_cases hall : ∀ d, (vdds d).enableTest = true → starts d = .running
  · obtain ⟨hret, hran⟩ := @startDvfsTest2_started Device vdds starts runs hfresh hall
    have hpassed : (∀ d, (vdds d).enableTest = true →
        d ∈ (startDvfsTest2 7 vdds starts runs).ran ∧ (runs d).ret = 0) ↔
        ∀ d, (vdds d).enableTest = true → (runs d).ret = 0 :=
      forall₂_congr fun d hd => and_iff_right ((hran d).mpr hd)
    rw [hret, hpassed]
    constructor
    · intro h _
      by_cases hsome : ∃ d, (vdds d).enableTest = true ∧ (runs d).ret = 0
      · have hevery := h.mp hsome
        obtain ⟨d, hd, -⟩ := hsome
        exact ⟨⟨d, hd⟩, Or.inl hevery⟩
      · have hnone : ∀ d, (vdds d).enableTest = true → (runs d).ret ≠ 0 :=
          fun d hd hzero => hsome ⟨d, hd, hzero⟩
        refine ⟨?_, Or.inr hnone⟩
        by_contra hempty
        exact hsome (h.mpr fun d hd => absurd ⟨d, hd⟩ hempty)
    · intro h
      obtain ⟨⟨d, hd⟩, hsame | hsame⟩ := h hall
      · exact iff_of_true ⟨d, hd, hsame d hd⟩ hsame
      · refine iff_of_false ?_ fun h => hsame d hd (h d hd)
        rintro ⟨e, he, hzero⟩
        exact hsame e he hzero
  · obtain ⟨d, hd⟩ := not_forall.mp hall
    obtain ⟨henabled, hstart⟩ := Classical.not_imp.mp hd
    obtain ⟨hret, e, he, hran⟩ := @startDvfsTest2_not_started Device vdds starts runs d henabled hstart
    refine iff_of_true (iff_of_false hret fun h => hran (h e he).1) fun h => absurd h hall

/-- The recorded verdict is that of the selected runs, where those started
together agree. -/
theorem stressVerdict_iff (hfresh : ∀ d, (vdds d).enableTest = false → (vdds d).testPassed = false) :
    StressVerdict testVdd vdds starts runs ↔ RunsAgree testVdd vdds starts runs := by
  by_cases hseven : testVdd = 7
  · subst hseven
    exact stressVerdict_all_iff hfresh
  · refine iff_of_true ?_ fun h => absurd h hseven
    by_cases hone : testVdd = 1
    · subst hone
      simp [StressVerdict, UnderTest, startDvfsTest2, dvfsStressTest]
    by_cases htwo : testVdd = 2
    · subst htwo
      simp [StressVerdict, UnderTest, startDvfsTest2, dvfsStressTest]
    by_cases hfour : testVdd = 4
    · subst hfour
      simp [StressVerdict, UnderTest, startDvfsTest2, dvfsStressTest]
    · have hother : startDvfsTest2 testVdd vdds starts runs = ⟨[], 0⟩ := by
        rw [startDvfsTest2] <;> assumption
      simp [StressVerdict, UnderTest, hother, hone, htwo, hfour, hseven]

end Verdict

theorem updateAll_fresh {board : Board Device} {vdds : VoltDomain → DvfsData Device} {ret : Int}
    (h : updateAll board loadedVdds = some (vdds, ret)) (d : VoltDomain) :
    (vdds d).enableTest = false → (vdds d).testPassed = false := by
  intro _
  rw [updateAll_testPassed h]
  rfl

def updatedVdds : VoltDomain → DvfsData Unit
  | .mpu => ⟨true, false, 1, 1, fun _ => 1000000, some ()⟩
  | .dsp => ⟨true, false, 2, 1, fun _ => 1000000, some ()⟩
  | .l3 => ⟨true, false, 3, 1, fun _ => 1000000, some ()⟩

def passedRun (d : VoltDomain) : StressRun (updatedVdds d) where
  turns := [⟨0, ⟨0, 1000000⟩, 61⟩]
  ret := 0
  ends := by cases d <;> decide

def refusedRun (d : VoltDomain) : StressRun (updatedVdds d) where
  turns := [⟨0, ⟨-22, 0⟩, 0⟩]
  ret := -22
  ends := by cases d <;> decide

theorem updatedVdds_fresh (d : VoltDomain) : (updatedVdds d).enableTest = false →
    (updatedVdds d).testPassed = false := by
  intro _
  cases d <;> rfl

theorem all_passed_recorded : StressVerdict 7 updatedVdds (fun _ => .running) passedRun := by
  refine (stressVerdict_iff updatedVdds_fresh).mpr fun _ _ => ⟨⟨.mpu, rfl⟩, Or.inl ?_⟩
  intro d _
  rfl

def mpuRefused (d : VoltDomain) : StressRun (updatedVdds d) := if d = .mpu then refusedRun d else passedRun d

/-- The first domain fails, the two others hide it. -/
theorem mpu_failure_hidden :
    ¬ StressVerdict 7 updatedVdds (fun _ => .running) mpuRefused ∧
      (startDvfsTest2 7 updatedVdds (fun _ => .running) mpuRefused).ret = 0 := by
  have hret : (startDvfsTest2 7 updatedVdds (fun _ => .running) mpuRefused).ret = 0 := by decide
  refine ⟨fun h => ?_, hret⟩
  have hmpu := (h.mp hret .mpu (by simp [UnderTest, updatedVdds])).2
  exact absurd hmpu (by decide)

end Dvfs

end DeviceDriverTest
