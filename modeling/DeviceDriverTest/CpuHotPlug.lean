import DeviceDriverTest.HandlerError

/-! The CPU hot-plug handler. While a background command runs, the second
processor is switched on and off in turn, each switch followed by a comparison. -/

namespace DeviceDriverTest

namespace CpuHotPlug

open HandlerError

/-- What a set step and the compare step after it meet: whether the entry is
found, and whether it then shows the desired value. -/
structure Outcome where
  setFound : Bool
  compareFound : Bool
  shown : Bool

def Outcome.passes (outcome : Outcome) : Bool := outcome.setFound && outcome.compareFound && outcome.shown

/-- The error latch, the last value that a set step for `$SYSFS_CPU1_ONLINE` was
called with, the last one that reached the entry, and whether a compare step
has failed. -/
structure State where
  files : Files String
  commanded : Option Bool
  written : Option Bool
  compareFailed : Bool

structure Ending where
  state : State
  exitStatus : Nat

/-- `handlerSysFs.sh "set" $SYSFS_CPU1_ONLINE`. -/
def sysFsSet (online found : Bool) (s : State) : State :=
  let s := { s with commanded := some online }
  if (test s.files).exit = 1 then s
  else if !found then { s with files := log s.files failed .halt "handlerSysFs.sh" }
  else { s with written := some online }

/-- `handlerSysFs.sh "compare"`, with its exit status. -/
def sysFsCompare (found shown : Bool) (s : State) : State × Nat :=
  if (test s.files).exit = 1 then ({ s with compareFailed := true }, 1)
  else if !found || !shown then
    ({ s with files := log s.files failed .halt "handlerSysFs.sh", compareFailed := true }, 1)
  else (s, 0)

/-- One turn of the loop of `cpuHotPlug`: on in the odd rounds, off in the even ones. -/
def round (count : Nat) (outcome : Outcome) (s : State) : State :=
  let s := sysFsSet (count % 2 == 1) outcome.setFound s
  (sysFsCompare outcome.compareFound outcome.shown s).1

/-- The loop from round `count`; the background command is seen to have ended
after `left` further rounds. -/
def cpuHotPlug (outcomes : Nat → Outcome) (count : Nat) : Nat → State → State
  | 0, s => round count (outcomes count) s
  | left + 1, s => cpuHotPlug outcomes (count + 1) left (round count (outcomes count) s)

structure Environment where
  cpu0Found : Bool
  cpu1Found : Bool
  files : Files String
  setup : Outcome
  outcomes : Nat → Outcome
  /-- The rounds after the first before the command is seen to have ended. -/
  furtherRounds : Nat

def handlerCpuHotPlug (env : Environment) : Ending :=
  let s : State := ⟨env.files, none, none, false⟩
  if !env.cpu0Found || !env.cpu1Found then
    ⟨{ s with files := log s.files failed .halt "handlerCpuHotPlug.sh" }, 1⟩
  else
    let s := sysFsSet true env.setup.setFound s
    let (s, status) := sysFsCompare env.setup.compareFound env.setup.shown s
    let s := if status = 0 then s else
      { s with files := log s.files failed .halt "handlerCpuHotPlug.sh | 2 CPUs are not available" }
    if (test s.files).exit = 1 then ⟨s, 1⟩
    else
      -- the outcome variable is set to 0 and nothing sets it again
      ⟨cpuHotPlug env.outcomes 1 env.furtherRounds s, 0⟩

/-- The processor is left online, and the exit status tells of a failed comparison. -/
structure EndsWell (e : Ending) : Prop where
  online : e.state.commanded = some true
  notOffline : e.state.written ≠ some false
  status : e.exitStatus ≠ 0 ↔ e.state.compareFailed = true

def SetupPasses (env : Environment) : Prop := env.files.halt = none ∧ env.setup.passes = true

/-- The script either stops before its loop, or all comparisons of the loop pass
and it leaves the loop after an odd round. -/
def OddRounds (env : Environment) : Prop :=
  env.cpu0Found = true ∧ env.cpu1Found = true ∧
    (SetupPasses env → env.furtherRounds % 2 = 0 ∧ ∀ i ≤ env.furtherRounds, (env.outcomes (1 + i)).passes = true)

theorem test_exit_eq_one {files : Files String} : (test files).exit = 1 ↔ files.halt ≠ none := by
  rw [test_exit_iff, Option.ne_none_iff_exists']

theorem test_exit_ne_one {files : Files String} (h : files.halt = none) : ¬ (test files).exit = 1 :=
  fun hexit => test_exit_eq_one.mp hexit h

theorem log_halt_ne_none (files : Files String) (handler : String) :
    (log files failed .halt handler).halt ≠ none := by
  rw [log_failed_halt]
  exact Option.some_ne_none handler

theorem sysFsCompare_fails {found shown : Bool} {s : State}
    (h : ¬ (s.files.halt = none ∧ found = true ∧ shown = true)) :
    ∃ files, sysFsCompare found shown s = ({ s with files := files, compareFailed := true }, 1) ∧
      files.halt ≠ none := by
  rw [sysFsCompare]
  by_cases hhalt : s.files.halt = none
  · have hentry : (!found || !shown) = true := by
      rw [Bool.or_eq_true, Bool.not_eq_true', Bool.not_eq_true']
      by_contra hboth
      obtain ⟨hf, hs⟩ := not_or.mp hboth
      exact h ⟨hhalt, eq_true_of_ne_false hf, eq_true_of_ne_false hs⟩
    rw [if_neg (test_exit_ne_one hhalt), if_pos hentry]
    exact ⟨_, rfl, log_halt_ne_none s.files "handlerSysFs.sh"⟩
  · rw [if_pos (test_exit_eq_one.mpr hhalt)]
    exact ⟨s.files, rfl, hhalt⟩

theorem sysFsSet_cases (online found : Bool) (s : State) :
    (s.files.halt = none ∧ found = true ∧
      sysFsSet online found s = { s with commanded := some online, written := some online }) ∨
    (¬ (s.files.halt = none ∧ found = true) ∧ ∃ files,
      sysFsSet online found s = { s with commanded := some online, files := files } ∧ files.halt ≠ none) := by
  rw [sysFsSet]
  by_cases hhalt : s.files.halt = none
  · cases found with
    | true => exact Or.inl ⟨hhalt, rfl, if_neg (test_exit_ne_one hhalt)⟩
    | false =>
      refine Or.inr ⟨fun h => absurd h.2 Bool.false_ne_true, _, if_neg (test_exit_ne_one hhalt), ?_⟩
      exact log_halt_ne_none s.files "handlerSysFs.sh"
  · exact Or.inr ⟨fun h => hhalt h.1, s.files, if_pos (test_exit_eq_one.mpr hhalt), hhalt⟩

theorem set_compare_cases (online : Bool) (outcome : Outcome) (s : State) :
    (s.files.halt = none ∧ outcome.passes = true ∧
      sysFsCompare outcome.compareFound outcome.shown (sysFsSet online outcome.setFound s) =
        ({ s with commanded := some online, written := some online }, 0)) ∨
    (¬ (s.files.halt = none ∧ outcome.passes = true) ∧ ∃ s',
      sysFsCompare outcome.compareFound outcome.shown (sysFsSet online outcome.setFound s) = (s', 1) ∧
        s'.files.halt ≠ none ∧ s'.compareFailed = true ∧ s'.commanded = some online ∧
        (s'.written = s.written ∨ s'.written = some online)) := by
  have hpasses : outcome.passes = true ↔
      outcome.setFound = true ∧ outcome.compareFound = true ∧ outcome.shown = true := by
    rw [Outcome.passes, Bool.and_eq_true, Bool.and_eq_true, and_assoc]
  obtain ⟨hhalt, hfound, hset⟩ | ⟨hset, files, hafter, hfiles⟩ := sysFsSet_cases online outcome.setFound s
  · rw [hset]
    by_cases hcompare : outcome.compareFound = true ∧ outcome.shown = true
    · refine Or.inl ⟨hhalt, hpasses.mpr ⟨hfound, hcompare⟩, ?_⟩
      rw [sysFsCompare, if_neg (test_exit_ne_one hhalt), hcompare.1, hcompare.2]
      rfl
    · have hfails : ¬ (s.files.halt = none ∧ outcome.compareFound = true ∧ outcome.shown = true) :=
        fun h => hcompare h.2
      obtain ⟨files, hresult, hfiles⟩ := @sysFsCompare_fails outcome.compareFound outcome.shown
        { s with commanded := some online, written := some online } hfails
      refine Or.inr ⟨fun h => hcompare (hpasses.mp h.2).2, _, hresult, hfiles, rfl, rfl, Or.inr rfl⟩
  · rw [hafter]
    obtain ⟨later, hresult, hlater⟩ := @sysFsCompare_fails outcome.compareFound outcome.shown
      { s with commanded := some online, files := files } fun h => hfiles h.1
    exact Or.inr ⟨fun h => hset ⟨h.1, (hpasses.mp h.2).1⟩, _, hresult, hlater, rfl, rfl, Or.inl rfl⟩

theorem round_keeps_failure {count : Nat} {outcome : Outcome} {s : State} (h : s.compareFailed = true) :
    (round count outcome s).compareFailed = true := by
  rw [round]
  obtain ⟨-, -, hstep⟩ | ⟨-, s', hstep, -, hfailed, -⟩ := set_compare_cases (count % 2 == 1) outcome s
  · rw [hstep]
    exact h
  · rw [hstep]
    exact hfailed

theorem cpuHotPlug_keeps_failure {outcomes : Nat → Outcome} {left count : Nat} {s : State}
    (h : s.compareFailed = true) : (cpuHotPlug outcomes count left s).compareFailed = true := by
  induction left generalizing count s with
  | zero => exact round_keeps_failure h
  | succ left ih => exact ih (round_keeps_failure h)

theorem round_passes {count : Nat} {outcome : Outcome} {s : State} (hhalt : s.files.halt = none)
    (hpasses : outcome.passes = true) :
    round count outcome s =
      { s with commanded := some (count % 2 == 1), written := some (count % 2 == 1) } := by
  rw [round]
  obtain ⟨-, -, hstep⟩ | ⟨hnot, -⟩ := set_compare_cases (count % 2 == 1) outcome s
  · rw [hstep]
  · exact absurd ⟨hhalt, hpasses⟩ hnot

theorem round_fails {count : Nat} {outcome : Outcome} {s : State} (hfails : outcome.passes ≠ true) :
    (round count outcome s).compareFailed = true := by
  rw [round]
  obtain ⟨-, hpasses, -⟩ | ⟨-, s', hstep, -, hfailed, -⟩ := set_compare_cases (count % 2 == 1) outcome s
  · exact absurd hpasses hfails
  · rw [hstep]
    exact hfailed

theorem cpuHotPlug_passes {outcomes : Nat → Outcome} {left count : Nat} {s : State}
    (hhalt : s.files.halt = none) (hpasses : ∀ i ≤ left, (outcomes (count + i)).passes = true) :
    cpuHotPlug outcomes count left s =
      { s with commanded := some ((count + left) % 2 == 1), written := some ((count + left) % 2 == 1) } := by
  induction left generalizing count s with
  | zero => exact round_passes hhalt (hpasses 0 (Nat.le_refl 0))
  | succ left ih =>
    have hrest : ∀ i ≤ left, (outcomes (count + 1 + i)).passes = true := by
      intro i hi
      rw [Nat.add_assoc, Nat.add_comm 1 i]
      exact hpasses (i + 1) (Nat.succ_le_succ hi)
    have hfirst : (outcomes count).passes = true := hpasses 0 (Nat.zero_le _)
    rw [cpuHotPlug, round_passes hhalt hfirst, Nat.add_comm left 1, ← Nat.add_assoc]
    exact ih hhalt hrest

theorem cpuHotPlug_fails {outcomes : Nat → Outcome} {left count i : Nat} {s : State} (hi : i ≤ left)
    (hfails : (outcomes (count + i)).passes ≠ true) : (cpuHotPlug outcomes count left s).compareFailed = true := by
  induction left generalizing count i s with
  | zero =>
    obtain rfl : i = 0 := Nat.le_zero.mp hi
    exact round_fails hfails
  | succ left ih =>
    cases i with
    | zero =>
      rw [Nat.add_zero] at hfails
      rw [cpuHotPlug]
      exact cpuHotPlug_keeps_failure (round_fails hfails)
    | succ i =>
      rw [Nat.add_comm i 1, ← Nat.add_assoc] at hfails
      exact ih (Nat.le_of_succ_le_succ hi) hfails

theorem handlerCpuHotPlug_not_found {env : Environment} (h : ¬ (env.cpu0Found = true ∧ env.cpu1Found = true)) :
    (handlerCpuHotPlug env).exitStatus = 1 ∧ (handlerCpuHotPlug env).state.compareFailed = false := by
  have hentry : (!env.cpu0Found || !env.cpu1Found) = true := by
    rw [← Bool.not_and, Bool.not_eq_true', Bool.eq_false_iff, ne_eq, Bool.and_eq_true]
    exact h
  rw [handlerCpuHotPlug]
  dsimp only
  rw [if_pos hentry]
  exact ⟨rfl, rfl⟩

theorem handlerCpuHotPlug_cases {env : Environment} (hfound : env.cpu0Found = true ∧ env.cpu1Found = true) :
    (¬ SetupPasses env ∧ EndsWell (handlerCpuHotPlug env)) ∨
      (SetupPasses env ∧ handlerCpuHotPlug env =
        ⟨cpuHotPlug env.outcomes 1 env.furtherRounds ⟨env.files, some true, some true, false⟩, 0⟩) := by
  have hentry : ¬ (!env.cpu0Found || !env.cpu1Found) = true := by
    rw [hfound.1, hfound.2]
    exact Bool.false_ne_true
  rw [handlerCpuHotPlug]
  dsimp only
  rw [if_neg hentry]
  obtain ⟨hhalt, hpasses, hstep⟩ | ⟨hnot, s, hstep, hhalt, hfailed, hcommanded, hwritten⟩ :=
    set_compare_cases true env.setup ⟨env.files, none, none, false⟩
  · refine Or.inr ⟨⟨hhalt, hpasses⟩, ?_⟩
    rw [hstep]
    dsimp only
    rw [if_pos rfl, if_neg (test_exit_ne_one hhalt)]
  · refine Or.inl ⟨hnot, ?_⟩
    have hexit : (test (log s.files failed .halt "handlerCpuHotPlug.sh | 2 CPUs are not available")).exit = 1 :=
      test_exit_eq_one.mpr (log_halt_ne_none s.files _)
    rw [hstep]
    dsimp only
    rw [if_neg Nat.one_ne_zero, if_pos hexit]
    refine ⟨hcommanded, ?_, iff_of_true Nat.one_ne_zero hfailed⟩
    obtain hsame | honline := hwritten
    · rw [hsame]
      exact (Option.some_ne_none false).symm
    · rw [honline]
      exact fun h => absurd (Option.some.inj h) (by decide)

theorem endsWell_of_passes {env : Environment} (hsetup : SetupPasses env)
    (hpasses : ∀ i ≤ env.furtherRounds, (env.outcomes (1 + i)).passes = true) :
    EndsWell ⟨cpuHotPlug env.outcomes 1 env.furtherRounds ⟨env.files, some true, some true, false⟩, 0⟩ ↔
      env.furtherRounds % 2 = 0 := by
  rw [cpuHotPlug_passes hsetup.1 hpasses]
  have hparity : ((1 + env.furtherRounds) % 2 == 1) = true ↔ env.furtherRounds % 2 = 0 := by
    rw [beq_iff_eq]
    omega
  constructor
  · intro h
    exact hparity.mp (Option.some.inj h.online)
  · intro heven
    rw [hparity.mpr heven]
    refine ⟨rfl, fun h => absurd (Option.some.inj h) (by decide), ?_⟩
    exact iff_of_false (fun h => h rfl) Bool.false_ne_true

theorem endsWell_iff (env : Environment) : EndsWell (handlerCpuHotPlug env) ↔ OddRounds env := by
  by_cases hfound : env.cpu0Found = true ∧ env.cpu1Found = true
  · obtain ⟨hnot, hwell⟩ | ⟨hsetup, hloop⟩ := handlerCpuHotPlug_cases hfound
    · exact iff_of_true hwell ⟨hfound.1, hfound.2, fun h => absurd h hnot⟩
    · rw [hloop]
      by_cases hpasses : ∀ i ≤ env.furtherRounds, (env.outcomes (1 + i)).passes = true
      · rw [endsWell_of_passes hsetup hpasses]
        exact ⟨fun heven => ⟨hfound.1, hfound.2, fun _ => ⟨heven, hpasses⟩⟩, fun h => (h.2.2 hsetup).1⟩
      · refine iff_of_false (fun h => ?_) fun h => hpasses (h.2.2 hsetup).2
        obtain ⟨i, hfails⟩ := not_forall.mp hpasses
        obtain ⟨hi, hfails⟩ := Classical.not_imp.mp hfails
        exact absurd (cpuHotPlug_fails hi hfails) (mt h.status.mpr fun h => h rfl)
  · obtain ⟨hexit, hnone⟩ := handlerCpuHotPlug_not_found hfound
    refine iff_of_false (fun h => ?_) fun h => hfound ⟨h.1, h.2.1⟩
    have hfailed := h.status.mp (by rw [hexit]; exact Nat.one_ne_zero)
    rw [hnone] at hfailed
    exact absurd hfailed Bool.false_ne_true

def twoRounds : Environment where
  cpu0Found := true
  cpu1Found := true
  files := clean
  setup := ⟨true, true, true⟩
  outcomes := fun _ => ⟨true, true, true⟩
  furtherRounds := 1

/-- The command ends in its first round, in which the comparison fails. -/
def failedRound : Environment :=
  { twoRounds with outcomes := fun _ => ⟨true, true, false⟩, furtherRounds := 0 }

/-- The processor is left offline, and a failed comparison is not reported. -/
theorem left_offline_and_unreported :
    ¬ EndsWell (handlerCpuHotPlug twoRounds) ∧ ¬ EndsWell (handlerCpuHotPlug failedRound) := by
  constructor
  · intro h
    exact absurd h.online (by decide)
  · intro h
    exact absurd (h.status.mpr (by decide)) (by decide)

end CpuHotPlug

end DeviceDriverTest
