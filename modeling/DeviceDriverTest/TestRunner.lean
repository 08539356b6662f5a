import Mathlib.Data.List.Basic

/-! The runner of a test suite: what it checks before it starts the driver `pan`, and
the exit status that the caller gets. -/

namespace DeviceDriverTest

namespace TestRunner

abbrev Word := List Char

/-- An option that `getopts` finds, with `OPTARG`; an illegal one is `?` in the script. -/
inductive Opt
  | letter (c : Char) (OPTARG : Word)
  | illegal
  deriving DecidableEq

/-- `zx:Sd:qt:po:l:vn:hs:E:I`: the letters, and whether an argument follows. -/
def optstring : List (Char × Bool) :=
  [('z', false), ('x', true), ('S', false), ('d', true), ('q', false), ('t', true), ('p', false), ('o', true),
    ('l', true), ('v', false), ('n', true), ('h', false), ('s', true), ('E', true), ('I', false)]

/-- The options of one word, and whether the next word is the argument of the last. -/
def cluster (next : Option Word) : Word → List Opt × Bool
  | [] => ([], false)
  | c :: cs =>
    match optstring.lookup c with
    | none => (.illegal :: (cluster next cs).1, (cluster next cs).2)
    | some false => (.letter c [] :: (cluster next cs).1, (cluster next cs).2)
    | some true =>
      match cs, next with
      | [], none => ([.illegal], false)
      | [], some word => ([.letter c word], true)
      | c' :: cs, _ => ([.letter c (c' :: cs)], false)

/-- `none` where the options end. -/
def wordOptions (word : Word) (next : Option Word) : Option (List Opt × Bool) :=
  match word with
  | '-' :: c :: cs => if c = '-' ∧ cs = [] then none else some (cluster next (c :: cs))
  | _ => none

def getopts : List Word → List Opt
  | [] => []
  | [word] =>
    match wordOptions word none with
    | none => []
    | some (options, _) => options
  | word :: next :: rest =>
    match wordOptions word (some next) with
    | none => []
    | some (options, true) => options ++ getopts rest
    | some (options, false) => options ++ getopts (next :: rest)

/-- The words to shift: two for an option whose `OPTARG` is not empty, one for another. -/
def count : List Opt → Nat
  | [] => 0
  | .letter _ OPTARG :: rest => (if OPTARG = [] then 1 else 2) + count rest
  | .illegal :: rest => 1 + count rest

structure Settings where
  TMPBASE : Word
  TESTDIR : Word
  TC_SCENARIO : Word
  VERBOSE : Bool
  QUIET_MODE : Bool
  OO_LOG : Bool
  EXTENDED_TEST : Bool

/-- What the script finds: the files, the words a shell expands to, and the exit
statuses of the commands, the last four of them for each scenario. -/
structure Environment where
  cd : Bool
  conf : Option Settings
  /-- whether `[ -d $TC_SCENARIO ]` holds before the options are read; its words are split -/
  suite : Bool
  dir : Word → Bool
  writable : Word → Bool
  file : Word → Bool
  readable : Word → Bool
  hasPan : Bool
  expand : Word → List Word
  /-- whether the shell exits where there is nothing left to shift -/
  shiftExits : Bool
  pan : Nat
  tee : Nat
  tmpfile : Nat → Nat
  cmdfile : Nat → Nat
  extended : Nat → Nat
  copied : Nat → Nat

inductive End
  | die (message : String)
  | usage
  | shift
  | finished (scenarios : List Word) (VALUE : Nat)

/-- The exit status; `cleanup`, which the trap runs, does not change it. `die` calls
`usage`, which exits before it comes to its own `exit 1`. -/
def End.status : End → Nat
  | .die _ => 0
  | .usage => 0
  | .shift => 2
  | .finished _ VALUE => VALUE

def failing (checks : List (Bool × String)) : Option String :=
  checks.findSome? fun c => if c.1 then none else some c.2

def setup (env : Environment) : Except End Settings :=
  match env.cd, env.conf with
  | false, _ => .error (.die "unable to change directory to $(dirname $0)")
  | true, none => .error (.die "FATAL: Configuration file not found")
  | true, some conf =>
    match failing [(env.suite, "Test suite not installed correctly - no scenarios"),
      (env.hasPan, "FATAL: Test suite driver 'pan' not found")] with
    | some message => .error (.die message)
    | none => .ok conf

/-- The options that only `pan` sees change nothing here. -/
def Settings.set (s : Settings) (c : Char) (OPTARG : Word) : Settings :=
  match c with
  | 'd' => { s with TESTDIR := OPTARG }
  | 't' => { s with TMPBASE := OPTARG }
  | 'E' => { s with EXTENDED_TEST := true }
  | 'q' => { s with QUIET_MODE := true }
  | 'o' => { s with OO_LOG := true }
  | 'v' => { s with VERBOSE := true }
  | 's' => { s with TC_SCENARIO := OPTARG }
  | _ => s

def options (s : Settings) : List Opt → Except End Settings
  | [] => .ok s
  | .illegal :: _ => .error .usage
  | .letter c OPTARG :: rest => if c = 'h' then .error .usage else options (s.set c OPTARG) rest

def scenarioChecks (env : Environment) (s : Settings) (SCEN : Word) (k : Nat) : List (Bool × String) :=
  let path := s.TC_SCENARIO ++ '/' :: SCEN
  [(env.file path && env.readable path, String.ofList path ++ " - not a scenario file"),
    (env.tmpfile k == 0, "Count not create tmp file"),
    (env.cmdfile k == 0, "Count not create command file"),
    (s.EXTENDED_TEST || env.extended k == 0, "intermediate file gen failed"),
    (s.EXTENDED_TEST || env.copied k == 0, "Second intermediate creation failed")]

def sanity_check (env : Environment) (s : Settings) (SCENARIO_NAMES : Word) : Option String :=
  failing ([(env.dir s.TMPBASE && env.writable s.TMPBASE,
      String.ofList s.TMPBASE ++ " - cannot work as temporary directory"),
    (env.dir s.TESTDIR && env.writable s.TESTDIR, String.ofList s.TESTDIR ++ " - cannot work as test directory"),
    (env.dir s.TC_SCENARIO, String.ofList s.TC_SCENARIO ++ " - No such directories"),
    (!SCENARIO_NAMES.isEmpty, "No Scenarios"),
    (!(s.VERBOSE && s.QUIET_MODE), "Make up your mind - verbose or quiet??")] ++
    (env.expand SCENARIO_NAMES).zipIdx.flatMap fun scenario => scenarioChecks env s scenario.1 scenario.2)

def scenarioNames (args : List Word) : Word := List.intercalate [' '] (args.drop (count (getopts args)))

def main (env : Environment) (conf : Settings) (args : List Word) : End :=
  match options conf (getopts args) with
  | .error stop => stop
  | .ok s =>
    if env.shiftExits = true ∧ args.length < count (getopts args) then .shift
    else
      match sanity_check env s (scenarioNames args) with
      | some message => .die message
      | none =>
        .finished (env.expand (scenarioNames args)) (if (if s.OO_LOG then env.tee else env.pan) = 0 then 0 else 1)

def test_runner (env : Environment) (args : List Word) : End :=
  match setup env with
  | .error stop => stop
  | .ok conf => main env conf args

def HelpGiven (args : List Word) : Prop := ∃ OPTARG, .letter 'h' OPTARG ∈ getopts args

def Legal (args : List Word) : Prop := .illegal ∉ getopts args

/-- The caller gets a zero only for the help and for a driver that has run and
reports a zero, and never from `die`. -/
structure VerdictReaches (env : Environment) (args : List Word) : Prop where
  success : (test_runner env args).status = 0 → HelpGiven args ∨
    test_runner env args = .finished (env.expand (scenarioNames args)) 0 ∧ env.pan = 0
  death : ∀ message, test_runner env args = .die message → (test_runner env args).status ≠ 0

/-- What `setup` asks for. -/
structure Installed (env : Environment) (conf : Settings) : Prop where
  cd : env.cd = true
  loaded : env.conf = some conf
  suite : env.suite = true
  hasPan : env.hasPan = true

structure ScenarioUsable (env : Environment) (s : Settings) (SCEN : Word) (k : Nat) : Prop where
  file : env.file (s.TC_SCENARIO ++ '/' :: SCEN) = true ∧ env.readable (s.TC_SCENARIO ++ '/' :: SCEN) = true
  tmpfile : env.tmpfile k = 0
  cmdfile : env.cmdfile k = 0
  extended : s.EXTENDED_TEST = true ∨ env.extended k = 0 ∧ env.copied k = 0

/-- What `sanity_check` asks for. -/
structure Sane (env : Environment) (s : Settings) (SCENARIO_NAMES : Word) : Prop where
  TMPBASE : env.dir s.TMPBASE = true ∧ env.writable s.TMPBASE = true
  TESTDIR : env.dir s.TESTDIR = true ∧ env.writable s.TESTDIR = true
  TC_SCENARIO : env.dir s.TC_SCENARIO = true
  named : SCENARIO_NAMES ≠ []
  mode : ¬ (s.VERBOSE = true ∧ s.QUIET_MODE = true)
  scenarios : ∀ scenario ∈ (env.expand SCENARIO_NAMES).zipIdx, ScenarioUsable env s scenario.1 scenario.2

def settings (conf : Settings) (opts : List Opt) : Settings :=
  opts.foldl (fun s o => match o with
    | .letter c OPTARG => s.set c OPTARG
    | .illegal => s) conf

/-- Once the options are read, the shell exits for want of words to shift, or no check
fails and behind `-o` the driver does not fail unnoticed. -/
def MainHidesNothing (env : Environment) (s : Settings) (args : List Word) : Prop :=
  env.shiftExits = true ∧ args.length < count (getopts args) ∨
    Sane env s (scenarioNames args) ∧ (s.OO_LOG = true → env.pan = 0 ∨ env.tee ≠ 0)

/-- Nothing goes wrong that the script hides, and no option is illegal unless the help
is asked for. -/
def NothingHidden (env : Environment) (args : List Word) : Prop :=
  ∃ conf, Installed env conf ∧
    (HelpGiven args ∨ Legal args ∧ MainHidesNothing env (settings conf (getopts args)) args)

theorem failing_eq_none_iff (checks : List (Bool × String)) : failing checks = none ↔ ∀ c ∈ checks, c.1 = true := by
  rw [failing, List.findSome?_eq_none_iff]
  refine forall₂_congr fun c _ => ?_
  cases c.1 with
  | false => simp
  | true => simp

theorem setup_cases (env : Environment) :
    (∃ conf, setup env = .ok conf ∧ Installed env conf) ∨
      ∃ message, setup env = .error (.die message) ∧ ∀ conf, ¬ Installed env conf := by
  rw [setup]
  cases hcd : env.cd with
  | false => exact Or.inr ⟨_, rfl, fun conf h => absurd (hcd.symm.trans h.cd) Bool.false_ne_true⟩
  | true =>
    cases hconf : env.conf with
    | none => exact Or.inr ⟨_, rfl, fun conf h => absurd (hconf.symm.trans h.loaded) nofun⟩
    | some conf =>
      dsimp only
      cases hfailing : failing [(env.suite, "Test suite not installed correctly - no scenarios"),
        (env.hasPan, "FATAL: Test suite driver 'pan' not found")] with
      | none =>
        have hchecks := (failing_eq_none_iff _).mp hfailing
        simp only [List.forall_mem_cons] at hchecks
        exact Or.inl ⟨conf, rfl, hcd, hconf, hchecks.1, hchecks.2.1⟩
      | some message =>
        refine Or.inr ⟨message, rfl, fun conf' h => ?_⟩
        obtain rfl : conf = conf' := Option.some.inj (hconf.symm.trans h.loaded)
        rw [(failing_eq_none_iff _).mpr (by simp [h.suite, h.hasPan])] at hfailing
        contradiction

theorem scenarioChecks_iff (env : Environment) (s : Settings) (SCEN : Word) (k : Nat) :
    (∀ c ∈ scenarioChecks env s SCEN k, c.1 = true) ↔ ScenarioUsable env s SCEN k := by
  simp only [scenarioChecks, List.forall_mem_cons, List.not_mem_nil, false_imp_iff, implies_true, and_true,
    Bool.and_eq_true, Bool.or_eq_true, beq_iff_eq]
  constructor
  · rintro ⟨hfile, htmpfile, hcmdfile, hextended, hcopied⟩
    exact ⟨hfile, htmpfile, hcmdfile, (or_and_left).mpr ⟨hextended, hcopied⟩⟩
  · intro h
    exact ⟨h.file, h.tmpfile, h.cmdfile, (or_and_left).mp h.extended⟩

theorem sanity_check_eq_none_iff (env : Environment) (s : Settings) (SCENARIO_NAMES : Word) :
    sanity_check env s SCENARIO_NAMES = none ↔ Sane env s SCENARIO_NAMES := by
  rw [sanity_check, failing_eq_none_iff, List.forall_mem_append, List.forall_mem_flatMap]
  simp only [List.forall_mem_cons, List.not_mem_nil, false_imp_iff, implies_true, and_true, Bool.and_eq_true,
    Bool.not_eq_true', List.isEmpty_eq_false_iff, scenarioChecks_iff]
  constructor
  · rintro ⟨⟨htmpbase, htestdir, hscenario, hnamed, hmode⟩, hscenarios⟩
    exact ⟨htmpbase, htestdir, hscenario, hnamed, by simpa using hmode, hscenarios⟩
  · intro h
    exact ⟨⟨h.TMPBASE, h.TESTDIR, h.TC_SCENARIO, h.named, by simpa using h.mode⟩, h.scenarios⟩

/-- Without an illegal option and without a call for help there are other letters only. -/
theorem letters_only {opts : List Opt} (hlegal : .illegal ∉ opts) (hhelp : ¬ ∃ OPTARG, .letter 'h' OPTARG ∈ opts) :
    ∀ o ∈ opts, ∃ c OPTARG, o = .letter c OPTARG ∧ c ≠ 'h' := by
  intro o ho
  cases o with
  | illegal => exact absurd ho hlegal
  | letter c OPTARG =>
    refine ⟨c, OPTARG, rfl, ?_⟩
    rintro rfl
    exact hhelp ⟨OPTARG, ho⟩

theorem options_eq_ok {opts : List Opt} (hlegal : .illegal ∉ opts) (hhelp : ¬ ∃ OPTARG, .letter 'h' OPTARG ∈ opts)
    (s : Settings) : options s opts = .ok (settings s opts) := by
  have hletters := letters_only hlegal hhelp
  clear hlegal hhelp
  induction opts generalizing s with
  | nil => rfl
  | cons o rest ih =>
    obtain ⟨⟨c, OPTARG, rfl, hc⟩, hrest⟩ := List.forall_mem_cons.mp hletters
    rw [options, if_neg hc]
    exact ih _ hrest

theorem options_eq_usage {opts : List Opt} (h : .illegal ∈ opts ∨ ∃ OPTARG, .letter 'h' OPTARG ∈ opts)
    (s : Settings) : options s opts = .error .usage := by
  induction opts generalizing s with
  | nil => simp at h
  | cons o rest ih =>
    cases o with
    | illegal => rfl
    | letter c OPTARG =>
      rw [options]
      by_cases hc : c = 'h'
      · rw [if_pos hc]
      · rw [if_neg hc]
        apply ih
        simpa [Ne.symm hc] using h

theorem main_eq {env : Environment} {conf : Settings} {args : List Word} (hlegal : Legal args)
    (hhelp : ¬ HelpGiven args) :
    main env conf args =
      if env.shiftExits = true ∧ args.length < count (getopts args) then .shift
      else
        match sanity_check env (settings conf (getopts args)) (scenarioNames args) with
        | some message => .die message
        | none => .finished (env.expand (scenarioNames args))
            (if (if (settings conf (getopts args)).OO_LOG then env.tee else env.pan) = 0 then 0 else 1) := by
  rw [main, options_eq_ok hlegal hhelp]

/-- The status of a pipeline is that of `tee`. -/
theorem verdictReaches_finished {env : Environment} {args : List Word} {OO_LOG : Bool} (hhelp : ¬ HelpGiven args)
    (hrun : test_runner env args =
      .finished (env.expand (scenarioNames args)) (if (if OO_LOG then env.tee else env.pan) = 0 then 0 else 1)) :
    VerdictReaches env args ↔ (OO_LOG = true → env.pan = 0 ∨ env.tee ≠ 0) := by
  have hstatus : (test_runner env args).status = 0 ↔ (if OO_LOG then env.tee else env.pan) = 0 := by
    rw [hrun]
    show (if _ then 0 else 1) = 0 ↔ _
    simp
  constructor
  · intro h hlog
    rw [hlog, if_pos rfl] at hstatus
    by_cases htee : env.tee = 0
    · obtain hgiven | hran := h.success (hstatus.mpr htee)
      · exact absurd hgiven hhelp
      · exact Or.inl hran.2
    · exact Or.inr htee
  · intro h
    refine ⟨fun hzero => Or.inr ?_, fun message hdie => ?_⟩
    · have hvalue := hstatus.mp hzero
      rw [hrun, if_pos hvalue]
      refine ⟨rfl, ?_⟩
      cases OO_LOG with
      | false => exact hvalue
      | true => exact (h rfl).resolve_right (not_not.mpr hvalue)
    · rw [hrun] at hdie
      contradiction

/-- The help and an illegal option end in the same way, but only the help was asked for. -/
theorem verdictReaches_usage {env : Environment} {args : List Word} (hrun : test_runner env args = .usage) :
    VerdictReaches env args ↔ HelpGiven args := by
  constructor
  · intro h
    obtain hgiven | hran := h.success (by rw [hrun]; rfl)
    · exact hgiven
    · rw [hrun] at hran
      exact absurd hran.1 nofun
  · intro hgiven
    refine ⟨fun _ => Or.inl hgiven, fun message hdie => ?_⟩
    rw [hrun] at hdie
    contradiction

theorem not_verdictReaches_die {env : Environment} {args : List Word} {message : String}
    (hrun : test_runner env args = .die message) : ¬ VerdictReaches env args := by
  intro h
  exact h.death message hrun (by rw [hrun]; rfl)

theorem verdictReaches_shift {env : Environment} {args : List Word} (hrun : test_runner env args = .shift) :
    VerdictReaches env args := by
  refine ⟨fun hzero => ?_, fun message hdie => ?_⟩
  · rw [hrun] at hzero
    contradiction
  · rw [hrun] at hdie
    contradiction

theorem verdictReaches_main {env : Environment} {conf : Settings} {args : List Word}
    (hrun : test_runner env args = main env conf args) (hlegal : Legal args) (hhelp : ¬ HelpGiven args) :
    VerdictReaches env args ↔ MainHidesNothing env (settings conf (getopts args)) args := by
  rw [main_eq hlegal hhelp] at hrun
  rw [MainHidesNothing, ← sanity_check_eq_none_iff]
  by_cases hshift : env.shiftExits = true ∧ args.length < count (getopts args)
  · rw [if_pos hshift] at hrun
    exact iff_of_true (verdictReaches_shift hrun) (Or.inl hshift)
  · rw [if_neg hshift] at hrun
    cases hsane : sanity_check env (settings conf (getopts args)) (scenarioNames args) with
    | some message =>
      rw [hsane] at hrun
      apply iff_of_false
      · exact not_verdictReaches_die hrun
      · simp [hshift]
    | none =>
      rw [hsane] at hrun
      rw [verdictReaches_finished hhelp hrun]
      simp [hshift]

theorem nothingHidden_iff {env : Environment} {conf : Settings} (h : Installed env conf) (args : List Word) :
    NothingHidden env args ↔
      HelpGiven args ∨ Legal args ∧ MainHidesNothing env (settings conf (getopts args)) args := by
  constructor
  · rintro ⟨conf', h', hrest⟩
    obtain rfl : conf' = conf := Option.some.inj (h'.loaded.symm.trans h.loaded)
    exact hrest
  · intro hrest
    exact ⟨conf, h, hrest⟩

theorem verdictReaches_iff (env : Environment) (args : List Word) :
    VerdictReaches env args ↔ NothingHidden env args := by
  obtain ⟨conf, hsetup, hinstalled⟩ | ⟨message, hsetup, hmissing⟩ := setup_cases env
  · have hrun : test_runner env args = main env conf args := by rw [test_runner, hsetup]
    rw [nothingHidden_iff hinstalled]
    by_cases hends : .illegal ∈ getopts args ∨ HelpGiven args
    · have husage : test_runner env args = .usage := by rw [hrun, main, options_eq_usage hends]
      rw [verdictReaches_usage husage]
      obtain hillegal | hhelp := hends
      · rw [or_iff_left fun hlegal => hlegal.1 hillegal]
      · exact iff_of_true hhelp (Or.inl hhelp)
    · have hlegal : Legal args := fun hillegal => hends (Or.inl hillegal)
      have hhelp : ¬ HelpGiven args := fun hgiven => hends (Or.inr hgiven)
      rw [verdictReaches_main hrun hlegal hhelp, or_iff_right hhelp, and_iff_right hlegal]
  · have hdie : test_runner env args = .die message := by rw [test_runner, hsetup]
    apply iff_of_false
    · exact not_verdictReaches_die hdie
    · rintro ⟨conf, hinstalled, -⟩
      exact hmissing conf hinstalled

/-- The one scenario that is asked for is not there. -/
def noScenarioFile : Environment where
  cd := true
  conf := some ⟨['t'], ['d'], ['s'], false, false, false, false⟩
  suite := true
  dir := fun _ => true
  writable := fun _ => true
  file := fun _ => false
  readable := fun _ => false
  hasPan := true
  expand := fun names => [names]
  shiftExits := true
  pan := 0
  tee := 0
  tmpfile := fun _ => 0
  cmdfile := fun _ => 0
  extended := fun _ => 0
  copied := fun _ => 0

theorem missing_scenario_exits_zero : ¬ VerdictReaches noScenarioFile [['v', 'i', 'd', 'e', 'o']] := by
  intro h
  have hdie : test_runner noScenarioFile [['v', 'i', 'd', 'e', 'o']] = .die _ := rfl
  exact h.death _ hdie rfl

end TestRunner

end DeviceDriverTest
