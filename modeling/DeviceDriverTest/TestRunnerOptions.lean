import Mathlib.Logic.Function.Basic
import DeviceDriverTest.FieldSplitting
import DeviceDriverTest.TestRunner

/-! The options of the runner in all their spellings: the variables they set and the
scenarios that are left behind them. -/

namespace DeviceDriverTest

namespace TestRunnerOptions

open TestRunner FieldSplitting

inductive Var
  | TESTDIR
  | TMPBASE
  | EXTENDED_TEST
  | QUIET_MODE
  | DONT
  | PRETTY_PRT
  | OUTPUTFILE
  | OO_LOG
  | LOGFILE
  | VERBOSE
  | DURATION
  | INSTANCES
  | TC_SCENARIO
  | STRESS
  | STRESSARG
  deriving DecidableEq

/-- The branches of the `case`; there is none for `I`. -/
def assignments (TMP : Word) (c : Char) (OPTARG : Word) : List (Var × Word) :=
  match c with
  | 'd' => [(.TESTDIR, OPTARG)]
  | 't' => [(.TMPBASE, OPTARG)]
  | 'E' => [(.EXTENDED_TEST, "y".toList)]
  | 'q' => [(.QUIET_MODE, " -q ".toList)]
  | 'z' => [(.DONT, " ".toList)]
  | 'p' => [(.PRETTY_PRT, " -p ".toList)]
  | 'o' => [(.OUTPUTFILE, OPTARG), (.OO_LOG, "1".toList)]
  | 'l' => [(.LOGFILE, OPTARG)]
  | 'v' => [(.VERBOSE, "-v".toList)]
  | 'n' => [(.DURATION, " -t ".toList ++ OPTARG)]
  | 'x' => [(.INSTANCES, "-x ".toList ++ OPTARG ++ " -O ".toList ++ TMP)]
  | 's' => [( Var.TC_SCENARIO, OPTARG)]
  | 'S' => [(.STRESS, "y".toList), (.STRESSARG, "-S".toList)]
  | _ => []

abbrev Variables := Var → Word

def assign (v : Variables) (as : List (Var × Word)) : Variables := as.foldl (fun v a => Function.update v a.1 a.2) v

/-- The loop over the options; `none` is the end in `usage`. -/
def setVariables (TMP : Word) (v : Variables) : List Opt → Option Variables
  | [] => some v
  | .illegal :: _ => none
  | .letter c OPTARG :: rest =>
    if c = 'h' then none else setVariables TMP (assign v (assignments TMP c OPTARG)) rest

def isBlank (c : Char) : Bool := c = ' ' || c = '\t' || c = '\n'

/-- What an unquoted word stands for: its fields, and the files that match those with pattern characters. -/
def expand (glob : Word → List Word) (word : Word) : List Word := (fields isBlank word).flatMap glob

inductive Outcome
  | usage
  | shift
  | run (v : Variables) (scenarios : List Word)

/-- `main` up to the scenarios that `sanity_check` and `pan` go through. -/
def main (glob : Word → List Word) (shiftExits : Bool) (TMP : Word) (v : Variables) (args : List Word) : Outcome :=
  match setVariables TMP v (getopts args) with
  | none => .usage
  | some v =>
    if shiftExits = true ∧ args.length < count (getopts args) then .shift
    else .run v (expand glob (scenarioNames args))

/-! The command lines. -/

/-- A way to write options: some in one word, and a last one with its value in the same or in the next. -/
inductive Spelling
  | flags (fs : Word)
  | attached (fs : Word) (c : Char) (value : Word)
  | separate (fs : Word) (c : Char) (value : Word)

def isFlag (c : Char) : Prop := optstring.lookup c = some false

def isValued (c : Char) : Prop := optstring.lookup c = some true

def Spelling.Accepted : Spelling → Prop
  | .flags fs => fs ≠ [] ∧ ∀ c ∈ fs, isFlag c
  | .attached fs c value => (∀ c ∈ fs, isFlag c) ∧ isValued c ∧ value ≠ []
  | .separate fs c _ => (∀ c ∈ fs, isFlag c) ∧ isValued c

def Spelling.render : Spelling → List Word
  | .flags fs => ['-' :: fs]
  | .attached fs c value => ['-' :: (fs ++ c :: value)]
  | .separate fs c value => ['-' :: (fs ++ [c]), value]

def Spelling.options : Spelling → List Opt
  | .flags fs => fs.map fun c => .letter c []
  | .attached fs c value | .separate fs c value => fs.map (fun c => .letter c []) ++ [.letter c value]

/-- The words that are shifted for it. -/
def Spelling.shifted : Spelling → Nat
  | .flags fs => fs.length
  | .attached fs _ _ => fs.length + 2
  | .separate fs _ value => fs.length + if value = [] then 1 else 2

def shiftedBy : List Spelling → Nat
  | [] => 0
  | x :: xs => x.shifted + shiftedBy xs

/-- The options, and the `--` that may end them. -/
structure CommandLine where
  spellings : List Spelling
  terminated : Bool
  operands : List Word

def CommandLine.options (l : CommandLine) : List Opt := l.spellings.flatMap Spelling.options

def CommandLine.leading (l : CommandLine) : List Word :=
  l.spellings.flatMap Spelling.render ++ if l.terminated then ["--".toList] else []

def CommandLine.args (l : CommandLine) : List Word := l.leading ++ l.operands

/-- A name that the shell takes as it is. -/
def ScenarioName (w : Word) : Prop := w ≠ [] ∧ ∀ c ∈ w, isBlank c = false ∧ c ∉ ['*', '?', '[', '\\']

structure CommandLine.Accepted (l : CommandLine) : Prop where
  spellings : ∀ x ∈ l.spellings, x.Accepted
  operands : ∀ w ∈ l.operands, ScenarioName w
  first : l.terminated = false → ∀ w ∈ l.operands.head?, ∀ c cs, w ≠ '-' :: c :: cs

/-- What is known of the pathname expansion, whatever files there are. -/
structure Globbing (glob : Word → List Word) : Prop where
  plain : ∀ w, (∀ c ∈ w, c ∉ ['*', '?', '[', '\\']) → glob w = [w]
  some : ∀ w, glob w ≠ []

/-- The variables of an option's branch hold what it says. -/
def Effective (TMP : Word) (v : Variables) (c : Char) (OPTARG : Word) : Prop :=
  assignments TMP c OPTARG ≠ [] ∧ ∀ a ∈ assignments TMP c OPTARG, v a.1 = a.2

/-- Every option takes effect, the last one where a letter is given again. -/
def TakeEffect (TMP : Word) (opts : List Opt) (v : Variables) : Prop :=
  ∀ pre c OPTARG post, opts = pre ++ .letter c OPTARG :: post → (∀ OPTARG', .letter c OPTARG' ∉ post) →
    Effective TMP v c OPTARG

def CommandLine.HelpGiven (l : CommandLine) : Prop := ∃ OPTARG, .letter 'h' OPTARG ∈ l.options

/-- The help where it is asked for; else all options take effect and the operands are run. -/
def CommandLine.Right (l : CommandLine) (TMP : Word) : Outcome → Prop
  | .usage => l.HelpGiven
  | .shift => False
  | .run v scenarios => ¬ l.HelpGiven ∧ scenarios = l.operands ∧ TakeEffect TMP l.options v

variable {next : Option Word} {fs : Word} {c : Char}

theorem cluster_flag (h : isFlag c) (cs : Word) :
    cluster next (c :: cs) = (.letter c [] :: (cluster next cs).1, (cluster next cs).2) := by
  rw [cluster.eq_def]
  dsimp only
  rw [h]

theorem cluster_flags (h : ∀ c ∈ fs, isFlag c) (cs : Word) :
    cluster next (fs ++ cs) = (fs.map (fun c => .letter c []) ++ (cluster next cs).1, (cluster next cs).2) := by
  induction fs with
  | nil => rfl
  | cons f fs ih =>
    rw [List.cons_append, cluster_flag (h f List.mem_cons_self), ih fun c hc => h c (List.mem_cons_of_mem f hc)]
    rfl

theorem cluster_attached (hc : isValued c) {value : Word} (hvalue : value ≠ []) :
    cluster next (c :: value) = ([.letter c value], false) := by
  obtain ⟨v, vs, rfl⟩ := List.exists_cons_of_ne_nil hvalue
  rw [cluster, hc]

theorem cluster_separate (hc : isValued c) (value : Word) : cluster (some value) [c] = ([.letter c value], true) := by
  rw [cluster, hc]

/-- A word of known letters is read as options. -/
theorem wordOptions_known (hknown : optstring.lookup c ≠ none) (cs : Word) (next : Option Word) :
    wordOptions ('-' :: c :: cs) next = some (cluster next (c :: cs)) := by
  have hc : c ≠ '-' := by
    rintro rfl
    exact hknown rfl
  exact if_neg fun hend => hc hend.1

theorem wordOptions_cluster {rest : Word} (hfs : ∀ c ∈ fs, isFlag c) (hrest : ∀ c ∈ rest.head?, isValued c)
    (hne : fs ++ rest ≠ []) (next : Option Word) :
    wordOptions ('-' :: (fs ++ rest)) next = some (cluster next (fs ++ rest)) := by
  cases fs with
  | nil =>
    cases rest with
    | nil => exact absurd rfl hne
    | cons c cs => exact wordOptions_known (by rw [hrest c rfl]; exact nofun) cs next
  | cons f fs =>
    have hf : optstring.lookup f = some false := hfs f List.mem_cons_self
    exact wordOptions_known (by rw [hf]; exact nofun) (fs ++ rest) next

/-- Options that take no further word are read from their own. -/
theorem getopts_word {word : Word} {opts : List Opt} (h : ∀ next, wordOptions word next = some (opts, false))
    (rest : List Word) : getopts (word :: rest) = opts ++ getopts rest := by
  cases rest with
  | nil =>
    have hword : getopts [word] = opts := by simp only [getopts, h]
    exact hword.trans (List.append_nil opts).symm
  | cons next rest => rw [getopts, h]

theorem getopts_spelling {x : Spelling} (h : x.Accepted) (rest : List Word) :
    getopts (x.render ++ rest) = x.options ++ getopts rest := by
  cases x with
  | flags fs =>
    obtain ⟨hne, hfs⟩ := h
    refine getopts_word (fun next => ?_) rest
    have hword := @wordOptions_cluster fs [] hfs (fun _ hc => nomatch hc) (by rwa [List.append_nil]) next
    rw [cluster_flags hfs, List.append_nil] at hword
    rw [hword]
    exact congrArg (fun opts => some (opts, false)) (List.append_nil _)
  | attached fs c value =>
    obtain ⟨hfs, hc, hvalue⟩ := h
    refine getopts_word (fun next => ?_) rest
    rw [wordOptions_cluster hfs (fun c' hc' => by rwa [← Option.some.inj hc']) (by simp) next, cluster_flags hfs,
      cluster_attached hc hvalue]
    rfl
  | separate fs c value =>
    obtain ⟨hfs, hc⟩ := h
    rw [Spelling.render, List.cons_append, List.singleton_append, getopts,
      wordOptions_cluster hfs (fun c' hc' => by rwa [← Option.some.inj hc']) (by simp) (some value), cluster_flags hfs,
      cluster_separate hc]
    rfl

theorem getopts_spellings {xs : List Spelling} (h : ∀ x ∈ xs, x.Accepted) (rest : List Word) :
    getopts (xs.flatMap Spelling.render ++ rest) = xs.flatMap Spelling.options ++ getopts rest := by
  induction xs with
  | nil => rfl
  | cons x xs ih =>
    rw [List.flatMap_cons, List.append_assoc, getopts_spelling (h x List.mem_cons_self),
      ih fun y hy => h y (List.mem_cons_of_mem x hy), List.flatMap_cons, List.append_assoc]

theorem getopts_end {word : Word} (h : ∀ next, wordOptions word next = none) (rest : List Word) :
    getopts (word :: rest) = [] := by
  cases rest with
  | nil => simp only [getopts, h]
  | cons next rest => simp only [getopts, h]

variable {l : CommandLine}

theorem getopts_args (h : l.Accepted) : getopts l.args = l.options := by
  have hrest : getopts ((if l.terminated then ["--".toList] else []) ++ l.operands) = [] := by
    cases hterminated : l.terminated with
    | true => exact getopts_end (fun _ => rfl) l.operands
    | false =>
      cases hoperands : l.operands with
      | nil => rfl
      | cons w ws =>
        refine getopts_end (fun next => ?_) ws
        rw [wordOptions]
        exact h.first hterminated w (by rw [hoperands]; rfl)
  rw [CommandLine.args, CommandLine.leading, List.append_assoc, getopts_spellings h.spellings, hrest, List.append_nil]
  rfl

theorem count_append (as bs : List Opt) : count (as ++ bs) = count as + count bs := by
  induction as with
  | nil => exact (Nat.zero_add _).symm
  | cons a as ih =>
    cases a with
    | letter c OPTARG => rw [List.cons_append, count, count, ih, Nat.add_assoc]
    | illegal => rw [List.cons_append, count, count, ih, Nat.add_assoc]

theorem count_flags (fs : Word) : count (fs.map fun c => .letter c []) = fs.length := by
  induction fs with
  | nil => rfl
  | cons f fs ih =>
    rw [List.map_cons, count, ih, if_pos rfl]
    exact Nat.add_comm 1 _

theorem count_spelling {x : Spelling} (h : x.Accepted) : count x.options = x.shifted := by
  cases x with
  | flags fs => exact count_flags fs
  | attached fs c value =>
    have hvalue : value ≠ [] := h.2.2
    rw [Spelling.options, count_append, count_flags, count, if_neg hvalue]
    rfl
  | separate fs c value =>
    rw [Spelling.options, count_append, count_flags]
    rfl

theorem count_options (h : l.Accepted) : count l.options = shiftedBy l.spellings := by
  have hall : ∀ xs : List Spelling, (∀ x ∈ xs, x.Accepted) → count (xs.flatMap Spelling.options) = shiftedBy xs := by
    intro xs hxs
    induction xs with
    | nil => rfl
    | cons x xs ih =>
      rw [List.flatMap_cons, count_append, count_spelling (hxs x List.mem_cons_self),
        ih fun y hy => hxs y (List.mem_cons_of_mem x hy)]
      rfl
  exact hall l.spellings h.spellings

/-! What the options set. -/

/-- The letter whose branch sets a variable. -/
def owner : Var → Char
  | .TESTDIR => 'd'
  | .TMPBASE => 't'
  | .EXTENDED_TEST => 'E'
  | .QUIET_MODE => 'q'
  | .DONT => 'z'
  | .PRETTY_PRT => 'p'
  | .OUTPUTFILE | .OO_LOG => 'o'
  | .LOGFILE => 'l'
  | .VERBOSE => 'v'
  | .DURATION => 'n'
  | .INSTANCES => 'x'
  | Var.TC_SCENARIO => 's'
  | .STRESS | .STRESSARG => 'S'

variable {TMP OPTARG : Word} {v : Variables}

theorem owner_assignments {a : Var × Word} (ha : a ∈ assignments TMP c OPTARG) : owner a.1 = c := by
  unfold assignments at ha
  split at ha
  all_goals
    simp only [List.mem_cons, List.not_mem_nil, or_false] at ha
  all_goals first
    | subst ha
      rfl
    | obtain rfl | rfl := ha
      · rfl
      · rfl

theorem assign_other {as : List (Var × Word)} {x : Var} (h : ∀ a ∈ as, a.1 ≠ x) (v : Variables) : assign v as x = v x := by
  induction as generalizing v with
  | nil => rfl
  | cons a as ih =>
    show assign (Function.update v a.1 a.2) as x = v x
    rw [ih fun b hb => h b (List.mem_cons_of_mem a hb), Function.update_of_ne (h a List.mem_cons_self).symm]

theorem assign_keys {as : List (Var × Word)} (h : (as.map Prod.fst).Nodup) (v : Variables) {a : Var × Word} (ha : a ∈ as) :
    assign v as a.1 = a.2 := by
  induction as generalizing v with
  | nil => exact absurd ha List.not_mem_nil
  | cons b as ih =>
    obtain ⟨hb, hnodup⟩ := List.nodup_cons.mp h
    show assign (Function.update v b.1 b.2) as a.1 = a.2
    obtain rfl | ha := List.mem_cons.mp ha
    · have hother : ∀ a' ∈ as, a'.1 ≠ a.1 := fun a' ha' heq => hb (heq ▸ List.mem_map_of_mem ha')
      rw [assign_other hother, Function.update_self]
    · exact ih hnodup _ ha

theorem assignments_keys (TMP : Word) (c : Char) (OPTARG : Word) : ((assignments TMP c OPTARG).map Prod.fst).Nodup := by
  unfold assignments
  split <;> simp

def finalVariables (TMP : Word) (v : Variables) (opts : List Opt) : Variables :=
  opts.foldl (fun v o => match o with
    | .letter c OPTARG => assign v (assignments TMP c OPTARG)
    | .illegal => v) v

theorem setVariables_eq {opts : List Opt} (hlegal : .illegal ∉ opts) (hhelp : ¬ ∃ OPTARG, .letter 'h' OPTARG ∈ opts)
    (v : Variables) : setVariables TMP v opts = some (finalVariables TMP v opts) := by
  have hletters := letters_only hlegal hhelp
  clear hlegal hhelp
  induction opts generalizing v with
  | nil => rfl
  | cons o rest ih =>
    obtain ⟨⟨c, OPTARG, rfl, hc⟩, hrest⟩ := List.forall_mem_cons.mp hletters
    rw [setVariables, if_neg hc]
    exact ih _ hrest

theorem setVariables_help {opts : List Opt} (hhelp : ∃ OPTARG, .letter 'h' OPTARG ∈ opts) (v : Variables) :
    setVariables TMP v opts = none := by
  obtain ⟨OPTARG, hhelp⟩ := hhelp
  induction opts generalizing v with
  | nil => exact absurd hhelp List.not_mem_nil
  | cons o rest ih =>
    cases o with
    | illegal => rfl
    | letter c a =>
      rw [setVariables]
      by_cases hc : c = 'h'
      · rw [if_pos hc]
      · rw [if_neg hc]
        obtain heq | hmem := List.mem_cons.mp hhelp
        · exact absurd (Opt.letter.inj heq).1.symm hc
        · exact ih _ hmem

/-- Options with other letters leave a variable alone. -/
theorem finalVariables_other {opts : List Opt} {x : Var} (h : ∀ OPTARG, .letter (owner x) OPTARG ∉ opts)
    (v : Variables) : finalVariables TMP v opts x = v x := by
  induction opts generalizing v with
  | nil => rfl
  | cons o rest ih =>
    have hrest : ∀ OPTARG, .letter (owner x) OPTARG ∉ rest := fun OPTARG hmem => h OPTARG (List.mem_cons_of_mem o hmem)
    cases o with
    | illegal => exact ih hrest v
    | letter c OPTARG =>
      refine (ih hrest _).trans (assign_other (fun a ha heq => ?_) v)
      apply h OPTARG
      rw [← heq, owner_assignments ha]
      exact List.mem_cons_self

theorem finalVariables_effective {opts pre post : List Opt} (hopts : opts = pre ++ .letter c OPTARG :: post)
    (hlast : ∀ OPTARG', .letter c OPTARG' ∉ post) {a : Var × Word} (ha : a ∈ assignments TMP c OPTARG) :
    finalVariables TMP v opts a.1 = a.2 := by
  have hsplit : finalVariables TMP v opts = finalVariables TMP
      (assign (finalVariables TMP v pre) (assignments TMP c OPTARG)) post := by
    rw [hopts, finalVariables, List.foldl_append]
    rfl
  have howner := owner_assignments ha
  rw [hsplit, finalVariables_other (by rwa [howner])]
  exact assign_keys (assignments_keys TMP c OPTARG) _ ha

theorem assignments_known (hknown : optstring.lookup c ≠ none) (hh : c ≠ 'h') (hI : c ≠ 'I') (TMP OPTARG : Word) :
    assignments TMP c OPTARG ≠ [] := by
  have hmem : c ∈ optstring.map Prod.fst := by
    by_contra hnot
    refine hknown (List.lookup_eq_none_iff.mpr fun p hp => ?_)
    have hne : c ≠ p.1 := fun heq => hnot (heq ▸ List.mem_map_of_mem hp)
    simp [hne]
  simp only [optstring, List.map_cons, List.map_nil, List.mem_cons, List.not_mem_nil, or_false] at hmem
  obtain rfl | rfl | rfl | rfl | rfl | rfl | rfl | rfl | rfl | rfl | rfl | rfl | rfl | rfl | rfl := hmem
  all_goals first
    | exact absurd rfl hh
    | exact absurd rfl hI
    | exact List.cons_ne_nil _ _

theorem takeEffect {opts : List Opt}
    (h : ∀ c OPTARG, .letter c OPTARG ∈ opts → optstring.lookup c ≠ none ∧ c ≠ 'h' ∧ c ≠ 'I') :
    TakeEffect TMP opts (finalVariables TMP v opts) := by
  intro pre c OPTARG post hopts hlast
  obtain ⟨hknown, hh, hI⟩ := h c OPTARG (by rw [hopts]; exact List.mem_append_right _ List.mem_cons_self)
  exact ⟨assignments_known hknown hh hI TMP OPTARG, fun a ha => finalVariables_effective hopts hlast ha⟩

/-- There is no branch for `I`. -/
theorem not_takeEffect {opts : List Opt} (h : ∃ OPTARG, .letter 'I' OPTARG ∈ opts) : ¬ TakeEffect TMP opts v := by
  intro heffect
  have hsplit : ∃ pre OPTARG post, opts = pre ++ .letter 'I' OPTARG :: post ∧ ∀ OPTARG', .letter 'I' OPTARG' ∉ post := by
    clear heffect
    induction opts with
    | nil => exact absurd h.choose_spec List.not_mem_nil
    | cons o rest ih =>
      by_cases hrest : ∃ OPTARG, .letter 'I' OPTARG ∈ rest
      · obtain ⟨pre, OPTARG, post, rfl, hlast⟩ := ih hrest
        exact ⟨o :: pre, OPTARG, post, rfl, hlast⟩
      · obtain ⟨OPTARG, hmem⟩ := h
        obtain rfl := (List.mem_cons.mp hmem).resolve_right fun hmem => hrest ⟨OPTARG, hmem⟩
        exact ⟨[], OPTARG, rest, rfl, not_exists.mp hrest⟩
  obtain ⟨pre, OPTARG, post, hopts, hlast⟩ := hsplit
  exact (heffect pre 'I' OPTARG post hopts hlast).1 rfl

theorem accepted_options (h : l.Accepted) {o : Opt} (ho : o ∈ l.options) :
    ∃ c OPTARG, o = .letter c OPTARG ∧ optstring.lookup c ≠ none := by
  obtain ⟨x, hx, ho⟩ := List.mem_flatMap.mp ho
  have hflags : ∀ fs : Word, (∀ c ∈ fs, isFlag c) → o ∈ fs.map (fun c => Opt.letter c []) →
      ∃ c OPTARG, o = .letter c OPTARG ∧ optstring.lookup c ≠ none := by
    intro fs hfs hmem
    obtain ⟨c, hc, rfl⟩ := List.mem_map.mp hmem
    exact ⟨c, [], rfl, by rw [hfs c hc]; exact nofun⟩
  have hvalued : ∀ (fs : Word) (c : Char) (value : Word), (∀ c ∈ fs, isFlag c) → isValued c →
      o ∈ fs.map (fun c => Opt.letter c []) ++ [.letter c value] →
      ∃ c OPTARG, o = .letter c OPTARG ∧ optstring.lookup c ≠ none := by
    intro fs c value hfs hc hmem
    obtain hmem | hmem := List.mem_append.mp hmem
    · exact hflags fs hfs hmem
    · exact ⟨c, value, List.mem_singleton.mp hmem, by rw [hc]; exact nofun⟩
  have hx := h.spellings x hx
  cases x with
  | flags fs => exact hflags fs hx.2 ho
  | attached fs c value => exact hvalued fs c value hx.1 hx.2.1 ho
  | separate fs c value => exact hvalued fs c value hx.1 hx.2 ho

/-- What `sanity_check` and the end of `main` look at. -/
def settingsOf (v : Variables) : Settings where
  TMPBASE := v .TMPBASE
  TESTDIR := v .TESTDIR
  TC_SCENARIO := v Var.TC_SCENARIO
  VERBOSE := !(v .VERBOSE).isEmpty
  QUIET_MODE := !(v .QUIET_MODE).isEmpty
  OO_LOG := !(v .OO_LOG).isEmpty
  EXTENDED_TEST := !(v .EXTENDED_TEST).isEmpty

theorem settingsOf_assign (TMP : Word) (c : Char) (OPTARG : Word) (v : Variables) :
    settingsOf (assign v (assignments TMP c OPTARG)) = (settingsOf v).set c OPTARG := by
  unfold assignments
  split
  all_goals try rfl
  unfold Settings.set
  split
  all_goals first
    | rfl
    | contradiction

/-- The settings are those of the variables. -/
theorem options_settingsOf (TMP : Word) (opts : List Opt) (v : Variables) :
    options (settingsOf v) opts = (setVariables TMP v opts).elim (.error .usage) fun v => .ok (settingsOf v) := by
  induction opts generalizing v with
  | nil => rfl
  | cons o rest ih =>
    cases o with
    | illegal => rfl
    | letter c OPTARG =>
      rw [options, setVariables]
      by_cases hc : c = 'h'
      · rw [if_pos hc, if_pos hc]
        rfl
      · rw [if_neg hc, if_neg hc, ← ih, settingsOf_assign]

/-! The scenarios. -/

variable {glob : Word → List Word} {shiftExits : Bool}

theorem expand_intercalate (words : List Word) :
    expand glob (List.intercalate [' '] words) = words.flatMap (expand glob) := by
  rw [expand, fields_intercalate rfl, List.flatMap_assoc]
  rfl

theorem expand_name (hglob : Globbing glob) {w : Word} (h : ScenarioName w) : expand glob w = [w] := by
  rw [expand, fields_word h.1 fun c hc => (h.2 c hc).1, List.flatMap_singleton]
  exact hglob.plain w fun c hc => (h.2 c hc).2

theorem expand_names (hglob : Globbing glob) {names : List Word} (h : ∀ w ∈ names, ScenarioName w) :
    names.flatMap (expand glob) = names := by
  induction names with
  | nil => rfl
  | cons w names ih =>
    rw [List.flatMap_cons, expand_name hglob (h w List.mem_cons_self), ih fun w' hw' => h w' (List.mem_cons_of_mem w hw')]
    rfl

theorem expand_eq_nil_iff (hglob : Globbing glob) (w : Word) : expand glob w = [] ↔ ∀ c ∈ w, isBlank c = true := by
  rw [← fields_eq_nil_iff, expand, List.flatMap_eq_nil_iff]
  refine ⟨fun h => List.eq_nil_iff_forall_not_mem.mpr fun part hpart => hglob.some part (h part hpart), fun h => ?_⟩
  rw [h]
  exact fun _ hpart => absurd hpart List.not_mem_nil

theorem expand_words_eq_nil_iff (hglob : Globbing glob) (words : List Word) :
    words.flatMap (expand glob) = [] ↔ ∀ w ∈ words, ∀ c ∈ w, isBlank c = true := by
  rw [List.flatMap_eq_nil_iff]
  exact forall₂_congr fun w _ => expand_eq_nil_iff hglob w

/-- The shifted words are those of the options, but for blank ones, and every letter has a branch. -/
structure CommandLine.Fits (l : CommandLine) (shiftExits : Bool) : Prop where
  leftover : ∀ w ∈ l.leading.drop (shiftedBy l.spellings), ∀ c ∈ w, isBlank c = true
  shifted : l.leading.length < shiftedBy l.spellings → l.operands = [] ∧ shiftExits = false
  letters : ¬ ∃ OPTARG, .letter 'I' OPTARG ∈ l.options

theorem scenarios_eq (hglob : Globbing glob) (h : l.Accepted) : expand glob (scenarioNames l.args) =
    (l.leading.drop (shiftedBy l.spellings)).flatMap (expand glob) ++
      l.operands.drop (shiftedBy l.spellings - l.leading.length) := by
  have hnames : ∀ w ∈ l.operands.drop (shiftedBy l.spellings - l.leading.length), ScenarioName w :=
    fun w hw => h.operands w (List.mem_of_mem_drop hw)
  rw [scenarioNames, getopts_args h, count_options h, expand_intercalate, CommandLine.args, List.drop_append,
    List.flatMap_append, expand_names hglob hnames]

/-- The scenarios are the operands where no operand is shifted and no word of the options is left. -/
theorem scenarios_iff (hglob : Globbing glob) (h : l.Accepted) : expand glob (scenarioNames l.args) = l.operands ↔
    (∀ w ∈ l.leading.drop (shiftedBy l.spellings), ∀ c ∈ w, isBlank c = true) ∧
      (l.leading.length < shiftedBy l.spellings → l.operands = []) := by
  rw [scenarios_eq hglob h, ← expand_words_eq_nil_iff hglob]
  by_cases hshort : l.leading.length < shiftedBy l.spellings
  · rw [List.drop_eq_nil_of_le (Nat.le_of_lt hshort), List.flatMap_nil, List.nil_append]
    refine ⟨fun heq => ⟨rfl, fun _ => ?_⟩, fun hall => by rw [hall.2 hshort, List.drop_nil]⟩
    have hlen := congrArg List.length heq
    rw [List.length_drop] at hlen
    exact List.eq_nil_of_length_eq_zero (by omega)
  · have hzero : shiftedBy l.spellings - l.leading.length = 0 := by omega
    rw [hzero, List.drop_zero, List.append_left_eq_self]
    exact (and_iff_left fun hlt => absurd hlt hshort).symm

theorem globbing_plain : Globbing fun w => [w] := ⟨fun _ _ => rfl, fun _ => List.cons_ne_nil _ _⟩

/-- `-p -n 60s a` -/
def separated : CommandLine := ⟨[.flags ['p'], .separate [] 'n' "60s".toList], false, [['a']]⟩

/-- `-pv a b` -/
def clustered : CommandLine := ⟨[.flags ['p', 'v']], false, [['a'], ['b']]⟩

theorem scenarioName_singleton {c : Char} (hblank : isBlank c = false) (hplain : c ∉ ['*', '?', '[', '\\']) :
    ScenarioName [c] :=
  ⟨List.cons_ne_nil _ _, List.forall_mem_singleton.mpr ⟨hblank, hplain⟩⟩

theorem separated_accepted : separated.Accepted where
  spellings := List.forall_mem_cons.mpr ⟨⟨List.cons_ne_nil _ _, List.forall_mem_singleton.mpr rfl⟩,
    List.forall_mem_singleton.mpr ⟨fun _ hc => absurd hc List.not_mem_nil, rfl⟩⟩
  operands := List.forall_mem_singleton.mpr (scenarioName_singleton rfl (by decide))
  first := fun _ w hw c cs heq => by
    rw [← Option.some.inj hw] at heq
    exact absurd (List.cons.inj heq).1 (by decide)

theorem clustered_accepted : clustered.Accepted where
  spellings := List.forall_mem_singleton.mpr
    ⟨List.cons_ne_nil _ _, List.forall_mem_cons.mpr ⟨rfl, List.forall_mem_singleton.mpr rfl⟩⟩
  operands := List.forall_mem_cons.mpr ⟨scenarioName_singleton rfl (by decide),
    List.forall_mem_singleton.mpr (scenarioName_singleton rfl (by decide))⟩
  first := fun _ w hw c cs heq => by
    rw [← Option.some.inj hw] at heq
    exact absurd (List.cons.inj heq).1 (by decide)

end TestRunnerOptions

end DeviceDriverTest
