import DeviceDriverTest.IndexedListing
import DeviceDriverTest.ScheduledRun
import Mathlib.Data.List.Infix

/-! Commands that run in parallel. Each executor notes its PID in a shared list,
runs its command and then moves on to the list of the passed or of the failed. -/

namespace DeviceDriverTest

namespace ProcessParallelism

open IndexedListing ScheduledRun

structure Job where
  command : String
  pid : Nat
  exit : Nat

structure Entry where
  number : Nat
  pid : Nat
  command : String
  deriving DecidableEq

/-- The next step of an executor. The editor has read the PID list before it replaces it. -/
inductive Place
  | start
  | command
  | fail
  | edit
  | replace (read : List Nat)
  | pass
  | done
  deriving DecidableEq

/-- The three files and where the executors are; `none` is a file that is not there. -/
structure State (jobs : List Job) where
  pids : List Nat
  passed : List Entry
  failed : Option (List Entry)
  places : Fin jobs.length → Place

variable {jobs : List Job}

def entry (jobs : List Job) (i : Fin jobs.length) : Entry := ⟨i + 1, jobs[i].pid, jobs[i].command⟩

def clean (jobs : List Job) : State jobs := ⟨[], [], none, fun _ => .start⟩

/-- `sed` looks for the digits of the PID anywhere in a line. -/
def mentions (pid line : Nat) : Bool := decide (Nat.toDigits 10 pid <:+: Nat.toDigits 10 line)

def State.move (s : State jobs) (i : Fin jobs.length) (place : Place) : State jobs :=
  { s with places := Function.update s.places i place }

def step (s : State jobs) (i : Fin jobs.length) : State jobs :=
  match s.places i with
  | .start => { s with pids := s.pids ++ [jobs[i].pid] }.move i .command
  | .command => s.move i (if jobs[i].exit ≠ 0 then .fail else .edit)
  | .fail => { s with failed := some (s.failed.getD [] ++ [entry jobs i]) }.move i .done
  | .edit => s.move i (.replace s.pids)
  | .replace read => { s with pids := read.filter fun line => !mentions jobs[i].pid line }.move i .pass
  | .pass => { s with passed := s.passed ++ [entry jobs i] }.move i .done
  | .done => s

/-- The exit status of `execute`, after `wait`. -/
def execute (s : State jobs) : Nat := if s.failed.isSome then 1 else 0

def Finished (s : State jobs) : Prop := ∀ i, s.places i = .done

def Passed (jobs : List Job) (i : Fin jobs.length) (place : Place) : Prop := place = .done ∧ jobs[i].exit = 0

def Failed (jobs : List Job) (i : Fin jobs.length) (place : Place) : Prop := place = .done ∧ jobs[i].exit ≠ 0

/-- The PID is to be in the list: from the first step on, until a command that
passed is taken out. -/
def Recorded (jobs : List Job) (i : Fin jobs.length) : Place → Prop
  | .start | .pass => False
  | .command | .fail | .edit | .replace _ => True
  | .done => jobs[i].exit ≠ 0

def Fits (jobs : List Job) (i : Fin jobs.length) : Place → Prop
  | .fail => jobs[i].exit ≠ 0
  | .edit | .replace _ | .pass => jobs[i].exit = 0
  | .start | .command | .done => True

structure Logged (s : State jobs) : Prop where
  passed : Lists (entry jobs) (fun i => Passed jobs i (s.places i)) s.passed
  failed : Lists (entry jobs) (fun i => Failed jobs i (s.places i)) (s.failed.getD [])
  written : s.failed ≠ some []
  fits : ∀ i, Fits jobs i (s.places i)

def PidsListed (s : State jobs) : Prop :=
  Lists (fun i : Fin jobs.length => jobs[i].pid) (fun i => Recorded jobs i (s.places i)) s.pids

/-- Nobody has changed the PID list since the editor read it, and the PID is in one of its lines. -/
def Undisturbed (s : State jobs) (i : Fin jobs.length) : Prop :=
  match s.places i with
  | .replace read => s.pids = read ∧ s.pids.countP (mentions jobs[i].pid) = 1
  | _ => True

theorem mentions_self (pid : Nat) : mentions pid pid = true := decide_eq_true List.infix_rfl

theorem fits_move {s : State jobs} (h : ∀ j, Fits jobs j (s.places j)) {i : Fin jobs.length} {place : Place}
    (hi : Fits jobs i place) (j : Fin jobs.length) : Fits jobs j (Function.update s.places i place j) := by
  by_cases hj : j = i
  · subst hj
    rw [Function.update_self]
    exact hi
  · rw [Function.update_of_ne hj]
    exact h j

/-- Before the end of an executor its steps leave the lists of commands alone. -/
theorem Logged.move {s : State jobs} (h : Logged s) {i : Fin jobs.length} (hbefore : s.places i ≠ .done)
    (place : Place) (hafter : place ≠ .done) (hfits : Fits jobs i place) (pids : List Nat) :
    Logged ({ s with pids }.move i place) := by
  refine ⟨h.passed.stay ?_, h.failed.stay ?_, h.written, fits_move h.fits hfits⟩
  · exact iff_of_false (fun hp => hafter hp.1) fun hp => hbefore hp.1
  · exact iff_of_false (fun hp => hafter hp.1) fun hp => hbefore hp.1

theorem Logged.step {s : State jobs} (h : Logged s) (i : Fin jobs.length) :
    Logged (ProcessParallelism.step s i) := by
  have hfits := h.fits i
  rw [ProcessParallelism.step]
  cases hplace : s.places i with
  | start => exact h.move (by simp [hplace]) .command nofun trivial _
  | command =>
    dsimp only
    by_cases hexit : jobs[i].exit ≠ 0
    · rw [if_pos hexit]
      exact h.move (by simp [hplace]) .fail nofun hexit s.pids
    · rw [if_neg hexit]
      exact h.move (by simp [hplace]) .edit nofun (not_not.mp hexit) s.pids
  | edit =>
    rw [hplace] at hfits
    exact h.move (by simp [hplace]) (.replace s.pids) nofun hfits s.pids
  | replace read =>
    rw [hplace] at hfits
    exact h.move (by simp [hplace]) .pass nofun hfits _
  | fail =>
    rw [hplace] at hfits
    have hexit : jobs[i].exit ≠ 0 := hfits
    refine ⟨h.passed.stay ?_, h.failed.enter ?_ ⟨rfl, hexit⟩, ?_, fits_move h.fits trivial⟩
    · exact iff_of_false (fun hp => hexit hp.2) fun hp => by simp [hplace, Passed] at hp
    · simp [hplace, Failed]
    · show some _ ≠ some []
      simp
  | pass =>
    rw [hplace] at hfits
    have hexit : jobs[i].exit = 0 := hfits
    refine ⟨h.passed.enter ?_ ⟨rfl, hexit⟩, h.failed.stay ?_, h.written, fits_move h.fits trivial⟩
    · simp [hplace, Passed]
    · exact iff_of_false (fun hp => hp.2 hexit) fun hp => by simp [hplace, Failed] at hp
  | done => exact h

theorem PidsListed.step {s : State jobs} (hlogged : Logged s) (h : PidsListed s) (i : Fin jobs.length)
    (hi : Undisturbed s i) : PidsListed (ProcessParallelism.step s i) := by
  have hfits := hlogged.fits i
  rw [ProcessParallelism.step]
  cases hplace : s.places i with
  | start => exact h.enter (by rw [hplace]; exact id) trivial
  | command =>
    by_cases hexit : jobs[i].exit ≠ 0
    · rw [if_pos hexit]
      exact h.stay (by rw [hplace]; exact Iff.rfl)
    · rw [if_neg hexit]
      exact h.stay (by rw [hplace]; exact Iff.rfl)
  | edit => exact h.stay (by rw [hplace]; exact Iff.rfl)
  | replace read =>
    simp only [Undisturbed, hplace] at hi
    obtain ⟨hread, hone⟩ := hi
    rw [← hread]
    exact h.leave (by rw [hplace]; trivial) id (mentions_self _) hone
  | fail =>
    rw [hplace] at hfits
    exact h.stay (by rw [hplace]; exact iff_of_true hfits trivial)
  | pass =>
    rw [hplace] at hfits
    exact h.stay (by rw [hplace]; exact iff_of_false (fun hne => hne hfits) id)
  | done => exact h

structure Bookkept (s : State jobs) : Prop where
  passed : Lists (entry jobs) (fun i => jobs[i].exit = 0) s.passed
  failed : Lists (entry jobs) (fun i => jobs[i].exit ≠ 0) (s.failed.getD [])
  pids : Lists (fun i : Fin jobs.length => jobs[i].pid) (fun i => jobs[i].exit ≠ 0) s.pids
  exit : execute s = 1 ↔ ∃ i : Fin jobs.length, jobs[i].exit ≠ 0

theorem execute_iff {s : State jobs} (h : Logged s) : execute s = 1 ↔ ∃ i, Failed jobs i (s.places i) := by
  have hnil := h.failed.eq_nil_iff
  have hwritten := h.written
  cases hfailed : s.failed with
  | none =>
    rw [hfailed] at hnil
    simp only [execute, hfailed]
    exact iff_of_false (by decide) fun ⟨i, hi⟩ => hnil.mp rfl i hi
  | some lines =>
    rw [hfailed] at hnil hwritten
    simp only [execute, hfailed]
    refine iff_of_true rfl ?_
    by_contra hnone
    exact hwritten (congrArg some (hnil.mpr fun i hi => hnone ⟨i, hi⟩))

theorem bookkept {s : State jobs} (hlogged : Logged s) (hpids : PidsListed s) (hfinished : Finished s) :
    Bookkept s := by
  have hpassed : ∀ i, Passed jobs i (s.places i) ↔ jobs[i].exit = 0 := fun i => and_iff_right (hfinished i)
  have hfailed : ∀ i, Failed jobs i (s.places i) ↔ jobs[i].exit ≠ 0 := fun i => and_iff_right (hfinished i)
  refine ⟨hlogged.passed.congr hpassed, hlogged.failed.congr hfailed, hpids.congr fun i => ?_, ?_⟩
  · rw [hfinished i]
    rfl
  · rw [execute_iff hlogged]
    exact exists_congr hfailed

theorem logged_clean (jobs : List Job) : Logged (clean jobs) :=
  ⟨lists_nil fun _ hi => absurd hi.1 nofun, lists_nil fun _ hi => absurd hi.1 nofun, nofun, fun _ => trivial⟩

theorem pidsListed_clean (jobs : List Job) : PidsListed (clean jobs) := lists_nil fun _ => id

end ProcessParallelism

end DeviceDriverTest
