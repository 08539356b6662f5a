import Mathlib.Data.List.Basic
import Mathlib.Logic.Function.Basic

/-! The tool that pulls a list of remote branches into a new working branch.
How each git command ends is an outcome from outside. -/

namespace DeviceDriverTest

namespace MergeTool

/-- The options that are read; a section or an option that is not there is `none`,
and reading it raises. -/
structure Config (Remote : Type*) where
  starting_base : Option Remote
  merge_targets : List (Option Remote)
  stop_on_error : Bool

inductive Commit (Remote : Type*)
  | base (remote : Remote)
  | upstream
  | merge (remote : Remote)
  deriving DecidableEq

/-- `changes` and `untracked` are what the user left in the working tree, `conflicts`
says that a failed pull left something there. The working branch is `none` until the
tool has created it. -/
structure Repo (Branch Remote File : Type*) where
  head : Option Branch
  branches : Branch → List (Commit Remote)
  working : Option (List (Commit Remote))
  changes : List File
  untracked : List File
  conflicts : Bool

structure Pull where
  status : Int
  conflicts : Bool

/-- How the commands of `clean_working_copy` end: whether `merge --abort` undoes a
failed merge and which changes it leaves, whether `reset --hard` succeeds, which
untracked files `clean` leaves. -/
structure Recovery (File : Type*) where
  aborts : Bool
  abort : File → Bool
  reset : Bool
  clean : File → Bool

/-- How the builds after a merge end; the first that fails exits the tool. -/
structure Build (File : Type*) where
  exits : Bool
  leaves : File → Bool

/-- Outcome 0 belongs to the checkout, `pulls 0` to the pull before it, outcome
`k + 1` to target `k`. -/
structure Outcomes (File : Type*) where
  checkout : Int
  pulls : Nat → Pull
  recovery : Nat → Recovery File
  build : Nat → Build File

variable {Branch Remote File : Type*}

def Repo.is_dirty (repo : Repo Branch Remote File) : Bool := !repo.changes.isEmpty || repo.conflicts

def clean_working_copy (repo : Repo Branch Remote File) (recovery : Recovery File) : Repo Branch Remote File :=
  { repo with
    changes := if recovery.reset then [] else repo.changes.filter recovery.abort
    untracked := repo.untracked.filter recovery.clean
    conflicts := !recovery.aborts && !recovery.reset && repo.conflicts }

/-- `checkout rname -b working_branch`; the name is made of the time. -/
def checkout (repo : Repo Branch Remote File) (status : Int) (base : Remote) : Repo Branch Remote File :=
  if status = 0 then { repo with head := none, working := some [.base base] } else repo

/-- What the loop does with the result `k`, and whether it goes on. -/
def handle (stop_on_error : Bool) (o : Outcomes File) (k : Nat) (status : Int) (repo : Repo Branch Remote File) :
    Repo Branch Remote File × Bool :=
  if status = 0 then
    ({ repo with untracked := repo.untracked.filter (o.build k).leaves }, !(o.build k).exits)
  else if stop_on_error then (repo, false)
  else (clean_working_copy repo (o.recovery k), true)

/-- The number of targets up to the first one that cannot be read. -/
def readable : List (Option Remote) → Nat
  | [] => 0
  | none :: _ => 0
  | some _ :: rest => readable rest + 1

/-- What no step of the tool brings back, or takes back. -/
structure After (repo later : Repo Branch Remote File) : Prop where
  changes : later.changes.Sublist repo.changes
  untracked : later.untracked.Sublist repo.untracked
  working : repo.working ≠ none → later.working ≠ none

theorem After.refl (repo : Repo Branch Remote File) : After repo repo :=
  ⟨List.Sublist.refl _, List.Sublist.refl _, id⟩

theorem After.trans {a b c : Repo Branch Remote File} (hab : After a b) (hbc : After b c) : After a c :=
  ⟨hbc.changes.trans hab.changes, hbc.untracked.trans hab.untracked, hbc.working ∘ hab.working⟩

theorem after_clean_working_copy (repo : Repo Branch Remote File) (recovery : Recovery File) :
    After repo (clean_working_copy repo recovery) := by
  refine ⟨?_, List.filter_sublist, id⟩
  rw [clean_working_copy]
  split
  · exact List.nil_sublist _
  · exact List.filter_sublist

theorem after_handle (stop_on_error : Bool) (o : Outcomes File) (k : Nat) (status : Int)
    (repo : Repo Branch Remote File) : After repo (handle stop_on_error o k status repo).1 := by
  rw [handle]
  split
  · exact ⟨List.Sublist.refl _, List.filter_sublist, id⟩
  · split
    · exact After.refl repo
    · exact after_clean_working_copy repo (o.recovery k)

section Pulls

variable [DecidableEq Branch]

/-- A commit on the branch that is checked out. -/
def Repo.commit (repo : Repo Branch Remote File) (commit : Commit Remote) : Repo Branch Remote File :=
  match repo.head with
  | none => { repo with working := repo.working.map (· ++ [commit]) }
  | some branch => { repo with branches := Function.update repo.branches branch (repo.branches branch ++ [commit]) }

def Repo.pull (repo : Repo Branch Remote File) (pull : Pull) (commit : Commit Remote) :
    Repo Branch Remote File :=
  if pull.status = 0 then repo.commit commit else { repo with conflicts := pull.conflicts }

def pull_a_remote (onrepo : Repo Branch Remote File) (pull : Pull) (remote : Remote) :
    Int × Repo Branch Remote File :=
  if onrepo.is_dirty then (-1, onrepo) else (pull.status, onrepo.pull pull (.merge remote))

def mergeTarget (stop_on_error : Bool) (o : Outcomes File) (k : Nat) (remote : Remote)
    (repo : Repo Branch Remote File) : Repo Branch Remote File × Bool :=
  let (status, repo) := pull_a_remote repo (o.pulls k) remote
  handle stop_on_error o k status repo

def mergeTargets (stop_on_error : Bool) (o : Outcomes File) (k : Nat) :
    List (Option Remote) → Repo Branch Remote File → Repo Branch Remote File
  | [], repo => repo
  | none :: _, repo => repo
  | some remote :: rest, repo =>
    match mergeTarget stop_on_error o k remote repo with
    | (repo, true) => mergeTargets stop_on_error o (k + 1) rest repo
    | (repo, false) => repo

def resume (config : Config Remote) (o : Outcomes File) :
    Repo Branch Remote File × Bool → Repo Branch Remote File
  | (repo, true) => mergeTargets config.stop_on_error o 1 config.merge_targets repo
  | (repo, false) => repo

/-- `execute_mergeconf` with the loop that consumes it. The `exit` of the first
branch is not called; the `pull` of the second raises when it fails. -/
def merge_and_build (config : Config Remote) (o : Outcomes File) (repo : Repo Branch Remote File) :
    Repo Branch Remote File :=
  let pulled := if repo.is_dirty then repo else repo.pull (o.pulls 0) .upstream
  if repo.is_dirty = false ∧ (o.pulls 0).status ≠ 0 then pulled
  else
    match config.starting_base with
    | none => pulled
    | some base =>
      resume config o (handle config.stop_on_error o 0 o.checkout (checkout pulled o.checkout base))

theorem after_commit (repo : Repo Branch Remote File) (commit : Commit Remote) :
    After repo (repo.commit commit) := by
  rw [Repo.commit]
  cases repo.head with
  | none => exact ⟨List.Sublist.refl _, List.Sublist.refl _, fun h => by simpa using h⟩
  | some branch => exact ⟨List.Sublist.refl _, List.Sublist.refl _, id⟩

theorem after_pull (repo : Repo Branch Remote File) (pull : Pull) (commit : Commit Remote) :
    After repo (repo.pull pull commit) := by
  rw [Repo.pull]
  split
  · exact after_commit repo commit
  · exact ⟨List.Sublist.refl _, List.Sublist.refl _, id⟩

theorem after_pull_a_remote (repo : Repo Branch Remote File) (pull : Pull) (remote : Remote) :
    After repo (pull_a_remote repo pull remote).2 := by
  rw [pull_a_remote]
  split
  · exact After.refl repo
  · exact after_pull repo pull (.merge remote)

theorem after_mergeTarget (stop_on_error : Bool) (o : Outcomes File) (k : Nat) (remote : Remote)
    (repo : Repo Branch Remote File) : After repo (mergeTarget stop_on_error o k remote repo).1 :=
  (after_pull_a_remote repo (o.pulls k) remote).trans (after_handle stop_on_error o k _ _)

theorem after_mergeTargets (stop_on_error : Bool) (o : Outcomes File) (k : Nat)
    (targets : List (Option Remote)) (repo : Repo Branch Remote File) :
    After repo (mergeTargets stop_on_error o k targets repo) := by
  induction targets generalizing k repo with
  | nil => exact After.refl repo
  | cons target rest ih =>
    cases target with
    | none => exact After.refl repo
    | some remote =>
      have htarget := after_mergeTarget stop_on_error o k remote repo
      rw [mergeTargets]
      cases hstep : mergeTarget stop_on_error o k remote repo with
      | mk next continues =>
        rw [hstep] at htarget
        cases continues with
        | false => exact htarget
        | true => exact htarget.trans (ih (k + 1) next)

theorem after_resume (config : Config Remote) (o : Outcomes File) (result : Repo Branch Remote File × Bool) :
    After result.1 (resume config o result) := by
  obtain ⟨repo, _ | _⟩ := result
  · exact After.refl repo
  · exact after_mergeTargets config.stop_on_error o 1 config.merge_targets repo

end Pulls

end MergeTool

end DeviceDriverTest
