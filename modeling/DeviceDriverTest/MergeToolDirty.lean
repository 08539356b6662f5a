import DeviceDriverTest.MergeTool

/-! What the merge tool does to a repository with uncommitted changes. -/

namespace DeviceDriverTest

namespace MergeTool

variable {Branch Remote File : Type*}

def Recovery.Leaves (recovery : Recovery File) (repo : Repo Branch Remote File) : Prop :=
  recovery.reset = false ∧ (∀ file ∈ repo.changes, recovery.abort file) ∧
    ∀ file ∈ repo.untracked, recovery.clean file

/-- The uncommitted changes and the untracked files are still there, and no branch
was created or merged. -/
structure WorkKept (repo final : Repo Branch Remote File) : Prop where
  changes : final.changes = repo.changes
  untracked : final.untracked = repo.untracked
  branches : final.branches = repo.branches
  working : final.working = repo.working

theorem WorkKept.refl (repo : Repo Branch Remote File) : WorkKept repo repo := ⟨rfl, rfl, rfl, rfl⟩

theorem WorkKept.iff_next {repo next final : Repo Branch Remote File} (h : WorkKept repo next) :
    WorkKept repo final ↔ WorkKept next final := by
  constructor
  · intro hfinal
    exact ⟨hfinal.changes.trans h.changes.symm, hfinal.untracked.trans h.untracked.symm,
      hfinal.branches.trans h.branches.symm, hfinal.working.trans h.working.symm⟩
  · intro hfinal
    exact ⟨hfinal.changes.trans h.changes, hfinal.untracked.trans h.untracked,
      hfinal.branches.trans h.branches, hfinal.working.trans h.working⟩

theorem WorkKept.leaves_iff {repo next : Repo Branch Remote File} (h : WorkKept repo next)
    (recovery : Recovery File) : recovery.Leaves next ↔ recovery.Leaves repo := by
  rw [Recovery.Leaves, Recovery.Leaves, h.changes, h.untracked]

/-- What a step destroys stays destroyed. -/
theorem WorkKept.of_after {repo next final : Repo Branch Remote File} (h : WorkKept repo final)
    (hnext : After repo next) (hfinal : After next final) :
    next.changes = repo.changes ∧ next.untracked = repo.untracked := by
  have hchanges := hfinal.changes
  have huntracked := hfinal.untracked
  rw [h.changes] at hchanges
  rw [h.untracked] at huntracked
  exact ⟨hnext.changes.antisymm hchanges, hnext.untracked.antisymm huntracked⟩

theorem leaves_iff {repo : Repo Branch Remote File} (hchanges : repo.changes ≠ [])
    (recovery : Recovery File) :
    recovery.Leaves repo ↔ (clean_working_copy repo recovery).changes = repo.changes ∧
      (clean_working_copy repo recovery).untracked = repo.untracked := by
  rw [Recovery.Leaves, clean_working_copy]
  show _ ↔ (if recovery.reset = true then [] else repo.changes.filter recovery.abort) = repo.changes ∧
    repo.untracked.filter recovery.clean = repo.untracked
  rw [List.filter_eq_self]
  cases recovery.reset with
  | false => simp [List.filter_eq_self]
  | true => simp [hchanges.symm]

theorem Recovery.Leaves.workKept {repo : Repo Branch Remote File} {recovery : Recovery File}
    (h : recovery.Leaves repo) (hchanges : repo.changes ≠ []) :
    WorkKept repo (clean_working_copy repo recovery) := by
  have hkept := (leaves_iff hchanges recovery).mp h
  exact ⟨hkept.1, hkept.2, rfl, rfl⟩

variable [DecidableEq Branch]

/-- A pull is not tried in a dirty tree, and counts as one that failed. -/
theorem mergeTarget_dirty {repo : Repo Branch Remote File} (hchanges : repo.changes ≠ [])
    (o : Outcomes File) (k : Nat) (remote : Remote) :
    mergeTarget false o k remote repo = (clean_working_copy repo (o.recovery k), true) := by
  have hdirty : repo.is_dirty = true := by simp [Repo.is_dirty, hchanges]
  rw [mergeTarget, pull_a_remote, if_pos hdirty]
  rfl

theorem mergeTargets_workKept_iff (o : Outcomes File) (k : Nat) (targets : List (Option Remote))
    {repo : Repo Branch Remote File} (hchanges : repo.changes ≠ []) :
    WorkKept repo (mergeTargets false o k targets repo) ↔
      ∀ j < readable targets, (o.recovery (k + j)).Leaves repo := by
  induction targets generalizing k repo with
  | nil => exact iff_of_true (WorkKept.refl repo) (by simp [readable])
  | cons target rest ih =>
    cases target with
    | none => exact iff_of_true (WorkKept.refl repo) (by simp [readable])
    | some remote =>
      rw [mergeTargets, mergeTarget_dirty hchanges]
      show WorkKept repo (mergeTargets false o (k + 1) rest (clean_working_copy repo (o.recovery k))) ↔
        ∀ j < readable rest + 1, (o.recovery (k + j)).Leaves repo
      by_cases hleaves : (o.recovery k).Leaves repo
      · have hkept := hleaves.workKept hchanges
        rw [hkept.iff_next, ih (k + 1) (hkept.changes ▸ hchanges), Nat.forall_lt_succ_left]
        simp only [hkept.leaves_iff, Nat.add_zero, hleaves, true_and, Nat.add_assoc, Nat.add_comm 1]
      · apply iff_of_false
        · intro hkept
          exact hleaves ((leaves_iff hchanges _).mpr
            (hkept.of_after (after_clean_working_copy repo _) (after_mergeTargets false o (k + 1) rest _)))
        · intro hall
          exact hleaves (hall 0 (Nat.succ_pos _))

structure StartsDirty (repo : Repo Branch Remote File) : Prop where
  changes : repo.changes ≠ []
  working : repo.working = none

/-- The base cannot be read, or the checkout fails and then the tool stops, or no
recovery finds anything it can destroy. -/
def Spared (config : Config Remote) (o : Outcomes File) (repo : Repo Branch Remote File) : Prop :=
  config.starting_base = none ∨ o.checkout ≠ 0 ∧
    (config.stop_on_error = true ∨ ∀ k < readable config.merge_targets + 1, (o.recovery k).Leaves repo)

theorem workKept_iff (config : Config Remote) (o : Outcomes File) {repo : Repo Branch Remote File}
    (h : StartsDirty repo) : WorkKept repo (merge_and_build config o repo) ↔ Spared config o repo := by
  have hdirty : repo.is_dirty = true := by simp [Repo.is_dirty, h.changes]
  rw [merge_and_build, Spared, if_pos hdirty, if_neg (by simp [hdirty])]
  cases config.starting_base with
  | none => exact iff_of_true (WorkKept.refl repo) (Or.inl rfl)
  | some base =>
    by_cases hcheckout : o.checkout = 0
    · apply iff_of_false
      · intro hkept
        have hcreated : (checkout repo o.checkout base).working ≠ none := by simp [checkout, hcheckout]
        have hafter := (after_handle config.stop_on_error o 0 o.checkout (checkout repo o.checkout base)).trans
          (after_resume config o _)
        exact hafter.working hcreated (hkept.working.trans h.working)
      · simp [hcheckout]
    · have hrefused : checkout repo o.checkout base = repo := if_neg hcheckout
      dsimp only
      rw [hrefused, handle, if_neg hcheckout]
      cases hstop : config.stop_on_error with
      | true => exact iff_of_true (WorkKept.refl repo) (Or.inr ⟨hcheckout, Or.inl rfl⟩)
      | false =>
        -- the refused checkout is one more result that the loop recovers from
        have hresults : resume config o (clean_working_copy repo (o.recovery 0), true) =
            mergeTargets false o 0 (some base :: config.merge_targets) repo := by
          rw [mergeTargets, mergeTarget_dirty h.changes, resume, hstop]
        have htargets := mergeTargets_workKept_iff o 0 (some base :: config.merge_targets) h.changes
        rw [← hresults] at htargets
        simpa [hcheckout, readable] using htargets

/-- A change that is in the way of the checkout, and a file not yet added. -/
def editedDriver : Repo Nat String String := ⟨some 0, fun _ => [], none, ["driver.c"], ["notes"], false⟩

def refused : Outcomes String :=
  ⟨1, fun _ => ⟨1, false⟩, fun _ => ⟨false, fun _ => true, true, fun _ => false⟩, fun _ => ⟨false, fun _ => true⟩⟩

theorem reset_after_refused_checkout :
    ¬ WorkKept editedDriver (merge_and_build ⟨some "GITSPEC1", [some "GITSPEC2"], false⟩ refused editedDriver) := by
  intro h
  exact absurd h.changes (by decide)

theorem workKept_iff_editedDriver :
    WorkKept editedDriver (merge_and_build ⟨some "GITSPEC1", [some "GITSPEC2"], true⟩ refused editedDriver) ↔
      Spared ⟨some "GITSPEC1", [some "GITSPEC2"], true⟩ refused editedDriver :=
  workKept_iff _ _ ⟨by decide, rfl⟩

end MergeTool

end DeviceDriverTest
