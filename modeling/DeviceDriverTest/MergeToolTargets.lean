import DeviceDriverTest.MergeTool

/-! Where the merges of a clean repository go when the tool goes on after errors. -/

namespace DeviceDriverTest

namespace MergeTool

variable {Branch Remote File : Type*}

/-- The targets whose pull succeeds; the first of them is result `k`. -/
def merged (o : Outcomes File) (k : Nat) : List (Option Remote) → List Remote
  | [] => []
  | none :: _ => []
  | some remote :: rest =>
    if (o.pulls k).status = 0 then remote :: merged o (k + 1) rest else merged o (k + 1) rest

structure Steady (o : Outcomes File) : Prop where
  builds : ∀ k, (o.build k).exits = false
  resets : ∀ k, (o.recovery k).reset = true

structure Clean (repo : Repo Branch Remote File) : Prop where
  changes : repo.changes = []
  conflicts : repo.conflicts = false

theorem Clean.not_dirty {repo : Repo Branch Remote File} (h : Clean repo) : repo.is_dirty = false := by
  simp [Repo.is_dirty, h.changes, h.conflicts]

structure SameHistory (repo other : Repo Branch Remote File) : Prop where
  head : other.head = repo.head
  branches : other.branches = repo.branches
  working : other.working = repo.working

theorem SameHistory.trans {a b c : Repo Branch Remote File} (hab : SameHistory a b) (hbc : SameHistory b c) :
    SameHistory a c :=
  ⟨hbc.head.trans hab.head, hbc.branches.trans hab.branches, hbc.working.trans hab.working⟩

theorem handle_steady {o : Outcomes File} (ho : Steady o) (k : Nat) (status : Int)
    (repo : Repo Branch Remote File) (h : status = 0 → Clean repo) :
    ∃ next, handle false o k status repo = (next, true) ∧ SameHistory repo next ∧ Clean next := by
  rw [handle]
  by_cases hstatus : status = 0
  · rw [if_pos hstatus, ho.builds k]
    exact ⟨_, rfl, ⟨rfl, rfl, rfl⟩, (h hstatus).changes, (h hstatus).conflicts⟩
  · rw [if_neg hstatus, if_neg Bool.false_ne_true]
    refine ⟨_, rfl, ⟨rfl, rfl, rfl⟩, ?_, ?_⟩
    · simp [clean_working_copy, ho.resets k]
    · simp [clean_working_copy, ho.resets k]

section Pulls

variable [DecidableEq Branch]

theorem SameHistory.commit {repo other : Repo Branch Remote File} (h : SameHistory repo other)
    (commit : Commit Remote) : SameHistory (repo.commit commit) (other.commit commit) := by
  rw [Repo.commit, Repo.commit, h.head]
  cases hhead : repo.head with
  | none => exact ⟨rfl, h.branches, by rw [h.working]⟩
  | some branch => exact ⟨rfl, by rw [h.branches], h.working⟩

theorem clean_commit {repo : Repo Branch Remote File} (h : Clean repo) (commit : Commit Remote) :
    Clean (repo.commit commit) := by
  rw [Repo.commit]
  cases repo.head with
  | none => exact ⟨h.changes, h.conflicts⟩
  | some branch => exact ⟨h.changes, h.conflicts⟩

/-- A pull that fails and is undone leaves the history; one that succeeds adds its commit. -/
theorem mergeTarget_steady {o : Outcomes File} (ho : Steady o) (k : Nat) (remote : Remote)
    {repo : Repo Branch Remote File} (h : Clean repo) :
    ∃ next, mergeTarget false o k remote repo = (next, true) ∧ Clean next ∧
      SameHistory (if (o.pulls k).status = 0 then repo.commit (.merge remote) else repo) next := by
  rw [mergeTarget, pull_a_remote, if_neg (by simp [h.not_dirty])]
  by_cases hstatus : (o.pulls k).status = 0
  · rw [if_pos hstatus]
    have hpull : repo.pull (o.pulls k) (.merge remote) = repo.commit (.merge remote) := if_pos hstatus
    obtain ⟨next, hnext, hhistory, hclean⟩ :=
      handle_steady ho k (o.pulls k).status _ fun _ => clean_commit h (.merge remote)
    exact ⟨next, by dsimp only; rw [hpull, hnext], hclean, hhistory⟩
  · rw [if_neg hstatus]
    have hpull : repo.pull (o.pulls k) (.merge remote) = { repo with conflicts := (o.pulls k).conflicts } :=
      if_neg hstatus
    obtain ⟨next, hnext, hhistory, hclean⟩ :=
      handle_steady ho k (o.pulls k).status { repo with conflicts := (o.pulls k).conflicts }
        fun hzero => absurd hzero hstatus
    exact ⟨next, by dsimp only; rw [hpull, hnext], hclean, hhistory.head, hhistory.branches, hhistory.working⟩

def commitAll (repo : Repo Branch Remote File) (remotes : List Remote) : Repo Branch Remote File :=
  remotes.foldl (fun repo remote => repo.commit (.merge remote)) repo

theorem SameHistory.commitAll {repo other : Repo Branch Remote File} (h : SameHistory repo other)
    (remotes : List Remote) :
    SameHistory (MergeTool.commitAll repo remotes) (MergeTool.commitAll other remotes) := by
  induction remotes generalizing repo other with
  | nil => exact h
  | cons remote rest ih => exact ih (h.commit (.merge remote))

theorem mergeTargets_history {o : Outcomes File} (ho : Steady o) (k : Nat) (targets : List (Option Remote))
    {repo : Repo Branch Remote File} (h : Clean repo) :
    SameHistory (commitAll repo (merged o k targets)) (mergeTargets false o k targets repo) := by
  induction targets generalizing k repo with
  | nil => exact ⟨rfl, rfl, rfl⟩
  | cons target rest ih =>
    cases target with
    | none => exact ⟨rfl, rfl, rfl⟩
    | some remote =>
      obtain ⟨next, hnext, hclean, hhistory⟩ := mergeTarget_steady ho k remote h
      have hrest := (hhistory.commitAll (merged o (k + 1) rest)).trans (ih (k + 1) hclean)
      rw [mergeTargets, hnext, merged]
      by_cases hstatus : (o.pulls k).status = 0
      · rw [if_pos hstatus] at hrest ⊢
        exact hrest
      · rw [if_neg hstatus] at hrest ⊢
        exact hrest

theorem commitAll_working (repo : Repo Branch Remote File) {history : List (Commit Remote)}
    (hhead : repo.head = none) (hworking : repo.working = some history) (remotes : List Remote) :
    (commitAll repo remotes).working = some (history ++ remotes.map .merge) ∧
      (commitAll repo remotes).branches = repo.branches := by
  induction remotes generalizing repo history with
  | nil => simp [commitAll, hworking]
  | cons remote rest ih =>
    have hcommit : repo.commit (.merge remote) = { repo with working := some (history ++ [.merge remote]) } := by
      rw [Repo.commit, hhead, hworking]
      rfl
    have hrest := ih (repo.commit (.merge remote)) (by rw [hcommit]; exact hhead) (by rw [hcommit])
    rw [hcommit] at hrest
    simpa [commitAll, hcommit] using hrest

theorem commitAll_branch (repo : Repo Branch Remote File) {branch : Branch} (hhead : repo.head = some branch)
    (remotes : List Remote) :
    (commitAll repo remotes).working = repo.working ∧
      (commitAll repo remotes).branches branch = repo.branches branch ++ remotes.map .merge := by
  induction remotes generalizing repo with
  | nil => simp [commitAll]
  | cons remote rest ih =>
    have hcommit : repo.commit (.merge remote) = { repo with
        branches := Function.update repo.branches branch (repo.branches branch ++ [.merge remote]) } := by
      rw [Repo.commit, hhead]
    have hrest := ih (repo.commit (.merge remote)) (by rw [hcommit]; exact hhead)
    rw [hcommit] at hrest
    simpa [commitAll, hcommit] using hrest

theorem resume_history {config : Config Remote} {o : Outcomes File} (ho : Steady o)
    (hstop : config.stop_on_error = false) (status : Int) {before : Repo Branch Remote File} (h : Clean before) :
    SameHistory (commitAll before (merged o 1 config.merge_targets))
      (resume config o (handle config.stop_on_error o 0 status before)) := by
  obtain ⟨next, hnext, hhistory, hclean⟩ := handle_steady ho 0 status before fun _ => h
  rw [hstop, hnext, resume, hstop]
  exact (hhistory.commitAll _).trans (mergeTargets_history ho 1 config.merge_targets hclean)

def expected (config : Config Remote) (o : Outcomes File) : Option (List (Commit Remote)) :=
  match config.starting_base with
  | none => none
  | some base =>
    if (o.pulls 0).status = 0 ∧ o.checkout = 0 then
      some (.base base :: (merged o 1 config.merge_targets).map .merge)
    else none

/-- The targets are merged onto the working branch and onto no other, and a pull that
fails leaves `HEAD` and the tracked files. -/
structure MergesOntoWorking (config : Config Remote) (o : Outcomes File)
    (repo final : Repo Branch Remote File) : Prop where
  working : final.working = expected config o
  branches : final.branches = (repo.pull (o.pulls 0) .upstream).branches
  undone : ∀ (k : Nat) (remote : Remote) (before : Repo Branch Remote File), Clean before →
    (o.pulls k).status ≠ 0 → ∃ next, mergeTarget false o k remote before = (next, true) ∧
      SameHistory before next ∧ Clean next

structure StartsClean (repo : Repo Branch Remote File) : Prop where
  clean : Clean repo
  head : repo.head ≠ none
  working : repo.working = none

/-- Where the checkout is tried and fails, so does every pull of a target after it. -/
def NothingAstray (config : Config Remote) (o : Outcomes File) : Prop :=
  (o.pulls 0).status = 0 → config.starting_base ≠ none → o.checkout ≠ 0 → merged o 1 config.merge_targets = []

theorem failed_pull_undone {o : Outcomes File} (ho : Steady o) (k : Nat) (remote : Remote)
    {before : Repo Branch Remote File} (h : Clean before) (hfailed : (o.pulls k).status ≠ 0) :
    ∃ next, mergeTarget false o k remote before = (next, true) ∧ SameHistory before next ∧ Clean next := by
  obtain ⟨next, hnext, hclean, hhistory⟩ := mergeTarget_steady ho k remote h
  rw [if_neg hfailed] at hhistory
  exact ⟨next, hnext, hhistory, hclean⟩

theorem merge_and_build_clean {config : Config Remote} {o : Outcomes File} {repo : Repo Branch Remote File}
    (h : Clean repo) (hpull : (o.pulls 0).status = 0) {base : Remote} (hbase : config.starting_base = some base) :
    merge_and_build config o repo = resume config o
      (handle config.stop_on_error o 0 o.checkout (checkout (repo.commit .upstream) o.checkout base)) := by
  have hpulled : repo.pull (o.pulls 0) .upstream = repo.commit (.upstream : Commit Remote) := if_pos hpull
  have hdirty : ¬ repo.is_dirty = true := by simp [h.not_dirty]
  have hgoes : ¬ (repo.is_dirty = false ∧ (o.pulls 0).status ≠ 0) := fun hboth => hboth.2 hpull
  rw [merge_and_build, if_neg hdirty, if_neg hgoes, hpulled, hbase]

theorem merge_and_build_early {config : Config Remote} {o : Outcomes File} {repo : Repo Branch Remote File}
    (h : Clean repo) (hearly : (o.pulls 0).status ≠ 0 ∨ config.starting_base = none) :
    merge_and_build config o repo = repo.pull (o.pulls 0) .upstream := by
  have hdirty : ¬ repo.is_dirty = true := by simp [h.not_dirty]
  rw [merge_and_build, if_neg hdirty]
  by_cases hraises : repo.is_dirty = false ∧ (o.pulls 0).status ≠ 0
  · rw [if_pos hraises]
  · rw [if_neg hraises, hearly.resolve_left fun hpull => hraises ⟨h.not_dirty, hpull⟩]

theorem commit_branch {repo : Repo Branch Remote File} {branch : Branch} (hhead : repo.head = some branch)
    (commit : Commit Remote) :
    (repo.commit commit).head = some branch ∧ (repo.commit commit).working = repo.working := by
  rw [Repo.commit, hhead]
  exact ⟨rfl, rfl⟩

theorem pull_working {repo : Repo Branch Remote File} {branch : Branch} (hhead : repo.head = some branch)
    (pull : Pull) (commit : Commit Remote) : (repo.pull pull commit).working = repo.working := by
  rw [Repo.pull]
  split
  · exact (commit_branch hhead commit).2
  · rfl

/-- After a checkout that succeeds, everything that is merged is on the working branch. -/
theorem resume_created {config : Config Remote} {o : Outcomes File} (ho : Steady o)
    (hstop : config.stop_on_error = false) {before : Repo Branch Remote File} (h : Clean before) (base : Remote) :
    let final := resume config o (handle config.stop_on_error o 0 0 (checkout before 0 base))
    final.working = some (.base base :: (merged o 1 config.merge_targets).map .merge) ∧
      final.branches = before.branches := by
  have hclean : Clean (checkout before 0 base) := ⟨h.changes, h.conflicts⟩
  have hhistory := resume_history ho hstop 0 hclean
  have hcommits := commitAll_working (checkout before 0 base) rfl rfl (merged o 1 config.merge_targets)
  exact ⟨hhistory.working.trans hcommits.1, hhistory.branches.trans hcommits.2⟩

/-- After one that fails, it is on the branch that was checked out. -/
theorem resume_refused {config : Config Remote} {o : Outcomes File} (ho : Steady o)
    (hstop : config.stop_on_error = false) (status : Int) {before : Repo Branch Remote File} (h : Clean before)
    {branch : Branch} (hhead : before.head = some branch) :
    let final := resume config o (handle config.stop_on_error o 0 status before)
    final.working = before.working ∧
      (final.branches = before.branches ↔ merged o 1 config.merge_targets = []) := by
  have hhistory := resume_history ho hstop status h
  have hcommits := commitAll_branch before hhead (merged o 1 config.merge_targets)
  refine ⟨hhistory.working.trans hcommits.1, fun hsame => ?_, fun hnone => ?_⟩
  · have hbranch := congrFun (hhistory.branches.symm.trans hsame) branch
    rw [hcommits.2] at hbranch
    simpa using hbranch
  · rw [hhistory.branches, hnone]
    rfl

theorem expected_early {config : Config Remote} {o : Outcomes File}
    (hearly : (o.pulls 0).status ≠ 0 ∨ config.starting_base = none) : expected config o = none := by
  rw [expected]
  cases hbase : config.starting_base with
  | none => rfl
  | some base => exact if_neg fun hboth => hearly.elim (fun hno => hno hboth.1) (by simp [hbase])

theorem expected_read {config : Config Remote} {o : Outcomes File} {base : Remote}
    (hbase : config.starting_base = some base) (hpull : (o.pulls 0).status = 0) : expected config o =
      if o.checkout = 0 then some (.base base :: (merged o 1 config.merge_targets).map .merge) else none := by
  simp only [expected, hbase, hpull, true_and]

theorem mergesOntoWorking_early {config : Config Remote} {o : Outcomes File} {repo : Repo Branch Remote File}
    (ho : Steady o) (h : StartsClean repo) (hearly : (o.pulls 0).status ≠ 0 ∨ config.starting_base = none) :
    MergesOntoWorking config o repo (merge_and_build config o repo) := by
  obtain ⟨branch, hhead⟩ := Option.ne_none_iff_exists'.mp h.head
  have hnone := (pull_working hhead (o.pulls 0) (.upstream : Commit Remote)).trans h.working
  rw [merge_and_build_early h.clean hearly]
  exact ⟨hnone.trans (expected_early hearly).symm, rfl, fun k remote _ => failed_pull_undone ho k remote⟩

theorem mergesOntoWorking_created {config : Config Remote} {o : Outcomes File} {repo : Repo Branch Remote File}
    (ho : Steady o) (hstop : config.stop_on_error = false) (h : StartsClean repo) (hpull : (o.pulls 0).status = 0)
    {base : Remote} (hbase : config.starting_base = some base) (hcheckout : o.checkout = 0) :
    MergesOntoWorking config o repo (merge_and_build config o repo) := by
  have hpulled : repo.pull (o.pulls 0) .upstream = repo.commit (.upstream : Commit Remote) := if_pos hpull
  have hclean : Clean (repo.commit .upstream) := clean_commit h.clean .upstream
  obtain ⟨hcreated, hothers⟩ := resume_created ho hstop hclean base
  have hexpected := (expected_read hbase hpull).trans (if_pos hcheckout)
  rw [merge_and_build_clean h.clean hpull hbase, hcheckout]
  exact ⟨hcreated.trans hexpected.symm, by rw [hothers, hpulled], fun k remote _ => failed_pull_undone ho k remote⟩

theorem mergesOntoWorking_refused {config : Config Remote} {o : Outcomes File} {repo : Repo Branch Remote File}
    (ho : Steady o) (hstop : config.stop_on_error = false) (h : StartsClean repo) (hpull : (o.pulls 0).status = 0)
    {base : Remote} (hbase : config.starting_base = some base) (hcheckout : o.checkout ≠ 0) :
    MergesOntoWorking config o repo (merge_and_build config o repo) ↔ merged o 1 config.merge_targets = [] := by
  obtain ⟨branch, hhead⟩ := Option.ne_none_iff_exists'.mp h.head
  have hpulled : repo.pull (o.pulls 0) .upstream = repo.commit (.upstream : Commit Remote) := if_pos hpull
  have hclean : Clean (repo.commit .upstream) := clean_commit h.clean .upstream
  have hrefused : checkout (repo.commit .upstream) o.checkout base = repo.commit .upstream := if_neg hcheckout
  obtain ⟨hcommitted, hworking⟩ := commit_branch hhead .upstream
  obtain ⟨hnone, hothers⟩ := resume_refused ho hstop o.checkout hclean hcommitted
  have hexpected := (expected_read hbase hpull).trans (if_neg hcheckout)
  rw [merge_and_build_clean h.clean hpull hbase, hrefused, ← hothers]
  constructor
  · intro hmerges
    exact hmerges.branches.trans (by rw [hpulled])
  · intro hsame
    exact ⟨hnone.trans (hworking.trans (h.working.trans hexpected.symm)), by rw [hsame, hpulled],
      fun k remote _ => failed_pull_undone ho k remote⟩

theorem mergesOntoWorking_iff {config : Config Remote} {o : Outcomes File} {repo : Repo Branch Remote File}
    (ho : Steady o) (hstop : config.stop_on_error = false) (h : StartsClean repo) :
    MergesOntoWorking config o repo (merge_and_build config o repo) ↔ NothingAstray config o := by
  by_cases hearly : (o.pulls 0).status ≠ 0 ∨ config.starting_base = none
  · apply iff_of_true
    · exact mergesOntoWorking_early ho h hearly
    · exact fun hpull hbase _ => absurd hearly (not_or.mpr ⟨not_not.mpr hpull, hbase⟩)
  · obtain ⟨hpull, hread⟩ := not_or.mp hearly
    replace hpull := not_not.mp hpull
    obtain ⟨base, hbase⟩ := Option.ne_none_iff_exists'.mp hread
    by_cases hcheckout : o.checkout = 0
    · apply iff_of_true
      · exact mergesOntoWorking_created ho hstop h hpull hbase hcheckout
      · exact fun _ _ hno => absurd hcheckout hno
    · rw [mergesOntoWorking_refused ho hstop h hpull hbase hcheckout, NothingAstray]
      exact ⟨fun hnothing _ _ _ => hnothing, fun hastray => hastray hpull hread hcheckout⟩

end Pulls

def cleanRepo : Repo Nat String String := ⟨some 0, fun _ => [], none, [], [], false⟩

def pullsSucceed (checkout : Int) : Outcomes String :=
  ⟨checkout, fun _ => ⟨0, false⟩, fun _ => ⟨false, fun _ => true, true, fun _ => false⟩, fun _ => ⟨false, fun _ => true⟩⟩

theorem merged_onto_current_branch :
    ¬ MergesOntoWorking ⟨some "GITSPEC1", [some "GITSPEC2"], false⟩ (pullsSucceed 128) cleanRepo
      (merge_and_build ⟨some "GITSPEC1", [some "GITSPEC2"], false⟩ (pullsSucceed 128) cleanRepo) := by
  intro h
  exact absurd (congrFun h.branches 0) (by decide)

theorem mergesOntoWorking_iff_created :
    MergesOntoWorking ⟨some "GITSPEC1", [some "GITSPEC2"], false⟩ (pullsSucceed 0) cleanRepo
        (merge_and_build ⟨some "GITSPEC1", [some "GITSPEC2"], false⟩ (pullsSucceed 0) cleanRepo) ↔
      NothingAstray ⟨some "GITSPEC1", [some "GITSPEC2"], false⟩ (pullsSucceed 0) :=
  mergesOntoWorking_iff ⟨fun _ => rfl, fun _ => rfl⟩ rfl ⟨⟨rfl, rfl⟩, by decide, rfl⟩

end MergeTool

end DeviceDriverTest
