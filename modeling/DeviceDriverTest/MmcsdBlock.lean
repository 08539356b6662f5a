import Mathlib.Data.List.Basic
import DeviceDriverTest.HandlerError
import DeviceDriverTest.TestRunner

/-! The handlers that take a test partition, or a temporary file system, away again: what is
mounted where when they delete the mount points. -/

namespace DeviceDriverTest

namespace MmcsdBlock

open TestRunner (Word)

/-- A directory by the names on the way to it from the root. -/
abbrev Dir := List String

/-- The directories that have a file system, once for each of those stacked on them, and the
directories there are. -/
structure Tree where
  mounts : List Dir
  present : Dir → Bool
  kept : ∀ d, ∀ m ∈ mounts, d <+: m → present d = true

/-- What the handlers find: the answers to the calls of `sync` and of `umount`, which fails for a busy
file system, and the variables of the mount points with the logs they may be read from. -/
structure Host where
  sync : Nat → Bool
  umount : Nat → Bool
  mountpoint1 : Option Dir
  mountpoint2 : Option Dir
  logged1 : Option Dir
  logged2 : Option Dir

/-- A directory that `rm -rf` was applied to, with what was mounted then. -/
structure Removal where
  dir : Dir
  mounts : List Dir

structure State where
  tree : Tree
  removals : List Removal

def umount (host : Host) (call : Nat) (dir : Option Dir) (tree : Tree) : Tree :=
  match dir with
  | none => tree
  | some d =>
    if host.umount call then
      { tree with
        mounts := tree.mounts.erase d
        kept := fun d' m hm => tree.kept d' m (List.mem_of_mem_erase hm) }
    else tree

/-- `sync && umount`. -/
def release (host : Host) (call : Nat) (dir : Option Dir) (tree : Tree) : Tree :=
  if host.sync call then umount host call dir tree else tree

/-- The directories at and below `dir` that have nothing mounted in them are gone. -/
def Tree.delete (tree : Tree) (dir : Dir) : Tree where
  mounts := tree.mounts
  present d := tree.present d && !(dir.isPrefixOf d && !tree.mounts.any d.isPrefixOf)
  kept := by
    intro d m hm hd
    have hany : tree.mounts.any d.isPrefixOf = true := List.any_eq_true.mpr ⟨m, hm, List.isPrefixOf_iff_prefix.mpr hd⟩
    rw [hany, tree.kept d m hm hd]
    simp

/-- `rm -rf`, which does nothing without an operand. -/
def remove (dir : Option Dir) (s : State) : State :=
  match dir with
  | none => s
  | some d => ⟨s.tree.delete d, s.removals ++ [⟨d, s.tree.mounts⟩]⟩

/-- `test -d`, which succeeds without an operand. -/
def isDir (dir : Option Dir) (tree : Tree) : Bool :=
  match dir with
  | none => true
  | some d => tree.present d

def testAndRemove (dir : Option Dir) (s : State) : State := if isDir dir s.tree then remove dir s else s

def mountpoints (host : Host) (fourth : Bool) : Option Dir × Option Dir :=
  if fourth then (host.logged1, host.logged2) else (host.mountpoint1, host.mountpoint2)

/-- `handlerMmcsdBlock.sh remove`; `fourth` says whether there is a fourth operand. -/
def removePartitions (host : Host) (partitions : Nat) (fourth : Bool) (tree : Tree) : State :=
  let (mountpoint1, mountpoint2) := mountpoints host fourth
  let tree :=
    if partitions = 1 then release host 0 mountpoint1 tree
    else if partitions = 2 then release host 1 mountpoint2 (release host 0 mountpoint1 tree)
    else tree
  testAndRemove mountpoint2 (testAndRemove mountpoint1 ⟨tree, []⟩)

/-- `handlerTmpfs.sh remove`. -/
def removeTmpfs (host : Host) (files : HandlerError.Files String) (mountpoint : Option Dir) (tree : Tree) : State :=
  if (HandlerError.test files).exit = 1 then ⟨tree, []⟩ else remove mountpoint ⟨umount host 0 mountpoint tree, []⟩

inductive Call
  | partitions (number : Nat) (fourth : Bool)
  | tmpfs (files : HandlerError.Files String) (mountpoint : Option Dir)

def run (host : Host) (tree : Tree) : Call → State
  | .partitions number fourth => removePartitions host number fourth tree
  | .tmpfs files mountpoint => removeTmpfs host files mountpoint tree

/-- Nothing was mounted at or below a directory when it was deleted. -/
def Safe (s : State) : Prop := ∀ x ∈ s.removals, ∀ m ∈ x.mounts, ¬ x.dir <+: m

/-! The table of the file systems. -/

structure Fstab where
  fstab : Word
  /-- `$HFST_FSTAB_ORIGINAL`, where it exists. -/
  original : Option Word

def save (files : Fstab) : Fstab := { files with original := some files.fstab }

def restore (files : Fstab) : Fstab := { files with fstab := files.original.getD [] }

/-- What `handlerMmcsdBlock.sh create` does to it: without a file system type it ends before. -/
def create (filesystem : Word) (files : Fstab) : Fstab := if filesystem = [] then files else save files

/-! Which umounts come through. -/

/-- The umounts of the partitions, by the number of the call. -/
def umounts (host : Host) (number : Nat) (fourth : Bool) : List (Nat × Option Dir) :=
  let (mountpoint1, mountpoint2) := mountpoints host fourth
  if number = 1 then [(0, mountpoint1)]
  else if number = 2 then [(0, mountpoint1), (1, mountpoint2)]
  else []

/-- How often `dir` is unmounted: neither `sync` nor `umount` fails. -/
def released (host : Host) (calls : List (Nat × Option Dir)) (dir : Dir) : Nat :=
  calls.countP fun call => host.sync call.1 && host.umount call.1 && call.2 == some dir

/-- As many umounts come through as there are file systems at and below the directories that are deleted. -/
def Released (host : Host) (tree : Tree) : Call → Prop
  | .partitions number fourth =>
    ∀ d, (∃ dir, ((mountpoints host fourth).1 = some dir ∨ (mountpoints host fourth).2 = some dir) ∧ dir <+: d) →
      tree.mounts.count d ≤ released host (umounts host number fourth) d
  | .tmpfs files mountpoint =>
    files.halt = none → ∀ dir, mountpoint = some dir → ∀ d, dir <+: d →
      tree.mounts.count d ≤ if host.umount 0 && d == dir then 1 else 0

/-- No file of a mounted file system is deleted, and the table is what it was before `create` once
`remove` has ended. -/
structure PartitionKept (host : Host) (tree : Tree) (call : Call) (filesystem : Word) (files : Fstab) : Prop where
  safe : Safe (run host tree call)
  fstab : (restore (create filesystem files)).fstab = files.fstab

variable {host : Host} {tree : Tree}

theorem umount_mounts (host : Host) (call : Nat) (dir : Option Dir) (tree : Tree) (d : Dir) :
    (umount host call dir tree).mounts.count d =
      tree.mounts.count d - if host.umount call && dir == some d then 1 else 0 := by
  cases dir with
  | none => simp [umount]
  | some e =>
    cases hok : host.umount call with
    | false => simp [umount, hok]
    | true =>
      rw [umount, hok, if_pos rfl]
      dsimp only
      rw [List.count_erase]
      simp

theorem release_mounts (host : Host) (call : Nat) (dir : Option Dir) (tree : Tree) (d : Dir) :
    (release host call dir tree).mounts.count d = tree.mounts.count d - released host [(call, dir)] d := by
  cases hsync : host.sync call with
  | false => simp [release, released, hsync]
  | true => simp [release, released, hsync, umount_mounts, List.countP_cons]

theorem released_cons (host : Host) (call : Nat × Option Dir) (calls : List (Nat × Option Dir)) (d : Dir) :
    released host (call :: calls) d = released host [call] d + released host calls d := by
  rw [← List.singleton_append]
  exact List.countP_append

/-- What is unmounted before the directories of the partitions are tested. -/
def unmounted (host : Host) (number : Nat) (fourth : Bool) (tree : Tree) : Tree :=
  if number = 1 then release host 0 (mountpoints host fourth).1 tree
  else if number = 2 then release host 1 (mountpoints host fourth).2 (release host 0 (mountpoints host fourth).1 tree)
  else tree

theorem unmounted_mounts (host : Host) (number : Nat) (fourth : Bool) (tree : Tree) (d : Dir) :
    (unmounted host number fourth tree).mounts.count d =
      tree.mounts.count d - released host (umounts host number fourth) d := by
  unfold unmounted umounts
  dsimp only
  by_cases h1 : number = 1
  · rw [if_pos h1, if_pos h1]
    apply release_mounts
  · rw [if_neg h1, if_neg h1]
    by_cases h2 : number = 2
    · rw [if_pos h2, if_pos h2, release_mounts, release_mounts, released_cons host _ [_]]
      apply Nat.sub_sub
    · rw [if_neg h2, if_neg h2]
      rfl

/-! The deletions look at the mounts and leave them. -/

theorem testAndRemove_mounts (dir : Option Dir) (s : State) :
    (testAndRemove dir s).tree.mounts = s.tree.mounts := by
  unfold testAndRemove
  split
  · cases dir with
    | none => rfl
    | some d => rfl
  · rfl

/-- No file system is at or below the directory. -/
def Bare (dir : Option Dir) (mounts : List Dir) : Prop := ∀ d, dir = some d → ∀ m ∈ mounts, ¬ d <+: m

theorem bare_iff_count (dir : Option Dir) (mounts : List Dir) :
    Bare dir mounts ↔ ∀ d, dir = some d → ∀ m, d <+: m → mounts.count m = 0 := by
  unfold Bare
  apply forall₂_congr
  intro d hd
  apply forall_congr'
  intro m
  rw [List.count_eq_zero, imp_not_comm]

theorem safe_remove_iff (dir : Option Dir) (s : State) :
    Safe (remove dir s) ↔ Safe s ∧ Bare dir s.tree.mounts := by
  cases dir with
  | none => simp [remove, Bare]
  | some d => simp [remove, Safe, Bare, or_imp, forall_and]

/-- A directory with a file system in it is there, so the test before its deletion does not save it. -/
theorem safe_testAndRemove_iff (dir : Option Dir) (s : State) :
    Safe (testAndRemove dir s) ↔ Safe s ∧ Bare dir s.tree.mounts := by
  unfold testAndRemove
  split
  next => apply safe_remove_iff
  next hdir =>
    symm
    apply and_iff_left
    rintro d rfl m hm hd
    exact hdir (s.tree.kept d m hm hd)

theorem safe_nil (tree : Tree) : Safe ⟨tree, []⟩ := by
  intro x hx
  cases hx

theorem safe_removePartitions_iff (host : Host) (number : Nat) (fourth : Bool) (tree : Tree) :
    Safe (removePartitions host number fourth tree) ↔
      Bare (mountpoints host fourth).1 (unmounted host number fourth tree).mounts ∧
        Bare (mountpoints host fourth).2 (unmounted host number fourth tree).mounts := by
  have hrun : removePartitions host number fourth tree =
      testAndRemove (mountpoints host fourth).2
        (testAndRemove (mountpoints host fourth).1 ⟨unmounted host number fourth tree, []⟩) := rfl
  rw [hrun, safe_testAndRemove_iff, safe_testAndRemove_iff, testAndRemove_mounts]
  simp only [safe_nil, true_and]

theorem safe_run_iff (host : Host) (tree : Tree) (call : Call) :
    Safe (run host tree call) ↔ Released host tree call := by
  cases call with
  | partitions number fourth =>
    rw [run, safe_removePartitions_iff, bare_iff_count, bare_iff_count]
    simp only [unmounted_mounts, Nat.sub_eq_zero_iff_le]
    constructor
    · rintro ⟨hfirst, hsecond⟩ d ⟨dir, hdir | hdir, hd⟩
      · exact hfirst dir hdir d hd
      · exact hsecond dir hdir d hd
    · intro h
      constructor
      · intro dir hdir d hd
        exact h d ⟨dir, Or.inl hdir, hd⟩
      · intro dir hdir d hd
        exact h d ⟨dir, Or.inr hdir, hd⟩
  | tmpfs files mountpoint =>
    rw [run, Released, removeTmpfs]
    by_cases hgate : (HandlerError.test files).exit = 1
    · rw [if_pos hgate]
      apply iff_of_true (safe_nil tree)
      intro hhalt
      exact absurd hgate ((HandlerError.test_exit_ne_iff files).mpr hhalt)
    · rw [if_neg hgate, safe_remove_iff, bare_iff_count]
      simp only [safe_nil, true_and, umount_mounts, Nat.sub_eq_zero_iff_le]
      rw [forall_prop_of_true ((HandlerError.test_exit_ne_iff files).mp hgate)]
      apply forall₂_congr
      rintro dir rfl
      apply forall₂_congr
      intro d hd
      rw [Option.some_beq_some, BEq.comm]

theorem fstab_kept_iff (filesystem : Word) (files : Fstab) :
    (restore (create filesystem files)).fstab = files.fstab ↔
      filesystem ≠ [] ∨ files.original.getD [] = files.fstab := by
  unfold create
  by_cases h : filesystem = []
  · simp [h, restore]
  · simp [h, restore, save]

theorem partitionKept_iff (host : Host) (tree : Tree) (call : Call) (filesystem : Word) (files : Fstab) :
    PartitionKept host tree call filesystem files ↔
      Released host tree call ∧ (filesystem ≠ [] ∨ files.original.getD [] = files.fstab) := by
  rw [← safe_run_iff, ← fstab_kept_iff]
  constructor
  · intro h
    exact ⟨h.safe, h.fstab⟩
  · rintro ⟨hsafe, hfstab⟩
    exact ⟨hsafe, hfstab⟩

/-- The card is busy, and so are the files on it. -/
def busy : Host := ⟨fun _ => true, fun _ => false, some ["media", "mmcsd1"], some ["media", "mmcsd2"], none, none⟩

def mounted : Tree := ⟨[["media", "mmcsd1"]], fun _ => true, fun _ _ _ _ => rfl⟩

theorem busy_partition_deleted :
    ¬ ∀ host tree call filesystem files, PartitionKept host tree call filesystem files := by
  intro h
  have hreleased := (safe_run_iff ..).mp (h busy mounted (.partitions 1 false) "ext2".toList ⟨[], none⟩).safe
  have hcount := hreleased ["media", "mmcsd1"] ⟨["media", "mmcsd1"], Or.inl rfl, List.prefix_rfl⟩
  exact absurd hcount (by decide)

end MmcsdBlock

end DeviceDriverTest
