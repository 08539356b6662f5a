import Mathlib.Data.List.Chain
import DeviceDriverTest.HandlerError
import DeviceDriverTest.RoundLoop
import DeviceDriverTest.TestRunner

/-! The handler that moves a running command from processor to processor. -/

namespace DeviceDriverTest

namespace CpuAffinity

open RoundLoop
open TestRunner (Word)

/-- What `switch` finds: the latch, what `$SYSFS_CPU_ONLINE` holds where it exists, and round by
round whether `/proc` has the command and the status of `taskset` with a mask. -/
structure Host where
  files : HandlerError.Files String
  online : Option Word
  proc : Nat → Bool
  taskset : Nat → Nat → Nat

structure State where
  processor : Nat
  masks : List Nat

structure Report where
  status : Nat
  masks : List Nat

/-- `handlerSysFs.sh "verify"` behind the test of the latch. -/
def verify (entry : Option Word) (value : Word) : Nat :=
  match entry with
  | none => 1
  | some current => if value = current then 0 else 1

def multicore (host : Host) : Bool := verify host.online "0-1".toList = 0

def assigned (host : Host) (count processor : Nat) : Nat :=
  let rem := count % 2
  if rem = 1 then if multicore host then 2 else processor else processor

def iteration (host : Host) (count : Nat) (s : State) : Round State :=
  if !host.proc count then .breaks s
  else
    let processor := assigned host count s.processor
    let s := ⟨processor, s.masks ++ [processor]⟩
    if host.taskset count processor ≠ 0 then .exits s else .goesOn s

def switch (host : Host) (repeatability : Nat) : Report :=
  if (HandlerError.test host.files).exit = 1 then ⟨1, []⟩
  else
    match whileLe (iteration host) repeatability ⟨1, []⟩ with
    | .done s => ⟨0, s.masks⟩
    | .exited s => ⟨1, s.masks⟩

/-- The mask of every iteration: the first one sets it, and no later one sets it back. -/
def mask (host : Host) : Nat := if multicore host then 2 else 1

def assign (host : Host) (count : Nat) (s : State) : State :=
  let processor := assigned host count s.processor
  ⟨processor, s.masks ++ [processor]⟩

def accepted (host : Host) (count : Nat) (s : State) : Bool := host.taskset count s.processor = 0

theorem iteration_eq (host : Host) : iteration host = watched host.proc (assign host) (accepted host) := by
  funext count s
  rw [iteration, watched]
  by_cases htaskset : host.taskset count (assigned host count s.processor) = 0 <;> simp [assign, accepted, htaskset]

theorem assigned_mask (host : Host) (count : Nat) : assigned host count (mask host) = mask host := by
  unfold assigned mask
  cases multicore host <;> simp

theorem assigned_first (host : Host) : assigned host 1 1 = mask host := by
  unfold assigned mask
  cases multicore host <;> rfl

theorem after_succ_processor (host : Host) (k : Nat) : (after (assign host) ⟨1, []⟩ (k + 1)).processor = mask host := by
  induction k with
  | zero => exact assigned_first host
  | succ k ih =>
    rw [after, assign, ih]
    exact assigned_mask host _

theorem after_masks (host : Host) (k : Nat) :
    (after (assign host) ⟨1, []⟩ k).masks = List.replicate k (mask host) := by
  induction k with
  | zero => rfl
  | succ k ih =>
    have hlast : (after (assign host) ⟨1, []⟩ (k + 1)).masks =
        (after (assign host) ⟨1, []⟩ k).masks ++ [(after (assign host) ⟨1, []⟩ (k + 1)).processor] := rfl
    rw [hlast, ih, after_succ_processor, List.replicate_succ']

theorem accepted_after (host : Host) {k : Nat} (hk : 1 ≤ k) :
    accepted host k (after (assign host) ⟨1, []⟩ k) = decide (host.taskset k (mask host) = 0) := by
  obtain ⟨j, rfl⟩ : ∃ j, k = j + 1 := ⟨k - 1, (Nat.sub_add_cancel hk).symm⟩
  rw [accepted, after_succ_processor]

theorem multicore_iff (host : Host) : multicore host = true ↔ host.online = some "0-1".toList := by
  rw [multicore, decide_eq_true_iff]
  cases host.online with
  | none => exact iff_of_false Nat.one_ne_zero (by simp)
  | some current => simp [verify, eq_comm]

/-- A second iteration is run. -/
def Continues (host : Host) (n : Nat) : Prop :=
  host.files.halt = none ∧ 2 ≤ n ∧ host.proc 1 = true ∧ host.taskset 1 (mask host) = 0 ∧ host.proc 2 = true

/-- However long the run is, its masks are all the same. -/
theorem switch_masks (host : Host) (n : Nat) : ∃ k, (switch host n).masks = List.replicate k (mask host) ∧
    (∀ i, 1 ≤ i → i ≤ k → host.proc i = true) ∧ (2 ≤ k ↔ Continues host n) := by
  rw [switch, iteration_eq]
  by_cases hexit : (HandlerError.test host.files).exit = 1
  · refine ⟨0, by rw [if_pos hexit]; rfl, fun i h1 hi => absurd h1 (by omega), ?_⟩
    refine iff_of_false (Nat.not_succ_le_zero 1) fun h => ?_
    exact (HandlerError.test_exit_ne_iff host.files).mpr h.1 hexit
  · have hhalt := (HandlerError.test_exit_ne_iff host.files).mp hexit
    have hone : ∀ k, Lasting host.proc (assign host) (accepted host) ⟨1, []⟩ k → 1 ≤ k →
        host.proc 1 = true ∧ host.taskset 1 (mask host) = 0 := by
      intro k hlasting hk
      obtain ⟨hproc, haccepted⟩ := hlasting 1 (Nat.le_refl 1) hk
      rw [accepted_after host (Nat.le_refl 1)] at haccepted
      exact ⟨hproc, of_decide_eq_true haccepted⟩
    rw [if_neg hexit, Continues, and_iff_right hhalt]
    have hloop := whileLe_watched host.proc (assign host) (accepted host) n ⟨1, []⟩
    generalize whileLe (watched host.proc (assign host) (accepted host)) n ⟨1, []⟩ = ending at hloop
    cases hloop with
    | @done k hk hlasting hend =>
      refine ⟨k, after_masks host k, fun i h1 hi => (hlasting i h1 hi).1, fun htwo => ?_, ?_⟩
      · obtain ⟨hproc, htaskset⟩ := hone k hlasting (by omega)
        exact ⟨by omega, hproc, htaskset, (hlasting 2 (Nat.le_succ 1) htwo).1⟩
      · rintro ⟨hn, hproc, _, hproc2⟩
        refine Nat.le_of_not_lt fun hlt => ?_
        obtain rfl | rfl : k = 0 ∨ k = 1 := by omega
        · exact Bool.false_ne_true ((hend (by omega)).symm.trans hproc)
        · exact Bool.false_ne_true ((hend (by omega)).symm.trans hproc2)
    | @exited k hk hlasting halive hfailed =>
      refine ⟨k + 1, after_masks host (k + 1), fun i h1 hi => ?_, fun htwo => ?_, ?_⟩
      · obtain hi | rfl := Nat.le_succ_iff.mp hi
        · exact (hlasting i h1 hi).1
        · exact halive
      · obtain ⟨hproc, htaskset⟩ := hone k hlasting (by omega)
        refine ⟨by omega, hproc, htaskset, ?_⟩
        obtain hlt | heq := Nat.lt_or_eq_of_le htwo
        · exact (hlasting 2 (Nat.le_succ 1) (by omega)).1
        · rw [heq]
          exact halive
      · rintro ⟨hn, _, htaskset, _⟩
        refine Nat.le_of_not_lt fun hlt => ?_
        obtain rfl : k = 0 := by omega
        rw [accepted_after host (Nat.le_refl 1), decide_eq_false_iff_not] at hfailed
        exact hfailed htaskset

def Alternate (earlier later : Nat) : Prop := earlier = 1 ∧ later = 2 ∨ earlier = 2 ∧ later = 1

/-- The masks alternate where both processors are online and are all one where only the first one is,
and nothing is run from the round on that no longer finds the command. -/
structure SwitchesProcessors (host : Host) (n : Nat) : Prop where
  alternates : host.online = some "0-1".toList → (switch host n).masks.IsChain Alternate
  single : host.online = some "0".toList → ∀ mask ∈ (switch host n).masks, mask = 1
  ended : ∀ count, 1 ≤ count → host.proc count = false → (switch host n).masks.length < count

theorem not_alternate_self (m : Nat) : ¬ Alternate m m := by
  unfold Alternate
  omega

/-- The masks are as intended exactly in the runs with one processor or without a second iteration. -/
theorem switchesProcessors_iff (host : Host) (n : Nat) :
    SwitchesProcessors host n ↔ ¬ (host.online = some "0-1".toList ∧ Continues host n) := by
  obtain ⟨k, hmasks, hproc, htwo⟩ := switch_masks host n
  rw [← htwo]
  constructor
  · intro h hboth
    obtain ⟨honline, hk⟩ := hboth
    have hchain := h.alternates honline
    obtain ⟨j, rfl⟩ : ∃ j, k = j + 1 + 1 := ⟨k - 2, by omega⟩
    rw [hmasks, List.replicate_succ, List.replicate_succ, List.isChain_cons_cons] at hchain
    exact not_alternate_self _ hchain.1
  · intro h
    refine ⟨fun honline => ?_, fun honline m hm => ?_, fun count hone hcount => ?_⟩
    · obtain rfl | rfl : k = 0 ∨ k = 1 := by
        have hk : ¬ 2 ≤ k := fun hk => h ⟨honline, hk⟩
        omega
      · rw [hmasks]
        exact List.IsChain.nil
      · rw [hmasks]
        exact List.IsChain.singleton _
    · have hsingle : multicore host = false := by
        rw [Bool.eq_false_iff, Ne, multicore_iff, honline]
        decide
      rw [hmasks] at hm
      rw [List.eq_of_mem_replicate hm, mask, hsingle]
      rfl
    · rw [hmasks, List.length_replicate]
      refine Nat.lt_of_not_le fun hle => ?_
      exact Bool.false_ne_true (hcount.symm.trans (hproc count hone hle))

/-- Two rounds on two processors, both with the mask of the second. -/
theorem second_round_stays : ¬ SwitchesProcessors ⟨HandlerError.clean, some "0-1".toList, fun _ => true, fun _ _ => 0⟩ 2 := by
  intro h
  have hchain := h.alternates rfl
  have hmasks : (switch ⟨HandlerError.clean, some "0-1".toList, fun _ => true, fun _ _ => 0⟩ 2).masks = [2, 2] := rfl
  rw [hmasks, List.isChain_cons_cons] at hchain
  exact not_alternate_self 2 hchain.1

end CpuAffinity

end DeviceDriverTest
