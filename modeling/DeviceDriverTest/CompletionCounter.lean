import Mathlib.Algebra.BigOperators.Fin
import Mathlib.Algebra.Order.BigOperators.Group.Finset
import Mathlib.Data.Fintype.Card
import DeviceDriverTest.ScheduledRun

/-! A completion counter that workers increment by a load and a store, and a
waiter that compares it with the number of workers. -/

namespace CompletionCounter

open ScheduledRun

/-- Where a worker is. One that has ended has returned, or was killed. -/
inductive Phase where
  | running
  | counting
  | loaded (value : Nat)
  | stored
  | ended
  deriving DecidableEq

structure State (Worker : Type*) where
  count : Nat
  phase : Worker → Phase
  stores : Worker → Nat
  passed : Bool

inductive Actor (Worker : Type*) where
  | worker (w : Worker)
  | waiter

variable {Worker : Type*}

def start (Worker : Type*) : State Worker := ⟨0, fun _ => .running, fun _ => 0, false⟩

def waiterStep (n : Nat) (s : State Worker) : State Worker :=
  if s.count < n then s else { s with passed := true }

@[simp] theorem start_fields (Worker : Type*) : (start Worker).count = 0 ∧
    (∀ w, (start Worker).phase w = .running) ∧ (∀ w, (start Worker).stores w = 0) ∧
    (start Worker).passed = false :=
  ⟨rfl, fun _ => rfl, fun _ => rfl, rfl⟩

theorem waiterStep_cases (n : Nat) (s : State Worker) :
    (s.count < n ∧ waiterStep n s = s) ∨ (n ≤ s.count ∧ waiterStep n s = { s with passed := true }) := by
  by_cases h : s.count < n
  · exact .inl ⟨h, if_pos h⟩
  · exact .inr ⟨Nat.le_of_not_lt h, if_neg h⟩

section Account

variable [Fintype Worker]

/-- What holds under every schedule: updates may be lost, but the counter never
runs ahead of the stores. -/
structure Bounded (s : State Worker) : Prop where
  stores_le : ∀ w, s.stores w ≤ 1
  stores_before : ∀ w, s.phase w ≠ .stored → s.phase w ≠ .ended → s.stores w = 0
  count_le : s.count ≤ ∑ w, s.stores w
  loaded_le : ∀ w value, s.phase w = .loaded value → value ≤ ∑ w, s.stores w

theorem bounded_start : Bounded (start Worker) := by
  constructor <;> simp

/-- The counter reaches the number of workers only after every one has stored. -/
theorem Bounded.all_stored {s : State Worker} (h : Bounded s) (hcount : Fintype.card Worker ≤ s.count)
    (w : Worker) : s.stores w = 1 := by
  by_contra hne
  have hlt : ∑ v, s.stores v < ∑ _v : Worker, 1 := by
    refine Finset.sum_lt_sum (fun v _ => h.stores_le v) ⟨w, Finset.mem_univ w, ?_⟩
    exact Nat.lt_of_le_of_ne (h.stores_le w) hne
  have hcard : ∑ _v : Worker, 1 = Fintype.card Worker := by simp
  have hle := h.count_le
  omega

/-- What a run has to keep: a worker that has ended has stored once and no update
is lost; when all have ended the counter is the number of workers and the next
comparison ends the wait; and the wait does not end before. -/
structure Accounted (s : State Worker) : Prop where
  once : ∀ w, s.phase w = .ended → s.stores w = 1
  kept : s.count = ∑ w, s.stores w
  ends : (∀ w, s.phase w = .ended) → s.count = Fintype.card Worker ∧
    (waiterStep (Fintype.card Worker) s).passed = true
  waits : s.passed = true → ∀ w, s.phase w = .ended

structure Exact (s : State Worker) : Prop extends Bounded s where
  stored_once : ∀ w, s.phase w = .stored ∨ s.phase w = .ended → s.stores w = 1
  count_eq : s.count = ∑ w, s.stores w
  passed_ended : s.passed = true → ∀ w, s.phase w = .ended

theorem Exact.accounted {s : State Worker} (h : Exact s) : Accounted s := by
  constructor
  case once => exact fun w hw => h.stored_once w (.inr hw)
  case kept => exact h.count_eq
  case waits => exact h.passed_ended
  case ends =>
    intro hall
    have hones : ∀ w, s.stores w = 1 := fun w => h.stored_once w (.inr (hall w))
    have hcount : s.count = Fintype.card Worker := by
      rw [h.count_eq]
      simp [hones]
    refine ⟨hcount, ?_⟩
    rw [waiterStep, if_neg (by omega)]

theorem exact_start : Exact (start Worker) := by
  refine ⟨bounded_start, ?_, ?_, ?_⟩ <;> simp

theorem Exact.not_passed {s : State Worker} (h : Exact s) {w : Worker} (hw : s.phase w ≠ .ended) :
    s.passed ≠ true :=
  fun hpassed => hw (h.passed_ended hpassed w)

end Account

variable [DecidableEq Worker]

def State.setPhase (s : State Worker) (w : Worker) (phase : Phase) : State Worker :=
  { s with phase := Function.update s.phase w phase }

/-- `counts w`: what worker `w` does before its increment ends there. -/
def workerStep (counts : Worker → Bool) (s : State Worker) (w : Worker) : State Worker :=
  match s.phase w with
  | .running => s.setPhase w (if counts w then .counting else .ended)
  | .counting => s.setPhase w (.loaded s.count)
  | .loaded value =>
    { s.setPhase w .stored with
      count := value + 1
      stores := Function.update s.stores w (s.stores w + 1) }
  | .stored => s.setPhase w .ended
  | .ended => s

def next (counts : Worker → Bool) (n : Nat) (s : State Worker) : Actor Worker → State Worker
  | .worker w => workerStep counts s w
  | .waiter => waiterStep n s

@[simp] theorem setPhase_fields (s : State Worker) (w : Worker) (phase : Phase) :
    (s.setPhase w phase).count = s.count ∧ (s.setPhase w phase).stores = s.stores ∧
      (s.setPhase w phase).passed = s.passed :=
  ⟨rfl, rfl, rfl⟩

theorem setPhase_phase (s : State Worker) (w v : Worker) (phase : Phase) :
    (s.setPhase w phase).phase v = if v = w then phase else s.phase v :=
  Function.update_apply s.phase w phase v

theorem workerStep_cases (counts : Worker → Bool) (s : State Worker) (w : Worker) :
    (s.phase w = .running ∧ workerStep counts s w = s.setPhase w (if counts w then .counting else .ended)) ∨
    (s.phase w = .counting ∧ workerStep counts s w = s.setPhase w (.loaded s.count)) ∨
    (∃ value, s.phase w = .loaded value ∧ workerStep counts s w =
      { s.setPhase w .stored with
        count := value + 1
        stores := Function.update s.stores w (s.stores w + 1) }) ∨
    (s.phase w = .stored ∧ workerStep counts s w = s.setPhase w .ended) ∨
    (s.phase w = .ended ∧ workerStep counts s w = s) := by
  cases hp : s.phase w with
  | running => simp [workerStep, hp]
  | counting => simp [workerStep, hp]
  | loaded value => simp [workerStep, hp]
  | stored => simp [workerStep, hp]
  | ended => simp [workerStep, hp]

theorem workerStep_passed (counts : Worker → Bool) (s : State Worker) (w : Worker) :
    (workerStep counts s w).passed = s.passed := by
  rcases workerStep_cases counts s w with
    ⟨_, heq⟩ | ⟨_, heq⟩ | ⟨value, _, heq⟩ | ⟨_, heq⟩ | ⟨_, heq⟩ <;> rw [heq] <;> rfl

theorem workerStep_stores (counts : Worker → Bool) (s : State Worker) (w v : Worker) :
    (workerStep counts s w).stores v = s.stores v ∨ v = w ∧ ∃ value, s.phase w = .loaded value := by
  rcases workerStep_cases counts s w with
    ⟨_, heq⟩ | ⟨_, heq⟩ | ⟨value, hp, heq⟩ | ⟨_, heq⟩ | ⟨_, heq⟩ <;> rw [heq]
  case inr.inr.inl =>
    by_cases hv : v = w
    · exact .inr ⟨hv, value, hp⟩
    · exact .inl (Function.update_of_ne hv _ _)
  all_goals exact .inl rfl

section Bounds

variable [Fintype Worker]

theorem sum_update_succ (f : Worker → Nat) (w : Worker) :
    ∑ v, Function.update f w (f w + 1) v = ∑ v, f v + 1 := by
  have hsplit : ∀ v, Function.update f w (f w + 1) v = f v + if v = w then 1 else 0 := by
    intro v
    by_cases hv : v = w
    · subst hv
      simp
    · simp [hv]
  simp only [hsplit, Finset.sum_add_distrib, Finset.sum_ite_eq', Finset.mem_univ, if_true]

theorem Bounded.setPhase {s : State Worker} (h : Bounded s) {w : Worker} {phase : Phase}
    (hbefore : phase ≠ .stored → phase ≠ .ended → s.stores w = 0)
    (hloaded : ∀ value, phase = .loaded value → value = s.count) : Bounded (s.setPhase w phase) := by
  constructor
  case stores_le => exact h.stores_le
  case count_le => exact h.count_le
  case stores_before =>
    intro v hs ho
    rw [setPhase_phase] at hs ho
    by_cases hv : v = w
    · rw [if_pos hv] at hs ho
      exact hv ▸ hbefore hs ho
    · rw [if_neg hv] at hs ho
      exact h.stores_before v hs ho
  case loaded_le =>
    intro v value hvalue
    rw [setPhase_phase] at hvalue
    by_cases hv : v = w
    · rw [if_pos hv] at hvalue
      exact hloaded value hvalue ▸ h.count_le
    · rw [if_neg hv] at hvalue
      exact h.loaded_le v value hvalue

theorem Bounded.store {s : State Worker} (h : Bounded s) {w : Worker} {value : Nat}
    (hw : s.phase w = .loaded value) :
    Bounded { s.setPhase w .stored with
      count := value + 1
      stores := Function.update s.stores w (s.stores w + 1) } := by
  have hzero : s.stores w = 0 := h.stores_before w (by simp [hw]) (by simp [hw])
  have hsum := sum_update_succ s.stores w
  constructor
  case stores_le =>
    intro v
    by_cases hv : v = w
    · subst hv
      simp [hzero]
    · simpa [hv] using h.stores_le v
  case stores_before =>
    intro v hs ho
    by_cases hv : v = w
    · subst hv
      exact absurd (by simp [setPhase_phase]) hs
    · have hphase : (s.setPhase w .stored).phase v = s.phase v := by simp [setPhase_phase, hv]
      rw [hphase] at hs ho
      simpa [hv] using h.stores_before v hs ho
  case count_le =>
    have hle := h.loaded_le w value hw
    simp only [hsum]
    omega
  case loaded_le =>
    intro v other hother
    rw [setPhase_phase] at hother
    by_cases hv : v = w
    · simp [hv] at hother
    · rw [if_neg hv] at hother
      have hle := h.loaded_le v other hother
      simp only [hsum]
      omega

theorem Bounded.step {s : State Worker} (h : Bounded s) (counts : Worker → Bool) (w : Worker) :
    Bounded (workerStep counts s w) := by
  rcases workerStep_cases counts s w with
    ⟨hp, heq⟩ | ⟨hp, heq⟩ | ⟨value, hp, heq⟩ | ⟨hp, heq⟩ | ⟨_, heq⟩ <;> rw [heq]
  · apply h.setPhase fun _ _ => h.stores_before w (by simp [hp]) (by simp [hp])
    cases counts w <;> simp
  · apply h.setPhase fun _ _ => h.stores_before w (by simp [hp]) (by simp [hp])
    simp
  · exact h.store hp
  · exact h.setPhase (fun _ ho => absurd rfl ho) (by simp)
  · exact h

/-- A step of a run that counts as intended: what a worker does before its
increment succeeds, the counter is as the worker loaded it, and no worker is
just about to return when the waiter sees the counter complete. -/
def Proper (Succeeds : Worker → Prop) (s : State Worker) : Actor Worker → Prop
  | .worker w => (s.phase w = .running → Succeeds w) ∧
    ∀ value, s.phase w = .loaded value → value = s.count
  | .waiter => Fintype.card Worker ≤ s.count → ∀ w, s.phase w ≠ .stored

theorem Exact.setPhase {s : State Worker} (h : Exact s) {w : Worker} {phase : Phase}
    (hbounded : Bounded (s.setPhase w phase)) (hw : s.phase w ≠ .ended)
    (hstored : phase = .stored ∨ phase = .ended → s.stores w = 1) : Exact (s.setPhase w phase) := by
  refine ⟨hbounded, fun v hv => ?_, h.count_eq, fun hpassed => absurd hpassed (h.not_passed hw)⟩
  rw [setPhase_phase] at hv
  by_cases hvw : v = w
  · rw [if_pos hvw] at hv
    exact hvw ▸ hstored hv
  · rw [if_neg hvw] at hv
    exact h.stored_once v hv

theorem Exact.store {s : State Worker} (h : Exact s) {w : Worker} (hw : s.phase w = .loaded s.count) :
    Exact { s.setPhase w .stored with
      count := s.count + 1
      stores := Function.update s.stores w (s.stores w + 1) } := by
  have hzero : s.stores w = 0 := h.stores_before w (by simp [hw]) (by simp [hw])
  have hnot : s.passed ≠ true := h.not_passed (w := w) (by simp [hw])
  refine ⟨h.toBounded.store hw, fun v hv => ?_, ?_, fun hpassed => absurd hpassed hnot⟩
  · by_cases hvw : v = w
    · subst hvw
      simp [hzero]
    · have hphase : (s.setPhase w .stored).phase v = s.phase v := by simp [setPhase_phase, hvw]
      simp only [hphase] at hv
      simpa [hvw] using h.stored_once v hv
  · have hcount := h.count_eq
    simp only [sum_update_succ]
    omega

theorem Exact.keep {counts : Worker → Bool} {Succeeds : Worker → Prop}
    (hcounts : ∀ w, counts w = true ↔ Succeeds w) {s : State Worker} (h : Exact s) (a : Actor Worker)
    (hok : Proper Succeeds s a) : Exact (next counts (Fintype.card Worker) s a) := by
  cases a with
  | worker w =>
    obtain ⟨hsucceeds, hloaded⟩ := hok
    have hbounded := h.toBounded.step counts w
    rw [next]
    rcases workerStep_cases counts s w with
      ⟨hp, heq⟩ | ⟨hp, heq⟩ | ⟨value, hp, heq⟩ | ⟨hp, heq⟩ | ⟨_, heq⟩ <;> rw [heq] at hbounded ⊢
    · exact h.setPhase hbounded (by simp [hp]) (by simp [(hcounts w).mpr (hsucceeds hp)])
    · exact h.setPhase hbounded (by simp [hp]) (by simp)
    · obtain rfl := hloaded value hp
      exact h.store hp
    · exact h.setPhase hbounded (by simp [hp]) fun _ => h.stored_once w (.inl hp)
    · exact h
  | waiter =>
    rw [next]
    rcases waiterStep_cases (Fintype.card Worker) s with ⟨_, heq⟩ | ⟨hcount, heq⟩ <;> rw [heq]
    · exact h
    · refine ⟨⟨h.stores_le, h.stores_before, h.count_le, h.loaded_le⟩, h.stored_once, h.count_eq, ?_⟩
      intro _ w
      by_contra hw
      have hone := h.toBounded.all_stored hcount w
      have hzero := h.stores_before w (hok hcount w) hw
      omega

theorem Exact.not_accounted {counts : Worker → Bool} {Succeeds : Worker → Prop}
    (hcounts : ∀ w, counts w = true ↔ Succeeds w) {s : State Worker} (h : Exact s) (a : Actor Worker)
    (hnot : ¬ Proper Succeeds s a) : ¬ Accounted (next counts (Fintype.card Worker) s a) := by
  intro hacc
  apply hnot
  cases a with
  | worker w =>
    refine ⟨fun hp => ?_, fun value hp => ?_⟩
    · by_contra hfails
      have hfalse : counts w = false := Bool.eq_false_iff.mpr fun h => hfails ((hcounts w).mp h)
      have hstep : next counts (Fintype.card Worker) s (.worker w) = s.setPhase w .ended := by
        simp [next, workerStep, hp, hfalse]
      rw [hstep] at hacc
      have hone : s.stores w = 1 := hacc.once w (by simp [setPhase_phase])
      have hzero := h.stores_before w (by simp [hp]) (by simp [hp])
      omega
    · have hkept := hacc.kept
      simp only [next, workerStep, hp, sum_update_succ] at hkept
      have hcount := h.count_eq
      omega
  | waiter =>
    intro hcount w hw
    have hstep : next counts (Fintype.card Worker) s .waiter = { s with passed := true } := by
      rw [next, waiterStep, if_neg (by omega)]
    rw [hstep] at hacc
    have hended : s.phase w = .ended := hacc.waits rfl w
    rw [hw] at hended
    contradiction

theorem accounted_iff_proper {counts : Worker → Bool} {Succeeds : Worker → Prop}
    (hcounts : ∀ w, counts w = true ↔ Succeeds w) (schedule : List (Actor Worker)) :
    Throughout (next counts (Fintype.card Worker)) Accounted (start Worker) schedule ↔
      StepsMeet (next counts (Fintype.card Worker)) (Proper Succeeds) (start Worker) schedule :=
  throughout_iff_stepsMeet (fun (s : State Worker) (h : Exact s) => h.accounted)
    (fun _ a h => h.keep hcounts a) (fun _ a h => h.not_accounted hcounts a) exact_start schedule

end Bounds

end CompletionCounter
