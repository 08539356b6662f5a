import Mathlib.Data.List.Basic
import Mathlib.Data.Nat.Find

/-! Bounded polling of a state that events change between the polls. Poll `i`
is preceded by the batches `0, …, i`, and the waiter sleeps once more through
the next batch before it acts on a successful poll. -/

namespace Polling

variable {State Event : Type*}

/-- How a polling loop ends: at the first successful poll, with the state
after the sleep that follows it, or with no try left. -/
inductive Outcome (State : Type*) where
  | found (poll : Nat) (s : State)
  | exhausted (s : State)

def seen (batch : Nat → List Event) (n : Nat) : List Event :=
  (List.range (n + 1)).flatMap batch

def pollFrom (ready : State → Bool) (step : State → Event → State) (batch : Nat → List Event) :
    Nat → Nat → State → Outcome State
  | 0, _, s => .exhausted s
  | tries + 1, i, s =>
    let s' := (batch (i + 1)).foldl step s
    if ready s then .found i s' else pollFrom ready step batch tries (i + 1) s'

def poll (ready : State → Bool) (step : State → Event → State) (batch : Nat → List Event)
    (limit : Nat) (s : State) : Outcome State :=
  pollFrom ready step batch limit 0 ((batch 0).foldl step s)

def stateAt (step : State → Event → State) (batch : Nat → List Event) (s : State) (n : Nat) : State :=
  (seen batch n).foldl step s

theorem seen_zero (batch : Nat → List Event) : seen batch 0 = batch 0 := by
  simp [seen]

theorem seen_succ (batch : Nat → List Event) (n : Nat) :
    seen batch (n + 1) = seen batch n ++ batch (n + 1) := by
  simp [seen, List.range_succ]

theorem seen_first (es : List Event) (n : Nat) : seen (fun i => if i = 0 then es else []) n = es := by
  induction n with
  | zero => simp [seen_zero]
  | succ n ih => simp [seen_succ, ih]

theorem seen_prefix {batch : Nat → List Event} {m n : Nat} (h : m ≤ n) :
    (seen batch m).IsPrefix (seen batch n) := by
  induction n, h using Nat.le_induction with
  | base => exact List.prefix_refl _
  | succ n _ ih => exact ih.trans (seen_succ batch n ▸ List.prefix_append _ _)

theorem stateAt_zero (step : State → Event → State) (batch : Nat → List Event) (s : State) :
    stateAt step batch s 0 = (batch 0).foldl step s := by
  rw [stateAt, seen_zero]

theorem stateAt_succ (step : State → Event → State) (batch : Nat → List Event) (s : State) (n : Nat) :
    stateAt step batch s (n + 1) = (batch (n + 1)).foldl step (stateAt step batch s n) := by
  rw [stateAt, seen_succ, List.foldl_append, stateAt]

theorem pollFrom_found_iff {ready : State → Bool} {step : State → Event → State}
    {batch : Nat → List Event} {s t : State} {tries i p : Nat} :
    pollFrom ready step batch tries i (stateAt step batch s i) = .found p t ↔
      i ≤ p ∧ p < i + tries ∧ ready (stateAt step batch s p) = true ∧
      (∀ q, i ≤ q → q < p → ready (stateAt step batch s q) = false) ∧
      t = stateAt step batch s (p + 1) := by
  induction tries generalizing i with
  | zero => simp only [pollFrom, reduceCtorEq, false_iff]; omega
  | succ tries ih =>
    simp only [pollFrom, ← stateAt_succ]
    by_cases hr : ready (stateAt step batch s i) = true
    · simp only [hr, if_true, Outcome.found.injEq]
      constructor
      · rintro ⟨rfl, rfl⟩
        exact ⟨le_rfl, by omega, hr, fun q h h' => by omega, rfl⟩
      · rintro ⟨hip, _, _, hq, rfl⟩
        have he : i = p := by
          by_contra hne
          have := hq i le_rfl (by omega)
          simp [hr] at this
        exact ⟨he, by rw [he]⟩
    · rw [if_neg hr, ih]
      constructor
      · rintro ⟨hip, hp, hrp, hq, ht⟩
        refine ⟨by omega, by omega, hrp, fun q h h' => ?_, ht⟩
        rcases Nat.eq_or_lt_of_le h with rfl | h
        · exact Bool.eq_false_iff.mpr hr
        · exact hq q h h'
      · rintro ⟨hip, hp, hrp, hq, ht⟩
        have hne : i ≠ p := fun he => hr (he ▸ hrp)
        exact ⟨by omega, by omega, hrp, fun q h h' => hq q (by omega) h', ht⟩

theorem poll_found_iff {ready : State → Bool} {step : State → Event → State}
    {batch : Nat → List Event} {limit p : Nat} {s t : State} :
    poll ready step batch limit s = .found p t ↔
      p < limit ∧ ready (stateAt step batch s p) = true ∧
      (∀ q < p, ready (stateAt step batch s q) = false) ∧
      t = stateAt step batch s (p + 1) := by
  rw [poll, ← stateAt_zero, pollFrom_found_iff]
  simp

theorem pollFrom_exhausted_iff {ready : State → Bool} {step : State → Event → State}
    {batch : Nat → List Event} {s t : State} {tries i : Nat} :
    pollFrom ready step batch tries i (stateAt step batch s i) = .exhausted t ↔
      (∀ q, i ≤ q → q < i + tries → ready (stateAt step batch s q) = false) ∧
      t = stateAt step batch s (i + tries) := by
  induction tries generalizing i with
  | zero =>
    simp only [pollFrom, Outcome.exhausted.injEq, Nat.add_zero, @eq_comm _ t]
    exact ⟨fun h => ⟨fun q h h' => by omega, h⟩, fun h => h.2⟩
  | succ tries ih =>
    simp only [pollFrom, ← stateAt_succ]
    by_cases hr : ready (stateAt step batch s i) = true
    · simp only [hr, if_true, reduceCtorEq, false_iff, not_and]
      intro hq
      have := hq i le_rfl (by omega)
      simp [hr] at this
    · rw [if_neg hr, ih, show i + 1 + tries = i + (tries + 1) by omega]
      refine and_congr_left fun _ => ⟨fun hq q h h' => ?_, fun hq q h h' => hq q (by omega) h'⟩
      rcases Nat.eq_or_lt_of_le h with rfl | h
      · exact Bool.eq_false_iff.mpr hr
      · exact hq q h h'

theorem poll_exhausted_iff {ready : State → Bool} {step : State → Event → State}
    {batch : Nat → List Event} {limit : Nat} {s t : State} :
    poll ready step batch limit s = .exhausted t ↔
      (∀ q < limit, ready (stateAt step batch s q) = false) ∧ t = stateAt step batch s limit := by
  rw [poll, ← stateAt_zero, pollFrom_exhausted_iff]
  simp

theorem poll_cases (ready : State → Bool) (step : State → Event → State)
    (batch : Nat → List Event) (limit : Nat) (s : State) :
    (∃ p, poll ready step batch limit s = .found p (stateAt step batch s (p + 1))) ∨
      poll ready step batch limit s = .exhausted (stateAt step batch s limit) := by
  cases h : poll ready step batch limit s with
  | found p t => exact .inl ⟨p, by rw [(poll_found_iff.mp h).2.2.2]⟩
  | exhausted t => exact .inr (by rw [(poll_exhausted_iff.mp h).2])

end Polling
