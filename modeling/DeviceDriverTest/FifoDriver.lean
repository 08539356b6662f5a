import Mathlib.Data.List.Range
import DeviceDriverTest.ScheduledRun

/-! A driver that owns a buffer from the call that queues it to the one that
dequeues it, and gives the buffers back in the order in which it got them. -/

namespace FifoDriver

open ScheduledRun

/-- What a program does with the buffers: it fills one, queues one, or waits for
the next one to come back. -/
inductive Use where
  | fill (i : Nat)
  | qbuf (i : Nat)
  | dqbuf
  deriving DecidableEq

def next (queue : List Nat) : Use → List Nat
  | .fill _ => queue
  | .qbuf i => queue ++ [i]
  | .dqbuf => queue.tail

/-- The driver does not own what is filled or queued, the buffer exists, and
there is one to wait for. -/
def Allowed (granted : Nat) (queue : List Nat) : Use → Prop
  | .fill i => i < granted ∧ i ∉ queue
  | .qbuf i => i < granted ∧ i ∉ queue
  | .dqbuf => queue ≠ []

instance Allowed.decidable (granted : Nat) (queue : List Nat) : ∀ u, Decidable (Allowed granted queue u)
  | .fill i => inferInstanceAs (Decidable (i < granted ∧ i ∉ queue))
  | .qbuf i => inferInstanceAs (Decidable (i < granted ∧ i ∉ queue))
  | .dqbuf => inferInstanceAs (Decidable (queue ≠ []))

def Disciplined (granted : Nat) (queue : List Nat) (uses : List Use) : Prop :=
  StepsMeet next (Allowed granted) queue uses

variable {granted : Nat} {queue : List Nat} {uses uses' : List Use}

theorem disciplined_append :
    Disciplined granted queue (uses ++ uses') ↔
      Disciplined granted queue uses ∧ Disciplined granted (uses.foldl next queue) uses' :=
  stepsMeet_append

theorem disciplined_refill {i : Nat} :
    Disciplined granted queue (.fill i :: .qbuf i :: uses) ↔
      (i < granted ∧ i ∉ queue) ∧ Disciplined granted (queue ++ [i]) uses := by
  show Allowed granted queue (.fill i) ∧ Allowed granted queue (.qbuf i) ∧ _ ↔ _
  exact ⟨fun h => h.2, fun h => ⟨h.1, h⟩⟩

theorem foldl_dqbufs (n : Nat) (queue : List Nat) :
    (List.replicate n Use.dqbuf).foldl next queue = queue.drop n := by
  induction n generalizing queue with
  | zero => rfl
  | succ n ih =>
    rw [List.replicate_succ, List.foldl_cons, ih]
    cases queue with
    | nil => simp [next]
    | cons i queue => rfl

theorem disciplined_dqbufs (n : Nat) (queue : List Nat) :
    Disciplined granted queue (List.replicate n .dqbuf) ↔ n ≤ queue.length := by
  induction n generalizing queue with
  | zero => exact iff_of_true trivial (Nat.zero_le _)
  | succ n ih =>
    rw [List.replicate_succ]
    show queue ≠ [] ∧ Disciplined granted queue.tail _ ↔ _
    rw [ih]
    cases queue with
    | nil => simp
    | cons i queue => simp

theorem foldl_fills (n : Nat) :
    ((List.range n).flatMap fun i => [Use.fill i, .qbuf i]).foldl next [] = List.range n := by
  induction n with
  | zero => rfl
  | succ n ih => rw [List.range_succ, List.flatMap_append, List.foldl_append, ih]; rfl

theorem disciplined_fills (n : Nat) :
    Disciplined granted [] ((List.range n).flatMap fun i => [Use.fill i, .qbuf i]) ↔ n ≤ granted := by
  induction n with
  | zero => exact iff_of_true trivial (Nat.zero_le _)
  | succ n ih =>
    have hlast : Disciplined granted (List.range n) [.fill n, .qbuf n] ↔ n < granted := by
      rw [disciplined_refill]
      have hfree : n ∉ List.range n := by simp
      exact ⟨fun h => h.1.1, fun h => ⟨⟨h, hfree⟩, trivial⟩⟩
    rw [List.range_succ, List.flatMap_append, disciplined_append, foldl_fills, ih]
    show n ≤ granted ∧ Disciplined granted (List.range n) [.fill n, .qbuf n] ↔ _
    rw [hlast]
    omega

/-- The driver holds buffers queued at the counts from `low` on. -/
def Recent (granted low count : Nat) (queue : List Nat) : Prop :=
  ∀ i ∈ queue, ∃ m, low ≤ m ∧ m < count ∧ i = m % granted

section Ring

variable {granted low count p t : Nat} {queue : List Nat}

theorem Recent.free (h : Recent granted low count queue) (hroom : count < low + granted) :
    count % granted ∉ queue := by
  intro hmem
  obtain ⟨m, hlow, hlt, heq⟩ := h _ hmem
  have hzero := Nat.sub_mod_eq_zero_of_mod_eq heq
  rw [Nat.mod_eq_of_lt (by omega)] at hzero
  omega

theorem Recent.queued (h : Recent granted low count queue) (hle : low ≤ count) :
    Recent granted low (count + 1) (queue ++ [count % granted]) := by
  intro i hi
  rcases List.mem_append.mp hi with hi | hi
  · obtain ⟨m, hlow, hlt, heq⟩ := h i hi
    exact ⟨m, hlow, by omega, heq⟩
  · exact ⟨count, hle, by omega, List.mem_singleton.mp hi⟩

/-- The buffer that comes back at turn `t` when the first `p` were queued in
order and every turn queues the next of all that were granted. -/
def slot (p granted t : Nat) : Nat := if t < p then t else (t - p) % granted

def held (p granted t : Nat) : List Nat := (List.range' t p).map (slot p granted)

theorem held_zero (p granted : Nat) : held p granted 0 = List.range p := by
  rw [held, ← List.range_eq_range']
  refine (List.map_congr_left fun t ht => ?_).trans (List.map_id _)
  rw [slot, if_pos (List.mem_range.mp ht)]
  rfl

theorem held_cons (granted t : Nat) (hp : 1 ≤ p) :
    held p granted t = slot p granted t :: (List.range' (t + 1) (p - 1)).map (slot p granted) := by
  obtain ⟨k, rfl⟩ : ∃ k, p = k + 1 := ⟨p - 1, by omega⟩
  rw [held, List.range'_succ, List.map_cons, Nat.add_sub_cancel]

theorem held_succ (granted t : Nat) (hp : 1 ≤ p) :
    (held p granted t).tail ++ [t % granted] = held p granted (t + 1) := by
  obtain ⟨k, rfl⟩ : ∃ k, p = k + 1 := ⟨p - 1, by omega⟩
  have hlast : slot (k + 1) granted (t + 1 + k) = t % granted := by
    rw [slot, if_neg (by omega)]
    congr 1
    omega
  rw [held_cons granted t hp, held, Nat.add_sub_cancel, List.tail_cons, List.range'_1_concat, List.map_append,
    List.map_singleton, hlast]

theorem held_free (t : Nat) (hp : 1 ≤ p) (hle : p ≤ granted) : t % granted ∉ (held p granted t).tail := by
  have hrecent : Recent granted (t + 1) (granted + t) (held p granted t).tail := by
    rw [held_cons granted t hp, List.tail_cons]
    intro i hi
    obtain ⟨j, hj, rfl⟩ := List.mem_map.mp hi
    have hj := List.mem_range'_1.mp hj
    by_cases hfirst : j < p
    · refine ⟨j, hj.1, by omega, ?_⟩
      rw [slot, if_pos hfirst, Nat.mod_eq_of_lt (by omega)]
    · refine ⟨j - p + granted, by omega, by omega, ?_⟩
      rw [slot, if_neg hfirst, Nat.add_mod_right]
  have hfree := hrecent.free (by omega)
  rwa [Nat.add_mod_left] at hfree

/-- The buffer to queue next is the one that came back while the first ones come
back, and always when all were queued at the start. -/
theorem mod_eq_slot (hle : p ≤ granted) (h : t < p ∨ p = granted) : t % granted = slot p granted t := by
  rw [slot]
  rcases h with hlt | rfl
  · rw [if_pos hlt, Nat.mod_eq_of_lt (by omega)]
  · split
    · next hlt => exact Nat.mod_eq_of_lt hlt
    · next hge => exact Nat.mod_eq_sub_mod (by omega)

theorem mod_ne_slot (hp : 1 ≤ p) (hlt : p < granted) : p % granted ≠ slot p granted p := by
  rw [slot, if_neg (Nat.lt_irrefl p), Nat.sub_self, Nat.zero_mod, Nat.mod_eq_of_lt hlt]
  omega

end Ring

end FifoDriver
