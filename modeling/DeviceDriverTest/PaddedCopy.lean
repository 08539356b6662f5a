import Mathlib.Data.List.Basic

/-! A sequence copied piece by piece, where the end of a piece can be lost
and fillers can be added between pieces. The copy is the original exactly
when only fillers are lost and every piece with something else in it starts
at its own place. -/

namespace PaddedCopy

variable {α : Type*}

inductive Step (α : Type*)
  | piece (items : List α) (kept : Nat)
  | fill (count : Nat)

def source : List (Step α) → List α
  | [] => []
  | .piece items _ :: steps => items ++ source steps
  | .fill _ :: steps => source steps

def copy (filler : α) : List (Step α) → List α
  | [] => []
  | .piece items kept :: steps => items.take kept ++ copy filler steps
  | .fill count :: steps => List.replicate count filler ++ copy filler steps

/-- `lost` items were left out of the copy so far and `added` fillers put in. -/
def Balanced (filler : α) : Nat → Nat → List (Step α) → Prop
  | lost, added, [] => lost = added
  | lost, added, .piece items kept :: steps =>
    (∀ x ∈ items.drop kept, x = filler) ∧ ((∃ x ∈ items, x ≠ filler) → lost = added) ∧
      Balanced filler (lost + (items.length - kept)) added steps
  | lost, added, .fill count :: steps => Balanced filler lost (added + count) steps

theorem copy_append (z : α) (s t : List (Step α)) : copy z (s ++ t) = copy z s ++ copy z t := by
  induction s with
  | nil => rfl
  | cons step s ih =>
    cases step with
    | piece items kept => simp [copy, ih]
    | fill count => simp [copy, ih]

theorem replicate_cons_inj {z x : α} {s t : List α} (hx : x ≠ z) {m n : Nat}
    (h : List.replicate m z ++ x :: s = List.replicate n z ++ x :: t) : m = n := by
  induction m generalizing n with
  | zero =>
    cases n with
    | zero => rfl
    | succ n =>
      simp only [List.replicate_zero, List.nil_append, List.replicate_succ, List.cons_append,
        List.cons.injEq] at h
      exact absurd h.1 hx
  | succ m ih =>
    cases n with
    | zero =>
      simp only [List.replicate_zero, List.nil_append, List.replicate_succ, List.cons_append,
        List.cons.injEq] at h
      exact absurd h.1.symm hx
    | succ n =>
      simp only [List.replicate_succ, List.cons_append, List.cons.injEq, true_and] at h
      rw [ih h]

theorem shift_unique {z : α} {s t : List α} :
    ∀ {c : List α}, (∃ x ∈ c, x ≠ z) → ∀ {m n : Nat},
      List.replicate m z ++ (c ++ s) = List.replicate n z ++ (c ++ t) → m = n := by
  intro c
  induction c with
  | nil => simp
  | cons y c ih =>
    intro hc m n h
    by_cases hy : y = z
    · subst y
      have hrest : ∃ x ∈ c, x ≠ z := by simpa using hc
      have hm : List.replicate (m + 1) z ++ (c ++ s) = List.replicate (n + 1) z ++ (c ++ t) := by
        simpa [List.replicate_succ'] using h
      exact Nat.succ.inj (ih hrest hm)
    · exact replicate_cons_inj hy h

theorem fillers_cancel {z : α} {c s t : List α} (hc : ∀ x ∈ c, x = z) (m n : Nat) :
    List.replicate m z ++ (c ++ s) = List.replicate n z ++ (c ++ t) ↔
      List.replicate m z ++ s = List.replicate n z ++ t := by
  have hrep : c = List.replicate c.length z := List.eq_replicate_of_mem hc
  have hswap : ∀ (k : Nat) (u : List α), List.replicate k z ++ (c ++ u) = c ++ (List.replicate k z ++ u) := by
    intro k u
    rw [hrep, ← List.append_assoc, ← List.append_assoc, List.replicate_append_replicate,
      List.replicate_append_replicate, Nat.add_comm]
  rw [hswap, hswap, List.append_cancel_left_eq]

/-- With every piece kept whole, the copy is right exactly when nothing is added. -/
theorem balanced_kept_iff {z : α} {steps : List (Step α)}
    (hkept : ∀ items kept, .piece items kept ∈ steps → items.length ≤ kept) {lost added : Nat}
    (hle : lost ≤ added) :
    Balanced z lost added steps ↔ lost = added ∧ ∀ count, .fill count ∈ steps → count = 0 := by
  induction steps generalizing added with
  | nil => simp [Balanced]
  | cons step steps ih =>
    have hrest : ∀ items kept, .piece items kept ∈ steps → items.length ≤ kept :=
      fun items kept hmem => hkept items kept (List.mem_cons_of_mem _ hmem)
    cases step with
    | piece items kept =>
      have hwhole : items.length ≤ kept := hkept items kept List.mem_cons_self
      have hlost : lost + (items.length - kept) = lost := by omega
      have hdrop : ∀ x ∈ items.drop kept, x = z := by simp [List.drop_of_length_le hwhole]
      simp only [Balanced, hlost, ih hrest hle, List.mem_cons, reduceCtorEq, false_or]
      exact ⟨fun h => h.2.2, fun h => ⟨hdrop, fun _ => h.1, h⟩⟩
    | fill count =>
      have hfill : ∀ n, Step.fill n ∈ .fill count :: steps ↔ n = count ∨ .fill n ∈ steps := by simp
      rw [Balanced, ih hrest (Nat.le_add_right_of_le hle)]
      constructor
      · rintro ⟨heq, hzero⟩
        refine ⟨by omega, fun n hn => ((hfill n).mp hn).elim (fun h => ?_) (hzero n)⟩
        omega
      · rintro ⟨heq, hzero⟩
        have hcount : count = 0 := hzero count List.mem_cons_self
        exact ⟨by omega, fun n hn => hzero n ((hfill n).mpr (.inr hn))⟩

variable [DecidableEq α]

theorem copy_countP_le (z : α) (steps : List (Step α)) :
    (copy z steps).countP (· ≠ z) ≤ (source steps).countP (· ≠ z) := by
  induction steps with
  | nil => exact Nat.le_refl _
  | cons step steps ih =>
    cases step with
    | piece items kept =>
      simp only [copy, source, List.countP_append]
      exact Nat.add_le_add ((List.take_sublist kept items).countP_le) ih
    | fill count =>
      simp only [copy, source, List.countP_append, List.countP_replicate]
      simpa using ih

/-- What is lost of a piece is filler: otherwise the rest of the copy would
have to hold more than its source does. -/
theorem lost_fillers {z : α} {items s t : List α} {kept lost added : Nat}
    (hle : s.countP (· ≠ z) ≤ t.countP (· ≠ z))
    (h : List.replicate added z ++ (items.take kept ++ s) = List.replicate lost z ++ (items ++ t)) :
    ∀ x ∈ items.drop kept, x = z := by
  have hcount := congrArg (List.countP (· ≠ z)) h
  have hsplit : items.countP (· ≠ z) =
      (items.take kept).countP (· ≠ z) + (items.drop kept).countP (· ≠ z) := by
    rw [← List.countP_append, List.take_append_drop]
  have hzero : ∀ k : Nat, (List.replicate k z).countP (· ≠ z) = 0 := by
    intro k
    rw [List.countP_replicate]
    simp
  rw [List.countP_append, List.countP_append, List.countP_append, List.countP_append, hzero, hzero,
    hsplit] at hcount
  have hnone : (items.drop kept).countP (· ≠ z) = 0 := by omega
  intro x hx
  simpa using (List.countP_eq_zero.mp hnone) x hx

theorem piece_iff {z : α} {items s t : List α} {kept lost added : Nat}
    (hle : s.countP (· ≠ z) ≤ t.countP (· ≠ z)) :
    List.replicate added z ++ (items.take kept ++ s) = List.replicate lost z ++ (items ++ t) ↔
      (∀ x ∈ items.drop kept, x = z) ∧ ((∃ x ∈ items, x ≠ z) → lost = added) ∧
        List.replicate added z ++ s = List.replicate (lost + (items.length - kept)) z ++ t := by
  refine Iff.trans ⟨fun h => ⟨lost_fillers hle h, h⟩, fun h => h.2⟩ (and_congr_right fun hdrop => ?_)
  have hrep : items.drop kept = List.replicate (items.length - kept) z := by
    rw [← List.length_drop]
    exact List.eq_replicate_of_mem hdrop
  have hitems : items ++ t = items.take kept ++ (List.replicate (items.length - kept) z ++ t) := by
    rw [← hrep, ← List.append_assoc, List.take_append_drop]
  have hpad : List.replicate (lost + (items.length - kept)) z ++ t =
      List.replicate lost z ++ (List.replicate (items.length - kept) z ++ t) := by
    rw [← List.append_assoc, List.replicate_append_replicate]
  rw [hitems, hpad]
  by_cases hfull : ∃ x ∈ items, x ≠ z
  · have htake : ∃ x ∈ items.take kept, x ≠ z := by
      obtain ⟨x, hx, hxz⟩ := hfull
      rw [← List.take_append_drop kept items, List.mem_append] at hx
      exact hx.elim (fun hx => ⟨x, hx, hxz⟩) fun hx => absurd (hdrop x hx) hxz
    constructor
    · intro h
      have heq := shift_unique htake h
      subst heq
      exact ⟨fun _ => rfl, by simpa using h⟩
    · rintro ⟨heq, h⟩
      rw [heq hfull] at h ⊢
      simpa using h
  · have htake : ∀ x ∈ items.take kept, x = z := by
      intro x hx
      by_contra hxz
      exact hfull ⟨x, List.mem_of_mem_take hx, hxz⟩
    rw [fillers_cancel htake]
    exact ⟨fun h => ⟨fun hsome => absurd hsome hfull, h⟩, And.right⟩

theorem padded_eq_iff (z : α) (steps : List (Step α)) (lost added : Nat) :
    List.replicate added z ++ copy z steps = List.replicate lost z ++ source steps ↔
      Balanced z lost added steps := by
  induction steps generalizing lost added with
  | nil =>
    simp only [copy, source, List.append_nil, Balanced, List.replicate_inj, or_true, and_true]
    exact eq_comm
  | cons step steps ih =>
    cases step with
    | piece items kept =>
      simp only [copy, source, Balanced]
      rw [piece_iff (copy_countP_le z steps), ih]
    | fill count =>
      simp only [copy, source, Balanced]
      rw [← ih, ← List.append_assoc, List.replicate_append_replicate]

theorem copy_eq_source_iff (z : α) (steps : List (Step α)) :
    copy z steps = source steps ↔ Balanced z 0 0 steps := by
  simpa using padded_eq_iff z steps 0 0

end PaddedCopy
