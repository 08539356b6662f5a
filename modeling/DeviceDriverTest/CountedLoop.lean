import Mathlib.Tactic.TypeStar

/-! Loops `for (i = 0; i < n; i++)` over a state, alone and one in the other,
and their invariant rules. -/

namespace CountedLoop

variable {S : Type*}

def forRange (body : Nat → S → S) (n : Nat) (s : S) : S := n.fold (fun i _ s => body i s) s

theorem forRange_zero (body : Nat → S → S) (s : S) : forRange body 0 s = s := Nat.fold_zero _ _

theorem forRange_succ (body : Nat → S → S) (n : Nat) (s : S) :
    forRange body (n + 1) s = body n (forRange body n s) := Nat.fold_succ _ _ _

theorem forRange_invariant {body : Nat → S → S} {n : Nat} {s : S} (Inv : Nat → S → Prop) (h0 : Inv 0 s)
    (hstep : ∀ i < n, ∀ s, Inv i s → Inv (i + 1) (body i s)) : Inv n (forRange body n s) := by
  induction n with
  | zero => rwa [forRange_zero]
  | succ n ih =>
    rw [forRange_succ]
    exact hstep n (Nat.lt_succ_self n) _ (ih fun i hi => hstep i (Nat.lt_succ_of_lt hi))

theorem index_lt {i j n m : Nat} (hi : i < n) (hj : j < m) : i * m + j < n * m :=
  calc i * m + j < i * m + m := Nat.add_lt_add_left hj _
    _ = (i + 1) * m := (Nat.succ_mul i m).symm
    _ ≤ n * m := Nat.mul_le_mul_right m hi

theorem index_inj {i i' j j' m : Nat} (hj : j < m) (hj' : j' < m) (h : i * m + j = i' * m + j') :
    i = i' ∧ j = j' := by
  have hdiv : ∀ {x y}, y < m → (x * m + y) / m = x := by
    intro x y hy
    rw [Nat.mul_comm, Nat.mul_add_div (Nat.zero_lt_of_lt hy), Nat.div_eq_of_lt hy, Nat.add_zero]
  have hi : i = i' :=
    calc i = (i * m + j) / m := (hdiv hj).symm
      _ = (i' * m + j') / m := by rw [h]
      _ = i' := hdiv hj'
  subst hi
  exact ⟨rfl, Nat.add_left_cancel h⟩

/-- Two loops one in the other, counted through. -/
theorem forRange_nested_invariant {body : Nat → Nat → S → S} {n m : Nat} {s : S} (Inv : Nat → S → Prop)
    (h0 : Inv 0 s) (hstep : ∀ i < n, ∀ j < m, ∀ s, Inv (i * m + j) s → Inv (i * m + j + 1) (body i j s)) :
    Inv (n * m) (forRange (fun i => forRange (body i) m) n s) := by
  refine forRange_invariant (fun i s => Inv (i * m) s) (by simpa using h0) fun i hi s hs => ?_
  have hinner := @forRange_invariant _ (body i) m s (fun j s => Inv (i * m + j) s) hs fun j hj => hstep i hi j hj
  rwa [Nat.succ_mul]

/-- `for (i = ..; i < total; i += step)`, `none` when the fuel does not see its end. -/
def forStep (step total : Nat) (body : Nat → S → Option S) : Nat → Nat → S → Option S
  | 0, _, _ => none
  | fuel + 1, i, s =>
    if i < total then (body i s).bind fun s => forStep step total body fuel (i + step) s else some s

/-- A loop in steps up to a multiple of its step is a counted loop. -/
theorem forStep_eq {step n fuel : Nat} {body : Nat → S → Option S} {f : Nat → S → S} {s : S} (hstep : 0 < step)
    (hbody : ∀ t < n, ∀ s, body (t * step) s = some (f t s)) (hfuel : n < fuel) :
    forStep step (n * step) body fuel 0 s = some (forRange f n s) := by
  have hfrom : ∀ m t fuel, t + m = n → m < fuel →
      forStep step (n * step) body fuel (t * step) (forRange f t s) = some (forRange f n s) := by
    intro m
    induction m with
    | zero =>
      intro t fuel ht hfuel
      obtain ⟨fuel, rfl⟩ : ∃ k, fuel = k + 1 := ⟨fuel - 1, by omega⟩
      obtain rfl : t = n := ht
      rw [forStep, if_neg (Nat.lt_irrefl _)]
    | succ m ih =>
      intro t fuel ht hfuel
      obtain ⟨fuel, rfl⟩ : ∃ k, fuel = k + 1 := ⟨fuel - 1, by omega⟩
      have hlt : t * step < n * step := Nat.mul_lt_mul_of_pos_right (by omega) hstep
      rw [forStep, if_pos hlt, hbody t (by omega), Option.bind_some, ← forRange_succ f, ← Nat.succ_mul]
      exact ih (t + 1) fuel (by omega) (by omega)
  have hall := hfrom n 0 fuel (Nat.zero_add n) hfuel
  rwa [Nat.zero_mul, forRange_zero] at hall

end CountedLoop
