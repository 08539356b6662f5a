import Mathlib.Order.Nat

/-! Programs with a state, errors and fuel, and a machine that takes steps: what it means that the machine, from
some state on, does what a program does, and the rules for it. Where the fuel of the program does not last, the machine
takes at least as many steps. -/

namespace Realization

section Programs

variable {S ε α β : Type}

/-- What a program yields: a value or an error with the state then, and nothing where the fuel does not last. -/
abbrev Result (S ε α : Type) := Option (Except ε α × S)

def Eval (S ε α : Type) := S → Result S ε α

namespace Eval

protected def pure (a : α) : Eval S ε α := fun s => some (.ok a, s)

protected def bind (x : Eval S ε α) (f : α → Eval S ε β) : Eval S ε β := fun s =>
  match x s with
  | some (.ok a, s) => f a s
  | some (.error e, s) => some (.error e, s)
  | none => none

instance : Monad (Eval S ε) where
  pure := Eval.pure
  bind := Eval.bind

/-- What always has a result. -/
def lift (action : S → Except ε α × S) : Eval S ε α := fun s => some (action s)

/-- The rounds go on as long as they yield no value. -/
def rounds (round : Eval S ε (Option α)) : Nat → Eval S ε α
  | 0 => fun _ => none
  | fuel + 1 => round >>= fun
    | some a => pure a
    | none => rounds round fuel

theorem pure_eq (a : α) (s : S) : (pure a : Eval S ε α) s = some (.ok a, s) := rfl

theorem bind_eq (x : Eval S ε α) (f : α → Eval S ε β) (s : S) : (x >>= f) s = Eval.bind x f s := rfl

end Eval

end Programs

/-- A number of steps. -/
inductive Steps {M : Type} (Step : M → M → Prop) : Nat → M → M → Prop
  | refl (m : M) : Steps Step 0 m m
  | head {n : Nat} {m m1 m2 : M} (first : Step m m1) (rest : Steps Step n m1 m2) : Steps Step (n + 1) m m2

section Machines

variable {M S ε α β : Type} {Step : M → M → Prop} {n k fuel : Nat} {m m1 m2 : M}

theorem Steps.single (h : Step m m1) : Steps Step 1 m m1 := .head h (.refl m1)

theorem Steps.trans (h1 : Steps Step n m m1) (h2 : Steps Step k m1 m2) : Steps Step (n + k) m m2 := by
  induction h1 with
  | refl => simpa
  | head first _ ih => exact Nat.succ_add .. ▸ .head first (ih h2)

def Halted (Step : M → M → Prop) (m : M) : Prop := ∀ m', ¬Step m m'

/-- No run is longer than one that halts. -/
theorem Steps.le_of_halted (hdet : ∀ m m1 m2, Step m m1 → Step m m2 → m1 = m2) (h1 : Steps Step n m m1)
    (hhalted : Halted Step m1) (h2 : Steps Step k m m2) : k ≤ n := by
  induction h1 generalizing k with
  | refl =>
    cases h2 with
    | refl => exact Nat.le_refl _
    | head first => exact absurd first (hhalted _)
  | head first _ ih =>
    cases h2 with
    | refl => exact Nat.zero_le _
    | head first' rest' =>
      rw [← hdet _ _ _ first first'] at rest'
      exact Nat.succ_le_succ (ih hhalted rest')

theorem Steps.eq_of_halted (hdet : ∀ m m1 m2, Step m m1 → Step m m2 → m1 = m2) (h1 : Steps Step n m m1)
    (hhalted : Halted Step m1) (h2 : Steps Step k m m2) (hhalted2 : Halted Step m2) : m1 = m2 := by
  induction h1 generalizing k with
  | refl =>
    cases h2 with
    | refl => rfl
    | head first => exact absurd first (hhalted _)
  | head first _ ih =>
    cases h2 with
    | refl => exact absurd first (hhalted2 _)
    | head first' rest' =>
      rw [← hdet _ _ _ first first'] at rest'
      exact ih hhalted rest'

variable (Step) (Failed : ε → S → M → Prop)

/-- From the state `m` on the machine does what the program yields: it comes to where the value is, or to where the
error is, or it takes as many steps as there was fuel. -/
def Realizes (Done : α → S → M → Prop) (fuel : Nat) (m : M) : Result S ε α → Prop
  | some (.ok a, s) => ∃ n m', Steps Step n m m' ∧ Done a s m'
  | some (.error e, s) => ∃ n m', Steps Step n m m' ∧ Failed e s m'
  | none => ∃ n m', fuel ≤ n ∧ Steps Step n m m'

variable {Step Failed} {Done Done' : α → S → M → Prop} {After : β → S → M → Prop} {r : Result S ε α} {s : S}

namespace Realizes

theorem pure {a : α} (h : Done a s m) : Realizes Step Failed Done fuel m (some (.ok a, s)) := ⟨0, m, .refl m, h⟩

theorem steps (h : Steps Step k m m1) (hr : Realizes Step Failed Done fuel m1 r) :
    Realizes Step Failed Done (fuel + k) m r := by
  match r, hr with
  | some (.ok a, s), ⟨n, m', hsteps, hdone⟩ => exact ⟨k + n, m', h.trans hsteps, hdone⟩
  | some (.error e, s), ⟨n, m', hsteps, hfailed⟩ => exact ⟨k + n, m', h.trans hsteps, hfailed⟩
  | none, ⟨n, m', hle, hsteps⟩ => exact ⟨k + n, m', by omega, h.trans hsteps⟩

theorem mono {fuel' : Nat} (hle : fuel' ≤ fuel) (hr : Realizes Step Failed Done fuel m r) :
    Realizes Step Failed Done fuel' m r := by
  match r, hr with
  | some (.ok _, _), hr => exact hr
  | some (.error _, _), hr => exact hr
  | none, ⟨n, m', hn, hsteps⟩ => exact ⟨n, m', Nat.le_trans hle hn, hsteps⟩

theorem step (h : Step m m1) (hr : Realizes Step Failed Done fuel m1 r) : Realizes Step Failed Done fuel m r :=
  (hr.steps (.single h)).mono (Nat.le_succ fuel)

theorem imp (hr : Realizes Step Failed Done fuel m r) (h : ∀ a s m, Done a s m → Done' a s m) :
    Realizes Step Failed Done' fuel m r := by
  match r, hr with
  | some (.ok a, s), ⟨n, m', hsteps, hdone⟩ => exact ⟨n, m', hsteps, h a s m' hdone⟩
  | some (.error e, s), hr => exact hr
  | none, hr => exact hr

theorem bind {x : Eval S ε α} {f : α → Eval S ε β} (hx : Realizes Step Failed Done fuel m (x s))
    (hf : ∀ a s m, Done a s m → Realizes Step Failed After fuel m (f a s)) :
    Realizes Step Failed After fuel m ((x >>= f) s) := by
  rw [Eval.bind_eq, Eval.bind]
  match x s, hx with
  | some (.ok a, s), ⟨n, m', hsteps, hdone⟩ => exact ((hf a s m' hdone).steps hsteps).mono (Nat.le_add_right fuel n)
  | some (.error e, s), hx => exact hx
  | none, hx => exact hx

/-- What is done to the state behind a program, whether that ends with a value or not. -/
theorem leave {f : α → β} {after : S → S} {Failed' : ε → S → M → Prop} (hr : Realizes Step Failed Done fuel m r)
    (hdone : ∀ a s m, Done a s m → ∃ n m', Steps Step n m m' ∧ After (f a) (after s) m')
    (hfailed : ∀ e s m, Failed e s m → Failed' e (after s) m) :
    Realizes Step Failed' After fuel m (r.map fun (outcome, s) => (outcome.map f, after s)) := by
  match r, hr with
  | some (.ok a, s), ⟨n, m', hsteps, hend⟩ =>
    obtain ⟨k, m1, hsteps1, hafter⟩ := hdone a s m' hend
    exact ⟨n + k, m1, hsteps.trans hsteps1, hafter⟩
  | some (.error e, s), ⟨n, m', hsteps, hend⟩ => exact ⟨n, m', hsteps, hfailed e s m' hend⟩
  | none, hr => exact hr

/-- The rule for loops: a round that does not end the loop takes a last step, back to where the next one starts. -/
theorem rounds {round : Eval S ε (Option α)} (Inv : S → M → Prop)
    (hround : ∀ s m, Inv s m → Realizes Step Failed
      (fun a s m => match a with
        | some a => Done a s m
        | none => ∃ m', Step m m' ∧ Inv s m') fuel m (round s))
    (hle : k ≤ fuel) (hinv : Inv s m) : Realizes Step Failed Done k m (Eval.rounds round k s) := by
  induction k generalizing s m with
  | zero => exact ⟨0, m, Nat.le_refl _, .refl m⟩
  | succ k ih =>
    refine ((hround s m hinv).mono hle).bind fun a s m hdone => ?_
    cases a with
    | some a => exact pure hdone
    | none =>
      obtain ⟨m', hstep, hinv⟩ := hdone
      exact (ih (Nat.le_of_succ_le hle) hinv).steps (.single hstep)

/-- Where the machine halts, a program with more fuel than the machine takes steps has a result, and it is the one
that the machine comes to. -/
theorem halted (hdet : ∀ m m1 m2, Step m m1 → Step m m2 → m1 = m2) (hdone : ∀ a s m, Done a s m → Halted Step m)
    (hfailed : ∀ e s m, Failed e s m → Halted Step m) (hsteps : Steps Step n m m1) (hhalted : Halted Step m1)
    (hfuel : n < fuel) (hr : Realizes Step Failed Done fuel m r) :
    (∃ a s, r = some (.ok a, s) ∧ Done a s m1) ∨ ∃ e s, r = some (.error e, s) ∧ Failed e s m1 := by
  match r, hr with
  | some (.ok a, s), ⟨k, m', hsteps', hend⟩ =>
    exact Or.inl ⟨a, s, rfl, hsteps'.eq_of_halted hdet (hdone a s m' hend) hsteps hhalted ▸ hend⟩
  | some (.error e, s), ⟨k, m', hsteps', hend⟩ =>
    exact Or.inr ⟨e, s, rfl, hsteps'.eq_of_halted hdet (hfailed e s m' hend) hsteps hhalted ▸ hend⟩
  | none, ⟨k, m', hle, hsteps'⟩ =>
    have := hsteps.le_of_halted hdet hhalted hsteps'
    omega

end Realizes

end Machines

end Realization
