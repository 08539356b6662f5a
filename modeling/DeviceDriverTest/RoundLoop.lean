import Mathlib.Tactic.TypeStar

/-! Loops `count=1; while [ $count -le n ]` whose rounds may as well leave the loop, or the
script, and what holds at their ends. -/

namespace RoundLoop

variable {S : Type*}

inductive Round (S : Type*)
  | goesOn (s : S)
  | breaks (s : S)
  | exits (s : S)

inductive Ending (S : Type*)
  | done (s : S)
  | exited (s : S)

def rounds (body : Nat → S → Round S) : Nat → Nat → S → Ending S
  | 0, _, s => .done s
  | more + 1, count, s =>
    match body count s with
    | .goesOn s => rounds body more (count + 1) s
    | .breaks s => .done s
    | .exits s => .exited s

def whileLe (body : Nat → S → Round S) (n : Nat) (s : S) : Ending S := rounds body n 1 s

/-- What a round comes to, where the next one is to find `next` and the end of the loop `post`. -/
inductive Round.Meets (next : S → Prop) (post : Ending S → Prop) : Round S → Prop
  | goesOn {s : S} (h : next s) : Meets next post (.goesOn s)
  | breaks {s : S} (h : post (.done s)) : Meets next post (.breaks s)
  | exits {s : S} (h : post (.exited s)) : Meets next post (.exits s)

variable {body : Nat → S → Round S} {n : Nat}

theorem rounds_invariant (Inv : Nat → S → Prop) (post : Ending S → Prop)
    (hstep : ∀ count ≤ n, ∀ s, Inv count s → (body count s).Meets (Inv (count + 1)) post)
    (hend : ∀ s, Inv (n + 1) s → post (.done s)) {more count : Nat} {s : S} (hcount : count + more = n + 1)
    (h : Inv count s) : post (rounds body more count s) := by
  induction more generalizing count s with
  | zero =>
    rw [Nat.add_zero] at hcount
    rw [hcount] at h
    exact hend s h
  | succ more ih =>
    have hround := hstep count (by omega) s h
    rw [rounds]
    generalize body count s = round at hround
    cases hround with
    | goesOn hnext => exact ih (by omega) hnext
    | breaks hpost => exact hpost
    | exits hpost => exact hpost

theorem whileLe_invariant (Inv : Nat → S → Prop) (post : Ending S → Prop)
    (hstep : ∀ count ≤ n, ∀ s, Inv count s → (body count s).Meets (Inv (count + 1)) post)
    (hend : ∀ s, Inv (n + 1) s → post (.done s)) {s : S} (h : Inv 1 s) : post (whileLe body n s) :=
  rounds_invariant Inv post hstep hend (Nat.add_comm 1 n) h

/-! Rounds that look first whether there is still something to act on, then act, and end the script
where that has failed. -/

def watched (alive : Nat → Bool) (act : Nat → S → S) (ok : Nat → S → Bool) (count : Nat) (s : S) : Round S :=
  if !alive count then .breaks s
  else
    let s := act count s
    if ok count s then .goesOn s else .exits s

def after (act : Nat → S → S) (s : S) : Nat → S
  | 0 => s
  | k + 1 => act (k + 1) (after act s k)

/-- The rounds `1, …, k` found something to act on and have not failed. -/
def Lasting (alive : Nat → Bool) (act : Nat → S → S) (ok : Nat → S → Bool) (s : S) (k : Nat) : Prop :=
  ∀ i, 1 ≤ i → i ≤ k → alive i = true ∧ ok i (after act s i) = true

inductive Watched (alive : Nat → Bool) (act : Nat → S → S) (ok : Nat → S → Bool) (n : Nat) (s : S) : Ending S → Prop
  | done {k : Nat} (hk : k ≤ n) (hlasting : Lasting alive act ok s k) (hend : k < n → alive (k + 1) = false) :
      Watched alive act ok n s (.done (after act s k))
  | exited {k : Nat} (hk : k < n) (hlasting : Lasting alive act ok s k) (halive : alive (k + 1) = true)
      (hfailed : ok (k + 1) (after act s (k + 1)) = false) : Watched alive act ok n s (.exited (after act s (k + 1)))

variable {alive : Nat → Bool} {act : Nat → S → S} {ok : Nat → S → Bool}

theorem Lasting.mono {s : S} {j k : Nat} (h : Lasting alive act ok s k) (hle : j ≤ k) : Lasting alive act ok s j :=
  fun i h1 hi => h i h1 (Nat.le_trans hi hle)

theorem Lasting.succ {s : S} {k : Nat} (h : Lasting alive act ok s k) (halive : alive (k + 1) = true)
    (hok : ok (k + 1) (after act s (k + 1)) = true) : Lasting alive act ok s (k + 1) := by
  intro i h1 hi
  obtain hi | rfl := Nat.le_succ_iff.mp hi
  · exact h i h1 hi
  · exact ⟨halive, hok⟩

theorem watched_meets {s : S} {k : Nat} (hk : k < n) (h : Lasting alive act ok s k) :
    (watched alive act ok (k + 1) (after act s k)).Meets
      (fun t => t = after act s (k + 1) ∧ Lasting alive act ok s (k + 1)) (Watched alive act ok n s) := by
  rw [watched]
  cases halive : alive (k + 1) with
  | false => exact .breaks (.done (Nat.le_of_lt hk) h fun _ => halive)
  | true =>
    rw [Bool.not_true, if_neg Bool.false_ne_true]
    dsimp only
    cases hok : ok (k + 1) (act (k + 1) (after act s k)) with
    | false => exact .exits (.exited hk h halive hok)
    | true => exact .goesOn ⟨rfl, h.succ halive hok⟩

theorem whileLe_watched (alive : Nat → Bool) (act : Nat → S → S) (ok : Nat → S → Bool) (n : Nat) (s : S) :
    Watched alive act ok n s (whileLe (watched alive act ok) n s) := by
  apply whileLe_invariant fun count t => ∃ k, count = k + 1 ∧ t = after act s k ∧ Lasting alive act ok s k
  · rintro count hcount t ⟨k, rfl, rfl, hlasting⟩
    have hmeets := watched_meets hcount hlasting
    generalize watched alive act ok (k + 1) (after act s k) = round at hmeets
    cases hmeets with
    | goesOn hnext => exact .goesOn ⟨k + 1, rfl, hnext⟩
    | breaks hpost => exact .breaks hpost
    | exits hpost => exact .exits hpost
  · rintro t ⟨k, hk, rfl, hlasting⟩
    rw [Nat.add_right_cancel hk]
    exact .done (Nat.le_refl k) hlasting fun hlt => absurd hlt (Nat.lt_irrefl k)
  · exact ⟨0, rfl, rfl, fun i h1 hi => absurd h1 (Nat.not_le_of_lt (Nat.lt_succ_of_le hi))⟩

/-! Rounds of steps, one after the other, with the script at its end after the first that fails. -/

variable {σ : Type*} {fails : σ → Bool}

def attempt (fails : σ → Bool) : List σ → List σ → Round (List σ)
  | [], s => .goesOn s
  | step :: steps, s => if fails step then .exits (s ++ [step]) else attempt fails steps (s ++ [step])

def Round.ending : Round S → Ending S
  | .goesOn s => .done s
  | .breaks s => .done s
  | .exits s => .exited s

/-- The step that has failed is the last one. -/
def Ending.failure : Ending (List σ) → Option σ
  | .done _ => none
  | .exited s => s.getLast?

theorem attempt_append (before after s : List σ) : attempt fails (before ++ after) s =
    match attempt fails before s with
    | .goesOn s => attempt fails after s
    | .breaks s => .breaks s
    | .exits s => .exits s := by
  induction before generalizing s with
  | nil => rfl
  | cons step before ih =>
    rw [List.cons_append, attempt, attempt]
    split
    next => rfl
    next => exact ih _

theorem failure_attempt (steps s : List σ) : (attempt fails steps s).ending.failure = steps.find? fails := by
  induction steps generalizing s with
  | nil => rfl
  | cons step steps ih =>
    rw [attempt]
    split
    next h =>
      rw [List.find?_cons_of_pos h]
      exact List.getLast?_concat
    next h =>
      rw [List.find?_cons_of_neg h]
      exact ih _

theorem attempt_ne_breaks (steps s t : List σ) : attempt fails steps s ≠ .breaks t := by
  induction steps generalizing s with
  | nil => nofun
  | cons step steps ih =>
    rw [attempt]
    split
    next => nofun
    next => exact ih _

theorem attempt_exits_ne_nil {steps s t : List σ} (h : attempt fails steps s = .exits t) : t ≠ [] := by
  induction steps generalizing s with
  | nil => cases h
  | cons step steps ih =>
    rw [attempt] at h
    split at h
    next =>
      cases h
      exact List.concat_ne_nil step s
    next => exact ih h

/-- Rounds of such steps are one list of them. -/
theorem rounds_attempt {body : Nat → List σ → Round (List σ)} {steps : Nat → List σ}
    (h : ∀ count s, body count s = attempt fails (steps count) s) (more count : Nat) (s : List σ) :
    rounds body more count s = (attempt fails ((List.range' count more).flatMap steps) s).ending := by
  induction more generalizing count s with
  | zero => rfl
  | succ more ih =>
    rw [rounds, h, List.range'_succ, List.flatMap_cons, attempt_append]
    have hbreaks := @attempt_ne_breaks _ fails (steps count) s
    cases hround : attempt fails (steps count) s with
    | goesOn t => exact ih (count + 1) t
    | breaks t => exact absurd hround (hbreaks t)
    | exits t => rfl

end RoundLoop
