import Mathlib.Tactic.TypeStar

/-! Processes that run on, are aborted or exit, with the rules for what holds where
they run on and where they exit. -/

namespace ProcessLogic

variable {State Result : Type*}

inductive Process (State Result : Type*)
  | running (s : State)
  | aborted
  | exited (r : Result)

def Process.andThen (p : Process State Result) (f : State → Process State Result) : Process State Result :=
  match p with
  | .running s => f s
  | .aborted => .aborted
  | .exited r => .exited r

/-- The process is not aborted; `post` holds where it runs on, `final` where it has exited. -/
def Process.Meets (post : State → Prop) (final : Result → Prop) : Process State Result → Prop
  | .running s => post s
  | .aborted => False
  | .exited r => final r

variable {post post' : State → Prop} {final final' : Result → Prop} {p : Process State Result}

theorem Process.Meets.andThen (h : p.Meets post final) {f : State → Process State Result}
    (hf : ∀ s, post s → (f s).Meets post' final) : (p.andThen f).Meets post' final := by
  cases p with
  | running s => exact hf s h
  | aborted => exact h
  | exited r => exact h

theorem Process.Meets.mono (h : p.Meets post final) (hpost : ∀ s, post s → post' s)
    (hfinal : ∀ r, final r → final' r) : p.Meets post' final' := by
  cases p with
  | running s => exact hpost s h
  | aborted => exact h
  | exited r => exact hfinal r h

/-- A fact that does not depend on the state. -/
theorem Process.Meets.and_fact (h : p.Meets post final) {fact : Prop} (hfact : fact) :
    p.Meets (fun s => fact ∧ post s) final :=
  h.mono (fun _ hs => ⟨hfact, hs⟩) fun _ hr => hr

theorem Process.Meets.exited (h : p.Meets (fun _ => False) final) : ∃ r, p = .exited r ∧ final r := by
  cases p with
  | running s => exact h.elim
  | aborted => exact h.elim
  | exited r => exact ⟨r, rfl, h⟩

end ProcessLogic
