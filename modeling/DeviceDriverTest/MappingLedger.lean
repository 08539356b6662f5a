import Mathlib.Logic.Function.Basic
import DeviceDriverTest.ScheduledRun

/-! A ledger of mappings, one for each key. A mapping is in force from the call
that makes it until it is undone; the rounds that use it must find it in force. -/

namespace MappingLedger

open ScheduledRun

variable {Key : Type*} [DecidableEq Key]

inductive Op (Key : Type*) where
  | map (k : Key)
  | unmap (k : Key)
  | complete (k : Key)
  deriving DecidableEq

def next (live : Key → Bool) : Op Key → Key → Bool
  | .map k => Function.update live k true
  | .unmap k => Function.update live k false
  | .complete _ => live

/-- What is undone is in force, so no mapping is undone twice; and a round that
completes finds the mapping it used in force. -/
def Allowed (live : Key → Bool) : Op Key → Prop
  | .map _ => True
  | .unmap k => live k = true
  | .complete k => live k = true

def Disciplined (live : Key → Bool) (ops : List (Op Key)) : Prop :=
  StepsMeet next Allowed live ops

theorem disciplined_nil (live : Key → Bool) : Disciplined live [] := trivial

theorem disciplined_cons {live : Key → Bool} {op : Op Key} {ops : List (Op Key)} :
    Disciplined live (op :: ops) ↔ Allowed live op ∧ Disciplined (next live op) ops := Iff.rfl

theorem disciplined_append {live : Key → Bool} {ops ops' : List (Op Key)} :
    Disciplined live (ops ++ ops') ↔ Disciplined live ops ∧ Disciplined (ops.foldl next live) ops' :=
  stepsMeet_append

theorem live_unmap_iff {live : Key → Bool} {k : Key} {ks : List Key} :
    (∀ j ∈ ks, next live (.unmap k) j = true) ↔ k ∉ ks ∧ ∀ j ∈ ks, live j = true := by
  constructor
  · intro h
    have hnot : k ∉ ks := fun hk => by simpa [next] using h k hk
    refine ⟨hnot, fun j hj => ?_⟩
    have hne : j ≠ k := fun heq => hnot (heq ▸ hj)
    exact (Function.update_of_ne hne _ _).symm.trans (h j hj)
  · rintro ⟨hnot, h⟩ j hj
    have hne : j ≠ k := fun heq => hnot (heq ▸ hj)
    exact (Function.update_of_ne hne _ _).trans (h j hj)

theorem foldl_maps {live : Key → Bool} {ks : List Key} {k : Key} (h : k ∈ ks) :
    (ks.map Op.map).foldl next live k = true := by
  suffices hkeep : ∀ (ks : List Key) (live : Key → Bool), live k = true ∨ k ∈ ks →
      (ks.map Op.map).foldl next live k = true from hkeep ks live (.inr h)
  intro ks
  induction ks with
  | nil => simp
  | cons j ks ih =>
    intro live hk
    apply ih
    by_cases hj : k = j
    · exact .inl (by simp [next, hj])
    · have hkeep : next live (.map j) k = live k := Function.update_of_ne hj _ _
      rw [hkeep]
      simpa [hj] using hk

end MappingLedger
