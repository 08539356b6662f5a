import Mathlib.Data.List.Count
import Mathlib.Tactic.Common

/-! A ledger of allocations: the blocks an allocator has given out and the
pointers that were freed, `none` for NULL. -/

namespace AllocationLedger

structure Ledger where
  allocated : List Nat
  freed : List (Option Nat)
  deriving DecidableEq

def Ledger.empty : Ledger := ⟨[], []⟩

/-- Blocks are numbered as they are given out. -/
def Ledger.alloc (l : Ledger) (granted : Bool) : Ledger × Option Nat :=
  if granted then ({ l with allocated := l.allocated ++ [l.allocated.length] }, some l.allocated.length)
  else (l, none)

def Ledger.free (l : Ledger) (p : Option Nat) : Ledger := { l with freed := l.freed ++ [p] }

def Ledger.Balanced (l : Ledger) : Prop :=
  (∀ b ∈ l.allocated, l.freed.count (some b) = 1) ∧ ∀ p ∈ l.freed, ∃ b ∈ l.allocated, p = some b

variable {l : Ledger} {b : Nat}

theorem balanced_empty : Ledger.empty.Balanced :=
  ⟨fun _ hb => absurd hb List.not_mem_nil, fun _ hp => absurd hp List.not_mem_nil⟩

theorem not_balanced_of_leak (hmem : b ∈ l.allocated) (hfreed : some b ∉ l.freed) : ¬ l.Balanced := by
  intro h
  have hone := h.1 b hmem
  rw [List.count_eq_zero_of_not_mem hfreed] at hone
  contradiction

end AllocationLedger
