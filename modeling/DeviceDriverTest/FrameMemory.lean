import Mathlib.Logic.Function.Basic
import DeviceDriverTest.CountedLoop

/-! Memory around a buffer, addressed from the buffer's start, with the
addresses stored to in their order. -/

namespace FrameMemory

open CountedLoop

structure Frame (V : Type*) where
  mem : Int → V
  stores : List Int

variable {V : Type*}

def Frame.store (f : Frame V) (p : Int) (v : V) : Frame V where
  mem := Function.update f.mem p v
  stores := f.stores ++ [p]

theorem store_mem_same (f : Frame V) (p : Int) (v : V) : (f.store p v).mem p = v := Function.update_self _ _ _

theorem store_mem_other (f : Frame V) {p q : Int} (v : V) (h : q ≠ p) : (f.store p v).mem q = f.mem q :=
  Function.update_of_ne h _ _

/-- A place in row `a` lies in front of every later row. -/
theorem row_before {a a' : Int} {n y : Nat} (h : a < a') (hy : y < n) : a * n + y < a' * n := by
  have hmul : (a + 1) * n ≤ a' * n := Int.mul_le_mul_of_nonneg_right h (Int.natCast_nonneg n)
  rw [Int.add_mul] at hmul
  omega

/-- `for (k = 0; k < n; k++, ptr++) *ptr = v`. -/
def Frame.fill (f : Frame V) (ptr : Int) (n : Nat) (v : V) : Frame V :=
  forRange (fun k f => f.store (ptr + k) v) n f

theorem fill_mem (f : Frame V) (ptr : Int) (n : Nat) (v : V) (q : Int) :
    (f.fill ptr n v).mem q = if ptr ≤ q ∧ q < ptr + n then v else f.mem q := by
  induction n with
  | zero =>
    rw [Frame.fill, forRange_zero, if_neg (by omega)]
  | succ n ih =>
    rw [Frame.fill, forRange_succ, ← Frame.fill]
    by_cases hq : q = ptr + n
    · rw [hq, store_mem_same, if_pos (by omega)]
    · rw [store_mem_other _ _ hq, ih]
      exact if_congr (by omega) rfl rfl

theorem fill_stores (f : Frame V) (ptr : Int) (n : Nat) (v : V) :
    (f.fill ptr n v).stores = f.stores ++ (List.range n).map fun (k : Nat) => ptr + k := by
  induction n with
  | zero => simp [Frame.fill, forRange_zero]
  | succ n ih =>
    rw [Frame.fill, forRange_succ, ← Frame.fill, List.range_succ, List.map_append, ← List.append_assoc, ← ih]
    rfl

end FrameMemory
