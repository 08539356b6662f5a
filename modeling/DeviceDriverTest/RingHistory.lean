import Mathlib.Algebra.GroupWithZero.Nat
import Mathlib.Data.Fin.Basic
import Mathlib.Logic.Function.Basic

/-! A ring of places that are written one after the other, round and round. -/

namespace RingHistory

variable {α : Type*} {size : Nat} [NeZero size]

/-- The ring after `n` writes, write `k` of them being `history k`. -/
def written (first : α) (history : Nat → α) : Nat → Fin size → α
  | 0 => fun _ => first
  | n + 1 => Function.update (written first history n) (Fin.ofNat size n) (history n)

theorem ofNat_ne {n k : Nat} (hpos : 0 < k) (hk : k < size) : Fin.ofNat size (n + k) ≠ Fin.ofNat size n := by
  intro h
  have hval : (n + k) % size = n % size := congrArg Fin.val h
  have hzero : (n + k - n) % size = 0 := Nat.sub_mod_eq_zero_of_mod_eq hval
  rw [Nat.add_sub_cancel_left, Nat.mod_eq_of_lt hk] at hzero
  omega

/-- The place that is written `k` writes from now was written one round before. -/
theorem written_ahead (first : α) (history : Nat → α) (n : Nat) {k : Nat} (hk : k < size) :
    written first history n (Fin.ofNat size (n + k)) =
      if n + k < size then first else history (n + k - size) := by
  induction n generalizing k with
  | zero => rw [Nat.zero_add, if_pos hk, written]
  | succ n ih =>
    rw [written]
    by_cases hlast : k + 1 = size
    · have hplace : Fin.ofNat size (n + 1 + k) = Fin.ofNat size n := by
        apply Fin.ext
        show (n + 1 + k) % size = n % size
        rw [Nat.add_assoc, Nat.add_comm 1 k, hlast, Nat.add_mod_right]
      have hback : n + 1 + k - size = n := by omega
      rw [hplace, Function.update_self, if_neg (by omega), hback]
    · have hnext : n + 1 + k = n + (k + 1) := by omega
      rw [hnext, Function.update_of_ne (ofNat_ne (Nat.succ_pos k) (by omega)), ih (by omega)]

/-- The place to write next. -/
theorem written_next (first : α) (history : Nat → α) (n : Nat) :
    written first history n (Fin.ofNat size n) = if n < size then first else history (n - size) :=
  written_ahead first history n (Nat.pos_of_ne_zero (NeZero.ne size))

end RingHistory
