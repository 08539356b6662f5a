import Mathlib.Data.List.FinRange
import Mathlib.Logic.Function.Basic

/-! A loop over the cells of an array that changes each cell by itself and
leaves at the first error. -/

namespace ArrayLoop

variable {Cell : Type*} {n : Nat}

def loop (body : Fin n → Cell → Cell × Int) : List (Fin n) → (Fin n → Cell) → (Fin n → Cell) × Int
  | [], cells => (cells, 0)
  | i :: rest, cells =>
    let (cell, error) := body i (cells i)
    let cells := Function.update cells i cell
    if error ≠ 0 then (cells, 1) else loop body rest cells

def sweep (body : Fin n → Cell → Cell × Int) (cells : Fin n → Cell) : (Fin n → Cell) × Int :=
  loop body (List.finRange n) cells

theorem loop_succeeds_iff {body : Fin n → Cell → Cell × Int} {is : List (Fin n)} (hnd : is.Nodup)
    {cells : Fin n → Cell} : (loop body is cells).2 = 0 ↔ ∀ i ∈ is, (body i (cells i)).2 = 0 := by
  induction is generalizing cells with
  | nil => simp [loop]
  | cons i rest ih =>
    rw [loop, List.forall_mem_cons]
    by_cases he : (body i (cells i)).2 = 0
    · have hrest : ∀ j ∈ rest, Function.update cells i (body i (cells i)).1 j = cells j := by
        intro j hj
        have hji : j ≠ i := fun h => hnd.notMem (h ▸ hj)
        exact Function.update_of_ne hji _ _
      have hcongr : (∀ j ∈ rest, (body j (Function.update cells i (body i (cells i)).1 j)).2 = 0) ↔
          ∀ j ∈ rest, (body j (cells j)).2 = 0 :=
        forall₂_congr fun j hj => by rw [hrest j hj]
      simp [he, ih hnd.of_cons, hcongr]
    · simp [he]

theorem loop_apply {body : Fin n → Cell → Cell × Int} {is : List (Fin n)} (hnd : is.Nodup)
    {cells : Fin n → Cell} (h : (loop body is cells).2 = 0) (k : Fin n) :
    (loop body is cells).1 k = if k ∈ is then (body k (cells k)).1 else cells k := by
  induction is generalizing cells with
  | nil => simp [loop]
  | cons i rest ih =>
    rw [loop] at h ⊢
    dsimp only at h ⊢
    by_cases he : (body i (cells i)).2 = 0
    · rw [if_neg (not_not.mpr he)] at h ⊢
      rw [ih hnd.of_cons h]
      by_cases hk : k = i
      · subst hk
        simp [hnd.notMem]
      · simp [hk]
    · rw [if_pos he] at h
      exact absurd h (by decide : (1 : Int) ≠ 0)

theorem sweep_succeeds_iff {body : Fin n → Cell → Cell × Int} {cells : Fin n → Cell} :
    (sweep body cells).2 = 0 ↔ ∀ i, (body i (cells i)).2 = 0 := by
  rw [sweep, loop_succeeds_iff (List.nodup_finRange n)]
  simp

theorem sweep_apply {body : Fin n → Cell → Cell × Int} {cells : Fin n → Cell}
    (h : (sweep body cells).2 = 0) (k : Fin n) : (sweep body cells).1 k = (body k (cells k)).1 := by
  rw [sweep, loop_apply (List.nodup_finRange n) h, if_pos (List.mem_finRange k)]

end ArrayLoop
