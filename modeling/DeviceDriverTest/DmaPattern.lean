import DeviceDriverTest.DmaBuffers
import Mathlib.Algebra.Ring.Nat

/-! How much of a shift the pattern of the source buffer shows: which bits of an index the size and the
complement leave visible. -/

namespace DeviceDriverTest

namespace DmaPattern

theorem testBit_fillByte {k : Nat} (hk : k < 8) (n i : Nat) : (fillByte n i).toNat.testBit k =
    ((decide (k = 7) && !i.testBit 0) || (!decide (k < 3) && n.testBit (k - 3)) || i.testBit k) := by
  have hword : k < 32 := by omega
  have hsize : k - 3 < 32 := by omega
  have hshift : k - 7 = 0 := by omega
  have htop : decide (k = 7) = !decide (k < 7) := by
    rw [← decide_not]
    exact decide_eq_decide.mpr (by omega)
  rw [fillByte, ← UInt8.toNat_toBitVec, BitVec.testBit_toNat, UInt32.toBitVec_toUInt8, BitVec.getLsbD_setWidth, htop]
  simp only [UInt32.toBitVec_or, UInt32.toBitVec_shiftLeft, UInt32.toBitVec_not, UInt32.toBitVec_ofNat', BitVec.getLsbD_or,
    BitVec.shiftLeft_eq', BitVec.getLsbD_shiftLeft, BitVec.getLsbD_not, BitVec.getLsbD_ofNat]
  simp [hk, hword, hsize, hshift]

variable {n i j k d : Nat}

theorem testBit_of_fillByte_eq (hk : k < 8) (h : fillByte n i = fillByte n j) :
    ((decide (k = 7) && !i.testBit 0) || (!decide (k < 3) && n.testBit (k - 3)) || i.testBit k) =
      ((decide (k = 7) && !j.testBit 0) || (!decide (k < 3) && n.testBit (k - 3)) || j.testBit k) := by
  rw [← testBit_fillByte hk, ← testBit_fillByte hk, h]

theorem two_pow_dvd_of_testBit {m : Nat} (h : ∀ k < m, d.testBit k = false) : 2 ^ m ∣ d := by
  apply Nat.dvd_of_mod_eq_zero
  apply Nat.eq_of_testBit_eq
  intro k
  rw [Nat.testBit_mod_two_pow, Nat.zero_testBit]
  by_cases hk : k < m
  · rw [h k hk, Bool.and_false]
  · rw [decide_eq_false hk, Bool.false_and]

/-- The size does not reach the three lowest bits. -/
theorem dvd_of_fillByte_eq (h : fillByte n 0 = fillByte n d) : 2 ^ 3 ∣ d := by
  apply two_pow_dvd_of_testBit
  intro k hk
  have hbit := testBit_of_fillByte_eq (show k < 8 by omega) h
  have htop : k ≠ 7 := by omega
  simpa [hk, htop] using hbit.symm

theorem testBit_size (h : 2 ^ 5 ∣ n) (hk : k < 8) : n.testBit (k - 3) = false := by
  obtain ⟨q, rfl⟩ := h
  rw [Nat.testBit_two_pow_mul, decide_eq_false (by omega), Bool.false_and]

/-- A size without low bits hides none of the seven lowest bits. -/
theorem dvd_of_fillByte_eq_of_size (hn : 2 ^ 5 ∣ n) (h : fillByte n 0 = fillByte n d) : 2 ^ 7 ∣ d := by
  apply two_pow_dvd_of_testBit
  intro k hk
  have hbit := testBit_of_fillByte_eq (show k < 8 by omega) h
  have htop : k ≠ 7 := by omega
  simpa [testBit_size hn (show k < 8 by omega), htop] using hbit.symm

theorem dvd_of_fillByte_eq_of_odd (hn : 2 ^ 5 ∣ n) (hd : 2 ^ 7 ∣ d) (h : fillByte n 1 = fillByte n (1 + d)) : 2 ^ 8 ∣ d := by
  obtain ⟨q, rfl⟩ := hd
  have hbit := testBit_of_fillByte_eq (show 7 < 8 by omega) h
  have hodd : (1 + 2 ^ 7 * q).testBit 0 = true := by
    rw [Nat.testBit_zero]
    exact decide_eq_true (by omega)
  have hhigh : (1 + 2 ^ 7 * q).testBit 7 = q.testBit 0 := by
    rw [Nat.add_comm, Nat.testBit_two_pow_mul_add q (by decide)]
    rfl
  have hone : Nat.testBit 1 7 = false := by decide
  rw [testBit_size hn (by omega), hodd, hhigh, hone] at hbit
  have hq : q % 2 = 0 := by simpa using hbit
  omega

/-! A destination that is the source from a later byte on. -/

variable {buffers : DmaBuffersInfo} {mem : Memory}

def Filled (buffers : DmaBuffersInfo) (mem : Memory) : Prop :=
  ∃ before, ∀ i < buffers.bufSize, mem (buffers.srcBuf + i) = fillSourceBuffer buffers before (buffers.srcBuf + i)

def Shifted (buffers : DmaBuffersInfo) (d : Nat) (mem : Memory) : Prop :=
  ∀ i < buffers.bufSize - d, mem (buffers.destBuf + i) = mem (buffers.srcBuf + (i + d))

theorem Filled.byte (h : Filled buffers mem) (hi : i < buffers.bufSize) :
    mem (buffers.srcBuf + i) = fillByte buffers.bufSize i := by
  obtain ⟨before, hbefore⟩ := h
  rw [hbefore i hi, fillSourceBuffer_apply, if_pos ⟨Nat.le_add_right _ _, Nat.add_lt_add_left hi _⟩,
    Nat.add_sub_cancel_left]

theorem verifyLoop_of_ne_zero {srcStep src dest left : Nat} (h : verifyLoop srcStep mem src dest left ≠ 0) :
    verifyLoop srcStep mem src dest left = 1 := by
  induction left generalizing src dest with
  | zero => exact absurd rfl h
  | succ left ih =>
    rw [verifyLoop] at h ⊢
    split
    next => rfl
    next heq =>
      rw [if_neg heq] at h
      exact ih h

/-- Where the comparison goes through, the pattern is the same at both ends of the shift. -/
theorem fillByte_eq_of_verified (hfilled : Filled buffers mem) (hshifted : Shifted buffers d mem)
    (h : verifyBuffers mem buffers = 0) (hi : i + d < buffers.bufSize) :
    fillByte buffers.bufSize i = fillByte buffers.bufSize (i + d) := by
  have hmatches := verifyBuffers_eq_zero.mp h i (by omega)
  rw [hshifted i (by omega)] at hmatches
  rw [← hfilled.byte (show i < buffers.bufSize by omega), ← hfilled.byte hi, hmatches]

theorem verifyBuffers_shifted (hfilled : Filled buffers mem) (hd : d < buffers.bufSize) (hshifted : Shifted buffers d mem)
    (h : ¬ 8 ∣ d ∨ 32 ∣ buffers.bufSize ∧ ¬ 256 ∣ d ∧ 2 ≤ buffers.bufSize - d) : verifyBuffers mem buffers = 1 := by
  apply verifyLoop_of_ne_zero
  intro hverified
  have hzero := fillByte_eq_of_verified hfilled hshifted hverified (i := 0) (by omega)
  rw [Nat.zero_add] at hzero
  obtain hlow | ⟨hsize, hhigh, htwo⟩ := h
  · exact hlow (dvd_of_fillByte_eq hzero)
  · have hone := fillByte_eq_of_verified hfilled hshifted hverified (i := 1) (by omega)
    exact hhigh (dvd_of_fillByte_eq_of_odd hsize (dvd_of_fillByte_eq_of_size hsize hzero) hone)

/-- A copy that begins `d` bytes late. -/
def late (buffers : DmaBuffersInfo) (d : Nat) (mem : Memory) : Memory := fun a =>
  if buffers.destBuf ≤ a ∧ a < buffers.destBuf + (buffers.bufSize - d) then
    mem (buffers.srcBuf + (a - buffers.destBuf + d))
  else mem a

theorem late_src (h : buffers.srcBuf + buffers.bufSize ≤ buffers.destBuf) (hi : i < buffers.bufSize) :
    late buffers d mem (buffers.srcBuf + i) = mem (buffers.srcBuf + i) := if_neg (by omega)

theorem shifted_late (h : buffers.srcBuf + buffers.bufSize ≤ buffers.destBuf) : Shifted buffers d (late buffers d mem) := by
  intro i hi
  rw [late_src h (by omega), late, if_pos ⟨by omega, by omega⟩, Nat.add_sub_cancel_left]

def kilobyte : DmaBuffersInfo := ⟨4096, 0, 8192, 0, 1024⟩

theorem late_kilobyte_rejected :
    verifyBuffers (late kilobyte 128 (fillSourceBuffer kilobyte fun _ => 0)) kilobyte = 1 :=
  verifyBuffers_shifted ⟨fun _ => 0, fun _ hi => late_src (by decide) hi⟩ (by decide) (shifted_late (by decide))
    (Or.inr ⟨by decide, by decide, by decide⟩)

end DmaPattern

end DeviceDriverTest
