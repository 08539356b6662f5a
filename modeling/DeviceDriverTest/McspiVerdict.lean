import DeviceDriverTest.CString

/-! The verdict the McSPI test prints after a transfer: the two buffers are
compared as strings. -/

namespace DeviceDriverTest
namespace McspiDatatest

open CString

/-- The memory from the start of each buffer on, as it is when `spi_sync` has returned. -/
structure Memory where
  txBuf : Nat → UInt8
  rxBuf : Nat → UInt8
  txBuf2 : Nat → UInt8
  rxBuf2 : Nat → UInt8

/-- The text printed and the bytes read of each buffer, `none` when the comparison has no end within
the fuel. -/
def transmissionStatus (tx rx : Nat → UInt8) (fuel : Nat) : Option (String × Nat) :=
  (strcmp tx rx fuel).map fun (r, reads) => (if r ≠ 0 then "FAIL" else "SUCCESS", reads)

def spitstTrans1 (mem : Memory) (fuel : Nat) : Option (String × Nat) := transmissionStatus mem.txBuf mem.rxBuf fuel

def spitstTrans2 (mem : Memory) (fuel : Nat) : Option (String × Nat) :=
  transmissionStatus mem.txBuf2 mem.rxBuf2 fuel

/-- The verdict on two buffers of the given size is printed, without a read behind them, and is success
exactly for equal bytes. -/
def VerdictRight (size : Nat) (tx rx : Nat → UInt8) (verdict : Nat → Option (String × Nat)) : Prop :=
  ∃ fuel text reads, verdict fuel = some (text, reads) ∧ reads ≤ size ∧
    (text = "SUCCESS" ↔ ∀ i < size, tx i = rx i)

/-- The buffers differ with no zero byte before the first difference, or are equal and have a zero byte. -/
def Distinguishable (size : Nat) (tx rx : Nat → UInt8) : Prop :=
  (∃ d < size, tx d ≠ rx d ∧ ∀ i < d, tx i = rx i ∧ tx i ≠ 0) ∨
    ((∀ i < size, tx i = rx i) ∧ ∃ z < size, tx z = 0)

theorem transmissionStatus_right_iff (size : Nat) (tx rx : Nat → UInt8) :
    VerdictRight size tx rx (transmissionStatus tx rx) ↔ Distinguishable size tx rx := by
  rw [Distinguishable, ← strcmp_decides_iff]
  have htext (r : Int) : (if r ≠ 0 then "FAIL" else "SUCCESS") = "SUCCESS" ↔ r = 0 := by
    by_cases hr : r = 0 <;> simp [hr]
  constructor
  · rintro ⟨fuel, text, reads, hverdict, hreads, hiff⟩
    obtain ⟨⟨r, n⟩, hcmp, hmap⟩ := Option.map_eq_some_iff.mp hverdict
    obtain ⟨rfl, rfl⟩ := Prod.mk.inj hmap
    exact ⟨fuel, r, n, hcmp, hreads, (htext r).symm.trans hiff⟩
  · rintro ⟨fuel, r, reads, hcmp, hreads, hiff⟩
    exact ⟨fuel, _, reads, Option.map_eq_some_iff.mpr ⟨(r, reads), hcmp, rfl⟩, hreads, (htext r).trans hiff⟩

theorem verdicts_right_iff (size : Nat) (mem : Memory) :
    (VerdictRight size mem.txBuf mem.rxBuf (spitstTrans1 mem) ↔ Distinguishable size mem.txBuf mem.rxBuf) ∧
      (VerdictRight size mem.txBuf2 mem.rxBuf2 (spitstTrans2 mem) ↔ Distinguishable size mem.txBuf2 mem.rxBuf2) :=
  ⟨transmissionStatus_right_iff size _ _, transmissionStatus_right_iff size _ _⟩

def differBehindZero : Memory where
  txBuf := fun _ => 0
  rxBuf := fun i => if i = 0 then 0 else 1
  txBuf2 := fun _ => 0
  rxBuf2 := fun _ => 0

theorem differBehindZero_success : spitstTrans1 differBehindZero 1 = some ("SUCCESS", 1) ∧
    ¬ VerdictRight 1024 differBehindZero.txBuf differBehindZero.rxBuf (spitstTrans1 differBehindZero) := by
  refine ⟨rfl, fun h => ?_⟩
  rcases (transmissionStatus_right_iff 1024 _ _).mp h with ⟨d, -, hne, hbefore⟩ | ⟨hall, -⟩
  · cases d with
    | zero => exact hne rfl
    | succ d => exact (hbefore 0 (Nat.succ_pos d)).2 rfl
  · exact absurd (hall 1 (by decide)) (by decide)

end McspiDatatest
end DeviceDriverTest
