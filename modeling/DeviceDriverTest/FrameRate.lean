import Mathlib.Algebra.Ring.Int.Defs
import Mathlib.Algebra.GroupWithZero.Nat
import Mathlib.Data.List.Chain

/-! `calc_fps` of the camera tests: a call for each frame, a frame rate printed
for each window of `wrap_count` frames. -/

namespace DeviceDriverTest
namespace FrameRate

structure Timeval where
  sec : Int
  usec : Int
deriving DecidableEq

/-- The static variables. -/
structure Fps where
  frame : UInt32
  stv : Timeval
  etv : Timeval
deriving DecidableEq

/-- What a printed rate is computed from. -/
structure Window where
  frame : UInt32
  sec : Int
  usec : Int
  stv : Timeval
  etv : Timeval
deriving DecidableEq

def calcFps (timestamp : Timeval) (wrapCount : Int32) (s : Fps) : Fps × Option Window :=
  let stv := if s.frame = 0 then timestamp else s.stv
  if s.frame = wrapCount.toUInt32 then
    let etv := timestamp
    let sec := etv.sec - stv.sec
    let usec := if etv.usec > stv.usec then etv.usec - stv.usec else stv.usec - etv.usec
    (⟨0, timestamp, etv⟩, some ⟨s.frame, sec, usec, stv, etv⟩)
  else (⟨s.frame + 1, stv, s.etv⟩, none)

/-- The calls on the first `n` timestamps, and each window with the number of the call that ends it. -/
def run (ts : Nat → Timeval) (wrapCount : Int32) : Nat → Fps × List (Nat × Window)
  | 0 => (⟨0, ⟨0, 0⟩, ⟨0, 0⟩⟩, [])
  | n + 1 =>
    let r := run ts wrapCount n
    let c := calcFps (ts n) wrapCount r.1
    (c.1, r.2 ++ c.2.toList.map (n, ·))

def Timeval.micros (t : Timeval) : Int := t.sec * 1000000 + t.usec

def Window.elapsed (w : Window) : Int := w.sec * 1000000 + w.usec

structure WindowsRight (ts : Nat → Timeval) (windows : List (Nat × Window)) : Prop where
  elapsed : ∀ w ∈ windows, w.2.elapsed = w.2.etv.micros - w.2.stv.micros
  first : ∀ w ∈ windows.head?, w.2.stv = ts 0
  tiled : windows.IsChain fun w w' => w'.2.stv = w.2.etv
  frames : ∀ w ∈ windows.getLast?, (windows.map (·.2.frame.toNat)).sum = w.1
  intervals : ∀ w ∈ windows.getLast?, (windows.map (·.2.elapsed)).sum = (ts w.1).micros - (ts 0).micros

section Run

variable (ts : Nat → Timeval) (wrapCount : Int32)

def windowOf (frame : UInt32) (stv etv : Timeval) : Window where
  frame := frame
  sec := etv.sec - stv.sec
  usec := if etv.usec > stv.usec then etv.usec - stv.usec else stv.usec - etv.usec
  stv := stv
  etv := etv

def period : Nat := wrapCount.toUInt32.toNat + 1

def window (k : Nat) : Nat × Window :=
  (k * period wrapCount + wrapCount.toUInt32.toNat,
    windowOf wrapCount.toUInt32 (ts (k * period wrapCount)) (ts (k * period wrapCount + wrapCount.toUInt32.toNat)))

/-- After `k` windows and `j` frames of the next. -/
structure Counting (k j : Nat) (r : Fps × List (Nat × Window)) : Prop where
  le : j ≤ wrapCount.toUInt32.toNat
  frame : r.1.frame.toNat = j
  stv : j ≠ 0 → r.1.stv = ts (k * period wrapCount)
  windows : r.2 = (List.range k).map (window ts wrapCount)

theorem windowOf_elapsed_iff (frame : UInt32) (stv etv : Timeval) :
    (windowOf frame stv etv).elapsed = etv.micros - stv.micros ↔ stv.usec ≤ etv.usec := by
  simp only [windowOf, Window.elapsed, Timeval.micros]
  split <;> omega

variable {ts wrapCount} {k j : Nat} {s : Fps}

theorem stv_of_counting (hframe : s.frame.toNat = j) (hstv : j ≠ 0 → s.stv = ts (k * period wrapCount)) :
    (if s.frame = 0 then ts (k * period wrapCount + j) else s.stv) = ts (k * period wrapCount) := by
  split
  · next hzero =>
    have hj : j = 0 := by rw [← hframe, hzero]; rfl
    rw [hj, Nat.add_zero]
  · next hne =>
    refine hstv fun hj => hne ?_
    exact UInt32.toNat_inj.mp (hframe.trans hj)

theorem calcFps_last (hframe : s.frame = wrapCount.toUInt32) (hstv : s.frame.toNat ≠ 0 → s.stv = ts (k * period wrapCount)) :
    calcFps (ts (k * period wrapCount + wrapCount.toUInt32.toNat)) wrapCount s =
      (⟨0, ts (k * period wrapCount + wrapCount.toUInt32.toNat), ts (k * period wrapCount + wrapCount.toUInt32.toNat)⟩,
        some (window ts wrapCount k).2) := by
  have h := stv_of_counting (j := wrapCount.toUInt32.toNat) (by rw [hframe]) fun hne => hstv (hframe ▸ hne)
  simp only [calcFps, if_pos hframe, h]
  rw [hframe]
  rfl

theorem Counting.step {r : Fps × List (Nat × Window)} (h : Counting ts wrapCount k j r) :
    ∃ k' j', k' * period wrapCount + j' = k * period wrapCount + j + 1 ∧
      Counting ts wrapCount k' j' ((calcFps (ts (k * period wrapCount + j)) wrapCount r.1).1,
        r.2 ++ (calcFps (ts (k * period wrapCount + j)) wrapCount r.1).2.toList.map (k * period wrapCount + j, ·)) := by
  obtain ⟨hle, hframe, hstv, hwindows⟩ := h
  by_cases hlast : j = wrapCount.toUInt32.toNat
  · subst hlast
    have hcall := calcFps_last (UInt32.toNat_inj.mp hframe) fun hne => hstv (hframe ▸ hne)
    refine ⟨k + 1, 0, by simp only [Nat.add_mul, period]; omega, ?_⟩
    rw [hcall]
    refine ⟨Nat.zero_le _, rfl, fun h => absurd rfl h, ?_⟩
    rw [List.range_succ, List.map_append, ← hwindows]
    rfl
  · have hne : r.1.frame ≠ wrapCount.toUInt32 := fun heq => hlast (by rw [← hframe, heq])
    have hlt : j + 1 < 2 ^ 32 := by have := wrapCount.toUInt32.toNat_lt; omega
    refine ⟨k, j + 1, by omega, ?_⟩
    simp only [calcFps, if_neg hne, stv_of_counting hframe hstv]
    refine ⟨by omega, ?_, fun _ => rfl, by simpa using hwindows⟩
    rw [UInt32.toNat_add, hframe]
    exact Nat.mod_eq_of_lt hlt

theorem run_counting (ts : Nat → Timeval) (wrapCount : Int32) (n : Nat) :
    ∃ k j, k * period wrapCount + j = n ∧ Counting ts wrapCount k j (run ts wrapCount n) := by
  induction n with
  | zero => exact ⟨0, 0, by omega, Nat.zero_le _, rfl, fun h => absurd rfl h, rfl⟩
  | succ n ih =>
    obtain ⟨k, j, rfl, hcounting⟩ := ih
    exact hcounting.step

theorem frames_counted (ts : Nat → Timeval) (wrapCount : Int32) (k : Nat) :
    (((List.range k).map (window ts wrapCount)).map (·.2.frame.toNat)).sum = k * wrapCount.toUInt32.toNat := by
  induction k with
  | zero => simp
  | succ k ih =>
    rw [List.range_succ, List.map_append, List.map_append, List.sum_append, ih, Nat.succ_mul]
    simp [window, windowOf]

/-- A second window leaves a frame out: the one between the end of the first and its own start. -/
theorem windows_le_one (h : WindowsRight ts ((List.range k).map (window ts wrapCount))) : k < 2 := by
  by_contra hk
  obtain ⟨m, rfl⟩ : ∃ m, k = m + 2 := ⟨k - 2, by omega⟩
  have hframes := h.frames (window ts wrapCount (m + 1)) (by simp [List.range_succ])
  rw [frames_counted] at hframes
  simp only [window, period, Nat.add_mul, Nat.mul_add] at hframes
  omega

theorem right_one_iff :
    WindowsRight ts [window ts wrapCount 0] ↔ (ts 0).usec ≤ (ts wrapCount.toUInt32.toNat).usec := by
  have helapsed := windowOf_elapsed_iff wrapCount.toUInt32 (ts 0) (ts wrapCount.toUInt32.toNat)
  have hwindow : window ts wrapCount 0 =
      (wrapCount.toUInt32.toNat, windowOf wrapCount.toUInt32 (ts 0) (ts wrapCount.toUInt32.toNat)) := by
    simp [window]
  rw [hwindow]
  constructor
  · intro h
    exact helapsed.mp (h.elapsed _ (List.mem_singleton_self _))
  · intro h
    have hdiff := helapsed.mpr h
    refine ⟨fun w hw => ?_, by simp [windowOf], by simp, by simp [windowOf], by simpa using hdiff⟩
    rw [List.mem_singleton.mp hw]
    exact hdiff

structure Timestamps (ts : Nat → Timeval) : Prop where
  usec : ∀ i, 0 ≤ (ts i).usec ∧ (ts i).usec < 1000000
  mono : ∀ i, (ts i).micros ≤ (ts (i + 1)).micros

/-- A fifth of a second across the turn of the second. -/
def turnOfSecond : Nat → Timeval
  | 0 => ⟨0, 900000⟩
  | _ => ⟨1, 100000⟩

def everySecond (i : Nat) : Timeval := ⟨i, 0⟩

theorem turnOfSecond_timestamps : Timestamps turnOfSecond where
  usec i := by cases i <;> simp [turnOfSecond]
  mono i := by cases i <;> simp [turnOfSecond, Timeval.micros]

theorem everySecond_timestamps : Timestamps everySecond where
  usec i := by simp [everySecond]
  mono i := by simp only [everySecond, Timeval.micros]; omega

end Run

end FrameRate
end DeviceDriverTest
