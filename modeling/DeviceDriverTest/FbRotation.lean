import Mathlib.Data.Int.Notation
import Mathlib.Tactic.SplitIfs

/-! The rotation of the framebuffer: each call makes the new geometry from the
current one. -/

namespace DeviceDriverTest

namespace FbRotation

/-- `struct fb_var_screeninfo`, as far as the rotation reads and writes it. -/
structure VarScreeninfo where
  xres : Nat
  yres : Nat
  xoffset : Nat
  yoffset : Nat
  rotate : Nat
  deriving DecidableEq

/-- The return values of the three ioctls of a call. -/
structure Answers where
  getVar : Int
  putVar : Int
  getAgain : Int

/-- The geometry that the current one has at rotation 0. -/
def unrotated (vp : VarScreeninfo) : Nat × Nat :=
  if vp.rotate = 0 ∨ vp.rotate = 180 then (vp.xres, vp.yres)
  else if vp.rotate = 90 ∨ vp.rotate = 270 then (vp.yres, vp.xres)
  else (0, 0)

def get_h4_rotated_var (ret : Int) (vp : VarScreeninfo) (rotation : Int) : Int × VarScreeninfo :=
  if ret ≠ 0 then (ret, vp)
  else if rotation ≥ 0 then
    let (xres, yres) := unrotated vp
    if rotation = 90 then (ret, ⟨yres, xres, 0, 0, 90⟩)
    else if rotation = 180 then (ret, ⟨xres, yres, 0, 0, 180⟩)
    else if rotation = 270 then (ret, ⟨yres, xres, 0, 0, 270⟩)
    else (ret, ⟨xres, yres, 0, 0, 0⟩)
  else (ret, vp)

/-- The return value, and the screen info that the driver has afterwards. -/
def rotate (a : Answers) (deg : Int) (driver : VarScreeninfo) : Int × VarScreeninfo :=
  let (ret, v) := get_h4_rotated_var a.getVar driver deg
  if ret ≠ 0 then (ret, driver)
  else if a.putVar ≠ 0 then (a.putVar, driver)
  else if a.getAgain ≠ 0 then (a.getAgain, v)
  else (0, v)

def rotateAll (calls : List (Answers × Int)) (driver : VarScreeninfo) : VarScreeninfo :=
  calls.foldl (fun driver c => (rotate c.1 c.2 driver).2) driver

/-- The rotation that a call asks for, if it asks for one and gets through to the driver. -/
def request (a : Answers) (deg : Int) : Option Nat :=
  if a.getVar = 0 ∧ a.putVar = 0 ∧ 0 ≤ deg then
    some (if deg = 90 then 90 else if deg = 180 then 180 else if deg = 270 then 270 else 0)
  else none

def lastRotation (initial : Nat) (calls : List (Answers × Int)) : Nat :=
  calls.foldl (fun r c => (request c.1 c.2).getD r) initial

abbrev Upright (r : Nat) : Prop := r = 0 ∨ r = 180

abbrev Turned (r : Nat) : Prop := r = 90 ∨ r = 270

/-- A base geometry at rotation `r`. -/
def geometry (base : Nat × Nat) (r : Nat) : Nat × Nat := if Upright r then base else base.swap

def VarScreeninfo.resolution (v : VarScreeninfo) : Nat × Nat := (v.xres, v.yres)

theorem geometry_upright {r : Nat} (h : Upright r) (base : Nat × Nat) : geometry base r = base := if_pos h

theorem geometry_turned {r : Nat} (h : Turned r) (base : Nat × Nat) : geometry base r = base.swap :=
  if_neg (by omega)

theorem unrotated_spec {v : VarScreeninfo} (h : Upright v.rotate ∨ Turned v.rotate) :
    geometry (unrotated v) v.rotate = v.resolution := by
  rw [unrotated]
  obtain h | h := h
  · rw [if_pos h, geometry_upright h]
    rfl
  · have hne : ¬ Upright v.rotate := by omega
    rw [if_neg hne, if_pos h, geometry_turned h]
    rfl

/-- A screen info at one of the four rotations, of a screen with the given base. -/
structure Standing (base : Nat × Nat) (r : Nat) (v : VarScreeninfo) : Prop where
  rotate : v.rotate = r
  known : Upright r ∨ Turned r
  resolution : v.resolution = geometry base r

variable {base : Nat × Nat} {r : Nat} {v : VarScreeninfo}

theorem Standing.unrotated (h : Standing base r v) : unrotated v = base := by
  obtain ⟨rfl, hknown, hres⟩ := h
  have hspec := unrotated_spec hknown
  rw [hres] at hspec
  obtain hup | hturned := hknown
  · rwa [geometry_upright hup, geometry_upright hup] at hspec
  · rw [geometry_turned hturned, geometry_turned hturned] at hspec
    have hswap := congrArg Prod.swap hspec
    rwa [Prod.swap_swap, Prod.swap_swap] at hswap

/-- The case table: whatever the rotation has been, the geometry is the base at the new one. -/
theorem Standing.get_h4_rotated_var (h : Standing base r v) {rotation : Int} (hrot : 0 ≤ rotation) :
    ∃ v', get_h4_rotated_var 0 v rotation = (0, v') ∧ Standing base
      (if rotation = 90 then 90 else if rotation = 180 then 180 else if rotation = 270 then 270 else 0) v' := by
  rw [FbRotation.get_h4_rotated_var, if_neg (not_not_intro rfl), if_pos hrot, h.unrotated]
  split_ifs
  · exact ⟨_, rfl, rfl, by decide, rfl⟩
  · exact ⟨_, rfl, rfl, by decide, rfl⟩
  · exact ⟨_, rfl, rfl, by decide, rfl⟩
  · exact ⟨_, rfl, rfl, by decide, rfl⟩

theorem get_h4_rotated_var_neg {rotation : Int} (hrot : ¬ 0 ≤ rotation) (v : VarScreeninfo) :
    get_h4_rotated_var 0 v rotation = (0, v) := by
  rw [get_h4_rotated_var, if_neg (not_not_intro rfl), if_neg hrot]

/-- A call that gets through to the driver leaves it with the screen info that was made. -/
theorem rotate_through {a : Answers} (hget : a.getVar = 0) (hput : a.putVar = 0) {deg : Int} {v' : VarScreeninfo}
    (h : get_h4_rotated_var 0 v deg = (0, v')) : (rotate a deg v).2 = v' := by
  rw [rotate, hget, h, hput]
  dsimp only
  rw [if_neg (not_not_intro rfl), if_neg (not_not_intro rfl)]
  split_ifs
  · rfl
  · rfl

theorem rotate_failed {a : Answers} (h : ¬ (a.getVar = 0 ∧ a.putVar = 0)) (deg : Int) (v : VarScreeninfo) :
    (rotate a deg v).2 = v := by
  by_cases hget : a.getVar = 0
  · have hput : a.putVar ≠ 0 := fun hput => h ⟨hget, hput⟩
    rw [rotate]
    dsimp only
    rw [if_pos hput]
    split_ifs
    · rfl
    · rfl
  · rw [rotate, get_h4_rotated_var, if_pos hget]
    dsimp only
    rw [if_pos hget]

theorem Standing.step (h : Standing base r v) (a : Answers) (deg : Int) :
    Standing base ((request a deg).getD r) (FbRotation.rotate a deg v).2 := by
  by_cases hthrough : a.getVar = 0 ∧ a.putVar = 0
  · obtain ⟨hget, hput⟩ := hthrough
    by_cases hdeg : 0 ≤ deg
    · obtain ⟨v', hvar, hstanding⟩ := h.get_h4_rotated_var hdeg
      rw [rotate_through hget hput hvar, request, if_pos ⟨hget, hput, hdeg⟩]
      exact hstanding
    · rw [rotate_through hget hput (get_h4_rotated_var_neg hdeg v), request, if_neg fun hall => hdeg hall.2.2]
      exact h
  · rw [rotate_failed hthrough, request, if_neg fun hall => hthrough ⟨hall.1, hall.2.1⟩]
    exact h

theorem Standing.run (h : Standing base r v) (calls : List (Answers × Int)) :
    Standing base (lastRotation r calls) (rotateAll calls v) := by
  induction calls generalizing r v with
  | nil => exact h
  | cons c calls ih => exact ih (h.step c.1 c.2)

/-- The geometry after any calls is the base geometry at the rotation asked for last. -/
theorem rotateAll_resolution (calls : List (Answers × Int)) (v : VarScreeninfo)
    (h : Upright v.rotate ∨ Turned v.rotate) :
    (rotateAll calls v).rotate = lastRotation v.rotate calls ∧
      (Upright (rotateAll calls v).rotate ∧ (rotateAll calls v).resolution = unrotated v ∨
        Turned (rotateAll calls v).rotate ∧ (rotateAll calls v).resolution = (unrotated v).swap) := by
  have hstart : Standing (unrotated v) v.rotate v := ⟨rfl, h, (unrotated_spec h).symm⟩
  obtain ⟨hrotate, hknown, hres⟩ := hstart.run calls
  refine ⟨hrotate, ?_⟩
  rw [hrotate, hres]
  obtain hup | hturned := hknown
  · exact Or.inl ⟨hup, geometry_upright hup _⟩
  · exact Or.inr ⟨hturned, geometry_turned hturned _⟩

theorem rotateAll_resolution_turned :
    (rotateAll [(⟨0, 0, 0⟩, 90)] ⟨240, 320, 0, 0, 0⟩).rotate = lastRotation 0 [(⟨0, 0, 0⟩, 90)] ∧
      (Upright (rotateAll [(⟨0, 0, 0⟩, 90)] ⟨240, 320, 0, 0, 0⟩).rotate ∧
          (rotateAll [(⟨0, 0, 0⟩, 90)] ⟨240, 320, 0, 0, 0⟩).resolution = (240, 320) ∨
        Turned (rotateAll [(⟨0, 0, 0⟩, 90)] ⟨240, 320, 0, 0, 0⟩).rotate ∧
          (rotateAll [(⟨0, 0, 0⟩, 90)] ⟨240, 320, 0, 0, 0⟩).resolution = (320, 240)) :=
  rotateAll_resolution [(⟨0, 0, 0⟩, 90)] ⟨240, 320, 0, 0, 0⟩ (by decide)

end FbRotation

end DeviceDriverTest
