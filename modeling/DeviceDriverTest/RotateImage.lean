import Mathlib.Tactic.Ring
import DeviceDriverTest.FrameMemory

/-! `rotate_image` of the camera tests: the image is turned by 90 degrees into
the frame buffer and clipped to the screen. -/

namespace DeviceDriverTest
namespace RotateImage

open CountedLoop FrameMemory

structure Copy where
  k : Int
  fb : Frame UInt8

structure Rows where
  j : Int
  fb : Frame UInt8

/-- The two bytes of a pixel, and the step up to the frame buffer's row before. -/
def copyPixel (srcBuf : Nat → UInt8) (screenWidth i index : Nat) (c : Copy) : Copy where
  k := c.k - screenWidth * 2
  fb := (c.fb.store c.k (srcBuf (i + index))).store (c.k + 1) (srcBuf (i + (index + 1)))

def copyRow (srcBuf : Nat → UInt8) (screenWidth rowSize fuel i : Nat) (s : Rows) : Option Rows :=
  (forStep 2 rowSize (fun index c => some (copyPixel srcBuf screenWidth i index c)) fuel 0 ⟨s.j, s.fb⟩).map
    fun c => ⟨s.j + 2, c.fb⟩

def rotateImage (srcBuf : Nat → UInt8) (imageWidth imageHeight : Nat) (fb : Int → UInt8)
    (screenWidth screenHeight fuel : Nat) : Option (Frame UInt8) :=
  -- chop the right part of the image
  let rowSize := if screenHeight < imageWidth then screenHeight * 2 else imageWidth * 2
  let j : Int :=
    if screenHeight < imageWidth then ((screenHeight : Int) - 1) * screenWidth * 2
    else ((imageWidth : Int) - 1) * screenWidth * 2
  -- chop the bottom part of the image
  let totalSize := if screenWidth < imageHeight then screenWidth * imageWidth * 2 else imageWidth * imageHeight * 2
  (forStep (imageWidth * 2) totalSize (copyRow srcBuf screenWidth rowSize fuel) fuel 0 ⟨j, ⟨fb, []⟩⟩).map Rows.fb

/-- The first byte of the pixel in row `y` and column `x` of the image, when `c` columns are shown. -/
def place (screenWidth c y x : Nat) : Int := 2 * (((c : Int) - 1 - x) * screenWidth + y)

section Places

variable {sw sh c y x y' x' : Nat}

theorem place_inside (hy : y < sw) (hx : x < c) (hc : c ≤ sh) :
    0 ≤ place sw c y x ∧ place sw c y x + 1 < 2 * ((sh : Int) * sw) := by
  have hlow : 0 ≤ ((c : Int) - 1 - x) * sw := Int.mul_nonneg (by omega) (Int.natCast_nonneg sw)
  have hhigh := row_before (show (c : Int) - 1 - x < sh by omega) hy
  unfold place
  omega

theorem place_injective (hy : y < sw) (hy' : y' < sw) (h : place sw c y x = place sw c y' x') : y = y' ∧ x = x' := by
  have heq : ((c : Int) - 1 - x) * sw + y = ((c : Int) - 1 - x') * sw + y' := by
    unfold place at h
    omega
  have hx : x = x' := by
    rcases Nat.lt_trichotomy x x' with hlt | rfl | hlt
    · have hrow := row_before (show (c : Int) - 1 - x' < (c : Int) - 1 - x by omega) hy'
      omega
    · rfl
    · have hrow := row_before (show (c : Int) - 1 - x < (c : Int) - 1 - x' by omega) hy
      omega
  subst hx
  exact ⟨by omega, rfl⟩

theorem place_disjoint (hy : y < sw) (hy' : y' < sw) (hne : ¬ (y = y' ∧ x = x')) {b b' : Nat} (hb : b < 2)
    (hb' : b' < 2) : place sw c y x + b ≠ place sw c y' x' + b' := by
  intro h
  refine hne (place_injective (c := c) hy hy' ?_)
  unfold place at *
  omega

end Places

/-! The frame buffer after the first `t` pixels of the clipped image, row by row. -/

structure Rotated (srcBuf : Nat → UInt8) (old : Int → UInt8) (imageWidth sw sh c t : Nat) (fb : Frame UInt8) :
    Prop where
  inside : ∀ p ∈ fb.stores, 0 ≤ p ∧ p < 2 * ((sh : Int) * sw)
  placed : ∀ y x b : Nat, x < c → y < sw → y * c + x < t → b < 2 →
    fb.mem (place sw c y x + b) = srcBuf (y * (imageWidth * 2) + (x * 2 + b))
  kept : ∀ q, (∀ y x b : Nat, x < c → y * c + x < t → b < 2 → q ≠ place sw c y x + b) → fb.mem q = old q

section Loops

variable {srcBuf : Nat → UInt8} {old : Int → UInt8} {iw sw sh c y x t : Nat}

theorem copyPixel_mem (s : Copy) (i index : Nat) (q : Int) :
    (copyPixel srcBuf sw i index s).fb.mem q =
      if q = s.k + 1 then srcBuf (i + (index + 1)) else if q = s.k then srcBuf (i + index) else s.fb.mem q := by
  unfold copyPixel
  by_cases h1 : q = s.k + 1
  · rw [if_pos h1, h1, store_mem_same]
  · rw [if_neg h1, store_mem_other _ _ h1]
    by_cases h0 : q = s.k
    · rw [if_pos h0, h0, store_mem_same]
    · rw [if_neg h0, store_mem_other _ _ h0]

theorem Rotated.step {s : Copy} (hs : Rotated srcBuf old iw sw sh c (y * c + x) s.fb) (hk : s.k = place sw c y x)
    (hy : y < sw) (hx : x < c) (hc : c ≤ sh) :
    Rotated srcBuf old iw sw sh c (y * c + x + 1) (copyPixel srcBuf sw (y * (iw * 2)) (x * 2) s).fb := by
  have hinside := place_inside hy hx hc
  refine ⟨fun p hp => ?_, fun y' x' b hx' hy' hlt hb => ?_, fun q hq => ?_⟩
  · rcases List.mem_append.mp hp with hp | hp
    · rcases List.mem_append.mp hp with hp | hp
      · exact hs.inside p hp
      · rw [List.mem_singleton.mp hp]
        omega
    · rw [List.mem_singleton.mp hp]
      omega
  · rw [copyPixel_mem, hk]
    by_cases hsame : y' = y ∧ x' = x
    · obtain ⟨rfl, rfl⟩ := hsame
      have hbit : b = 0 ∨ b = 1 := by omega
      rcases hbit with rfl | rfl
      · rw [if_neg (by omega), if_pos (by omega)]
        rfl
      · rw [if_pos (by omega)]
    · have hfirst := place_disjoint (c := c) hy' hy hsame hb (show 0 < 2 by decide)
      have hsecond := place_disjoint (c := c) hy' hy hsame hb (show 1 < 2 by decide)
      have hbefore : y' * c + x' < y * c + x := by
        have hne : y' * c + x' ≠ y * c + x := fun h => hsame (index_inj hx' hx h)
        omega
      rw [if_neg (by omega), if_neg (by omega)]
      exact hs.placed y' x' b hx' hy' hbefore hb
  · have hfirst := hq y x 0 hx (Nat.lt_succ_self _) (by decide)
    have hsecond := hq y x 1 hx (Nat.lt_succ_self _) (by decide)
    rw [copyPixel_mem, hk, if_neg (by omega), if_neg (by omega)]
    exact hs.kept q fun y' x' b hx' hlt hb => hq y' x' b hx' (Nat.lt_succ_of_lt hlt) hb

theorem copyPixel_k (s : Copy) (i index : Nat) (hk : s.k = place sw c y x) :
    (copyPixel srcBuf sw i index s).k = place sw c y (x + 1) := by
  show s.k - sw * 2 = _
  rw [hk, place, place]
  push_cast
  ring

def rowLoop (srcBuf : Nat → UInt8) (sw c i : Nat) (s : Rows) : Copy :=
  forRange (fun x => copyPixel srcBuf sw i (x * 2)) c ⟨s.j, s.fb⟩

theorem copyRow_eq {fuel : Nat} (hfuel : c < fuel) (i : Nat) (s : Rows) :
    copyRow srcBuf sw (c * 2) fuel i s = some ⟨s.j + 2, (rowLoop srcBuf sw c i s).fb⟩ := by
  have hloop : forStep 2 (c * 2) (fun index k => some (copyPixel srcBuf sw i index k)) fuel 0 ⟨s.j, s.fb⟩ =
      some (rowLoop srcBuf sw c i s) := forStep_eq (by decide) (fun _ _ _ => rfl) hfuel
  rw [copyRow, hloop]
  rfl

theorem rowLoop_rotated {s : Rows} (hs : Rotated srcBuf old iw sw sh c (y * c) s.fb) (hj : s.j = place sw c y 0)
    (hy : y < sw) (hc : c ≤ sh) :
    Rotated srcBuf old iw sw sh c ((y + 1) * c) (rowLoop srcBuf sw c (y * (iw * 2)) s).fb := by
  rw [Nat.succ_mul]
  have hrun : Rotated srcBuf old iw sw sh c (y * c + c) (rowLoop srcBuf sw c (y * (iw * 2)) s).fb ∧
      (rowLoop srcBuf sw c (y * (iw * 2)) s).k = place sw c y c := by
    refine forRange_invariant (fun x (k : Copy) => Rotated srcBuf old iw sw sh c (y * c + x) k.fb ∧ k.k = place sw c y x)
      ⟨hs, hj⟩ fun x hx k hk => ?_
    exact ⟨hk.1.step hk.2 hy hx hc, copyPixel_k k _ _ hk.2⟩
  exact hrun.1

def rowsLoop (srcBuf : Nat → UInt8) (iw sw c r : Nat) (s : Rows) : Rows :=
  forRange (fun y s => ⟨s.j + 2, (rowLoop srcBuf sw c (y * (iw * 2)) s).fb⟩) r s

theorem rowsLoop_rotated {r : Nat} (hr : r ≤ sw) (hc : c ≤ sh) :
    Rotated srcBuf old iw sw sh c (r * c)
      (rowsLoop srcBuf iw sw c r ⟨((c : Int) - 1) * sw * 2, ⟨old, []⟩⟩).fb := by
  have hrun : Rotated srcBuf old iw sw sh c (r * c)
        (rowsLoop srcBuf iw sw c r ⟨((c : Int) - 1) * sw * 2, ⟨old, []⟩⟩).fb ∧
      (rowsLoop srcBuf iw sw c r ⟨((c : Int) - 1) * sw * 2, ⟨old, []⟩⟩).j = place sw c r 0 := by
    refine forRange_invariant
      (fun y (s : Rows) => Rotated srcBuf old iw sw sh c (y * c) s.fb ∧ s.j = place sw c y 0) ⟨?_, ?_⟩
      fun y hy s hs => ⟨?_, ?_⟩
    · rw [Nat.zero_mul]
      exact ⟨fun p hp => (nomatch hp), fun _ _ _ _ _ hlt => (nomatch hlt), fun _ _ => rfl⟩
    · rw [place]
      push_cast
      ring
    · exact rowLoop_rotated hs.1 hs.2 (Nat.lt_of_lt_of_le hy hr) hc
    · show s.j + 2 = _
      rw [hs.2, place, place]
      push_cast
      ring
  exact hrun.1

theorem rotateImage_eq {ih fuel : Nat} (hiw : 0 < iw) (hc : min iw sh < fuel) (hr : min ih sw < fuel) :
    rotateImage srcBuf iw ih old sw sh fuel =
      some (rowsLoop srcBuf iw sw (min iw sh) (min ih sw)
        ⟨(((min iw sh : Nat) : Int) - 1) * sw * 2, ⟨old, []⟩⟩).fb := by
  have hrowSize : (if sh < iw then sh * 2 else iw * 2) = min iw sh * 2 := by
    split <;> omega
  have hj : (if sh < iw then ((sh : Int) - 1) * sw * 2 else ((iw : Int) - 1) * sw * 2) =
      (((min iw sh : Nat) : Int) - 1) * sw * 2 := by
    split
    · rw [Nat.min_eq_right (by omega)]
    · rw [Nat.min_eq_left (by omega)]
  have htotal : (if sw < ih then sw * iw * 2 else iw * ih * 2) = min ih sw * (iw * 2) := by
    split
    · rw [Nat.min_eq_right (by omega), Nat.mul_assoc]
    · rw [Nat.min_eq_left (by omega), Nat.mul_comm iw ih, Nat.mul_assoc]
  unfold rotateImage
  dsimp only
  rw [hrowSize, hj, htotal, forStep_eq (by omega) (fun y _ s => copyRow_eq hc (y * (iw * 2)) s) hr]
  rfl

theorem rotateImage_rotated (srcBuf : Nat → UInt8) (old : Int → UInt8) (iw ih sw sh : Nat) :
    ∃ fuel fb, rotateImage srcBuf iw ih old sw sh fuel = some fb ∧
      Rotated srcBuf old iw sw sh (min iw sh) (min ih sw * min iw sh) fb := by
  rcases Nat.eq_zero_or_pos iw with rfl | hiw
  · -- an image without columns: the loop over its rows ends at once
    refine ⟨1, ⟨old, []⟩, ?_, ?_⟩
    · simp [rotateImage, forStep]
    · rw [Nat.zero_min, Nat.mul_zero]
      exact ⟨fun p hp => absurd hp List.not_mem_nil, fun _ _ _ hx => absurd hx (Nat.not_lt_zero _), fun _ _ => rfl⟩
  · exact ⟨min iw sh + min ih sw + 1, _, rotateImage_eq hiw (by omega) (by omega),
      rowsLoop_rotated (Nat.min_le_right ih sw) (Nat.min_le_right iw sh)⟩

theorem place_eq (hx : x < c) : place sw c y x = 2 * (((c - 1 - x : Nat) : Int) * sw + y) := by
  have hcast : ((c - 1 - x : Nat) : Int) = (c : Int) - 1 - x := by omega
  rw [place, hcast]

theorem pixel_lt {r : Nat} (hx : x < c) : y * c + x < r * c ↔ y < r := by
  constructor
  · intro h
    by_contra hge
    have hmul : r * c ≤ y * c := Nat.mul_le_mul_right c (Nat.le_of_not_lt hge)
    omega
  · exact fun h => index_lt h hx

/-- Pixel `(y, x)` of the clipped image lies in row `min iw sh - 1 - x` and column `y` of the frame buffer,
no two of them in one place; the other pixels are as they were, and nothing is written outside. -/
theorem rotateImage_right (srcBuf : Nat → UInt8) (old : Int → UInt8) (iw ih sw sh : Nat) :
    ∃ fuel fb, rotateImage srcBuf iw ih old sw sh fuel = some fb ∧
      (∀ p ∈ fb.stores, 0 ≤ p ∧ p < 2 * ((sh : Int) * sw)) ∧
      (∀ y < min ih sw, ∀ x < min iw sh, ∀ b < 2,
        fb.mem (2 * (((min iw sh - 1 - x : Nat) : Int) * sw + y) + (b : Nat)) = srcBuf (2 * (y * iw + x) + b)) ∧
      (∀ y < min ih sw, ∀ x < min iw sh, ∀ y' < min ih sw, ∀ x' < min iw sh,
        ((min iw sh - 1 - x : Nat) : Int) * sw + y = ((min iw sh - 1 - x' : Nat) : Int) * sw + y' →
          y = y' ∧ x = x') ∧
      ∀ q, (∀ y < min ih sw, ∀ x < min iw sh, ∀ b < 2,
        q ≠ 2 * (((min iw sh - 1 - x : Nat) : Int) * sw + y) + (b : Nat)) → fb.mem q = old q := by
  obtain ⟨fuel, fb, hfb, hrot⟩ := rotateImage_rotated srcBuf old iw ih sw sh
  have hscreen {y : Nat} (hy : y < min ih sw) : y < sw := Nat.lt_of_lt_of_le hy (Nat.min_le_right ih sw)
  refine ⟨fuel, fb, hfb, hrot.inside, fun y hy x hx b hb => ?_, fun y hy x hx y' hy' x' hx' heq => ?_, fun q hq => ?_⟩
  · have hplaced := hrot.placed y x b hx (hscreen hy) ((pixel_lt hx).mpr hy) hb
    rw [place_eq hx] at hplaced
    rw [hplaced]
    congr 1
    ring
  · refine place_injective (c := min iw sh) (hscreen hy) (hscreen hy') ?_
    rw [place_eq hx, place_eq hx', heq]
  · refine hrot.kept q fun y x b hx hlt hb => ?_
    rw [place_eq hx]
    exact hq y ((pixel_lt hx).mp hlt) x hx b hb

end Loops

end RotateImage
end DeviceDriverTest
