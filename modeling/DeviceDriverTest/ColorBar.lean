import Mathlib.Data.List.Nodup
import Mathlib.Tactic.Ring
import DeviceDriverTest.FrameMemory

/-! The rolling colour bars: which lines of a frame `color_bar` paints, and with
which colours, by the line it starts at. -/

namespace DeviceDriverTest
namespace ColorBar

open CountedLoop FrameMemory

def rgb565 (r g b : UInt16) : UInt16 := r <<< 11 ||| g <<< 5 ||| b

def ycbcr : List UInt16 :=
  [rgb565 0x1F 0x3F 0x1F, rgb565 0x00 0x00 0x00, rgb565 0x1F 0x00 0x00, rgb565 0x00 0x3F 0x00,
    rgb565 0x00 0x00 0x1F, rgb565 0x1F 0x3F 0x00, rgb565 0x1F 0x00 0x1F, rgb565 0x00 0x3F 0x1F]

/-- Pointers count shorts from `addr`; `lines` holds the places at which a line was begun. -/
structure Bars where
  lastPtr : Int
  frame : Frame UInt16
  lines : List Int

def paint (width : Nat) (colour : UInt16) (lastPtr ptr : Int) (s : Bars) : Bars where
  lastPtr := lastPtr
  frame := s.frame.fill ptr width colour
  lines := s.lines ++ [ptr]

def barLine (pageWidth height width : Nat) (colour : UInt16) (s : Bars) : Bars :=
  let ptr := s.lastPtr + pageWidth / 2
  -- the pointers are compared as bytes
  if 2 * ptr > pageWidth * ((height : Int) - 1) then paint width colour (0 - pageWidth / 2) 0 s
  else paint width colour ptr ptr s

/-- The same function stands in the random windows program, with its `rand_width` for `actualWidth`. -/
def colorBar (mem : Int → UInt16) (width height order actualWidth : Nat) : Bars :=
  forRange (fun i => forRange (fun _ => barLine width height actualWidth (ycbcr.getD i 0)) (height / 8)) 8
    { lastPtr := order * (width / 2) - width / 2, frame := ⟨mem, []⟩, lines := [] }

/-- The line painted in round `t`: after the wrap the first line comes twice. -/
def row (height order t : Nat) : Nat :=
  if t < height - order then order + t else t - (height - order) - 1

/-- The line of `last_ptr` before round `t`. -/
def lastRow (height order t : Nat) : Int :=
  if t ≤ height - order then (order : Int) + t - 1 else (t : Int) - (height - order) - 2

section Rows

variable {w h order a u t : Nat} {s : Bars} {c : UInt16}

theorem row_lt (ho : order < h) (ht : t < h) : row h order t < h := by
  unfold row
  split <;> omega

theorem half_width (u : Nat) : ((2 * u : Nat) : Int) / 2 = u := by omega

theorem lastRow_next (ho : order < h) (hno : lastRow h order t + 1 ≤ (h : Int) - 1) :
    lastRow h order (t + 1) = lastRow h order t + 1 ∧ (row h order t : Int) = lastRow h order t + 1 := by
  unfold lastRow row at *
  split at hno <;> constructor <;> split <;> omega

theorem lastRow_wrap (ho : order < h) (ht : t < h) (hyes : (h : Int) - 1 < lastRow h order t + 1) :
    lastRow h order (t + 1) = -1 ∧ row h order t = 0 := by
  unfold lastRow row at *
  split at hyes <;> constructor <;> split <;> omega

/-- The check against the end of the frame, in rows. -/
theorem wraps_iff (r : Int) : 2 * ((r + 1) * u) > ((2 * u : Nat) : Int) * ((h : Int) - 1) ↔
    0 < u ∧ (h : Int) - 1 < r + 1 := by
  have hform : ((2 * u : Nat) : Int) * ((h : Int) - 1) = 2 * (((h : Int) - 1) * u) := by
    push_cast
    ring
  rw [hform]
  rcases Nat.eq_zero_or_pos u with rfl | hu
  · simp
  · have hu' : (0 : Int) < u := by omega
    have hlt : ((h : Int) - 1) * u < (r + 1) * u ↔ (h : Int) - 1 < r + 1 := Int.mul_lt_mul_right hu'
    omega

theorem barLine_eq (ho : order < h) (ht : t < h) (hs : s.lastPtr = lastRow h order t * u) :
    barLine (2 * u) h a c s = paint a c (lastRow h order (t + 1) * u) (row h order t * u) s := by
  have hptr : s.lastPtr + ((2 * u : Nat) : Int) / 2 = (lastRow h order t + 1) * u := by
    rw [hs, half_width]
    ring
  unfold barLine
  dsimp only
  rw [hptr, half_width, if_congr (wraps_iff (lastRow h order t)) rfl rfl]
  by_cases hwrap : (h : Int) - 1 < lastRow h order t + 1
  · obtain ⟨hlast, hrow⟩ := lastRow_wrap ho ht hwrap
    rcases Nat.eq_zero_or_pos u with rfl | hu
    · simp
    · rw [if_pos ⟨hu, hwrap⟩, hlast, hrow]
      simp
  · obtain ⟨hlast, hrow⟩ := lastRow_next ho (Int.not_lt.mp hwrap)
    rw [if_neg fun hc => hwrap hc.2, hlast, hrow]

theorem row_eq_mod (ho : order ≤ 1) (hlt : order < h) (ht : t < h) : row h order t = (order + t) % h := by
  unfold row
  split
  · rw [Nat.mod_eq_of_lt (by omega)]
  · rw [show order + t = h by omega, Nat.mod_self]
    omega

theorem row_inj (ho : order ≤ 1) {t' : Nat} (hne : t' ≠ t) (ht : t < h) (ht' : t' < h) :
    row h order t' ≠ row h order t := by
  unfold row
  split <;> split <;> omega

/-- A row that starts below the third line of the frame is left out. -/
theorem row_ne_pred (ho : 2 ≤ order) (ht : t < h) : row h order t ≠ order - 1 := by
  unfold row
  split <;> omega

theorem rows_disjoint {x y k : Nat} (hne : x ≠ y) (hk : k < a) (ha : a ≤ u) :
    ¬ ((y : Int) * u ≤ (x : Int) * u + k ∧ (x : Int) * u + k < (y : Int) * u + a) := by
  rcases Nat.lt_or_gt_of_ne hne with hlt | hlt
  · have hbefore := row_before (Int.ofNat_lt.mpr hlt) (Nat.lt_of_lt_of_le hk ha)
    omega
  · have hbefore := row_before (y := a - 1) (Int.ofNat_lt.mpr hlt) (show a - 1 < u by omega)
    omega

/-- After `t` rounds, `m` of them for each colour. -/
structure Painted (h order a u m t : Nat) (s : Bars) : Prop where
  lastPtr : s.lastPtr = lastRow h order t * u
  lines : s.lines = (List.range t).map fun t' => (row h order t' : Int) * u
  inside : ∀ p ∈ s.frame.stores, 0 ≤ p ∧ p < (h : Int) * u
  colours : order ≤ 1 → ∀ i j, j < m → i * m + j < t → ∀ k < a,
    s.frame.mem ((row h order (i * m + j) : Int) * u + k) = ycbcr.getD i 0

theorem row_inside (ho : order < h) (ha : a ≤ u) (ht : t < h) {k : Nat} (hk : k < a) :
    0 ≤ (row h order t : Int) * u + k ∧ (row h order t : Int) * u + k < (h : Int) * u := by
  have hbefore := row_before (Int.ofNat_lt.mpr (row_lt ho ht)) (Nat.lt_of_lt_of_le hk ha)
  have hpos : 0 ≤ (row h order t : Int) * u := by exact_mod_cast Nat.zero_le _
  exact ⟨by omega, hbefore⟩

theorem Painted.step {m i j : Nat} (hs : Painted h order a u m (i * m + j) s) (ho : order < h) (ha : a ≤ u)
    (hj : j < m) (ht : i * m + j < h) :
    Painted h order a u m (i * m + j + 1) (barLine (2 * u) h a (ycbcr.getD i 0) s) := by
  rw [barLine_eq ho ht hs.lastPtr]
  refine ⟨rfl, ?_, fun p hp => ?_, fun hone i' j' hj' hlt k hk => ?_⟩
  · show s.lines ++ [_] = _
    rw [hs.lines, List.range_succ, List.map_append]
    rfl
  · rw [paint, fill_stores] at hp
    rcases List.mem_append.mp hp with hp | hp
    · exact hs.inside p hp
    · obtain ⟨k, hk, rfl⟩ := List.mem_map.mp hp
      exact row_inside ho ha ht (List.mem_range.mp hk)
  · rw [paint, fill_mem]
    by_cases heq : i' * m + j' = i * m + j
    · obtain rfl : i' = i := (index_inj hj' hj heq).1
      rw [heq, if_pos (by omega)]
    · have hrow := row_inj hone heq ht (Nat.lt_of_le_of_lt (Nat.lt_succ_iff.mp hlt) ht)
      rw [if_neg (rows_disjoint hrow hk ha)]
      exact hs.colours hone i' j' hj' (by omega) k hk

theorem colorBar_painted (mem : Int → UInt16) {m : Nat} (ho : order < 8 * m) (ha : a ≤ u) :
    Painted (8 * m) order a u m (8 * m) (colorBar mem (2 * u) (8 * m) order a) := by
  have hdiv : 8 * m / 8 = m := Nat.mul_div_cancel_left m (by decide)
  unfold colorBar
  rw [hdiv]
  refine forRange_nested_invariant (Painted (8 * m) order a u m) ?_ fun i hi j hj s hs => ?_
  · refine ⟨?_, rfl, fun p hp => (nomatch hp), fun _ i j _ hlt => (nomatch hlt)⟩
    show (order : Int) * _ - _ = _
    rw [half_width, lastRow, if_pos (Nat.zero_le _)]
    push_cast
    ring
  · exact hs.step ho ha hj (index_lt hi hj)

theorem lines_once {m : Nat} (hu : 0 < u) (ho : order < 8 * m) (hone : order ≤ 1) {l : Nat} (hl : l < 8 * m) :
    ((List.range (8 * m)).map fun t => (row (8 * m) order t : Int) * u).count ((l : Int) * u) = 1 := by
  have hu' : (u : Int) ≠ 0 := by omega
  apply List.count_eq_one_of_mem
  · refine List.Nodup.map_on (fun t ht t' ht' heq => ?_) List.nodup_range
    by_contra hne
    have hrow := Int.eq_of_mul_eq_mul_right hu' heq
    exact row_inj hone hne (List.mem_range.mp ht') (List.mem_range.mp ht) (by exact_mod_cast hrow)
  · refine List.mem_map.mpr ⟨(l + (8 * m - order)) % (8 * m), List.mem_range.mpr (Nat.mod_lt _ (by omega)), ?_⟩
    have hrow : row (8 * m) order ((l + (8 * m - order)) % (8 * m)) = l := by
      rw [row_eq_mod hone ho (Nat.mod_lt _ (by omega)), Nat.add_mod_mod, Nat.add_comm, Nat.add_assoc,
        Nat.sub_add_cancel (Nat.le_of_lt ho), Nat.add_mod_right, Nat.mod_eq_of_lt hl]
    rw [hrow]

/-- A start below the second line leaves the line before it out. -/
theorem start_of_once (ho : order < h)
    (honce : ∀ l < h, ((List.range h).map fun t => (row h order t : Int) * u).count ((l : Int) * u) = 1)
    (hpos : 8 ≤ h) : 0 < 2 * u ∧ order ≤ 1 := by
  have hu : 0 < u := by
    by_contra hzero
    obtain rfl : u = 0 := by omega
    have hcount := honce 0 (by omega)
    simp only [Int.natCast_zero, Int.mul_zero, List.map_const', List.length_range,
      List.count_replicate_self] at hcount
    omega
  refine ⟨by omega, ?_⟩
  by_contra hmany
  have hmem : ((order - 1 : Nat) : Int) * u ∈ (List.range h).map fun t => (row h order t : Int) * u := by
    apply List.count_pos_iff.mp
    rw [honce (order - 1) (by omega)]
    exact Nat.one_pos
  obtain ⟨t, ht, heq⟩ := List.mem_map.mp hmem
  have hu' : (u : Int) ≠ 0 := by omega
  have hrow := Int.eq_of_mul_eq_mul_right hu' heq
  have htwo : 2 ≤ order := by omega
  exact row_ne_pred htwo (List.mem_range.mp ht) (by exact_mod_cast hrow)

/-- What the call is to leave: every line painted once, the eighth of the lines from `order` on in the
first colour and so on around the frame, and no store outside it. -/
structure BarsRight (w h order a : Nat) (bars : Bars) : Prop where
  once : ∀ l < h, bars.lines.count ((l : Int) * (w / 2)) = 1
  colours : ∀ i < 8, ∀ j < h / 8, ∀ k < a,
    bars.frame.mem ((((order + i * (h / 8) + j) % h : Nat) : Int) * (w / 2) + k) = ycbcr.getD i 0
  inside : ∀ p ∈ bars.frame.stores, 0 ≤ 2 * p ∧ 2 * p + 2 ≤ (w : Int) * h

theorem colorBar_right_iff (mem : Int → UInt16) (hw : 2 ∣ w) (hpos : 8 ≤ h) (hh : 8 ∣ h) (ha : 2 * a ≤ w)
    (ho : order < h) : BarsRight w h order a (colorBar mem w h order a) ↔ 0 < w ∧ order ≤ 1 := by
  obtain ⟨u, rfl⟩ := hw
  obtain ⟨m, rfl⟩ := hh
  have hpainted := colorBar_painted mem ho (show a ≤ u by omega)
  have heighth : 8 * m / 8 = m := Nat.mul_div_cancel_left m (by decide)
  constructor
  · intro hright
    have honce := hright.once
    rw [half_width, hpainted.lines] at honce
    exact start_of_once ho honce hpos
  · rintro ⟨hu, hone⟩
    refine ⟨fun l hl => ?_, fun i hi j hj k hk => ?_, fun p hp => ?_⟩
    · rw [half_width, hpainted.lines]
      exact lines_once (by omega) ho hone hl
    · rw [heighth] at hj ⊢
      rw [half_width, Nat.add_assoc, ← row_eq_mod hone ho (index_lt hi hj)]
      exact hpainted.colours hone i j hj (index_lt hi hj) k hk
    · have hinside := hpainted.inside p hp
      have hsize : ((2 * u : Nat) : Int) * (8 * m : Nat) = 2 * (((8 * m : Nat) : Int) * u) := by
        push_cast
        ring
      rw [hsize]
      omega

theorem colorBar_second_line : BarsRight 4 8 1 2 (colorBar (fun _ => 0) 4 8 1 2) :=
  (colorBar_right_iff (fun _ => 0) (by decide) (by decide) (by decide) (by decide) (by decide)).mpr
    ⟨by decide, by decide⟩

/-- From the third line on the first line is painted twice and the second one never. -/
theorem colorBar_third_line : (colorBar (fun _ => 0) 4 8 2 2).lines = [4, 6, 8, 10, 12, 14, 0, 0] ∧
    ¬ BarsRight 4 8 2 2 (colorBar (fun _ => 0) 4 8 2 2) := by
  have hlines : (colorBar (fun _ => 0) 4 8 2 2).lines = [4, 6, 8, 10, 12, 14, 0, 0] := by decide
  refine ⟨hlines, fun hright => ?_⟩
  have honce := hright.once 0 (by decide)
  rw [hlines] at honce
  exact absurd honce (by decide)

end Rows

end ColorBar
end DeviceDriverTest
