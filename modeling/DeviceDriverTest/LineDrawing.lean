import Mathlib.Data.List.Range
import DeviceDriverTest.SegmentAnimation
import DeviceDriverTest.SlopeWalk

/-! The line that the framebuffer test draws between two points of the screen. -/

namespace DeviceDriverTest

namespace LineDrawing

open SegmentAnimation SlopeWalk

/-- The loop of both branches, from coordinate `c` to `last`: the stores in their
order, `none` when the fuel does not see its end. -/
def drawLoop (last step inc minor major half : Int) (color : Nat) : Nat → Int → Int → Int → Option (List (Int × Nat))
  | 0, _, _, _ => none
  | fuel + 1, c, pos, d =>
    if c = last then some [(pos, color)]
    else
      let d := d + minor
      (if d > half then drawLoop last step inc minor major half color fuel (c + 1) (pos + step + inc) (d - major)
      else drawLoop last step inc minor major half color fuel (c + 1) (pos + step) d).map ((pos, color) :: ·)

def distance (a b : Int) : Int := if b - a < 0 then -(b - a) else b - a

def horizontal (fuel : Nat) (p1 p2 : Point) (dx dy : Int) (color : Nat) : Option (List (Int × Nat)) :=
  drawLoop p2.x 1 (if p2.y > p1.y then width else -width) dy dx (dx / 2) color fuel p1.x (p1.x + width * p1.y) 0

def vertical (fuel : Nat) (p1 p2 : Point) (dx dy : Int) (color : Nat) : Option (List (Int × Nat)) :=
  drawLoop p2.y width (if p2.x > p1.x then 1 else -1) dx dy (dy / 2) color fuel p1.y (p1.x + width * p1.y) 0

def line (fuel : Nat) (p1 p2 : Point) (color : Nat) : Option (List (Int × Nat)) :=
  let dx := distance p1.x p2.x
  let dy := distance p1.y p2.y
  if dx > dy then
    if p2.x < p1.x then horizontal fuel p2 p1 dx dy color else horizontal fuel p1 p2 dx dy color
  else if p2.y < p1.y then vertical fuel p2 p1 dx dy color else vertical fuel p1 p2 dx dy color

/-- The place of a point in the framebuffer. -/
def offset (p : Point) : Int := p.x + width * p.y

def Neighbours (r s : Point) : Prop :=
  r ≠ s ∧ (-1 ≤ s.x - r.x ∧ s.x - r.x ≤ 1) ∧ -1 ≤ s.y - r.y ∧ s.y - r.y ≤ 1

structure Drawn (p q : Point) (pixels : List Point) : Prop where
  length : (pixels.length : Int) = max (distance p.x q.x) (distance p.y q.y) + 1
  box : ∀ r ∈ pixels, (min p.x q.x ≤ r.x ∧ r.x ≤ max p.x q.x) ∧ min p.y q.y ≤ r.y ∧ r.y ≤ max p.y q.y
  ends : pixels.head? = some p ∧ pixels.getLast? = some q ∨ pixels.head? = some q ∧ pixels.getLast? = some p
  neighbours : pixels.IsChain Neighbours

theorem drawLoop_eq (step inc minor major half c start : Int) (color : Nat) {n m k fuel : Nat}
    (hk : k + m = n) (hfuel : m < fuel) :
    drawLoop (c + n) step inc minor major half color fuel (c + k)
        (start + k * step + (walk minor major half k).risen * inc) (walk minor major half k).error =
      some ((List.range' k (m + 1)).map fun (j : Nat) =>
        (start + j * step + (walk minor major half j).risen * inc, color)) := by
  induction m generalizing k fuel with
  | zero =>
    obtain ⟨fuel, rfl⟩ : ∃ f, fuel = f + 1 := ⟨fuel - 1, by omega⟩
    obtain rfl : k = n := hk
    rw [drawLoop, if_pos rfl]
    rfl
  | succ m ih =>
    obtain ⟨fuel, rfl⟩ : ∃ f, fuel = f + 1 := ⟨fuel - 1, by omega⟩
    have hnext := @ih (k + 1) fuel (by omega) (by omega)
    have hcoord : c + (k : Int) + 1 = c + (k + 1 : Nat) := by omega
    have hstep : ((k + 1 : Nat) : Int) * step = k * step + step := by rw [Nat.cast_succ, Int.add_mul, Int.one_mul]
    rw [drawLoop, if_neg (by omega), List.range'_succ, List.map_cons, hcoord]
    dsimp only
    by_cases h : (walk minor major half k).error + minor > half
    · have hrisen : (((walk minor major half k).risen + 1 : Nat) : Int) * inc =
          (walk minor major half k).risen * inc + inc := by rw [Nat.cast_succ, Int.add_mul, Int.one_mul]
      have hpos : start + k * step + (walk minor major half k).risen * inc + step + inc =
          start + (k + 1 : Nat) * step + ((walk minor major half k).risen + 1 : Nat) * inc := by
        rw [hstep, hrisen]
        omega
      rw [walk_succ_rise h] at hnext
      rw [if_pos h, hpos, hnext]
      rfl
    · have hpos : start + k * step + (walk minor major half k).risen * inc + step =
          start + (k + 1 : Nat) * step + (walk minor major half k).risen * inc := by
        rw [hstep]
        omega
      rw [walk_succ_level h] at hnext
      rw [if_neg h, hpos, hnext]
      rfl

theorem drawLoop_start (step inc minor major half c start : Int) (color : Nat) {n fuel : Nat} (hfuel : n < fuel) :
    drawLoop (c + n) step inc minor major half color fuel c start 0 = some ((List.range (n + 1)).map fun (j : Nat) =>
      (start + j * step + (walk minor major half j).risen * inc, color)) := by
  have hloop := drawLoop_eq step inc minor major half c start color (Nat.zero_add n) hfuel
  rw [Nat.cast_zero, Int.add_zero, Int.zero_mul, Int.add_zero] at hloop
  rw [List.range_eq_range', ← hloop]
  congr 1
  show start = start + ((0 : Nat) : Int) * inc
  rw [Nat.cast_zero, Int.zero_mul, Int.add_zero]

theorem distance_eq (a b : Int) : distance a b = max (b - a) (a - b) := by
  rw [distance]
  split_ifs <;> omega

theorem drawn_of {f : Nat → Point} {n : Nat} {p q : Point} (hlen : (n : Int) = max (distance p.x q.x) (distance p.y q.y))
    (hfirst : f 0 = p) (hlast : f n = q)
    (hbox : ∀ j ≤ n, (min p.x q.x ≤ (f j).x ∧ (f j).x ≤ max p.x q.x) ∧ min p.y q.y ≤ (f j).y ∧ (f j).y ≤ max p.y q.y)
    (hnext : ∀ j < n, Neighbours (f j) (f (j + 1))) : Drawn p q ((List.range (n + 1)).map f) where
  length := by
    rw [List.length_map, List.length_range, Nat.cast_succ, hlen]
  box := by
    intro r hr
    obtain ⟨j, hj, rfl⟩ := List.mem_map.mp hr
    exact hbox j (Nat.le_of_lt_succ (List.mem_range.mp hj))
  ends := by
    refine Or.inl ⟨?_, ?_⟩
    · rw [List.range_succ_eq_map, List.map_cons, List.head?_cons, hfirst]
    · rw [List.range_succ, List.map_append, List.map_singleton, List.getLast?_concat, hlast]
  neighbours := by
    rw [List.isChain_map]
    refine (List.isChain_range_succ _ _).mpr fun j hj => hnext j hj

theorem Drawn.symm {p q : Point} {pixels : List Point} (h : Drawn p q pixels) : Drawn q p pixels where
  length := by
    have hlen := h.length
    rw [distance_eq, distance_eq] at hlen ⊢
    omega
  box := by
    intro r hr
    rw [min_comm q.x, max_comm q.x, min_comm q.y, max_comm q.y]
    exact h.box r hr
  ends := h.ends.symm
  neighbours := h.neighbours

/-- The other coordinate after `j` steps on the way from `a` to `b`. -/
def climb (a b major : Int) (j : Nat) : Int :=
  a + (walk (distance a b) major (major / 2) j).risen * if b > a then 1 else -1

theorem climb_zero (a b major : Int) : climb a b major 0 = a := by
  show a + ((0 : Nat) : Int) * _ = a
  rw [Nat.cast_zero, Int.zero_mul, Int.add_zero]

theorem climb_end {a b major : Int} (hd : distance a b ≤ major) {n : Nat} (hn : (n : Int) = major) :
    climb a b major n = b := by
  have hdist := distance_eq a b
  by_cases hpoint : n = 0
  · rw [hpoint, climb_zero]
    omega
  · rw [climb, risen_end ⟨by omega, hd⟩ ⟨by omega, by omega⟩ hn]
    split_ifs <;> omega

theorem climb_between {a b major : Int} (hd : distance a b ≤ major) {j : Nat} (hj : (j : Int) ≤ major) :
    min a b ≤ climb a b major j ∧ climb a b major j ≤ max a b := by
  have hdist := distance_eq a b
  by_cases hstart : j = 0
  · rw [hstart, climb_zero]
    omega
  · have hle := @risen_le (distance a b) major (major / 2) ⟨by omega, hd⟩ ⟨by omega, by omega⟩ j hj
    rw [climb]
    split_ifs <;> omega

theorem climb_next (a b major : Int) (j : Nat) :
    -1 ≤ climb a b major (j + 1) - climb a b major j ∧ climb a b major (j + 1) - climb a b major j ≤ 1 := by
  have hrisen := risen_succ (distance a b) major (major / 2) j
  rw [climb, climb]
  split_ifs <;> omega

theorem point_eq {p q : Point} (hx : p.x = q.x) (hy : p.y = q.y) : p = q := by
  cases p
  cases q
  cases hx
  cases hy
  rfl

def horizontalPixel (p q : Point) (j : Nat) : Point := ⟨p.x + j, climb p.y q.y (distance p.x q.x) j⟩

def verticalPixel (p q : Point) (j : Nat) : Point := ⟨climb p.x q.x (distance p.y q.y) j, p.y + j⟩

theorem horizontal_drawn {p q : Point} (hx : p.x ≤ q.x) (hsteep : distance p.y q.y < distance p.x q.x) :
    Drawn p q ((List.range ((distance p.x q.x).toNat + 1)).map (horizontalPixel p q)) := by
  have hdx := distance_eq p.x q.x
  have hdy := distance_eq p.y q.y
  have hn : ((distance p.x q.x).toNat : Int) = distance p.x q.x := Int.toNat_of_nonneg (by omega)
  refine drawn_of (by omega) ?_ ?_ (fun j hj => ⟨?_, ?_⟩) fun j hj => ⟨fun heq => ?_, ?_, ?_⟩
  · exact point_eq (Int.add_zero _) (climb_zero _ _ _)
  · refine point_eq ?_ (climb_end (by omega) hn)
    show p.x + _ = q.x
    omega
  · show min p.x q.x ≤ p.x + j ∧ p.x + j ≤ max p.x q.x
    omega
  · exact climb_between (by omega) (by omega)
  · have hsame : p.x + j = p.x + (j + 1 : Nat) := congrArg Point.x heq
    omega
  · show -1 ≤ p.x + (j + 1 : Nat) - (p.x + j) ∧ p.x + (j + 1 : Nat) - (p.x + j) ≤ 1
    omega
  · exact climb_next _ _ _ j

theorem vertical_drawn {p q : Point} (hy : p.y ≤ q.y) (hsteep : distance p.x q.x ≤ distance p.y q.y) :
    Drawn p q ((List.range ((distance p.y q.y).toNat + 1)).map (verticalPixel p q)) := by
  have hdx := distance_eq p.x q.x
  have hdy := distance_eq p.y q.y
  have hn : ((distance p.y q.y).toNat : Int) = distance p.y q.y := Int.toNat_of_nonneg (by omega)
  refine drawn_of (by omega) ?_ ?_ (fun j hj => ⟨?_, ?_⟩) fun j hj => ⟨fun heq => ?_, ?_, ?_⟩
  · exact point_eq (climb_zero _ _ _) (Int.add_zero _)
  · refine point_eq (climb_end (by omega) hn) ?_
    show p.y + _ = q.y
    omega
  · exact climb_between (by omega) (by omega)
  · show min p.y q.y ≤ p.y + j ∧ p.y + j ≤ max p.y q.y
    omega
  · have hsame : p.y + j = p.y + (j + 1 : Nat) := congrArg Point.y heq
    omega
  · exact climb_next _ _ _ j
  · show -1 ≤ p.y + (j + 1 : Nat) - (p.y + j) ∧ p.y + (j + 1 : Nat) - (p.y + j) ≤ 1
    omega

theorem horizontal_eq {p q : Point} (hx : p.x ≤ q.x) {fuel : Nat} (hfuel : (distance p.x q.x).toNat < fuel) (color : Nat) :
    horizontal fuel p q (distance p.x q.x) (distance p.y q.y) color =
      some (((List.range ((distance p.x q.x).toNat + 1)).map (horizontalPixel p q)).map fun r => (offset r, color)) := by
  have hdx := distance_eq p.x q.x
  have hlast : q.x = p.x + ((distance p.x q.x).toNat : Int) := by omega
  rw [horizontal]
  nth_rewrite 1 [hlast]
  rw [drawLoop_start _ _ _ _ _ _ _ _ hfuel, List.map_map]
  congr 1
  refine List.map_congr_left fun j _ => Prod.ext ?_ rfl
  show p.x + width * p.y + j * 1 + _ * (if q.y > p.y then width else -width) =
    p.x + j + width * (p.y + _ * (if q.y > p.y then 1 else -1))
  rw [width]
  split_ifs <;> omega

theorem vertical_eq {p q : Point} (hy : p.y ≤ q.y) {fuel : Nat} (hfuel : (distance p.y q.y).toNat < fuel) (color : Nat) :
    vertical fuel p q (distance p.x q.x) (distance p.y q.y) color =
      some (((List.range ((distance p.y q.y).toNat + 1)).map (verticalPixel p q)).map fun r => (offset r, color)) := by
  have hdy := distance_eq p.y q.y
  have hlast : q.y = p.y + ((distance p.y q.y).toNat : Int) := by omega
  rw [vertical]
  nth_rewrite 1 [hlast]
  rw [drawLoop_start _ _ _ _ _ _ _ _ hfuel, List.map_map]
  congr 1
  refine List.map_congr_left fun j _ => Prod.ext ?_ rfl
  show p.x + width * p.y + j * width + _ * (if q.x > p.x then 1 else -1) =
    p.x + _ * (if q.x > p.x then 1 else -1) + width * (p.y + j)
  rw [width]
  split_ifs <;> omega

theorem distance_comm (a b : Int) : distance a b = distance b a := by
  rw [distance_eq, distance_eq, max_comm]

theorem line_comm (fuel : Nat) (p q : Point) (color : Nat) : line fuel q p color = line fuel p q color := by
  have hdx := distance_eq p.x q.x
  have hdy := distance_eq p.y q.y
  rw [line, line, distance_comm q.x, distance_comm q.y]
  by_cases hflat : distance p.x q.x > distance p.y q.y
  · rw [if_pos hflat, if_pos hflat]
    by_cases hx : p.x < q.x
    · rw [if_pos hx, if_neg (by omega)]
    · rw [if_neg hx, if_pos (by omega)]
  · rw [if_neg hflat, if_neg hflat]
    by_cases hy : p.y < q.y
    · rw [if_pos hy, if_neg (by omega)]
    · by_cases hy' : q.y < p.y
      · rw [if_neg hy, if_pos hy']
      · rw [if_neg hy, if_neg hy', point_eq (p := p) (q := q) (by omega) (by omega)]

theorem line_pixels (p q : Point) (color : Nat) : ∃ pixels, Drawn p q pixels ∧
    ∃ n, ∀ fuel > n, line fuel p q color = some (pixels.map fun r => (offset r, color)) := by
  have hdx := distance_eq p.x q.x
  have hdy := distance_eq p.y q.y
  by_cases hflat : distance p.x q.x > distance p.y q.y
  · by_cases hx : q.x < p.x
    · refine ⟨_, (@horizontal_drawn q p ?_ ?_).symm, (distance q.x p.x).toNat, fun fuel hfuel => ?_⟩
      · omega
      · rwa [distance_comm q.x, distance_comm q.y]
      · rw [line, if_pos hflat, if_pos hx, distance_comm p.x, distance_comm p.y]
        exact horizontal_eq (Int.le_of_lt hx) hfuel color
    · refine ⟨_, horizontal_drawn (Int.not_lt.mp hx) hflat, (distance p.x q.x).toNat, fun fuel hfuel => ?_⟩
      rw [line, if_pos hflat, if_neg hx]
      exact horizontal_eq (Int.not_lt.mp hx) hfuel color
  · by_cases hy : q.y < p.y
    · refine ⟨_, (@vertical_drawn q p ?_ ?_).symm, (distance q.y p.y).toNat, fun fuel hfuel => ?_⟩
      · omega
      · rw [distance_comm q.x, distance_comm q.y]
        exact Int.not_lt.mp hflat
      · rw [line, if_neg hflat, if_pos hy, distance_comm p.x, distance_comm p.y]
        exact vertical_eq (Int.le_of_lt hy) hfuel color
    · refine ⟨_, vertical_drawn (Int.not_lt.mp hy) (Int.not_lt.mp hflat), (distance p.y q.y).toNat, fun fuel hfuel => ?_⟩
      rw [line, if_neg hflat, if_neg hy]
      exact vertical_eq (Int.not_lt.mp hy) hfuel color

theorem Drawn.onScreen {p q : Point} {pixels : List Point} (h : Drawn p q pixels) (hp : p.OnScreen) (hq : q.OnScreen)
    {r : Point} (hr : r ∈ pixels) : r.OnScreen := by
  obtain ⟨hx, hy⟩ := h.box r hr
  obtain ⟨hpx, hpy⟩ := hp
  obtain ⟨hqx, hqy⟩ := hq
  exact ⟨by omega, by omega⟩

theorem offset_inside {r : Point} (h : r.OnScreen) : 0 ≤ offset r ∧ offset r < width * height := by
  obtain ⟨hx, hy⟩ := h
  rw [offset, width, height] at *
  omega

/-- A line between two points of the screen is drawn from one to the other without a
gap, and the same in both directions. -/
theorem line_drawn (p q : Point) (hp : p.OnScreen) (hq : q.OnScreen) (color : Nat) : ∃ pixels, Drawn p q pixels ∧
    (∀ r ∈ pixels, r.OnScreen ∧ 0 ≤ offset r ∧ offset r < width * height) ∧
      ∃ n, ∀ fuel > n, line fuel p q color = some (pixels.map fun r => (offset r, color)) ∧
        line fuel q p color = some (pixels.map fun r => (offset r, color)) := by
  obtain ⟨pixels, hdrawn, n, hline⟩ := line_pixels p q color
  refine ⟨pixels, hdrawn, fun r hr => ?_, n, fun fuel hfuel => ⟨hline fuel hfuel, ?_⟩⟩
  · have hscreen := hdrawn.onScreen hp hq hr
    exact ⟨hscreen, offset_inside hscreen⟩
  · rw [line_comm]
    exact hline fuel hfuel

theorem line_drawn_slope_one : ∃ pixels, Drawn ⟨0, 0⟩ ⟨2, 2⟩ pixels ∧
    (∀ r ∈ pixels, r.OnScreen ∧ 0 ≤ offset r ∧ offset r < width * height) ∧
      ∃ n, ∀ fuel > n, line fuel ⟨0, 0⟩ ⟨2, 2⟩ 7 = some (pixels.map fun r => (offset r, 7)) ∧
        line fuel ⟨2, 2⟩ ⟨0, 0⟩ 7 = some (pixels.map fun r => (offset r, 7)) :=
  line_drawn ⟨0, 0⟩ ⟨2, 2⟩ ⟨by decide, by decide⟩ ⟨by decide, by decide⟩ 7

end LineDrawing

end DeviceDriverTest
