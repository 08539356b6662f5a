import Mathlib.Algebra.Group.Int.Defs
import Mathlib.Algebra.Group.Nat.Defs
import Mathlib.Data.Int.Basic

/-! The random windows program: the sizes, crops and windows it draws, what it
rejects, and what it gives to the display driver. -/

namespace DeviceDriverTest
namespace RandomWindow

def cmod (a b : Int) : Option Int := if b = 0 then none else some (a.tmod b)

def cdiv (a b : Int) : Option Int := if b = 0 then none else some (a.tdiv b)

/-- A product of `int`s, as the machine wraps it. -/
def mulInt (a b : Int) : Int := (a * b).bmod (2 ^ 32)

inductive Answer
  | cropFails
  | winFails
  | shown
  | exits

/-- The values of `rand`, the two limits of the command line, and what becomes of each geometry that the
driver is given. -/
structure Env where
  rand : Nat → Nat
  maxXDownscale : Int
  maxYDownscale : Int
  driver : Nat → Answer

structure Geometry where
  width : Int
  height : Int
  cropLeft : Int
  cropTop : Int
  cropWidth : Int
  cropHeight : Int
  winLeft : Int
  winTop : Int
  winWidth : Int
  winHeight : Int

/-- One pass from `retry` to the scaling checks, with the draws it consumed. -/
inductive Candidate
  | again (pos : Nat)
  | invalid
  | window (g : Geometry) (pos : Nat)

def evenRounding (n : Int) : Int := if n.tmod 2 = 1 then n + 1 else n

def randSize (draw : Nat) (bound : Int) : Int := evenRounding ((draw : Int).tmod bound)

def randCrop (draw : Nat) (size : Int) : Option Int := (cmod draw (size - 2)).map (· + 2)

def randWin (draw : Nat) (crop left limit : Int) : Option Int :=
  (cmod draw (crop * 8 - left)).bind fun m => (cdiv crop limit).map (m + ·)

def rejected (limit crop win : Int) : Bool :=
  if crop > win then crop ≥ mulInt limit win else win ≥ 8 * crop

def Env.rejects (e : Env) (g : Geometry) : Bool :=
  rejected e.maxXDownscale g.cropWidth g.winWidth || rejected e.maxYDownscale g.cropHeight g.winHeight

/-- The draws after the size is accepted, from position `pos + 4` on. -/
def windowDraws (e : Env) (pos : Nat) (width height cropLeft cropTop : Int) : Option Candidate :=
  (randCrop (e.rand (pos + 4)) width).bind fun cropWidth =>
  (randCrop (e.rand (pos + 5)) height).bind fun cropHeight =>
    let winLeft := (e.rand (pos + 6) : Int).tmod 864
    let winTop := (e.rand (pos + 7) : Int).tmod 480
    if 864 - winLeft = 0 ∨ 480 - winTop = 0 then some .invalid
    else
      (randWin (e.rand (pos + 8)) cropWidth winLeft e.maxXDownscale).bind fun winWidth =>
      (randWin (e.rand (pos + 9)) cropHeight winTop e.maxYDownscale).bind fun winHeight =>
        let g := ⟨width, height, cropLeft, cropTop, cropWidth, cropHeight, winLeft, winTop, winWidth, winHeight⟩
        some (if e.rejects g then .again (pos + 10) else .window g (pos + 10))

/-- `none` for a division or a modulo by zero. -/
def candidate (e : Env) (pos : Nat) : Option Candidate :=
  let width := randSize (e.rand pos) 864
  let height := randSize (e.rand (pos + 1)) 480
  if width = 0 ∨ height = 0 then some (.again (pos + 2))
  else
    (cmod (e.rand (pos + 2)) width).bind fun cropLeft =>
    (cmod (e.rand (pos + 3)) height).bind fun cropTop =>
      if width - 2 = 0 ∨ height - 2 = 0 then some (.again (pos + 4))
      else windowDraws e pos width height cropLeft cropTop

/-- The program at `retry`; `driven` are the geometries set in the driver so far. -/
structure State where
  i : Nat
  pos : Nat
  driven : List Geometry
  ended : Bool

def State.start : State where
  i := 0
  pos := 0
  driven := []
  ended := false

def State.running (s : State) : Prop := s.i < 50 ∧ s.ended = false

instance (s : State) : Decidable s.running := inferInstanceAs (Decidable (_ ∧ _))

def drive (e : Env) (s : State) (g : Geometry) (pos : Nat) : State :=
  let next := { s with pos := pos, driven := s.driven ++ [g] }
  match e.driver s.driven.length with
  | .cropFails => next
  | .winFails => next
  | .exits => { next with ended := true }
  -- the scaling checks are made a second time
  | .shown => if e.rejects g then next else { next with i := s.i + 1 }

def round (e : Env) (s : State) : Option State :=
  if s.running then
    (candidate e s.pos).map fun
      | .again pos => { s with pos := pos }
      | .invalid => { s with ended := true }
      | .window g pos => drive e s g pos
  else some s

def rounds (e : Env) : Nat → Option State
  | 0 => some .start
  | n + 1 => (rounds e n).bind (round e)

structure GeometryRight (e : Env) (g : Geometry) : Prop where
  even : g.width % 2 = 0 ∧ g.height % 2 = 0
  size : 2 ≤ g.width ∧ g.width ≤ 864 ∧ 2 ≤ g.height ∧ g.height ≤ 480
  crop : 2 ≤ g.cropWidth ∧ 2 ≤ g.cropHeight
  window : 0 < g.winWidth ∧ 0 < g.winHeight
  scaleX : if g.winWidth < g.cropWidth then g.cropWidth < e.maxXDownscale * g.winWidth
    else g.winWidth < 8 * g.cropWidth
  scaleY : if g.winHeight < g.cropHeight then g.cropHeight < e.maxYDownscale * g.winHeight
    else g.winHeight < 8 * g.cropHeight

/-- The draws from `pos` on give a size that is accepted and a window position that is eight times the
crop's size on one of the axes. -/
def ZeroModulus (e : Env) (pos : Nat) : Prop :=
  let width := randSize (e.rand pos) 864
  let height := randSize (e.rand (pos + 1)) 480
  2 < width ∧ 2 < height ∧
    (((e.rand (pos + 4) : Int).tmod (width - 2) + 2) * 8 = (e.rand (pos + 6) : Int).tmod 864 ∨
      ((e.rand (pos + 5) : Int).tmod (height - 2) + 2) * 8 = (e.rand (pos + 7) : Int).tmod 480)

theorem draw_nonneg (draw : Nat) (b : Int) : 0 ≤ (draw : Int).tmod b := Int.tmod_nonneg b (Int.natCast_nonneg draw)

theorem randSize_spec (draw : Nat) {bound : Int} (hpos : 0 < bound) (heven : bound % 2 = 0) :
    randSize draw bound % 2 = 0 ∧ 0 ≤ randSize draw bound ∧ randSize draw bound ≤ bound := by
  have hnonneg := draw_nonneg draw bound
  have hlt := Int.tmod_lt_of_pos (draw : Int) hpos
  have htwo : ((draw : Int).tmod bound).tmod 2 = (draw : Int).tmod bound % 2 := Int.tmod_eq_emod_of_nonneg hnonneg
  unfold randSize evenRounding
  rw [htwo]
  split <;> omega

theorem randCrop_eq (draw : Nat) {size : Int} (h : size - 2 ≠ 0) :
    randCrop draw size = some ((draw : Int).tmod (size - 2) + 2) := by
  rw [randCrop, cmod, if_neg h]
  rfl

theorem crop_bounds (draw : Nat) {size : Int} (h : 2 < size) :
    2 ≤ (draw : Int).tmod (size - 2) + 2 ∧ (draw : Int).tmod (size - 2) + 2 < size := by
  have hnonneg := draw_nonneg draw (size - 2)
  have hlt := Int.tmod_lt_of_pos (draw : Int) (show 0 < size - 2 by omega)
  omega

theorem randWin_none (draw : Nat) {crop left limit : Int} (hlimit : 0 < limit) :
    randWin draw crop left limit = none ↔ crop * 8 = left := by
  unfold randWin cmod cdiv
  by_cases h : crop * 8 - left = 0
  · rw [if_pos h]
    exact ⟨fun _ => by omega, fun _ => rfl⟩
  · rw [if_neg h, if_neg (by omega)]
    simp only [Option.bind_some, Option.map_some, reduceCtorEq, false_iff]
    omega

theorem randWin_nonneg {draw : Nat} {crop left limit win : Int} (hcrop : 0 ≤ crop) (hlimit : 0 < limit)
    (h : randWin draw crop left limit = some win) : 0 ≤ win := by
  obtain ⟨m, hm, h⟩ := Option.bind_eq_some_iff.mp h
  obtain ⟨q, hq, rfl⟩ := Option.map_eq_some_iff.mp h
  unfold cmod at hm
  unfold cdiv at hq
  split at hm
  · exact nomatch hm
  split at hq
  · exact nomatch hq
  obtain rfl := Option.some.inj hm
  obtain rfl := Option.some.inj hq
  exact Int.add_nonneg (draw_nonneg draw _) (Int.tdiv_nonneg hcrop (Int.le_of_lt hlimit))

/-- A window that passes the check, whatever the machine makes of the product. -/
theorem accepted {limit crop win : Int} (hlimit : 0 < limit) (hcrop : 2 ≤ crop) (hsmall : crop < 2 ^ 31)
    (hwin : 0 ≤ win) (h : rejected limit crop win = false) :
    0 < win ∧ if win < crop then crop < limit * win else win < 8 * crop := by
  unfold rejected at h
  by_cases hgt : crop > win
  · rw [if_pos hgt, decide_eq_false_iff_not] at h
    have hpos : 0 < win := by
      by_contra hzero
      obtain rfl : win = 0 := by omega
      rw [mulInt, Int.mul_zero] at h
      exact h (by simp; omega)
    rw [if_pos hgt]
    refine ⟨hpos, ?_⟩
    have hprod : 0 < limit * win := Int.mul_pos hlimit hpos
    by_contra hle
    have hexact : mulInt limit win = limit * win := by
      unfold mulInt
      exact Int.bmod_eq_of_le (by omega) (by omega)
    rw [hexact] at h
    exact h (by omega)
  · rw [if_neg hgt, decide_eq_false_iff_not] at h
    rw [if_neg hgt]
    omega

section Candidates

variable {e : Env} {pos next : Nat} {g : Geometry} {width height cropLeft cropTop : Int}

theorem rand_size (e : Env) (pos : Nat) :
    (randSize (e.rand pos) 864 % 2 = 0 ∧ 0 ≤ randSize (e.rand pos) 864 ∧ randSize (e.rand pos) 864 ≤ 864) ∧
      randSize (e.rand (pos + 1)) 480 % 2 = 0 ∧ 0 ≤ randSize (e.rand (pos + 1)) 480 ∧
        randSize (e.rand (pos + 1)) 480 ≤ 480 :=
  ⟨randSize_spec _ (by decide) (by decide), randSize_spec _ (by decide) (by decide)⟩

theorem on_screen (e : Env) (pos : Nat) :
    ¬ (864 - (e.rand (pos + 6) : Int).tmod 864 = 0 ∨ 480 - (e.rand (pos + 7) : Int).tmod 480 = 0) := by
  have hleft := Int.tmod_lt_of_pos (e.rand (pos + 6) : Int) (show 0 < (864 : Int) by decide)
  have htop := Int.tmod_lt_of_pos (e.rand (pos + 7) : Int) (show 0 < (480 : Int) by decide)
  omega

theorem windowDraws_none (hx : 0 < e.maxXDownscale) (hy : 0 < e.maxYDownscale) (hw : width - 2 ≠ 0)
    (hh : height - 2 ≠ 0) : windowDraws e pos width height cropLeft cropTop = none ↔
      ((e.rand (pos + 4) : Int).tmod (width - 2) + 2) * 8 = (e.rand (pos + 6) : Int).tmod 864 ∨
        ((e.rand (pos + 5) : Int).tmod (height - 2) + 2) * 8 = (e.rand (pos + 7) : Int).tmod 480 := by
  rw [windowDraws, randCrop_eq _ hw, randCrop_eq _ hh]
  simp only [Option.bind_some]
  rw [if_neg (on_screen e pos), ← randWin_none (e.rand (pos + 8)) hx, ← randWin_none (e.rand (pos + 9)) hy]
  cases randWin (e.rand (pos + 8)) ((e.rand (pos + 4) : Int).tmod (width - 2) + 2)
      ((e.rand (pos + 6) : Int).tmod 864) e.maxXDownscale with
  | none => simp
  | some winWidth =>
    cases randWin (e.rand (pos + 9)) ((e.rand (pos + 5) : Int).tmod (height - 2) + 2)
        ((e.rand (pos + 7) : Int).tmod 480) e.maxYDownscale with
    | none => simp
    | some winHeight => simp

/-- The two window sizes are the only quotients of a candidate that can fail. -/
theorem candidate_none (hx : 0 < e.maxXDownscale) (hy : 0 < e.maxYDownscale) :
    candidate e pos = none ↔ ZeroModulus e pos := by
  obtain ⟨⟨hweven, hw0, -⟩, hheven, hh0, -⟩ := rand_size e pos
  unfold candidate ZeroModulus
  dsimp only
  by_cases hzero : randSize (e.rand pos) 864 = 0 ∨ randSize (e.rand (pos + 1)) 480 = 0
  · rw [if_pos hzero]
    exact ⟨fun h => (nomatch h), fun h => by omega⟩
  · rw [if_neg hzero, cmod, if_neg fun h => hzero (.inl h), cmod, if_neg fun h => hzero (.inr h)]
    simp only [Option.bind_some]
    by_cases htwo : randSize (e.rand pos) 864 - 2 = 0 ∨ randSize (e.rand (pos + 1)) 480 - 2 = 0
    · rw [if_pos htwo]
      exact ⟨fun h => (nomatch h), fun h => by omega⟩
    · rw [if_neg htwo, windowDraws_none hx hy (fun h => htwo (.inl h)) fun h => htwo (.inr h)]
      exact ⟨fun h => ⟨by omega, by omega, h⟩, fun h => h.2.2⟩

theorem candidate_window (hx : 0 < e.maxXDownscale) (hy : 0 < e.maxYDownscale)
    (h : candidate e pos = some (.window g next)) : GeometryRight e g ∧ e.rejects g = false := by
  obtain ⟨⟨hweven, hw0, hw864⟩, hheven, hh0, hh480⟩ := rand_size e pos
  unfold candidate at h
  dsimp only at h
  split at h
  · exact nomatch h
  obtain ⟨cropLeft, -, h⟩ := Option.bind_eq_some_iff.mp h
  obtain ⟨cropTop, -, h⟩ := Option.bind_eq_some_iff.mp h
  split at h
  · exact nomatch h
  next hzero htwo =>
  rw [windowDraws, randCrop_eq _ fun hw => htwo (.inl hw), randCrop_eq _ fun hh => htwo (.inr hh)] at h
  simp only [Option.bind_some] at h
  rw [if_neg (on_screen e pos)] at h
  obtain ⟨winWidth, hwinWidth, h⟩ := Option.bind_eq_some_iff.mp h
  obtain ⟨winHeight, hwinHeight, h⟩ := Option.bind_eq_some_iff.mp h
  split at h
  · exact nomatch h
  next hrejects =>
  obtain ⟨rfl, -⟩ := Candidate.window.inj (Option.some.inj h)
  have hrejects := Bool.eq_false_iff.mpr hrejects
  refine ⟨?_, hrejects⟩
  obtain ⟨hrx, hry⟩ := Bool.or_eq_false_iff.mp hrejects
  have hcropw := crop_bounds (e.rand (pos + 4)) (show 2 < randSize (e.rand pos) 864 by omega)
  have hcroph := crop_bounds (e.rand (pos + 5)) (show 2 < randSize (e.rand (pos + 1)) 480 by omega)
  obtain ⟨hwinx, hscalex⟩ := accepted hx (by dsimp only; omega) (by dsimp only; omega)
    (randWin_nonneg (by omega) hx hwinWidth) hrx
  obtain ⟨hwiny, hscaley⟩ := accepted hy (by dsimp only; omega) (by dsimp only; omega)
    (randWin_nonneg (by omega) hy hwinHeight) hry
  exact ⟨⟨hweven, hheven⟩, ⟨by dsimp only; omega, hw864, by dsimp only; omega, hh480⟩,
    ⟨by dsimp only; omega, by dsimp only; omega⟩, ⟨hwinx, hwiny⟩, hscalex, hscaley⟩

end Candidates

section Runs

variable {e : Env} {s s' : State} {n : Nat}

theorem drive_driven (e : Env) (s : State) (g : Geometry) (pos : Nat) :
    (drive e s g pos).driven = s.driven ++ [g] := by
  unfold drive
  split
  · rfl
  · rfl
  · rfl
  · split <;> rfl

theorem round_right (hx : 0 < e.maxXDownscale) (hy : 0 < e.maxYDownscale) (h : round e s = some s')
    (hs : ∀ g ∈ s.driven, GeometryRight e g) : ∀ g ∈ s'.driven, GeometryRight e g := by
  unfold round at h
  split at h
  · obtain ⟨c, hc, rfl⟩ := Option.map_eq_some_iff.mp h
    cases c with
    | again pos => exact hs
    | invalid => exact hs
    | window g pos =>
      dsimp only
      rw [drive_driven]
      intro g' hg'
      rcases List.mem_append.mp hg' with hg' | hg'
      · exact hs g' hg'
      · obtain rfl := List.mem_singleton.mp hg'
        exact (candidate_window hx hy hc).1
  · obtain rfl := Option.some.inj h
    exact hs

theorem round_none (hx : 0 < e.maxXDownscale) (hy : 0 < e.maxYDownscale) :
    round e s = none ↔ s.running ∧ ZeroModulus e s.pos := by
  rw [← candidate_none hx hy]
  unfold round
  split
  · simp [*]
  · simp [*]

theorem rounds_driven (hx : 0 < e.maxXDownscale) (hy : 0 < e.maxYDownscale) (h : rounds e n = some s) :
    ∀ g ∈ s.driven, GeometryRight e g := by
  induction n generalizing s with
  | zero =>
    obtain rfl := Option.some.inj h
    exact fun g hg => (nomatch hg)
  | succ n ih =>
    obtain ⟨s', hs', hround⟩ := Option.bind_eq_some_iff.mp h
    exact round_right hx hy hround (ih hs')

/-- However long the program goes on: it has not divided by zero, and the driver was given right
geometries only, exactly where no candidate it came to draws a zero modulus. -/
theorem appMain_right_iff (hx : 0 < e.maxXDownscale) (hy : 0 < e.maxYDownscale) :
    (∀ n, ∃ s, rounds e n = some s ∧ ∀ g ∈ s.driven, GeometryRight e g) ↔
      ∀ n s, rounds e n = some s → s.running → ¬ ZeroModulus e s.pos := by
  constructor
  · intro h n s hs hrunning hzero
    obtain ⟨s', hs', -⟩ := h (n + 1)
    rw [rounds, hs, Option.bind_some, (round_none hx hy).mpr ⟨hrunning, hzero⟩] at hs'
    exact nomatch hs'
  · intro h n
    induction n with
    | zero => exact ⟨.start, rfl, fun g hg => (nomatch hg)⟩
    | succ n ih =>
      obtain ⟨s, hs, -⟩ := ih
      have hround : round e s ≠ none := fun hnone =>
        h n s hs ((round_none hx hy).mp hnone).1 ((round_none hx hy).mp hnone).2
      obtain ⟨s', hs'⟩ := Option.ne_none_iff_exists'.mp hround
      have hnext : rounds e (n + 1) = some s' := by rw [rounds, hs, Option.bind_some, hs']
      exact ⟨s', hnext, rounds_driven hx hy hnext⟩

end Runs

/-- A stream on which every candidate is the same and passes its checks. -/
def steadyDraws : Env where
  rand := fun _ => 50
  maxXDownscale := 4
  maxYDownscale := 4
  driver := fun _ => .shown

theorem steadyDraws_right : ∃ s, rounds steadyDraws 50 = some s ∧ ∀ g ∈ s.driven, GeometryRight steadyDraws g := by
  have hx : 0 < steadyDraws.maxXDownscale := by decide
  have hy : 0 < steadyDraws.maxYDownscale := by decide
  have hno (pos : Nat) : ¬ ZeroModulus steadyDraws pos := by
    show ¬ ZeroModulus steadyDraws 0
    unfold ZeroModulus
    decide
  exact (appMain_right_iff hx hy).mpr (fun n s _ _ => hno s.pos) 50

/-- The seventh draw is eight times the crop width that the fifth one gives. -/
def zeroDraws : Env where
  rand := fun n => if n = 6 then 32 else 10
  maxXDownscale := 4
  maxYDownscale := 4
  driver := fun _ => .shown

theorem zeroDraws_trap : rounds zeroDraws 1 = none := rfl

end RandomWindow
end DeviceDriverTest
