import Mathlib.Data.List.Basic
import DeviceDriverTest.RoundLoop

/-! The camera test that zooms in and out while it streams, one crop rectangle a frame. -/

namespace DeviceDriverTest

namespace StreamingZoom

open RoundLoop

structure Rect where
  left : Int
  top : Int
  width : Int
  height : Int

/-- Whether the buffers of a frame come through, and the answers to the ioctls of a crop, by the
number of the frame. The crop after the loop has the number zero. -/
structure Device where
  defrect : Rect
  captured : Nat → Bool
  cropcap : Nat → Bool
  getCrop : Nat → Bool
  setCrop : Nat → Bool
  readBack : Nat → Bool

structure Request where
  factor : Int
  rect : Rect

/-- A value of type `int`. -/
def int (x : Int) : Int := x.bmod 4294967296

def scaled (size zoomfactor : Int) : Int := (int (size * 10)).tdiv zoomfactor

def offset (size zoomfactor : Int) : Int := (size - scaled size zoomfactor).tdiv 2

def requested (defrect : Rect) (zoomfactor : Int) : Request where
  factor := zoomfactor
  rect :=
    { left := offset defrect.width zoomfactor
      top := offset defrect.height zoomfactor
      width := scaled defrect.width zoomfactor
      height := scaled defrect.height zoomfactor }

/-- What `VIDIOC_S_CROP` is asked for, and the value that is returned. -/
def crop (device : Device) (call : Nat) (zoomfactor : Int) : Option Request × Int :=
  if !device.cropcap call then (none, -1)
  else if !device.getCrop call then (none, -1)
  else
    let c := requested device.defrect zoomfactor
    if !device.setCrop call then (some c, -1)
    else if !device.readBack call then (some c, -1)
    else (some c, 0)

structure Zoom where
  zoomFactor : Int
  zoomUp : Bool
  deriving DecidableEq

def turn (zoom : Zoom) : Zoom :=
  if zoom.zoomUp then
    if zoom.zoomFactor < 40 then { zoom with zoomFactor := zoom.zoomFactor + 1 } else { zoom with zoomUp := false }
  else
    if zoom.zoomFactor > 10 then { zoom with zoomFactor := zoom.zoomFactor - 1 } else { zoom with zoomUp := true }

structure State where
  zoom : Zoom
  zooms : List Request

def frame (device : Device) (count : Int) (i : Nat) (s : State) : Round State :=
  if !device.captured i then .exits s
  else if (i : Int) = count then .breaks s
  else
    let r := crop device i s.zoom.zoomFactor
    let s := { s with zooms := s.zooms ++ r.1.toList }
    if r.2 < 0 then .exits s else .goesOn { s with zoom := turn s.zoom }

def frames (count : Int) : Int := if count ≥ 1000 ∨ count ≤ 0 then -1 else count

structure Report where
  zooms : List Request
  reset : Option Request

/-- The loop `while (i < limit)` and the reset of the zoom behind it; the limit is 500. -/
def main (device : Device) (count : Int) (limit : Nat) : Report :=
  match whileLe (frame device (frames count)) limit ⟨⟨10, false⟩, []⟩ with
  | .done s => ⟨s.zooms, (crop device 0 10).1⟩
  | .exited s => ⟨s.zooms, none⟩

/-- Up from 10 to 40 and down again, with two frames at either end: 62 frames in all. -/
def phase (r : Nat) : Zoom :=
  if r = 0 then ⟨10, false⟩ else if r ≤ 31 then ⟨9 + r, true⟩ else ⟨72 - r, false⟩

def sweep (k : Nat) : Int := (phase (k % 62)).zoomFactor

theorem turn_phase : ∀ r < 62, turn (phase r) = phase ((r + 1) % 62) := by decide

theorem turn_phase_mod (k : Nat) : turn (phase (k % 62)) = phase ((k + 1) % 62) := by
  rw [turn_phase _ (Nat.mod_lt k (by omega)), Nat.mod_add_mod]

theorem sweep_range (k : Nat) : 10 ≤ sweep k ∧ sweep k ≤ 40 := by
  have hphase : ∀ r < 62, 10 ≤ (phase r).zoomFactor ∧ (phase r).zoomFactor ≤ 40 := by decide
  exact hphase _ (Nat.mod_lt k (by omega))

theorem sweep_step (k : Nat) : sweep (k + 1) - sweep k ≤ 1 ∧ sweep k - sweep (k + 1) ≤ 1 := by
  have hphase : ∀ r < 62, (phase ((r + 1) % 62)).zoomFactor - (phase r).zoomFactor ≤ 1 ∧
      (phase r).zoomFactor - (phase ((r + 1) % 62)).zoomFactor ≤ 1 := by decide
  rw [sweep, sweep, ← Nat.mod_add_mod]
  exact hphase _ (Nat.mod_lt k (by omega))

/-! The rectangle for one factor. -/

theorem int_eq {x : Int} (h0 : 0 ≤ x) (h : x < 2147483648) : int x = x :=
  Int.bmod_eq_of_le (by omega) (by omega)

variable {size factor : Int}

theorem scaled_eq (h0 : 0 ≤ size) (h : size < 134217728) (factor : Int) : scaled size factor = size * 10 / factor := by
  rw [scaled, int_eq (by omega) (by omega), Int.tdiv_eq_ediv_of_nonneg (by omega)]

theorem scaled_le (h0 : 0 ≤ size) (h : size < 134217728) (hfactor : 10 ≤ factor) : scaled size factor ≤ size := by
  rw [scaled_eq h0 h]
  apply Int.ediv_le_of_le_mul (by omega)
  exact Int.mul_le_mul_of_nonneg_left hfactor h0

theorem scaled_ten (h0 : 0 ≤ size) (h : size < 134217728) : scaled size 10 = size := by
  rw [scaled_eq h0 h]
  exact Int.mul_ediv_cancel size (by omega)

theorem quarter_le_quotient (h0 : 0 ≤ size) (hfactor : 10 ≤ factor) (hmost : factor ≤ 40) :
    size / 4 ≤ size * 10 / factor := by
  apply Int.le_ediv_of_mul_le (by omega)
  calc size / 4 * factor ≤ size / 4 * 40 := Int.mul_le_mul_of_nonneg_left hmost (by omega)
    _ ≤ size * 10 := by omega

/-- The quarter may be missed by no more than the fraction that a division drops. -/
theorem quarter_le_scaled (h0 : 0 ≤ size) (h : size < 134217728) (hfactor : 10 ≤ factor) (hmost : factor ≤ 40) :
    size / 4 ≤ scaled size factor := by
  rw [scaled_eq h0 h]
  exact quarter_le_quotient h0 hfactor hmost

/-- Centred but for half a pixel, in doubled coordinates. -/
theorem offset_centred (h0 : 0 ≤ size) (h : size < 134217728) (hfactor : 10 ≤ factor) : 0 ≤ offset size factor ∧
    2 * offset size factor + scaled size factor ≤ size ∧ size - 1 ≤ 2 * offset size factor + scaled size factor := by
  have hle := scaled_le h0 h hfactor
  rw [offset, Int.tdiv_eq_ediv_of_nonneg (by omega)]
  omega

/-! The frames of a run. -/

/-- The crop of the call gets as far as `VIDIOC_S_CROP`. -/
def Asks (device : Device) (call : Nat) : Prop := device.cropcap call = true ∧ device.getCrop call = true

/-- Frame `i` asks for a rectangle. -/
def Zooms (device : Device) (count : Int) (i : Nat) : Prop :=
  device.captured i = true ∧ (i : Int) ≠ frames count ∧ Asks device i

/-- Frame `i` does not end the loop. -/
def GoesOn (device : Device) (count : Int) (i : Nat) : Prop :=
  Zooms device count i ∧ device.setCrop i = true ∧ device.readBack i = true

/-- Frame `k + 1` is reached and asks for a rectangle, the one with the number `k`. -/
def Asked (device : Device) (count : Int) (limit k : Nat) : Prop :=
  k < limit ∧ (∀ j < k, GoesOn device count (j + 1)) ∧ Zooms device count (k + 1)

def sweepRequests (device : Device) (m : Nat) : List Request :=
  (List.range m).map fun k => requested device.defrect (sweep k)

/-- The state before frame `i`. -/
structure Head (device : Device) (count : Int) (i : Nat) (s : State) : Prop where
  first : 1 ≤ i
  zoom : s.zoom = phase ((i - 1) % 62)
  zooms : s.zooms = sweepRequests device (i - 1)
  before : ∀ j < i - 1, GoesOn device count (j + 1)

/-- The loop is left before frame 1 has asked for a rectangle. -/
def NoZoom (device : Device) (count : Int) (limit : Nat) : Prop :=
  limit = 0 ∨ device.captured 1 = true ∧ frames count = 1

inductive Zoomed (device : Device) (count : Int) (limit : Nat) : Ending State → Prop
  | done {s : State} (m : Nat) (hzooms : s.zooms = sweepRequests device m)
      (hasked : ∀ k, Asked device count limit k ↔ k < m) (hnone : m = 0 → NoZoom device count limit) :
      Zoomed device count limit (.done s)
  | exited {s : State} (m : Nat) (hzooms : s.zooms = sweepRequests device m)
      (hasked : ∀ k, Asked device count limit k ↔ k < m) (hnone : m = 0 → ¬ NoZoom device count limit) :
      Zoomed device count limit (.exited s)

variable {device : Device} {count : Int} {limit : Nat}

theorem crop_refused {call : Nat} (h : ¬ Asks device call) (factor : Int) : crop device call factor = (none, -1) := by
  rw [crop]
  cases hcap : device.cropcap call with
  | false => rfl
  | true =>
    cases hget : device.getCrop call with
    | false => rfl
    | true => exact absurd ⟨hcap, hget⟩ h

theorem crop_asked {call : Nat} (h : Asks device call) (factor : Int) :
    (crop device call factor).1 = some (requested device.defrect factor) := by
  rw [crop, h.1, h.2]
  cases device.setCrop call <;> cases device.readBack call <;> rfl

theorem crop_failed {call : Nat} (h : Asks device call)
    (hfails : ¬ (device.setCrop call = true ∧ device.readBack call = true)) (factor : Int) :
    (crop device call factor).2 = -1 := by
  rw [crop, h.1, h.2]
  cases hset : device.setCrop call with
  | false => rfl
  | true =>
    cases hread : device.readBack call with
    | false => rfl
    | true => exact absurd ⟨hset, hread⟩ hfails

theorem crop_done {call : Nat} (h : Asks device call) (hset : device.setCrop call = true)
    (hread : device.readBack call = true) (factor : Int) : (crop device call factor).2 = 0 := by
  rw [crop, h.1, h.2, hset, hread]
  rfl

theorem sweepRequests_succ (device : Device) (m : Nat) :
    sweepRequests device (m + 1) = sweepRequests device m ++ [requested device.defrect (sweep m)] := by
  rw [sweepRequests, List.range_succ, List.map_append]
  rfl

/-- After the frames `1, …, m` have gone on, the others ask for nothing where frame `m + 1` does not. -/
theorem asked_iff_of_stopped {m : Nat} (hm : m ≤ limit) (hbefore : ∀ j < m, GoesOn device count (j + 1))
    (hstop : m < limit → ¬ Zooms device count (m + 1)) (k : Nat) : Asked device count limit k ↔ k < m := by
  constructor
  · rintro ⟨hlimit, hk, hzooms⟩
    refine Nat.lt_of_not_le fun hle => ?_
    obtain rfl | hlt := Nat.eq_or_lt_of_le hle
    · exact hstop hlimit hzooms
    · exact hstop (Nat.lt_trans hlt hlimit) (hk m hlt).1
  · intro hk
    exact ⟨Nat.lt_of_lt_of_le hk hm, fun j hj => hbefore j (Nat.lt_trans hj hk), (hbefore k hk).1⟩

theorem asked_iff_of_failed {m : Nat} (hm : m < limit) (hbefore : ∀ j < m, GoesOn device count (j + 1))
    (hzooms : Zooms device count (m + 1)) (hfails : ¬ GoesOn device count (m + 1)) (k : Nat) :
    Asked device count limit k ↔ k < m + 1 := by
  constructor
  · rintro ⟨-, hk, -⟩
    exact Nat.lt_of_not_le fun hle => hfails (hk m hle)
  · intro hk
    obtain hk | rfl := Nat.lt_succ_iff_lt_or_eq.mp hk
    · exact ⟨Nat.lt_trans hk hm, fun j hj => hbefore j (Nat.lt_trans hj hk), (hbefore k hk).1⟩
    · exact ⟨hm, hbefore, hzooms⟩

theorem frame_meets {m : Nat} {s : State} (hm : m < limit) (h : Head device count (m + 1) s) :
    (frame device (frames count) (m + 1) s).Meets (Head device count (m + 1 + 1)) (Zoomed device count limit) := by
  obtain ⟨-, hzoom, hzooms, hbefore⟩ := h
  rw [Nat.add_sub_cancel] at hzoom hzooms hbefore
  have hstop : ¬ Zooms device count (m + 1) → ∀ k, Asked device count limit k ↔ k < m :=
    fun hzooms => asked_iff_of_stopped (Nat.le_of_lt hm) hbefore fun _ => hzooms
  rw [frame]
  cases hcaptured : device.captured (m + 1) with
  | false =>
    refine .exits (.exited m hzooms (hstop fun hzooms => ?_) ?_)
    · exact Bool.false_ne_true (hcaptured.symm.trans hzooms.1)
    · rintro rfl hnone
      obtain rfl | hnone := hnone
      · exact Nat.lt_irrefl 0 hm
      · exact Bool.false_ne_true (hcaptured.symm.trans hnone.1)
  | true =>
    rw [Bool.not_true, if_neg Bool.false_ne_true]
    by_cases hlast : ((m + 1 : Nat) : Int) = frames count
    · rw [if_pos hlast]
      refine .breaks (.done m hzooms (hstop fun hzooms => hzooms.2.1 hlast) ?_)
      rintro rfl
      exact Or.inr ⟨hcaptured, hlast.symm⟩
    · have hnot : m = 0 → ¬ NoZoom device count limit := by
        rintro rfl hnone
        obtain rfl | hnone := hnone
        · exact Nat.lt_irrefl 0 hm
        · exact hlast hnone.2.symm
      rw [if_neg hlast, hzoom]
      dsimp only
      by_cases hasks : Asks device (m + 1)
      · have hask : Zooms device count (m + 1) := ⟨hcaptured, hlast, hasks⟩
        have hnext : s.zooms ++ (crop device (m + 1) (sweep m)).1.toList = sweepRequests device (m + 1) := by
          rw [crop_asked hasks, hzooms, sweepRequests_succ]
          rfl
        rw [show (phase (m % 62)).zoomFactor = sweep m from rfl, hnext]
        by_cases hok : device.setCrop (m + 1) = true ∧ device.readBack (m + 1) = true
        · rw [crop_done hasks hok.1 hok.2, if_neg (Int.lt_irrefl 0), turn_phase_mod]
          refine .goesOn ⟨Nat.le_add_left 1 _, rfl, rfl, fun j hj => ?_⟩
          obtain hj | rfl := Nat.lt_succ_iff_lt_or_eq.mp hj
          · exact hbefore j hj
          · exact ⟨hask, hok⟩
        · rw [crop_failed hasks hok, if_pos (by omega)]
          exact .exits (.exited (m + 1) rfl (asked_iff_of_failed hm hbefore hask fun hgoes => hok hgoes.2)
            fun hzero => absurd hzero (Nat.succ_ne_zero m))
      · rw [crop_refused hasks, if_pos (by omega)]
        refine .exits (.exited m ?_ (hstop fun hzooms => hasks hzooms.2.2) hnot)
        rw [Option.toList_none, List.append_nil, hzooms]

theorem loop_zoomed (device : Device) (count : Int) (limit : Nat) :
    Zoomed device count limit (whileLe (frame device (frames count)) limit ⟨⟨10, false⟩, []⟩) := by
  apply whileLe_invariant (Head device count)
  · intro i hi s h
    obtain ⟨m, rfl⟩ : ∃ m, i = m + 1 := ⟨i - 1, (Nat.sub_add_cancel h.first).symm⟩
    exact frame_meets hi h
  · intro s h
    have hbefore := h.before
    rw [Nat.add_sub_cancel] at hbefore
    refine .done limit h.zooms (asked_iff_of_stopped (Nat.le_refl limit) hbefore fun hlt => ?_) Or.inl
    exact absurd hlt (Nat.lt_irrefl limit)
  · exact ⟨Nat.le_refl 1, rfl, rfl, fun j hj => absurd hj (Nat.not_lt_zero j)⟩

def Report.requests (report : Report) : List Request := report.zooms ++ report.reset.toList

def Rect.Inside (rect defrect : Rect) : Prop :=
  (defrect.left ≤ rect.left ∧ rect.left + rect.width ≤ defrect.left + defrect.width) ∧
    defrect.top ≤ rect.top ∧ rect.top + rect.height ≤ defrect.top + defrect.height

/-- The middles are at most one apart, that is, their doubles at most two. -/
def Rect.Centred (rect defrect : Rect) : Prop :=
  (2 * rect.left + rect.width - (2 * defrect.left + defrect.width)).natAbs ≤ 2 ∧
    (2 * rect.top + rect.height - (2 * defrect.top + defrect.height)).natAbs ≤ 2

def Rect.AtLeastQuarter (rect defrect : Rect) : Prop :=
  defrect.width ≤ 4 * rect.width ∧ defrect.height ≤ 4 * rect.height

/-- Non-negative origin, and sizes below `2 ^ 27`. -/
structure Rect.Small (rect : Rect) : Prop where
  left : 0 ≤ rect.left
  top : 0 ≤ rect.top
  width : 0 ≤ rect.width ∧ rect.width < 134217728
  height : 0 ≤ rect.height ∧ rect.height < 134217728

structure ZoomsInside (device : Device) (count : Int) (limit : Nat) : Prop where
  inside : ∀ r ∈ (main device count limit).requests, r.rect.Inside device.defrect
  centred : ∀ r ∈ (main device count limit).requests, r.rect.Centred device.defrect
  quarter : ∀ r ∈ (main device count limit).requests, r.rect.AtLeastQuarter device.defrect
  range : ∀ r ∈ (main device count limit).requests, 10 ≤ r.factor ∧ r.factor ≤ 40
  sweeps : ∀ k (h : k < (main device count limit).zooms.length), (main device count limit).zooms[k].factor = sweep k

/-- A rectangle is asked for: by the first frame, or by the reset behind a loop without one. -/
def Requests (device : Device) (count : Int) (limit : Nat) : Prop :=
  Asked device count limit 0 ∨ NoZoom device count limit ∧ Asks device 0

/-- The size that is left at the factor, a truncated quotient, is a quarter of the whole. -/
def Quarter (size factor : Int) : Prop := size ≤ 4 * (size * 10 / factor)

theorem sweepRequests_ne_nil {m : Nat} (hm : m ≠ 0) : sweepRequests device m ≠ [] := by
  obtain ⟨j, rfl⟩ := Nat.exists_eq_succ_of_ne_zero hm
  rw [sweepRequests_succ]
  exact List.append_ne_nil_of_right_ne_nil _ (List.cons_ne_nil _ _)

/-- The requests are those of the frames that ask for one, and the reset where the loop ends by itself. -/
theorem main_zoomed (device : Device) (count : Int) (limit : Nat) : ∃ m,
    (main device count limit).zooms = sweepRequests device m ∧ (∀ k, Asked device count limit k ↔ k < m) ∧
      (∀ r ∈ (main device count limit).reset, r = requested device.defrect 10) ∧
      ((main device count limit).requests ≠ [] ↔ Requests device count limit) := by
  have hloop := loop_zoomed device count limit
  rw [main]
  generalize whileLe (frame device (frames count)) limit ⟨⟨10, false⟩, []⟩ = ending at hloop
  cases hloop with
  | @done s m hzooms hasked hnone =>
    dsimp only [Report.requests]
    refine ⟨m, hzooms, hasked, fun r hr => ?_, ?_⟩
    · by_cases hasks : Asks device 0
      · rw [crop_asked hasks] at hr
        exact (Option.some.inj hr).symm
      · rw [crop_refused hasks] at hr
        exact absurd hr (Option.not_mem_none r)
    · rw [hzooms, Requests, hasked]
      by_cases hm : m = 0
      · rw [hm, or_iff_right (Nat.lt_irrefl 0), and_iff_right (hnone hm)]
        by_cases hasks : Asks device 0
        · rw [crop_asked hasks]
          exact iff_of_true (List.cons_ne_nil _ _) hasks
        · rw [crop_refused hasks]
          exact iff_of_false (fun hne => hne rfl) hasks
      · exact iff_of_true (List.append_ne_nil_of_left_ne_nil (sweepRequests_ne_nil hm) _) (Or.inl (Nat.pos_of_ne_zero hm))
  | @exited s m hzooms hasked hnone =>
    dsimp only [Report.requests]
    refine ⟨m, hzooms, hasked, fun r hr => absurd hr (Option.not_mem_none r), ?_⟩
    rw [hzooms, Requests, hasked, Option.toList_none, List.append_nil]
    by_cases hm : m = 0
    · rw [hm, or_iff_right (Nat.lt_irrefl 0)]
      exact iff_of_false (fun hne => hne rfl) fun h => hnone hm h.1
    · exact iff_of_true (sweepRequests_ne_nil hm) (Or.inl (Nat.pos_of_ne_zero hm))

theorem mem_sweepRequests {m : Nat} {r : Request} :
    r ∈ sweepRequests device m ↔ ∃ k < m, r = requested device.defrect (sweep k) := by
  rw [sweepRequests, List.mem_map]
  constructor
  · rintro ⟨k, hk, rfl⟩
    exact ⟨k, List.mem_range.mp hk, rfl⟩
  · rintro ⟨k, hk, rfl⟩
    exact ⟨k, List.mem_range.mpr hk, rfl⟩

section

variable {defrect : Rect} (hsmall : defrect.Small)
include hsmall

theorem inside_of_origin (hleft : defrect.left = 0) (htop : defrect.top = 0) (hfactor : 10 ≤ factor) :
    (requested defrect factor).rect.Inside defrect := by
  obtain ⟨hleft0, hleftin, -⟩ := offset_centred hsmall.width.1 hsmall.width.2 hfactor
  obtain ⟨htop0, htopin, -⟩ := offset_centred hsmall.height.1 hsmall.height.2 hfactor
  rw [Rect.Inside, requested, hleft, htop]
  dsimp only
  omega

theorem centred_of_origin (hleft : defrect.left = 0) (htop : defrect.top = 0) (hfactor : 10 ≤ factor) :
    (requested defrect factor).rect.Centred defrect := by
  obtain ⟨-, hleftmost, hleftleast⟩ := offset_centred hsmall.width.1 hsmall.width.2 hfactor
  obtain ⟨-, htopmost, htopleast⟩ := offset_centred hsmall.height.1 hsmall.height.2 hfactor
  rw [Rect.Centred, requested, hleft, htop]
  dsimp only
  omega

theorem atLeastQuarter_iff (factor : Int) : (requested defrect factor).rect.AtLeastQuarter defrect ↔
    Quarter defrect.width factor ∧ Quarter defrect.height factor := by
  rw [Rect.AtLeastQuarter, requested, scaled_eq hsmall.width.1 hsmall.width.2,
    scaled_eq hsmall.height.1 hsmall.height.2]
  rfl

theorem quarter_ten : Quarter defrect.width 10 ∧ Quarter defrect.height 10 := by
  have hwidth := hsmall.width.1
  have hheight := hsmall.height.1
  rw [Quarter, Quarter]
  omega

/-- The whole rectangle at the origin is inside only where the default is at the origin as well. -/
theorem origin_of_inside (h : (requested defrect 10).rect.Inside defrect) : defrect.left = 0 ∧ defrect.top = 0 := by
  obtain ⟨⟨hleft, -⟩, htop, -⟩ := h
  have hleft0 := hsmall.left
  have htop0 := hsmall.top
  rw [requested] at hleft htop
  dsimp only at hleft htop
  rw [offset, scaled_ten hsmall.width.1 hsmall.width.2, Int.sub_self] at hleft
  rw [offset, scaled_ten hsmall.height.1 hsmall.height.2, Int.sub_self] at htop
  exact ⟨Int.le_antisymm hleft hleft0, Int.le_antisymm htop htop0⟩

end

theorem Report.mem_requests {m : Nat} {report : Report} (hzooms : report.zooms = sweepRequests device m)
    (hreset : ∀ r ∈ report.reset, r = requested device.defrect 10) {r : Request} (hr : r ∈ report.requests) :
    r = requested device.defrect 10 ∨ ∃ k < m, r = requested device.defrect (sweep k) := by
  obtain hr | hr := List.mem_append.mp hr
  · rw [hzooms] at hr
    exact Or.inr (mem_sweepRequests.mp hr)
  · exact Or.inl (hreset r (Option.mem_toList.mp hr))

/-- The first rectangle that is asked for is the whole one. -/
theorem whole_requested (h : Requests device count limit) :
    requested device.defrect 10 ∈ (main device count limit).requests := by
  obtain ⟨m, hzooms, -, hreset, hrequests⟩ := main_zoomed device count limit
  obtain ⟨r, hr⟩ := List.exists_mem_of_ne_nil _ (hrequests.mpr h)
  obtain rfl | ⟨k, hk, rfl⟩ := Report.mem_requests hzooms hreset hr
  · exact hr
  · apply List.mem_append_left
    rw [hzooms]
    exact mem_sweepRequests.mpr ⟨0, Nat.zero_lt_of_lt hk, rfl⟩

/-- The rectangles are as wanted exactly where, if one is asked for at all, the default rectangle is at
the origin, and no truncated quotient that a frame asks for misses the quarter. -/
theorem zoomsInside_iff (hsmall : device.defrect.Small) : ZoomsInside device count limit ↔
    (Requests device count limit → device.defrect.left = 0 ∧ device.defrect.top = 0) ∧
      ∀ k, Asked device count limit k →
        Quarter device.defrect.width (sweep k) ∧ Quarter device.defrect.height (sweep k) := by
  obtain ⟨m, hzooms, hasked, hreset, hrequests⟩ := main_zoomed device count limit
  have hmem := fun r => @Report.mem_requests device m _ hzooms hreset r
  have hzoom : ∀ k < m, requested device.defrect (sweep k) ∈ (main device count limit).requests := by
    intro k hk
    apply List.mem_append_left
    rw [hzooms]
    exact mem_sweepRequests.mpr ⟨k, hk, rfl⟩
  constructor
  · intro h
    constructor
    · intro hrequest
      exact origin_of_inside hsmall (h.inside _ (whole_requested hrequest))
    · intro k hk
      exact (atLeastQuarter_iff hsmall _).mp (h.quarter _ (hzoom k ((hasked k).mp hk)))
  · intro h
    obtain ⟨horigin, hquarter⟩ := h
    have hzero : ∀ r ∈ (main device count limit).requests, device.defrect.left = 0 ∧ device.defrect.top = 0 :=
      fun r hr => horigin (hrequests.mp (List.ne_nil_of_mem hr))
    have hfactor : ∀ r ∈ (main device count limit).requests,
        ∃ factor, r = requested device.defrect factor ∧ 10 ≤ factor ∧ factor ≤ 40 := by
      intro r hr
      obtain hr | ⟨k, -, hr⟩ := hmem r hr
      · exact ⟨10, hr, Int.le_refl 10, by omega⟩
      · exact ⟨sweep k, hr, sweep_range k⟩
    refine ⟨fun r hr => ?_, fun r hr => ?_, fun r hr => ?_, fun r hr => ?_, fun k hk => ?_⟩
    · obtain ⟨hleft, htop⟩ := hzero r hr
      obtain ⟨factor, rfl, hleast, -⟩ := hfactor r hr
      exact inside_of_origin hsmall hleft htop hleast
    · obtain ⟨hleft, htop⟩ := hzero r hr
      obtain ⟨factor, rfl, hleast, -⟩ := hfactor r hr
      exact centred_of_origin hsmall hleft htop hleast
    · obtain rfl | ⟨k, hk, rfl⟩ := hmem r hr
      · exact (atLeastQuarter_iff hsmall _).mpr (quarter_ten hsmall)
      · exact (atLeastQuarter_iff hsmall _).mpr (hquarter k ((hasked k).mpr hk))
    · obtain ⟨factor, rfl, hrange⟩ := hfactor r hr
      exact hrange
    · simp [hzooms, sweepRequests, requested]

theorem quarter_of_multiple (h0 : 0 ≤ size) (hfour : 4 * (size / 4) = size) (hfactor : 10 ≤ factor)
    (hmost : factor ≤ 40) : Quarter size factor := by
  have hquarter := quarter_le_quotient h0 hfactor hmost
  rw [Quarter]
  omega

/-- A device all of whose ioctls succeed. -/
def ready (defrect : Rect) : Device := ⟨defrect, fun _ => true, fun _ => true, fun _ => true, fun _ => true, fun _ => true⟩

theorem zoomsInside_qcif : ZoomsInside (ready ⟨0, 0, 176, 144⟩) (-1) 500 := by
  have hsmall : (ready ⟨0, 0, 176, 144⟩).defrect.Small := by
    constructor <;> decide
  apply (zoomsInside_iff hsmall).mpr
  refine ⟨fun _ => ⟨rfl, rfl⟩, fun k _ => ?_⟩
  obtain ⟨hleast, hmost⟩ := sweep_range k
  exact ⟨quarter_of_multiple (by decide) (by decide) hleast hmost,
    quarter_of_multiple (by decide) (by decide) hleast hmost⟩

/-- The rectangle for the first frame begins at the origin, and so eight pixels left of the default one. -/
theorem shifted_defrect_left : ¬ ZoomsInside (ready ⟨8, 0, 176, 144⟩) (-1) 500 := by
  intro h
  have hsmall : (ready ⟨8, 0, 176, 144⟩).defrect.Small := by
    constructor <;> decide
  have hrequests : Requests (ready ⟨8, 0, 176, 144⟩) (-1) 500 :=
    Or.inl ⟨by decide, fun j hj => absurd hj (Nat.not_lt_zero j), rfl, by decide, rfl, rfl⟩
  exact absurd (origin_of_inside hsmall (h.inside _ (whole_requested hrequests))).1 (by decide)

end StreamingZoom

end DeviceDriverTest
