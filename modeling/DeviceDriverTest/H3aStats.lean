import Mathlib.Algebra.Group.Nat.Defs
import Mathlib.Tactic.SplitIfs
import DeviceDriverTest.CountedLoop

/-! The statistics of the H3A auto exposure: the buffer for a number of windows and
the walk that prints it. -/

namespace DeviceDriverTest

namespace H3aStats

open CountedLoop

def BYTES_PER_WINDOW : UInt32 := 16

/-- The windows with a row of counts for each eight of them, `unsigned int` as both functions compute it. -/
def windowRows (num_windows : UInt32) : UInt32 :=
  num_windows + num_windows / 8 + if num_windows % 8 ≠ 0 then 1 else 0

def buff_size (num_windows : UInt32) : UInt32 := windowRows num_windows * BYTES_PER_WINDOW

def buff_prev_size (num_windows : UInt32) : UInt32 := buff_size num_windows / 2

inductive Printed
  | word (i : Nat) (value : UInt16)
  | unsaturated
  | window (label : Int)
  | newline
  deriving DecidableEq

structure State where
  unsat_cnt : Int
  printed : List Printed

def displayRow (num_windows : UInt32) (window : Nat) (s : State) : State :=
  if (1 < window ∧ window % 9 = 0) ∨ window = (windowRows num_windows).toNat then
    ⟨s.unsat_cnt + 1, s.printed ++ [.unsaturated]⟩
  else ⟨s.unsat_cnt, s.printed ++ [.window ((window : Int) - 1 - s.unsat_cnt)]⟩

def displayWord (num_windows : UInt32) (buff_preview : Nat → UInt16) (i : Nat) (s : State) : State :=
  let data8 := (i + 1) % 8
  let data2 := (i + 1) % 2
  let window := (i + 1) / 8
  let s := { s with printed := s.printed ++ [.word i (buff_preview i)] }
  let s := if data8 = 0 then displayRow num_windows window s else s
  if data2 = 0 then { s with printed := s.printed ++ [.newline] } else s

/-- What follows the lines about the configuration. -/
def display_h3a_stats (num_windows buff_prev_size : UInt32) (buff_preview : Nat → UInt16) : List Printed :=
  (forRange (displayWord num_windows buff_preview) buff_prev_size.toNat ⟨0, []⟩).printed

def Printed.index : Printed → Option Nat
  | .word i _ => some i
  | _ => none

def Printed.label : Printed → Option Int
  | .window label => some label
  | _ => none

def Printed.isRow : Printed → Bool
  | .unsaturated | .window _ => true
  | _ => false

/-- The windows of group `g` of `n` windows, and the counts after them. -/
def group (n g : Nat) : List Printed :=
  (List.range (min 8 (n - 8 * g))).map (fun j => .window (8 * g + j : Nat)) ++ [.unsaturated]

/-- The walk over the buffer that the caller allocates for `n` windows. -/
structure Walked (n : UInt32) (buff_preview : Nat → UInt16) (out : List Printed) : Prop where
  words : out.filterMap Printed.index = List.range ((buff_size n).toNat / 2)
  values : ∀ i value, Printed.word i value ∈ out → value = buff_preview i
  windows : out.filterMap Printed.label = (List.range n.toNat).map Int.ofNat
  counts : out.count .unsaturated = (n.toNat + 7) / 8
  groups : out.filter Printed.isRow = (List.range ((n.toNat + 7) / 8)).flatMap (group n.toNat)

/-- What row `w` holds when there are `total`. -/
def row (total w : Nat) : Printed :=
  if (w + 1) % 9 = 0 ∨ w + 1 = total then .unsaturated else .window ((w : Int) - (w / 9 : Nat))

theorem row_shape (total w : Nat) :
    (row total w).index = none ∧ (row total w).isRow = true ∧ ∀ i value, row total w ≠ .word i value := by
  rw [row]
  split_ifs
  · exact ⟨rfl, rfl, fun _ _ => nofun⟩
  · exact ⟨rfl, rfl, fun _ _ => nofun⟩

/-- After `i` words. -/
structure Walking (total : Nat) (buff_preview : Nat → UInt16) (i : Nat) (s : State) : Prop where
  words : s.printed.filterMap Printed.index = List.range i
  values : ∀ j value, Printed.word j value ∈ s.printed → value = buff_preview j
  rows : s.printed.filter Printed.isRow = (List.range (i / 8)).map (row total)
  unsat_cnt : i / 8 < total → s.unsat_cnt = (i / 8 / 9 : Nat)

variable {n : UInt32} {total : Nat} {buff_preview : Nat → UInt16} {i : Nat} {s : State}

theorem Walking.newline (h : Walking total buff_preview i s) :
    Walking total buff_preview i { s with printed := s.printed ++ [.newline] } where
  words := by
    rw [List.filterMap_append, h.words]
    exact List.append_nil _
  values := by
    intro j value hmem
    obtain hmem | hmem := List.mem_append.mp hmem
    · exact h.values j value hmem
    · exact Printed.noConfusion (List.mem_singleton.mp hmem)
  rows := by
    rw [List.filter_append, h.rows]
    exact List.append_nil _
  unsat_cnt := h.unsat_cnt

theorem displayRow_spec {w : Nat} (hw : w < (windowRows n).toNat) (hcnt : s.unsat_cnt = (w / 9 : Nat)) :
    (displayRow n (w + 1) s).printed = s.printed ++ [row (windowRows n).toNat w] ∧
      (w + 1 < (windowRows n).toNat → (displayRow n (w + 1) s).unsat_cnt = ((w + 1) / 9 : Nat)) := by
  have hcond : ((1 < w + 1 ∧ (w + 1) % 9 = 0) ∨ w + 1 = (windowRows n).toNat) ↔
      ((w + 1) % 9 = 0 ∨ w + 1 = (windowRows n).toNat) := by omega
  by_cases h : (w + 1) % 9 = 0 ∨ w + 1 = (windowRows n).toNat
  · rw [displayRow, if_pos (hcond.mpr h), row, if_pos h]
    refine ⟨rfl, fun hlt => ?_⟩
    show s.unsat_cnt + 1 = _
    omega
  · rw [displayRow, if_neg (mt hcond.mp h), row, if_neg h]
    have hlabel : ((w + 1 : Nat) : Int) - 1 - s.unsat_cnt = (w : Int) - (w / 9 : Nat) := by omega
    refine ⟨by rw [hlabel], fun hlt => ?_⟩
    show s.unsat_cnt = _
    omega

/-- A word is printed, and a row of the table behind every eighth. -/
theorem Walking.word (h : Walking total buff_preview i s) (rows : List Printed) (cnt : Int)
    (hrows : rows = if (i + 1) % 8 = 0 then [row total (i / 8)] else [])
    (hcnt : (i + 1) / 8 < total → cnt = ((i + 1) / 8 / 9 : Nat)) :
    Walking total buff_preview (i + 1) ⟨cnt, s.printed ++ [.word i (buff_preview i)] ++ rows⟩ := by
  have hquiet : rows.filterMap Printed.index = [] ∧ rows.filter Printed.isRow = rows ∧
      ∀ j value, Printed.word j value ∉ rows := by
    obtain ⟨hindex, hrow, hword⟩ := row_shape total (i / 8)
    rw [hrows]
    split_ifs
    · exact ⟨by simp [hindex], by simp [hrow], fun j value hmem => hword j value (List.mem_singleton.mp hmem).symm⟩
    · exact ⟨rfl, rfl, fun _ _ => List.not_mem_nil⟩
  obtain ⟨hindex, hrow, hword⟩ := hquiet
  refine ⟨?_, ?_, ?_, hcnt⟩
  · rw [List.filterMap_append, List.filterMap_append, h.words, hindex, List.range_succ, List.append_nil]
    rfl
  · intro j value hmem
    rw [List.mem_append, List.mem_append, List.mem_singleton] at hmem
    obtain (hmem | hmem) | hmem := hmem
    · exact h.values j value hmem
    · obtain ⟨rfl, rfl⟩ := Printed.word.inj hmem
      rfl
    · exact absurd hmem (hword j value)
  · have hword : [Printed.word i (buff_preview i)].filter Printed.isRow = [] := rfl
    rw [List.filter_append, List.filter_append, h.rows, hrow, hrows, hword, List.append_nil]
    by_cases hfull : (i + 1) % 8 = 0
    · have hnext : (i + 1) / 8 = i / 8 + 1 := by omega
      rw [if_pos hfull, hnext, List.range_succ, List.map_append]
      rfl
    · have hsame : (i + 1) / 8 = i / 8 := by omega
      rw [if_neg hfull, hsame, List.append_nil]

theorem Walking.step (h : Walking (windowRows n).toNat buff_preview i s) (hi : i / 8 < (windowRows n).toNat) :
    Walking (windowRows n).toNat buff_preview (i + 1) (displayWord n buff_preview i s) := by
  have hprinted : Walking (windowRows n).toNat buff_preview (i + 1)
      (if (i + 1) % 8 = 0 then
        displayRow n ((i + 1) / 8) { s with printed := s.printed ++ [.word i (buff_preview i)] }
      else { s with printed := s.printed ++ [.word i (buff_preview i)] }) := by
    by_cases hfull : (i + 1) % 8 = 0
    · have hnext : (i + 1) / 8 = i / 8 + 1 := by omega
      obtain ⟨hrow, hcnt⟩ := displayRow_spec (s := { s with printed := s.printed ++ [.word i (buff_preview i)] })
        hi (h.unsat_cnt hi)
      rw [if_pos hfull, hnext]
      have hword := h.word [row (windowRows n).toNat (i / 8)]
        (displayRow n (i / 8 + 1) { s with printed := s.printed ++ [.word i (buff_preview i)] }).unsat_cnt
        (by rw [if_pos hfull]) fun hlt => by rw [hnext] at hlt ⊢; exact hcnt hlt
      rwa [← hrow] at hword
    · have hsame : (i + 1) / 8 = i / 8 := by omega
      rw [if_neg hfull]
      have hword := h.word [] s.unsat_cnt (by rw [if_neg hfull]) fun _ => by rw [hsame]; exact h.unsat_cnt hi
      rwa [List.append_nil] at hword
  rw [displayWord]
  by_cases heven : (i + 1) % 2 = 0
  · rw [if_pos heven]
    exact hprinted.newline
  · rw [if_neg heven]
    exact hprinted

theorem display_walking (n : UInt32) (buff_preview : Nat → UInt16) :
    Walking (windowRows n).toNat buff_preview (8 * (windowRows n).toNat)
      (forRange (displayWord n buff_preview) (8 * (windowRows n).toNat) ⟨0, []⟩) := by
  refine forRange_invariant (Walking (windowRows n).toNat buff_preview) ?_ fun i hi s hs => ?_
  · exact ⟨rfl, fun _ _ hmem => absurd hmem List.not_mem_nil, rfl, fun _ => rfl⟩
  · exact hs.step (by omega)

section Groups

variable {n : Nat}

theorem row_group {g : Nat} (hg : g < (n + 7) / 8) :
    (List.range (min 8 (n - 8 * g) + 1)).map (fun j => row (n + (n + 7) / 8) (9 * g + j)) = group n g := by
  rw [List.range_succ, List.map_append, group]
  congr 1
  · refine List.map_congr_left fun j hj => ?_
    have hlt : j < min 8 (n - 8 * g) := List.mem_range.mp hj
    have hlabel : ((9 * g + j : Nat) : Int) - ((9 * g + j) / 9 : Nat) = (8 * g + j : Nat) := by omega
    rw [row, if_neg (by omega), hlabel]
  · have hlast : (9 * g + min 8 (n - 8 * g) + 1) % 9 = 0 ∨ 9 * g + min 8 (n - 8 * g) + 1 = n + (n + 7) / 8 := by omega
    rw [List.map_singleton, row, if_pos hlast]

/-- The rows of the first `k` groups. -/
theorem rows_groups {k : Nat} (hk : k ≤ (n + 7) / 8) :
    (List.range (min (8 * k) n + k)).map (row (n + (n + 7) / 8)) = (List.range k).flatMap (group n) := by
  induction k with
  | zero => simp
  | succ k ih =>
    have hsplit : min (8 * (k + 1)) n + (k + 1) = 9 * k + (min 8 (n - 8 * k) + 1) := by omega
    have hbefore : min (8 * k) n + k = 9 * k := by omega
    have hfirst := ih (Nat.le_of_succ_le hk)
    rw [hbefore] at hfirst
    rw [hsplit, List.range_add, List.map_append, hfirst, List.map_map, @List.range_succ k, List.flatMap_append,
      List.flatMap_singleton, ← row_group hk]
    rfl

theorem groups_windows {k : Nat} (hk : k ≤ (n + 7) / 8) :
    ((List.range k).flatMap (group n)).filterMap Printed.label = (List.range (min (8 * k) n)).map Int.ofNat := by
  induction k with
  | zero => simp
  | succ k ih =>
    have hsplit : min (8 * (k + 1)) n = 8 * k + min 8 (n - 8 * k) := by omega
    have hbefore : min (8 * k) n = 8 * k := by omega
    have hgroup : (group n k).filterMap Printed.label =
        (List.range (min 8 (n - 8 * k))).map fun (j : Nat) => Int.ofNat (8 * k + j) := by
      rw [group, List.filterMap_append, List.filterMap_map, ← List.filterMap_eq_map]
      exact List.append_nil _
    have hfirst := ih (Nat.le_of_succ_le hk)
    rw [hbefore] at hfirst
    rw [List.range_succ, List.flatMap_append, List.filterMap_append, hfirst, List.flatMap_singleton, hgroup, hsplit,
      List.range_add, List.map_append, List.map_map]
    rfl

theorem groups_counts (k : Nat) : ((List.range k).flatMap (group n)).count .unsaturated = k := by
  induction k with
  | zero => rfl
  | succ k ih =>
    have hgroup : (group n k).count .unsaturated = 1 := by
      have hwindows : Printed.unsaturated ∉
          (List.range (min 8 (n - 8 * k))).map fun j => Printed.window (8 * k + j : Nat) := by simp
      rw [group, List.count_append, List.count_eq_zero_of_not_mem hwindows]
      rfl
    rw [List.range_succ, List.flatMap_append, List.count_append, ih, List.flatMap_singleton, hgroup]

end Groups

/-- The sizes when the rows for `n` windows fit an `unsigned int`. -/
theorem sizes_of_fits {n : UInt32} (hfits : 16 * (n.toNat + (n.toNat + 7) / 8) < 2 ^ 32) :
    (windowRows n).toNat = n.toNat + (n.toNat + 7) / 8 ∧ (buff_size n).toNat = 16 * (windowRows n).toNat ∧
      (buff_prev_size n).toNat = 8 * (windowRows n).toNat := by
  have hceil : ((if n % 8 ≠ 0 then 1 else 0 : UInt32)).toNat = if n.toNat % 8 ≠ 0 then 1 else 0 := by
    have hmod : n % 8 = 0 ↔ n.toNat % 8 = 0 := by
      rw [← UInt32.toNat_inj, UInt32.toNat_mod]
      rfl
    by_cases h : n % 8 = 0
    · rw [if_neg (not_not_intro h), if_neg (not_not_intro (hmod.mp h))]
      rfl
    · rw [if_pos h, if_pos (mt hmod.mpr h)]
      rfl
  have hrows : (windowRows n).toNat = n.toNat + (n.toNat + 7) / 8 := by
    rw [windowRows, UInt32.toNat_add, UInt32.toNat_add, UInt32.toNat_div, hceil]
    show ((n.toNat + n.toNat / 8) % 2 ^ 32 + _) % 2 ^ 32 = _
    split_ifs <;> omega
  have hsize : (buff_size n).toNat = 16 * (windowRows n).toNat := by
    rw [buff_size, UInt32.toNat_mul, hrows]
    show (n.toNat + (n.toNat + 7) / 8) * 16 % 2 ^ 32 = _
    omega
  refine ⟨hrows, hsize, ?_⟩
  rw [buff_prev_size, UInt32.toNat_div, hsize]
  show 16 * (windowRows n).toNat / 2 = _
  omega

theorem filterMap_label_rows (out : List Printed) :
    (out.filter Printed.isRow).filterMap Printed.label = out.filterMap Printed.label := by
  rw [List.filterMap_filter]
  congr 1
  funext p
  cases p <;> rfl

theorem Walking.walked (h : Walking (n.toNat + (n.toNat + 7) / 8) buff_preview (8 * (n.toNat + (n.toNat + 7) / 8)) s)
    (hsize : (buff_size n).toNat / 2 = 8 * (n.toNat + (n.toNat + 7) / 8)) : Walked n buff_preview s.printed := by
  have hrows : s.printed.filter Printed.isRow = (List.range ((n.toNat + 7) / 8)).flatMap (group n.toNat) := by
    have hall : min (8 * ((n.toNat + 7) / 8)) n.toNat = n.toNat := by omega
    have hgroups := rows_groups (Nat.le_refl ((n.toNat + 7) / 8))
    rw [hall] at hgroups
    rw [h.rows, Nat.mul_div_cancel_left _ (by decide), hgroups]
  refine ⟨by rw [h.words, hsize], h.values, ?_, ?_, hrows⟩
  · have hall : min (8 * ((n.toNat + 7) / 8)) n.toNat = n.toNat := by omega
    rw [← filterMap_label_rows, hrows, groups_windows (Nat.le_refl _), hall]
  · have hcount := List.count_filter (l := s.printed) (p := Printed.isRow) (a := .unsaturated) rfl
    rw [← hcount, hrows, groups_counts]

/-- Where the rows for `n` windows fit an `unsigned int`, the walk prints each window and
each row of counts in its place and reads the buffer word by word. -/
theorem display_h3a_stats_walked (n : UInt32) (buff_preview : Nat → UInt16)
    (hfits : 16 * (n.toNat + (n.toNat + 7) / 8) < 2 ^ 32) :
    Walked n buff_preview (display_h3a_stats n (buff_prev_size n) buff_preview) := by
  obtain ⟨hrows, hsize, hprev⟩ := sizes_of_fits hfits
  have hwalking := display_walking n buff_preview
  rw [display_h3a_stats, hprev]
  rw [hrows] at hwalking ⊢
  exact hwalking.walked (by rw [hsize, hrows]; omega)

theorem display_h3a_stats_walked_nine : Walked 9 (fun _ => 0) (display_h3a_stats 9 (buff_prev_size 9) fun _ => 0) :=
  display_h3a_stats_walked 9 (fun _ => 0) (by decide)

/-- The rows for 238609294 windows take 2^32 bytes, so nothing is allocated and nothing printed. -/
theorem statistics_size_wraps : ¬ ∀ (n : UInt32) (buff_preview : Nat → UInt16), 1 ≤ n.toNat →
    Walked n buff_preview (display_h3a_stats n (buff_prev_size n) buff_preview) := by
  intro hall
  have h := (hall 238609294 (fun _ => 0) (by decide)).counts
  have hsize : (buff_prev_size 238609294).toNat = 0 := by decide
  rw [display_h3a_stats, hsize] at h
  exact absurd h (by decide)

end H3aStats

end DeviceDriverTest
