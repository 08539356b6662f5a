import Mathlib.Data.List.Count
import Mathlib.Data.List.Nodup
import Mathlib.Algebra.Group.Nat.Defs
import DeviceDriverTest.CountedLoop

/-! The colour bars that the framebuffer user test writes to the mapped screen. -/

namespace DeviceDriverTest

namespace FbColorBars

open CountedLoop

def colorarray : List UInt16 := [0x00, 0xff, 0x0f, 0xf0]

/-- A byte stored at an offset into the mapping, taken from `colorarray[color]`; `none`
is what lies behind the array. -/
structure Store where
  offset : Nat
  color : Nat
  byte : Option UInt8
  deriving DecidableEq

structure State where
  colorcount : Nat
  stores : List Store

def store (width row column : Nat) (s : State) : State :=
  { s with
    stores := s.stores ++ [⟨column + row * width, s.colorcount, colorarray[s.colorcount]?.map UInt16.toUInt8⟩] }

def nextColor (row : Nat) (s : State) : State :=
  if row % 20 = 0 then { s with colorcount := if s.colorcount = 4 then 0 else s.colorcount + 1 } else s

def writeRows (width rows : Nat) : State :=
  forRange (fun row s => forRange (store width row) width (nextColor row s)) rows ⟨0, []⟩

/-- What an `int` holds; there is no value for a number that does not fit. -/
def int? (x : Nat) : Option Nat := if x < 2 ^ 31 then some x else none

/-- `TST_DATA` once the mapping has succeeded: its size and the stores. -/
def call_test_write (xres yres : Nat) : Option (Nat × List Store) := do
  let width ← int? xres
  let height ← int? yres
  let area ← int? (width * height)
  let size ← int? (area * 2)
  let rows ← int? (2 * height)
  pure (size, (writeRows width rows).stores)

/-- The colour of a stored byte goes on by one every 20 rows, round the four entries. -/
structure BarsRight (width height : Nat) (size : Nat) (stores : List Store) : Prop where
  mapped : size = width * height * 2
  inside : ∀ s ∈ stores, s.offset < size
  once : ∀ p < size, (stores.map Store.offset).count p = 1
  lookups : ∀ s ∈ stores, s.color < 4
  cycle : ∃ first, ∀ s ∈ stores, s.color = (first + s.offset / width / 20) % 4

def rowStores (width row : Nat) : List Store :=
  (List.range width).map fun column =>
    ⟨row * width + column, (row / 20 + 1) % 5, colorarray[(row / 20 + 1) % 5]?.map UInt16.toUInt8⟩

theorem store_row (width row n : Nat) (s : State) :
    forRange (store width row) n s = ⟨s.colorcount, s.stores ++ (List.range n).map fun column =>
      ⟨row * width + column, s.colorcount, colorarray[s.colorcount]?.map UInt16.toUInt8⟩⟩ := by
  induction n with
  | zero => simp [forRange_zero]
  | succ n ih =>
    rw [forRange_succ, ih, List.range_succ, List.map_append, ← List.append_assoc, store, Nat.add_comm n]
    rfl

theorem nextColor_eq {row : Nat} {s : State} (h : s.colorcount = (row + 19) / 20 % 5) :
    nextColor row s = ⟨(row / 20 + 1) % 5, s.stores⟩ := by
  rw [nextColor]
  by_cases hbar : row % 20 = 0
  · have hcount : (if s.colorcount = 4 then 0 else s.colorcount + 1) = (row / 20 + 1) % 5 := by
      by_cases hlast : s.colorcount = 4
      · rw [if_pos hlast]
        omega
      · rw [if_neg hlast]
        omega
    rw [if_pos hbar, hcount]
  · have hsame : s.colorcount = (row / 20 + 1) % 5 := by omega
    rw [if_neg hbar, ← hsame]

/-- The colour counter goes round five values. -/
theorem writeRows_eq (width rows : Nat) :
    writeRows width rows = ⟨(rows + 19) / 20 % 5, (List.range rows).flatMap (rowStores width)⟩ := by
  induction rows with
  | zero => rfl
  | succ rows ih =>
    have hcount : (rows / 20 + 1) % 5 = (rows + 1 + 19) / 20 % 5 := by omega
    rw [writeRows, forRange_succ, ← writeRows, ih, nextColor_eq rfl, store_row, List.range_succ, List.flatMap_append,
      List.flatMap_singleton, ← hcount]
    rfl

theorem offsets_eq (width rows : Nat) :
    (writeRows width rows).stores.map Store.offset = List.range (rows * width) := by
  rw [writeRows_eq]
  induction rows with
  | zero => rw [Nat.zero_mul]; rfl
  | succ rows ih =>
    have hrow : (rowStores width rows).map Store.offset = (List.range width).map (rows * width + ·) := List.map_map
    rw [List.range_succ, List.flatMap_append, List.map_append, ih, List.flatMap_singleton, hrow, Nat.succ_mul,
      List.range_add]

theorem mem_writeRows {width rows : Nat} {s : Store} :
    s ∈ (writeRows width rows).stores ↔ ∃ row < rows, ∃ column < width,
      s = ⟨row * width + column, (row / 20 + 1) % 5, colorarray[(row / 20 + 1) % 5]?.map UInt16.toUInt8⟩ := by
  rw [writeRows_eq]
  simp only [rowStores, List.mem_flatMap, List.mem_map, List.mem_range, eq_comm]

theorem writeRows_once {width height : Nat} :
    (∀ s ∈ (writeRows width (2 * height)).stores, s.offset < width * height * 2) ∧
      ∀ p < width * height * 2, ((writeRows width (2 * height)).stores.map Store.offset).count p = 1 := by
  have harea : 2 * height * width = width * height * 2 := by rw [Nat.mul_comm, Nat.mul_left_comm, Nat.mul_comm]
  have hoffsets := offsets_eq width (2 * height)
  rw [harea] at hoffsets
  refine ⟨fun s hs => ?_, fun p hp => ?_⟩
  · have hmem := List.mem_map_of_mem (f := Store.offset) hs
    rw [hoffsets] at hmem
    exact List.mem_range.mp hmem
  · rw [hoffsets]
    exact List.count_eq_one_of_mem List.nodup_range (List.mem_range.mpr hp)

/-- Three bars keep to the array, and a fourth leaves it. -/
theorem writeRows_right_iff (width height : Nat) :
    BarsRight width height (width * height * 2) (writeRows width (2 * height)).stores ↔ width = 0 ∨ height ≤ 30 := by
  obtain ⟨hinside, honce⟩ := @writeRows_once width height
  refine ⟨fun h => ?_, fun h => ?_⟩
  · by_contra hbad
    rw [not_or, Nat.not_le] at hbad
    have hfourth : (60 / 20 + 1) % 5 < 4 :=
      h.lookups _ (mem_writeRows.mpr ⟨60, by omega, 0, Nat.pos_of_ne_zero hbad.1, rfl⟩)
    omega
  · have hcolor : ∀ s ∈ (writeRows width (2 * height)).stores, s.color = (1 + s.offset / width / 20) % 4 := by
      intro s hs
      obtain ⟨row, hrow, column, hcolumn, rfl⟩ := mem_writeRows.mp hs
      have hwidth : 0 < width := Nat.zero_lt_of_lt hcolumn
      have hdiv : (row * width + column) / width = row := by
        rw [Nat.mul_comm, Nat.mul_add_div hwidth, Nat.div_eq_of_lt hcolumn, Nat.add_zero]
      have hheight : height ≤ 30 := h.resolve_left (Nat.ne_of_gt hwidth)
      show (row / 20 + 1) % 5 = (1 + (row * width + column) / width / 20) % 4
      rw [hdiv]
      omega
    refine ⟨rfl, hinside, honce, fun s hs => ?_, 1, hcolor⟩
    rw [hcolor s hs]
    exact Nat.mod_lt _ (by decide)

/-- The numbers that the program computes are numbers of its type. -/
structure Fits (xres yres : Nat) : Prop where
  width : xres < 2 ^ 31
  size : xres * yres * 2 < 2 ^ 31
  rows : 2 * yres < 2 ^ 31

theorem int?_bind {α : Type} {x : Nat} {f : Nat → Option α} {a : α} :
    (int? x).bind f = some a ↔ x < 2 ^ 31 ∧ f x = some a := by
  rw [int?]
  by_cases h : x < 2 ^ 31
  · rw [if_pos h, Option.bind_some]
    exact ⟨fun hf => ⟨h, hf⟩, And.right⟩
  · rw [if_neg h, Option.bind_none]
    exact ⟨nofun, fun hall => absurd hall.1 h⟩

theorem call_test_write_some {xres yres : Nat} {r : Nat × List Store} :
    call_test_write xres yres = some r ↔
      Fits xres yres ∧ r = (xres * yres * 2, (writeRows xres (2 * yres)).stores) := by
  have hrun : call_test_write xres yres = some r ↔ xres < 2 ^ 31 ∧ yres < 2 ^ 31 ∧ xres * yres < 2 ^ 31 ∧
      xres * yres * 2 < 2 ^ 31 ∧ 2 * yres < 2 ^ 31 ∧
        some (xres * yres * 2, (writeRows xres (2 * yres)).stores) = some r := by
    rw [call_test_write, Option.bind_eq_bind, int?_bind, int?_bind, int?_bind, int?_bind, int?_bind]
    rfl
  rw [hrun]
  refine ⟨fun ⟨hwidth, _, _, hsize, hrows, hr⟩ => ⟨⟨hwidth, hsize, hrows⟩, (Option.some.inj hr).symm⟩, fun ⟨h, hr⟩ => ?_⟩
  have hsize := h.size
  have hrows := h.rows
  exact ⟨h.width, by omega, by omega, hsize, hrows, congrArg some hr.symm⟩

/-- The bars are right exactly where the numbers fit and no fourth bar begins. -/
theorem call_test_write_right_iff (xres yres : Nat) :
    (∃ size stores, call_test_write xres yres = some (size, stores) ∧ BarsRight xres yres size stores) ↔
      Fits xres yres ∧ (xres = 0 ∨ yres ≤ 30) := by
  refine ⟨fun ⟨size, stores, hrun, hright⟩ => ?_, fun ⟨hfits, hshort⟩ => ?_⟩
  · obtain ⟨hfits, hr⟩ := call_test_write_some.mp hrun
    obtain ⟨rfl, rfl⟩ := Prod.mk.inj hr
    exact ⟨hfits, (writeRows_right_iff xres yres).mp hright⟩
  · exact ⟨_, _, call_test_write_some.mpr ⟨hfits, rfl⟩, (writeRows_right_iff xres yres).mpr hshort⟩

/-- On the panel of 240 columns and 320 rows, the fourth bar is read from behind the array. -/
theorem fourth_bar_behind_array :
    ¬ ∃ size stores, call_test_write 240 320 = some (size, stores) ∧ BarsRight 240 320 size stores := by
  rintro ⟨size, stores, hrun, hright⟩
  obtain ⟨hsize, hstores⟩ := Prod.mk.inj (call_test_write_some.mp hrun).2
  rw [hsize, hstores] at hright
  have hshort := (writeRows_right_iff 240 320).mp hright
  omega

end FbColorBars

end DeviceDriverTest
