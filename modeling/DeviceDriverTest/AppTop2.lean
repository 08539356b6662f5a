import DeviceDriverTest.PositionalArithmetic
import Mathlib.Data.List.MinMax
import Mathlib.Order.Bounds.Basic

/-! The handler that takes the average, the largest and the smallest of the samples that `top` has left
in a file, with `bc` for the arithmetic. -/

namespace DeviceDriverTest

namespace AppTop2

open PositionalArithmetic

def Top2Scale : Nat := 0

structure Sum where
  acc : Decimal
  n : Decimal

def accumulate (s : Sum) (temp : Decimal) : Sum := ⟨temp.add s.acc, s.n.add (.ofInt 1)⟩

/-- Nothing where `bc` divides by zero. -/
def getAverage (lines : List Decimal) : Option Decimal :=
  let s := lines.foldl accumulate ⟨.ofInt 0, .ofInt 0⟩
  s.acc.quotient Top2Scale s.n

def larger (max temp : Decimal) : Decimal := if max.lt temp then temp else max

def getMaximum (lines : List Decimal) : Decimal := lines.foldl larger (.ofInt 0)

/-- Without an average `bc` reports an error, and the test after it fails. -/
def smaller (min : Option Decimal) (temp : Decimal) : Option Decimal :=
  min.map fun min => if temp.lt min then temp else min

def getMinimum (average : Option Decimal) (lines : List Decimal) : Option Decimal := lines.foldl smaller average

/-- What is logged, and kept in the files of the three values. -/
structure Usage where
  average : Option Decimal
  max : Decimal
  min : Option Decimal

/-- `parse`, from the samples of the field on. -/
def parse (lines : List Decimal) : Usage where
  average := getAverage lines
  max := getMaximum lines
  min := getMinimum (getAverage lines) lines

/-! What the three values should be. -/

def values (samples : List Decimal) : Set ℚ := {v | ∃ s ∈ samples, s.value = v}

structure Reported (samples : List Decimal) (average max min : Decimal) : Prop where
  largest : IsGreatest (values samples) max.value
  smallest : IsLeast (values samples) min.value
  low : min.value ≤ average.value
  high : average.value ≤ max.value

def AsClaimed (samples : List Decimal) : Prop :=
  ∃ average min, (parse samples).average = some average ∧ (parse samples).min = some min ∧
    Reported samples average (parse samples).max min

def total (samples : List Decimal) : ℚ := samples.foldr (fun s sum => s.value + sum) 0

def mean (samples : List Decimal) : ℚ := total samples / samples.length

/-! The three loops. -/

variable {samples : List Decimal}

theorem foldl_accumulate (samples : List Decimal) (s : Sum) :
    (samples.foldl accumulate s).acc.value = s.acc.value + total samples ∧
      (samples.foldl accumulate s).n.value = s.n.value + samples.length := by
  induction samples generalizing s with
  | nil => simp [total]
  | cons sample samples ih =>
    obtain ⟨hacc, hn⟩ := ih (accumulate s sample)
    rw [List.foldl_cons, hacc, hn, accumulate, Number.value_add, Number.value_add, Number.value_ofInt]
    constructor
    · rw [total, total, List.foldr_cons]
      ring
    · rw [List.length_cons]
      push_cast
      ring

theorem foldl_larger (samples : List Decimal) (max : Decimal) :
    some (samples.foldl larger max) = (max :: samples).argmax Number.value := by
  rw [List.argmax, List.foldl_cons]
  change _ = samples.foldl _ (some max)
  induction samples generalizing max with
  | nil => rfl
  | cons sample samples ih =>
    rw [List.foldl_cons, ih, List.foldl_cons, larger, List.argAux]
    simp only [Number.lt_iff]
    split
    · rfl
    · rfl

theorem foldl_smaller (samples : List Decimal) (min : Decimal) :
    samples.foldl smaller (some min) = (min :: samples).argmin Number.value := by
  rw [List.argmin, List.foldl_cons]
  change _ = samples.foldl _ (some min)
  induction samples generalizing min with
  | nil => rfl
  | cons sample samples ih =>
    rw [List.foldl_cons, smaller, Option.map_some, ih, List.foldl_cons, List.argAux]
    simp only [Number.lt_iff]
    split
    · rfl
    · rfl

/-! The values of the samples, and where the minimum comes from. -/

theorem total_nonneg (h : ∀ s ∈ samples, 0 ≤ s.value) : 0 ≤ total samples := by
  induction samples with
  | nil => exact le_refl 0
  | cons sample samples ih =>
    rw [List.forall_mem_cons] at h
    exact add_nonneg h.1 (ih h.2)

theorem total_le {bound : ℚ} (h : ∀ s ∈ samples, s.value ≤ bound) : total samples ≤ bound * samples.length := by
  induction samples with
  | nil => simp [total]
  | cons sample samples ih =>
    rw [List.forall_mem_cons] at h
    have hrest := ih h.2
    rw [total, List.foldr_cons, ← total, List.length_cons]
    push_cast
    linarith [h.1]

theorem length_pos (hne : samples ≠ []) : (0 : ℚ) < samples.length :=
  Nat.cast_pos.mpr (List.length_pos_iff.mpr hne)

theorem mean_le {bound : ℚ} (hne : samples ≠ []) (h : ∀ s ∈ samples, s.value ≤ bound) : mean samples ≤ bound :=
  (div_le_iff₀ (length_pos hne)).mpr (total_le h)

theorem getAverage_eq (hne : samples ≠ []) (h : ∀ s ∈ samples, 0 ≤ s.value) :
    ∃ average, getAverage samples = some average ∧ average.value = ⌊mean samples⌋ := by
  obtain ⟨hacc, hn⟩ := foldl_accumulate samples ⟨.ofInt 0, .ofInt 0⟩
  rw [Number.value_ofInt, Int.cast_zero, zero_add] at hacc hn
  obtain ⟨average, haverage, hvalue⟩ := Number.quotient_eq_floor Top2Scale (hacc ▸ total_nonneg h) (hn ▸ length_pos hne)
  rw [hacc, hn, Top2Scale, pow_zero, mul_one, div_one] at hvalue
  exact ⟨average, haverage, hvalue⟩

theorem largest_getMaximum (hne : samples ≠ []) (h : ∀ s ∈ samples, 0 ≤ s.value) :
    IsGreatest (values samples) (getMaximum samples).value := by
  have hmax : getMaximum samples ∈ (Number.ofInt 0 :: samples).argmax Number.value := (foldl_larger samples (.ofInt 0)).symm
  have hle : ∀ s ∈ samples, s.value ≤ (getMaximum samples).value :=
    fun s hs => List.le_of_mem_argmax (List.mem_cons_of_mem _ hs) hmax
  refine ⟨?_, by rintro - ⟨s, hs, rfl⟩; exact hle s hs⟩
  obtain hzero | hmem := List.mem_cons.mp (List.argmax_mem hmax)
  · obtain ⟨s, hs⟩ := List.exists_mem_of_ne_nil samples hne
    have hvalue := hle s hs
    rw [hzero, Number.value_ofInt, Int.cast_zero] at hvalue ⊢
    exact ⟨s, hs, hvalue.antisymm (h s hs)⟩
  · exact ⟨_, hmem, rfl⟩

/-- The smallest sample is found where the scan may come down to it. -/
theorem smallest_getMinimum_iff (average : Decimal) : ∃ min, getMinimum (some average) samples = some min ∧
    min.value ≤ average.value ∧ (IsLeast (values samples) min.value ↔ ∃ s ∈ samples, s.value ≤ average.value) := by
  have hscan := foldl_smaller samples average
  have hne : (average :: samples).argmin Number.value ≠ none := mt List.argmin_eq_none.mp (List.cons_ne_nil _ _)
  obtain ⟨min, hmin⟩ := Option.ne_none_iff_exists'.mp hne
  have hle : ∀ s ∈ average :: samples, min.value ≤ s.value := fun s hs => List.le_of_mem_argmin hs hmin
  rw [List.forall_mem_cons] at hle
  refine ⟨min, hscan.trans hmin, hle.1, ?_⟩
  constructor
  · rintro ⟨⟨s, hs, hvalue⟩, -⟩
    exact ⟨s, hs, hvalue.le.trans hle.1⟩
  · rintro ⟨s, hs, hbelow⟩
    refine ⟨?_, by rintro - ⟨t, ht, rfl⟩; exact hle.2 t ht⟩
    obtain rfl | hmem := List.mem_cons.mp (List.argmin_mem hmin)
    · exact ⟨s, hs, hbelow.antisymm (hle.2 s hs)⟩
    · exact ⟨min, hmem, rfl⟩

/-- The values are right exactly where the smallest sample, rounded up to a whole number, is not above the mean. -/
theorem usage_right_iff (hne : samples ≠ []) (h : ∀ s ∈ samples, 0 ≤ s.value) :
    AsClaimed samples ↔ ∃ s ∈ samples, (⌈s.value⌉ : ℚ) ≤ mean samples := by
  obtain ⟨average, haverage, hfloor⟩ := getAverage_eq hne h
  obtain ⟨min, hmin, hlow, hsmallest⟩ := @smallest_getMinimum_iff samples average
  have hlargest := largest_getMaximum hne h
  have hhigh : average.value ≤ (getMaximum samples).value := by
    rw [hfloor]
    exact (Int.floor_le _).trans (mean_le hne fun s hs => hlargest.2 ⟨s, hs, rfl⟩)
  have hround : ∀ s : Decimal, (⌈s.value⌉ : ℚ) ≤ mean samples ↔ s.value ≤ average.value := by
    intro s
    rw [← Int.le_floor, Int.ceil_le, hfloor]
  simp only [hround]
  rw [← hsmallest, AsClaimed, parse, haverage]
  constructor
  · rintro ⟨_, other, -, hother, hreported⟩
    rw [Option.some.inj (hmin.symm.trans hother)]
    exact hreported.smallest
  · intro hleast
    exact ⟨average, min, rfl, hmin, hlargest, hleast, hlow, hhigh⟩

theorem usage_right_two : AsClaimed [⟨10, 1⟩, ⟨35, 1⟩] := by
  apply (usage_right_iff (by decide) (by norm_num [Number.value])).mpr
  exact ⟨⟨10, 1⟩, by decide, by norm_num [Number.value, mean, total]⟩

def half : List Decimal := [⟨55, 1⟩]

theorem half_cut : half ≠ [] ∧ (∀ s ∈ half, 0 ≤ s.value) ∧ ¬ AsClaimed half := by
  refine ⟨by decide, by norm_num [half, Number.value], ?_⟩
  rintro ⟨average, min, -, hmin, hreported⟩
  obtain rfl : (⟨5, 0⟩ : Decimal) = min := Option.some.inj hmin
  obtain ⟨⟨s, hs, hvalue⟩, -⟩ := hreported.smallest
  rw [List.mem_singleton.mp hs] at hvalue
  norm_num [Number.value] at hvalue

end AppTop2

end DeviceDriverTest
