import DeviceDriverTest.CpuAffinity
import DeviceDriverTest.InterruptTable

/-! The handler that sends an interrupt from processor to processor while a command runs, and
compares how often it has come before and after. -/

namespace DeviceDriverTest

namespace IrqAffinity

open InterruptTable RoundLoop
open CpuAffinity (verify)
open TestRunner (Word)
open TestRunnerOptions (isBlank)

/-- What `switch` finds: whether the interrupt, or its GPIO bank, has a file `smp_affinity`, the latch,
`$SYSFS_CPU_ONLINE`, and round by round whether `/proc` has the command and what the two lookups read. -/
structure Host where
  affinity : Bool
  files : HandlerError.Files String
  online : Option Word
  proc : Nat → Bool
  initial : Nat → Reading
  final : Nat → Reading

structure Comparison where
  count : Nat
  initial : Word
  final : Word

structure Report where
  status : Nat
  comparisons : List Comparison

def natural (text : Word) : Option Nat :=
  if text ≠ [] ∧ text.all Char.isDigit then some (Nat.ofDigitChars 10 text 0) else none

/-- The number that `test` takes a text for. -/
def integer (text : Word) : Option Int :=
  match (text.dropWhile isBlank).rdropWhile isBlank with
  | '-' :: digits => (natural digits).map fun n => -(n : Int)
  | '+' :: digits => (natural digits).map fun n => (n : Int)
  | digits => (natural digits).map fun n => (n : Int)

/-- `[ "$x" -lt "$y" ]`, which fails where one of the two is no number. -/
def less (x y : Word) : Bool :=
  match integer x, integer y with
  | some x, some y => x < y
  | _, _ => false

def processor (host : Host) (count : Nat) : Nat :=
  let rem := count % 2
  if rem = 1 then if verify host.online "0-1".toList = 0 then 2 else 1 else 1

def cpu (host : Host) (count : Nat) : Nat := processor host count - 1

def iteration (host : Host) (number count : Nat) (comparisons : List Comparison) : Round (List Comparison) :=
  if !host.proc count then .breaks comparisons
  else
    let initial := get (cpu host count) number (host.initial count)
    let final := get (cpu host count) number (host.final count)
    let comparisons := comparisons ++ [⟨count, initial, final⟩]
    if less initial final then .goesOn comparisons else .exits comparisons

def switch (host : Host) (number times : Nat) : Report :=
  if !host.affinity then ⟨1, []⟩
  else if (HandlerError.test host.files).exit = 1 then ⟨1, []⟩
  else
    match whileLe (iteration host number) times [] with
    | .done comparisons => ⟨0, comparisons⟩
    | .exited comparisons => ⟨1, comparisons⟩

def comparison (host : Host) (number count : Nat) : Comparison :=
  ⟨count, get (cpu host count) number (host.initial count), get (cpu host count) number (host.final count)⟩

def compare (host : Host) (number count : Nat) (comparisons : List Comparison) : List Comparison :=
  comparisons ++ [comparison host number count]

def increased (host : Host) (number count : Nat) : Bool :=
  less (comparison host number count).initial (comparison host number count).final

/-- The counter of the interrupt went up in the round, on the processor that the round is for. -/
def Increases (host : Host) (number count : Nat) : Prop :=
  ∃ x y, counter (cpu host count) number (host.initial count).table = some x ∧
    counter (cpu host count) number (host.final count).table = some y ∧ x < y

/-- Every compared text is the counter of the interrupt, and the handler is content only where it went
up in every round. -/
structure ComparesCounters (host : Host) (number times : Nat) : Prop where
  initial : ∀ c ∈ (switch host number times).comparisons, ∃ n,
    counter (cpu host c.count) number (host.initial c.count).table = some n ∧ c.initial = decimal n.toNat
  final : ∀ c ∈ (switch host number times).comparisons, ∃ n,
    counter (cpu host c.count) number (host.final c.count).table = some n ∧ c.final = decimal n.toNat
  increases : (switch host number times).status = 0 →
    ∀ c ∈ (switch host number times).comparisons, Increases host number c.count

/-- Nothing stops the handler before round `count`. -/
structure Reached (host : Host) (number times count : Nat) : Prop where
  affinity : host.affinity = true
  halt : host.files.halt = none
  first : 1 ≤ count
  last : count ≤ times
  before : ∀ i, 1 ≤ i → i < count → host.proc i = true ∧ Increases host number i
  proc : host.proc count = true

def Plain (host : Host) (number count : Nat) : Prop :=
  InterruptTable.Plain (cpu host count) number (host.initial count) ∧
    InterruptTable.Plain (cpu host count) number (host.final count)

theorem natural_decimal (n : Nat) : natural (decimal n) = some n := by
  rw [natural, if_pos ⟨decimal_ne_nil n, List.all_eq_true.mpr fun c hc => decimal_digit hc⟩]
  exact congrArg some Nat.ofDigitChars_ten_toDigits

theorem trim_decimal (n : Nat) : ((decimal n).dropWhile isBlank).rdropWhile isBlank = decimal n := by
  have hblank : ∀ c ∈ decimal n, ¬ isBlank c = true := by
    intro c hc
    rw [isBlank_of_isDigit (decimal_digit hc)]
    exact Bool.false_ne_true
  have hfront : (decimal n).dropWhile isBlank = decimal n := by
    rw [List.dropWhile_eq_self_iff]
    exact fun hlength => hblank _ (List.getElem_mem hlength)
  rw [hfront, List.rdropWhile_eq_self_iff]
  exact fun hne => hblank _ (List.getLast_mem hne)

theorem integer_decimal (n : Nat) : integer (decimal n) = some (n : Int) := by
  have hsign : ∀ c, c.isDigit = false → ∀ digits, decimal n ≠ c :: digits := by
    intro c hc digits heq
    exact notMem_decimal hc n (by rw [heq]; exact List.mem_cons_self)
  rw [integer, trim_decimal]
  split
  · next heq => exact absurd heq (hsign '-' rfl _)
  · next heq => exact absurd heq (hsign '+' rfl _)
  · rw [natural_decimal]
    rfl

theorem less_decimal (x y : Nat) : less (decimal x) (decimal y) = decide (x < y) := by
  rw [less, integer_decimal, integer_decimal]
  exact decide_eq_decide.mpr Int.ofNat_lt

theorem iteration_eq (host : Host) (number : Nat) : iteration host number =
    watched host.proc (compare host number) (fun count _ => increased host number count) := by
  funext count comparisons
  rfl

theorem mem_after_iff {host : Host} {number k : Nat} {c : Comparison} :
    c ∈ after (compare host number) [] k ↔ ∃ i, 1 ≤ i ∧ i ≤ k ∧ c = comparison host number i := by
  induction k with
  | zero => exact iff_of_false List.not_mem_nil fun ⟨i, h1, hi, _⟩ => absurd h1 (Nat.not_le_of_lt (Nat.lt_succ_of_le hi))
  | succ k ih =>
    rw [after, compare, List.mem_append, List.mem_singleton, ih]
    constructor
    · intro h
      obtain ⟨i, h1, hi, hc⟩ | hc := h
      · exact ⟨i, h1, Nat.le_succ_of_le hi, hc⟩
      · exact ⟨k + 1, Nat.le_add_left 1 k, Nat.le_refl _, hc⟩
    · rintro ⟨i, h1, hi, hc⟩
      obtain hi | rfl := Nat.le_succ_iff.mp hi
      · exact Or.inl ⟨i, h1, hi, hc⟩
      · exact Or.inr hc

/-- The rounds `1, …, k` are executed. -/
structure Executes (host : Host) (number times k : Nat) : Prop where
  comparisons : ∀ c, c ∈ (switch host number times).comparisons ↔ ∃ i, 1 ≤ i ∧ i ≤ k ∧ c = comparison host number i
  last : k ≤ times
  opened : 1 ≤ k → host.affinity = true ∧ host.files.halt = none
  proc : ∀ i, 1 ≤ i → i ≤ k → host.proc i = true
  increased : ∀ i, 1 ≤ i → i < k → increased host number i = true
  content : (switch host number times).status = 0 → ∀ i, 1 ≤ i → i ≤ k → IrqAffinity.increased host number i = true
  ends : host.affinity = true → host.files.halt = none → k < times → host.proc (k + 1) = true →
    1 ≤ k ∧ IrqAffinity.increased host number k = false

theorem exists_executes (host : Host) (number times : Nat) : ∃ k, Executes host number times k := by
  have hclosed : (switch host number times) = ⟨1, []⟩ → ¬ (host.affinity = true ∧ host.files.halt = none) →
      Executes host number times 0 := by
    intro hswitch hgates
    refine ⟨fun c => ?_, Nat.zero_le _, (nomatch ·), fun i h1 hi => ?_, fun i h1 hi => ?_, fun _ i h1 hi => ?_,
      fun haffinity hhalt => absurd ⟨haffinity, hhalt⟩ hgates⟩
    · rw [hswitch]
      exact iff_of_false List.not_mem_nil fun ⟨i, h1, hi, _⟩ => by omega
    · omega
    · omega
    · omega
  by_cases haffinity : host.affinity = true
  · by_cases hexit : (HandlerError.test host.files).exit = 1
    · refine ⟨0, hclosed (by rw [switch, haffinity, if_pos hexit]; rfl) fun hgates => ?_⟩
      exact (HandlerError.test_exit_ne_iff host.files).mpr hgates.2 hexit
    · have hhalt := (HandlerError.test_exit_ne_iff host.files).mp hexit
      have hloop := whileLe_watched host.proc (compare host number) (fun count _ => increased host number count) times []
      have hswitch : switch host number times = match whileLe (iteration host number) times [] with
          | .done comparisons => ⟨0, comparisons⟩
          | .exited comparisons => ⟨1, comparisons⟩ := by
        rw [switch, haffinity, if_neg hexit]
        rfl
      rw [iteration_eq] at hswitch
      generalize whileLe (watched host.proc (compare host number) fun count _ => increased host number count) times [] =
        ending at hloop hswitch
      cases hloop with
      | @done k hk hlasting hend =>
        refine ⟨k, fun c => ?_, hk, fun _ => ⟨haffinity, hhalt⟩, fun i h1 hi => (hlasting i h1 hi).1,
          fun i h1 hi => (hlasting i h1 (Nat.le_of_lt hi)).2, fun _ i h1 hi => (hlasting i h1 hi).2, ?_⟩
        · rw [hswitch]
          exact mem_after_iff
        · intro _ _ hlt hproc
          exact absurd (hproc.symm.trans (hend hlt)) Bool.noConfusion
      | @exited k hk hlasting halive hfailed =>
        refine ⟨k + 1, fun c => ?_, hk, fun _ => ⟨haffinity, hhalt⟩, fun i h1 hi => ?_,
          fun i h1 hi => (hlasting i h1 (Nat.le_of_lt_succ hi)).2, fun hstatus => ?_, ?_⟩
        · rw [hswitch]
          exact mem_after_iff
        · obtain hi | rfl := Nat.le_succ_iff.mp hi
          · exact (hlasting i h1 hi).1
          · exact halive
        · rw [hswitch] at hstatus
          exact absurd hstatus Nat.one_ne_zero
        · exact fun _ _ _ _ => ⟨Nat.le_add_left 1 k, hfailed⟩
  · refine ⟨0, hclosed ?_ fun hgates => haffinity hgates.1⟩
    rw [switch, Bool.eq_false_iff.mpr haffinity]
    rfl

/-- Where both lookups read the counter, comparing the texts compares the counts. -/
theorem Plain.increased_iff {host : Host} {number count : Nat} (h : Plain host number count) :
    increased host number count = true ↔ Increases host number count := by
  obtain ⟨x, hx, hinitial⟩ := h.1.get_eq
  obtain ⟨y, hy, hfinal⟩ := h.2.get_eq
  rw [increased, comparison, hinitial, hfinal, less_decimal, decide_eq_true_iff, Increases, hx, hy]
  constructor
  · intro hlt
    exact ⟨x, y, rfl, rfl, hlt⟩
  · rintro ⟨x', y', hx', hy', hlt⟩
    rw [Option.some.inj hx', Option.some.inj hy']
    exact hlt

variable {host : Host} {number times k : Nat}

theorem Executes.le_of_reached (h : Executes host number times k) {count : Nat}
    (hplain : ∀ i, 1 ≤ i → i ≤ k → Plain host number i) (hreached : Reached host number times count) : count ≤ k := by
  refine Nat.le_of_not_lt fun hlt => ?_
  have hproc : host.proc (k + 1) = true := by
    obtain hlt | heq := Nat.lt_or_eq_of_le (Nat.succ_le_of_lt hlt)
    · exact (hreached.before (k + 1) (Nat.le_add_left 1 k) hlt).1
    · rw [show k + 1 = count from heq]
      exact hreached.proc
  obtain ⟨hk, hfailed⟩ := h.ends hreached.affinity hreached.halt (Nat.lt_of_lt_of_le hlt hreached.last) hproc
  have hincreased := (hplain k hk (Nat.le_refl k)).increased_iff.mpr (hreached.before k hk hlt).2
  exact Bool.false_ne_true (hfailed.symm.trans hincreased)

theorem Executes.reached (h : Executes host number times k)
    (hplain : ∀ i, Reached host number times i → Plain host number i) {i : Nat} (h1 : 1 ≤ i) (hi : i ≤ k) :
    Reached host number times i := by
  induction i using Nat.strongRecOn with
  | ind i ih =>
    obtain ⟨haffinity, hhalt⟩ := h.opened (Nat.le_trans h1 hi)
    refine ⟨haffinity, hhalt, h1, Nat.le_trans hi h.last, fun j hj1 hj => ?_, h.proc i h1 hi⟩
    have hreached := ih j hj hj1 (Nat.le_trans (Nat.le_of_lt hj) hi)
    refine ⟨hreached.proc, (hplain j hreached).increased_iff.mp ?_⟩
    exact h.increased j hj1 (Nat.lt_of_lt_of_le hj hi)

/-- The handler compares the counters exactly when in every round that is reached both lookups find
the row of the interrupt and no other row. -/
theorem comparesCounters_iff (host : Host) (number times : Nat) :
    ComparesCounters host number times ↔ ∀ count, Reached host number times count → Plain host number count := by
  obtain ⟨k, hk⟩ := exists_executes host number times
  constructor
  · intro h count hreached
    have hplain : ∀ i, 1 ≤ i → i ≤ k → Plain host number i := by
      intro i h1 hi
      have hmem := (hk.comparisons (comparison host number i)).mpr ⟨i, h1, hi, rfl⟩
      exact ⟨(get_eq_counter_iff _ _ _).mp (h.initial _ hmem), (get_eq_counter_iff _ _ _).mp (h.final _ hmem)⟩
    exact hplain count hreached.first (hk.le_of_reached hplain hreached)
  · intro h
    have hplain : ∀ i, 1 ≤ i → i ≤ k → Plain host number i := fun i h1 hi => h i (hk.reached h h1 hi)
    refine ⟨fun c hc => ?_, fun c hc => ?_, fun hstatus c hc => ?_⟩
    · obtain ⟨i, h1, hi, rfl⟩ := (hk.comparisons c).mp hc
      exact (hplain i h1 hi).1.get_eq
    · obtain ⟨i, h1, hi, rfl⟩ := (hk.comparisons c).mp hc
      exact (hplain i h1 hi).2.get_eq
    · obtain ⟨i, h1, hi, rfl⟩ := (hk.comparisons c).mp hc
      exact (hplain i h1 hi).increased_iff.mp (hk.content hstatus i h1 hi)

theorem labelled_of_all {label : Word} (h : (label.all fun c => !isBlank c && c != ':') = true) :
    ∀ c ∈ label, isBlank c = false ∧ c ≠ ':' := by
  intro c hc
  simpa using List.all_eq_true.mp h c hc

/-- Interrupt 14, and interrupt 114, in whose label `14:` is found as well. -/
def sharedDigits (n : UInt32) : Listing where
  width := 3
  cpus := 2
  rows := [⟨"14".toList, [n, n], "GIC uart".toList, labelled_of_all (by decide)⟩,
    ⟨"114".toList, [7, 7], "GIC mmc".toList, labelled_of_all (by decide)⟩]
  counted := by simp
  distinct := (by decide : ["14".toList, "114".toList].Nodup)

def sharedDigitsHost : Host where
  affinity := true
  files := HandlerError.clean
  online := some "0-1".toList
  proc _ := true
  initial _ := ⟨sharedDigits 5, sharedDigits 5⟩
  final _ := ⟨sharedDigits 6, sharedDigits 6⟩

theorem shared_digits_compared : ¬ ComparesCounters sharedDigitsHost 14 1 := by
  intro h
  obtain ⟨k, hk⟩ := exists_executes sharedDigitsHost 14 1
  have hone : 1 ≤ k := by
    refine Nat.le_of_not_lt fun hlt => ?_
    obtain rfl : k = 0 := Nat.lt_one_iff.mp hlt
    exact absurd (hk.ends rfl rfl Nat.one_pos rfl).1 (Nat.not_succ_le_zero 0)
  obtain ⟨n, hcounter, hget⟩ := h.initial _ ((hk.comparisons _).mpr ⟨1, Nat.le_refl 1, hone, rfl⟩)
  have hplain := plain_of_get_eq hcounter hget
  have hlabel := hplain.only ⟨"114".toList, [7, 7], "GIC mmc".toList, labelled_of_all (by decide)⟩
    (by simp [sharedDigitsHost, sharedDigits])
    ((selects_line_iff _ _ _).mpr (Or.inl ⟨['1'], rfl⟩))
  exact absurd hlabel (by decide)

end IrqAffinity

end DeviceDriverTest
