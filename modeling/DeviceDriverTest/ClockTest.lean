import Mathlib.Data.List.Induction
import DeviceDriverTest.AcquireRelease

/-! The four sweeps of the OMAP4 clock test: the value a sweep returns, and the
references and enable counts it leaves on the clocks of its table. -/

namespace DeviceDriverTest
namespace ClockTest

open AcquireRelease

def EINVAL : Int := 22

def dpllCoreNames : List String :=
  ["dpll_core_m2_ck", "dpll_core_m3_ck", "dpll_core_m4_ck", "dpll_core_m5_ck", "dpll_core_m6_ck",
    "dpll_core_m7_ck"]

def uartNames : List String :=
  ["func_48m_fclk", "func_64m_fclk", "func_96m_fclk", "dpll_per_m2x2_ck", "dpll_per_m2_ck", "dpll_per_ck",
    "per_abe_nc_fclk"]

structure Clk where
  addr : Nat
  name : String
  setRate : Bool
  dpllData : Bool
  deriving DecidableEq

/-- What the clock framework answers for one entry of `clks`; the rate calls are numbered as they
stand in the loop body of a sweep. -/
structure Entry where
  clkGetSys : Option Clk
  clkEnable : Int
  clkRoundRate : Nat → Nat
  clkSetRate : Nat → Int

inductive Event
  | get (tclk : Clk)
  | put (tclk : Clk)
  | enable (tclk : Clk)
  | disable (tclk : Clk)
  | setRate (tclk : Clk) (rate : Nat)
  deriving DecidableEq

def reference : Event → Effect Clk
  | .get tclk => .acquires tclk
  | .put tclk => .releases tclk
  | _ => .neither

def enabling : Event → Effect Clk
  | .enable tclk => .acquires tclk
  | .disable tclk => .releases tclk
  | _ => .neither

def enableEvents (e : Entry) (tclk : Clk) : List Event := if e.clkEnable = 0 then [.enable tclk] else []

/-! The bodies of the first three loops: the value of `ret` after an entry, and the calls made on it. -/

def opt1Body (e : Entry) : Int × List Event :=
  match e.clkGetSys with
  | none => (1, [])
  | some tclk =>
    (e.clkEnable, .get tclk :: enableEvents e tclk ++
      (if e.clkEnable ≠ 0 then [] else [.disable tclk]) ++ [.put tclk])

/-- `valid_rate != ~0`, on 32 bits. -/
def validRate (tclk : Clk) (rate : Nat) : List Event :=
  if rate ≠ 2 ^ 32 - 1 then [.setRate tclk rate] else []

def opt2Rates (e : Entry) (tclk : Clk) : List Event :=
  if tclk.name ∈ dpllCoreNames then []
  else if tclk.name ∈ uartNames then []
  else if tclk.setRate then
    (if tclk.dpllData then [] else validRate tclk (e.clkRoundRate 0)) ++ validRate tclk (e.clkRoundRate 1)
  else []

def releaseIfZero (ret : Int) (tclk : Clk) : List Event :=
  if ret = 0 then [.disable tclk, .put tclk] else []

/-- The body the second and the third sweep share: the clock is released under the same `ret` that the
calls before have written. -/
def guardedBody (ret : Entry → Clk → Int) (rates : Entry → Clk → List Event) (e : Entry) : Int × List Event :=
  match e.clkGetSys with
  | none => (1, [])
  | some tclk =>
    (ret e tclk, .get tclk :: enableEvents e tclk ++ rates e tclk ++ releaseIfZero (ret e tclk) tclk)

def opt2Body : Entry → Int × List Event := guardedBody (fun e _ => e.clkEnable) opt2Rates

def opt3Sets (tclk : Clk) : Bool :=
  tclk.dpllData && tclk.name != "dpll_core_ck" && tclk.name != "dpll_per_ck"

/-- The rates closest to 300, 200 and 100 MHz. -/
def opt3Rates (e : Entry) (tclk : Clk) : List Event :=
  if opt3Sets tclk then
    [.setRate tclk (e.clkRoundRate 0), .setRate tclk (e.clkRoundRate 1), .setRate tclk (e.clkRoundRate 2)]
  else []

-- each `clk_set_rate` overwrites `ret`
def opt3Ret (e : Entry) (tclk : Clk) : Int := if opt3Sets tclk then e.clkSetRate 2 else e.clkEnable

def opt3Body : Entry → Int × List Event := guardedBody opt3Ret opt3Rates

def sweep (body : Entry → Int × List Event) (clks : List Entry) : Int × List Event :=
  clks.foldl (fun st e => ((body e).1, st.2 ++ (body e).2)) (0, [])

def clkTestOpt1 (clks : List Entry) : Int × List Event := sweep opt1Body clks

def clkTestOpt2 (clks : List Entry) : Int × List Event := sweep opt2Body clks

def clkTestOpt3 (clks : List Entry) : Int × List Event := sweep opt3Body clks

def opt4Loop : List Entry → List Event → Int × List Event
  | [], tr => (0, tr)
  | e :: rest, tr =>
    match e.clkGetSys with
    | none => opt4Loop rest tr
    | some tclk =>
      if tclk.setRate then
        if e.clkSetRate 0 ≠ -EINVAL then (-1, tr ++ [.get tclk, .setRate tclk 0])
        else opt4Loop rest (tr ++ [.get tclk, .setRate tclk 0])
      else opt4Loop rest (tr ++ [.get tclk])

def clkTestOpt4 (bogus : Option Clk) (clks : List Entry) : Int × List Event :=
  match bogus with
  | some tclk => (-1, [.get tclk])
  | none => opt4Loop clks []

theorem sweep_snoc (body : Entry → Int × List Event) (clks : List Entry) (e : Entry) :
    sweep body (clks ++ [e]) = ((body e).1, (sweep body clks).2 ++ (body e).2) := by
  simp [sweep, List.foldl_append]

theorem sweep_trace (body : Entry → Int × List Event) (clks : List Entry) :
    (sweep body clks).2 = clks.flatMap fun e => (body e).2 := by
  induction clks using List.reverseRecOn with
  | nil => rfl
  | append_singleton clks e ih => simp [sweep_snoc, ih]

/-- Of the values `ret` takes only the last entry's is returned. -/
theorem sweep_ret (body : Entry → Int × List Event) (clks : List Entry) :
    (sweep body clks).1 ≠ 0 ↔ ∃ e ∈ clks.getLast?, (body e).1 ≠ 0 := by
  rcases List.eq_nil_or_concat clks with rfl | ⟨init, e, rfl⟩
  · simp [sweep]
  · rw [List.concat_eq_append, sweep_snoc]
    simp

theorem balanced_sweep {effect : Event → Effect Clk} {body : Entry → Int × List Event} {clks : List Entry}
    (h : ∀ e ∈ clks, Balanced effect (body e).2) : Balanced effect (sweep body clks).2 := by
  rw [sweep_trace]
  exact Balanced.flatMap h

/-! What the property asks of a sweep, `Failed` saying which entries failed. -/

structure SweepRight (Failed : Entry → Prop) (clks : List Entry) (result : Int × List Event) : Prop where
  verdict : result.1 ≠ 0 ↔ ∃ e ∈ clks, Failed e
  references : Balanced reference result.2
  enables : Balanced enabling result.2

def Entry.Failed (e : Entry) : Prop := e.clkGetSys = none ∨ e.clkEnable ≠ 0

/-- Whether a rate that is refused counts as a failure of its entry is left open. -/
def Entry.Opt3Failed (counted : Bool) (e : Entry) : Prop :=
  e.Failed ∨ counted ∧ ∃ tclk ∈ e.clkGetSys, opt3Sets tclk ∧ ∃ i < 3, e.clkSetRate i ≠ 0

def Entry.Opt4Failed (counted : Bool) (e : Entry) : Prop :=
  e.clkGetSys = none ∨ counted ∧ ∃ tclk ∈ e.clkGetSys, tclk.setRate ∧ e.clkSetRate 0 ≠ -EINVAL

theorem enableEvents_reference (e : Entry) (tclk : Clk) : ∀ ev ∈ enableEvents e tclk, reference ev = .neither := by
  intro ev hev
  unfold enableEvents at hev
  split at hev
  · rw [List.mem_singleton.mp hev]
    rfl
  · cases hev

theorem opt1Body_references (e : Entry) : Balanced reference (opt1Body e).2 := by
  unfold opt1Body
  split
  · exact holds_nil
  · next tclk _ =>
    rw [List.cons_append]
    refine balanced_bracket (k := tclk) rfl ?_ rfl
    intro ev hev
    rcases List.mem_append.mp hev with hev | hev
    · exact enableEvents_reference e tclk ev hev
    · split at hev
      · cases hev
      · rw [List.mem_singleton.mp hev]
        rfl

/-- Getting and putting a clock leaves the enable counts to what is done between. -/
theorem enabling_get_put (tclk : Clk) {tr : List Event} (h : Balanced enabling tr) :
    Balanced enabling ([.get tclk] ++ tr ++ [.put tclk]) := by
  have hget : Balanced enabling [.get tclk] := balanced_others (by simp [enabling])
  have hput : Balanced enabling [.put tclk] := balanced_others (by simp [enabling])
  exact (hget.append h).append hput

theorem opt1Body_enables (e : Entry) : Balanced enabling (opt1Body e).2 := by
  unfold opt1Body
  split
  · exact holds_nil
  · next tclk _ =>
    by_cases hen : e.clkEnable = 0
    · have hpair : Balanced enabling ([.enable tclk] ++ [.disable tclk]) :=
        @balanced_bracket _ _ _ enabling tclk (.enable tclk) (.disable tclk) [] rfl (by simp) rfl
      simpa [enableEvents, hen] using enabling_get_put tclk hpair
    · simpa [enableEvents, hen] using enabling_get_put tclk holds_nil

theorem opt1Body_ret (e : Entry) : (opt1Body e).1 ≠ 0 ↔ e.Failed := by
  unfold opt1Body Entry.Failed
  split
  · simp [*]
  · simp [*]

/-- A verdict that only the last entry decides is right where no entry failed or the last one decides so. -/
theorem verdict_last_iff {P Failed : Entry → Prop} {clks : List Entry} {r : Int} (hP : ∀ e, P e → Failed e)
    (hret : r ≠ 0 ↔ ∃ e ∈ clks.getLast?, P e) :
    (r ≠ 0 ↔ ∃ e ∈ clks, Failed e) ↔ (∀ e ∈ clks, ¬ Failed e) ∨ ∃ e ∈ clks.getLast?, P e := by
  rw [hret]
  constructor
  · intro h
    by_cases hany : ∃ e ∈ clks, Failed e
    · exact .inr (h.mpr hany)
    · exact .inl fun e he hf => hany ⟨e, he, hf⟩
  · intro h
    refine ⟨fun ⟨e, he, hp⟩ => ⟨e, List.mem_of_mem_getLast? he, hP e hp⟩, fun ⟨e, he, hf⟩ => ?_⟩
    exact h.resolve_left fun hnone => hnone e he hf

theorem clkTestOpt1_right_iff (clks : List Entry) : SweepRight Entry.Failed clks (clkTestOpt1 clks) ↔
    (∀ e ∈ clks, ¬ e.Failed) ∨ ∃ e ∈ clks.getLast?, e.Failed := by
  have hret : (clkTestOpt1 clks).1 ≠ 0 ↔ ∃ e ∈ clks.getLast?, e.Failed := by
    simpa only [opt1Body_ret, clkTestOpt1] using sweep_ret opt1Body clks
  rw [← verdict_last_iff (fun _ hf => hf) hret]
  exact ⟨SweepRight.verdict, fun h => ⟨h, balanced_sweep fun e _ => opt1Body_references e,
    balanced_sweep fun e _ => opt1Body_enables e⟩⟩

/-! The guarded sweeps keep the balance only where `ret` and the enabling agree on success. -/

section Guarded

variable {ret : Entry → Clk → Int} {rates : Entry → Clk → List Event}

theorem guardedBody_none {e : Entry} (h : e.clkGetSys = none) : guardedBody ret rates e = (1, []) := by
  simp only [guardedBody, h]

theorem guardedBody_some {e : Entry} {tclk : Clk} (h : e.clkGetSys = some tclk) : guardedBody ret rates e =
    (ret e tclk, .get tclk :: enableEvents e tclk ++ rates e tclk ++ releaseIfZero (ret e tclk) tclk) := by
  simp only [guardedBody, h]

def OnlyRates (rates : Entry → Clk → List Event) : Prop :=
  ∀ e tclk, ∀ ev ∈ rates e tclk, ∃ rate, ev = .setRate tclk rate

theorem OnlyRates.neither (h : OnlyRates rates) {e : Entry} {tclk : Clk} {ev : Event} (hev : ev ∈ rates e tclk) :
    reference ev = .neither ∧ enabling ev = .neither := by
  obtain ⟨rate, rfl⟩ := h e tclk ev hev
  exact ⟨rfl, rfl⟩

theorem OnlyRates.counts (h : OnlyRates rates) (e : Entry) (tclk k : Clk) :
    acquired reference k (rates e tclk) = 0 ∧ released reference k (rates e tclk) = 0 ∧
      acquired enabling k (rates e tclk) = 0 ∧ released enabling k (rates e tclk) = 0 := by
  refine ⟨?_, ?_, ?_, ?_⟩ <;>
  · refine List.countP_eq_zero.mpr fun ev hev => ?_
    simp [(h.neither hev).1, (h.neither hev).2]

theorem enableEvents_counts (e : Entry) (tclk k : Clk) :
    acquired reference k (enableEvents e tclk) = 0 ∧ released reference k (enableEvents e tclk) = 0 ∧
      acquired enabling k (enableEvents e tclk) = (if e.clkEnable = 0 ∧ tclk = k then 1 else 0) ∧
      released enabling k (enableEvents e tclk) = 0 := by
  by_cases he : e.clkEnable = 0 <;> by_cases hk : tclk = k <;>
    simp [enableEvents, acquired, released, reference, enabling, he, hk]

theorem releaseIfZero_counts (r : Int) (tclk k : Clk) :
    acquired reference k (releaseIfZero r tclk) = 0 ∧
      released reference k (releaseIfZero r tclk) = (if r = 0 ∧ tclk = k then 1 else 0) ∧
      acquired enabling k (releaseIfZero r tclk) = 0 ∧
      released enabling k (releaseIfZero r tclk) = if r = 0 ∧ tclk = k then 1 else 0 := by
  by_cases hr : r = 0 <;> by_cases hk : tclk = k <;>
    simp [releaseIfZero, acquired, released, reference, enabling, hr, hk]

theorem get_counts (tclk k : Clk) :
    acquired reference k [.get tclk] = (if tclk = k then 1 else 0) ∧ released reference k [.get tclk] = 0 ∧
      acquired enabling k [.get tclk] = 0 ∧ released enabling k [.get tclk] = 0 := by
  by_cases hk : tclk = k <;> simp [acquired, released, reference, enabling, hk]

theorem guardedBody_counts (h : OnlyRates rates) {e : Entry} {tclk : Clk} (hget : e.clkGetSys = some tclk) (k : Clk) :
    acquired reference k (guardedBody ret rates e).2 = (if tclk = k then 1 else 0) ∧
      released reference k (guardedBody ret rates e).2 = (if ret e tclk = 0 ∧ tclk = k then 1 else 0) ∧
      acquired enabling k (guardedBody ret rates e).2 = (if e.clkEnable = 0 ∧ tclk = k then 1 else 0) ∧
      released enabling k (guardedBody ret rates e).2 = if ret e tclk = 0 ∧ tclk = k then 1 else 0 := by
  obtain ⟨g1, g2, g3, g4⟩ := get_counts tclk k
  obtain ⟨n1, n2, n3, n4⟩ := enableEvents_counts e tclk k
  obtain ⟨s1, s2, s3, s4⟩ := h.counts e tclk k
  obtain ⟨r1, r2, r3, r4⟩ := releaseIfZero_counts (ret e tclk) tclk k
  rw [guardedBody_some hget, ← List.singleton_append]
  simp only [acquired_append, released_append, g1, g2, g3, g4, n1, n2, n3, n4, s1, s2, s3, s4, r1, r2, r3, r4,
    Nat.add_zero, Nat.zero_add, and_self]

/-- Every clock got is put back only if every `ret` is zero; then each is disabled once, and the enabling has
to have succeeded. -/
theorem guarded_balanced (h : OnlyRates rates) {clks : List Entry}
    (href : Balanced reference (sweep (guardedBody ret rates) clks).2)
    (hen : Balanced enabling (sweep (guardedBody ret rates) clks).2) :
    ∀ e ∈ clks, ∀ tclk, e.clkGetSys = some tclk → ret e tclk = 0 ∧ e.clkEnable = 0 := by
  rw [sweep_trace] at href hen
  have hret : ∀ e ∈ clks, ∀ tclk, e.clkGetSys = some tclk → ret e tclk = 0 := by
    intro e he tclk hget
    have hle : ∀ x ∈ clks, released reference tclk (guardedBody ret rates x).2 ≤
        acquired reference tclk (guardedBody ret rates x).2 := by
      intro x _
      cases hx : x.clkGetSys with
      | none => simp [guardedBody_none hx, acquired, released]
      | some k =>
        rw [(guardedBody_counts h hx tclk).1, (guardedBody_counts h hx tclk).2.1]
        split <;> simp_all
    have heq := href.counts_of_released_le hle e he
    rw [(guardedBody_counts h hget tclk).1, (guardedBody_counts h hget tclk).2.1] at heq
    simpa using heq
  intro e he tclk hget
  refine ⟨hret e he tclk hget, ?_⟩
  have hle : ∀ x ∈ clks, acquired enabling tclk (guardedBody ret rates x).2 ≤
      released enabling tclk (guardedBody ret rates x).2 := by
    intro x hxm
    cases hx : x.clkGetSys with
    | none => simp [guardedBody_none hx, acquired, released]
    | some k =>
      rw [(guardedBody_counts h hx tclk).2.2.1, (guardedBody_counts h hx tclk).2.2.2, hret x hxm k hx]
      split <;> simp_all
  have heq := hen.counts_of_acquired_le hle e he
  rw [(guardedBody_counts h hget tclk).2.2.1, (guardedBody_counts h hget tclk).2.2.2, hret e he tclk hget] at heq
  simpa using heq

theorem guardedBody_balanced (h : OnlyRates rates) {e : Entry}
    (hok : ∀ tclk, e.clkGetSys = some tclk → ret e tclk = 0 ∧ e.clkEnable = 0) :
    Balanced reference (guardedBody ret rates e).2 ∧ Balanced enabling (guardedBody ret rates e).2 := by
  cases hget : e.clkGetSys with
  | none =>
    rw [guardedBody_none hget]
    exact ⟨holds_nil, holds_nil⟩
  | some tclk =>
    obtain ⟨hret, hen⟩ := hok tclk hget
    have hform : (guardedBody ret rates e).2 =
        .get tclk :: .enable tclk :: (rates e tclk ++ [.disable tclk]) ++ [.put tclk] := by
      rw [guardedBody_some hget]
      simp [enableEvents, releaseIfZero, hret, hen]
    rw [hform]
    constructor
    · refine balanced_bracket (k := tclk) rfl ?_ rfl
      intro ev hev
      rcases List.mem_cons.mp hev with rfl | hev
      · rfl
      · rcases List.mem_append.mp hev with hev | hev
        · exact (h.neither hev).1
        · rw [List.mem_singleton.mp hev]
          rfl
    · have hpair : Balanced enabling (.enable tclk :: rates e tclk ++ [.disable tclk]) :=
        balanced_bracket (k := tclk) rfl (fun ev hev => (h.neither hev).2) rfl
      simpa using enabling_get_put tclk hpair

theorem guarded_right_iff (h : OnlyRates rates) {Failed : Entry → Prop} (hF : ∀ e, e.clkGetSys = none → Failed e)
    (clks : List Entry) : SweepRight Failed clks (sweep (guardedBody ret rates) clks) ↔
      (∀ e ∈ clks, ∀ tclk, e.clkGetSys = some tclk → ret e tclk = 0 ∧ e.clkEnable = 0) ∧
        ((∀ e ∈ clks, ¬ Failed e) ∨ ∃ e ∈ clks.getLast?, e.clkGetSys = none) := by
  have hret (hok : ∀ e ∈ clks, ∀ tclk, e.clkGetSys = some tclk → ret e tclk = 0 ∧ e.clkEnable = 0) :
      (sweep (guardedBody ret rates) clks).1 ≠ 0 ↔ ∃ e ∈ clks.getLast?, e.clkGetSys = none := by
    rw [sweep_ret]
    refine exists_congr fun e => and_congr_right fun he => ?_
    cases hget : e.clkGetSys with
    | none => simp [guardedBody_none hget]
    | some tclk => simp [guardedBody_some hget, (hok e (List.mem_of_mem_getLast? he) tclk hget).1]
  constructor
  · intro hr
    have hok := guarded_balanced h hr.references hr.enables
    exact ⟨hok, (verdict_last_iff hF (hret hok)).mp hr.verdict⟩
  · intro ⟨hok, hverdict⟩
    exact ⟨(verdict_last_iff hF (hret hok)).mpr hverdict,
      balanced_sweep fun e he => (guardedBody_balanced h (hok e he)).1,
      balanced_sweep fun e he => (guardedBody_balanced h (hok e he)).2⟩

end Guarded

theorem onlyRates_opt2 : OnlyRates opt2Rates := by
  intro e tclk ev hev
  have hvalid (rate : Nat) (hmem : ev ∈ validRate tclk rate) : ∃ rate, ev = .setRate tclk rate := by
    unfold validRate at hmem
    split at hmem
    · exact ⟨rate, List.mem_singleton.mp hmem⟩
    · cases hmem
  unfold opt2Rates at hev
  split at hev
  · cases hev
  split at hev
  · cases hev
  split at hev
  · rcases List.mem_append.mp hev with hev | hev
    · split at hev
      · cases hev
      · exact hvalid _ hev
    · exact hvalid _ hev
  · cases hev

theorem onlyRates_opt3 : OnlyRates opt3Rates := by
  intro e tclk ev hev
  unfold opt3Rates at hev
  split at hev
  · simp only [List.mem_cons, List.not_mem_nil, or_false] at hev
    rcases hev with rfl | rfl | rfl <;> exact ⟨_, rfl⟩
  · cases hev

/-! The fourth sweep gives no reference back. -/

theorem released_get (tr : List Event) (tclk k : Clk) (es : List Event) (hes : ∀ ev ∈ es, reference ev = .neither) :
    released reference k (tr ++ .get tclk :: es) = released reference k tr ∧
      acquired reference k (tr ++ .get tclk :: es) = acquired reference k tr + if tclk = k then 1 else 0 := by
  have hes0 : acquired reference k es = 0 ∧ released reference k es = 0 := by
    constructor <;> refine List.countP_eq_zero.mpr fun ev hev => by simp [hes ev hev]
  obtain ⟨hacq, hrel, -, -⟩ := get_counts tclk k
  rw [← List.singleton_append]
  simp only [acquired_append, released_append, hacq, hrel, hes0, Nat.add_zero, and_self]

theorem opt4Loop_counts (clks : List Entry) (tr : List Event) (k : Clk) :
    released reference k (opt4Loop clks tr).2 = released reference k tr ∧
      acquired reference k tr ≤ acquired reference k (opt4Loop clks tr).2 := by
  induction clks generalizing tr with
  | nil => exact ⟨rfl, Nat.le_refl _⟩
  | cons e rest ih =>
    have hset (tclk : Clk) := released_get tr tclk k [.setRate tclk 0] (by simp [reference])
    have hget (tclk : Clk) := released_get tr tclk k [] (by simp)
    unfold opt4Loop
    split
    · exact ih tr
    · next tclk _ =>
      split
      · split
        · rw [(hset tclk).1, (hset tclk).2]
          exact ⟨rfl, Nat.le_add_right _ _⟩
        · have hrest := ih (tr ++ [.get tclk, .setRate tclk 0])
          rw [(hset tclk).1, (hset tclk).2] at hrest
          exact ⟨hrest.1, Nat.le_trans (Nat.le_add_right _ _) hrest.2⟩
      · have hrest := ih (tr ++ [.get tclk])
        rw [(hget tclk).1, (hget tclk).2] at hrest
        exact ⟨hrest.1, Nat.le_trans (Nat.le_add_right _ _) hrest.2⟩

theorem opt4Loop_leak {clks : List Entry} {tr : List Event} {k : Clk} {e : Entry} {rest : List Entry}
    (hclks : clks = e :: rest) (hk : e.clkGetSys = some k) :
    acquired reference k tr < acquired reference k (opt4Loop clks tr).2 := by
  have hset := released_get tr k k [.setRate k 0] (by simp [reference])
  have hget := released_get tr k k [] (by simp)
  rw [if_pos rfl] at hset hget
  rw [hclks, opt4Loop, hk]
  dsimp only
  split
  · split
    · rw [hset.2]
      exact Nat.lt_succ_self _
    · have hrest := (opt4Loop_counts rest (tr ++ [.get k, .setRate k 0]) k).2
      rw [hset.2] at hrest
      exact hrest
  · have hrest := (opt4Loop_counts rest (tr ++ [.get k]) k).2
    rw [hget.2] at hrest
    exact hrest

theorem opt4Loop_got {clks : List Entry} {tr : List Event} (h : ∃ e ∈ clks, e.clkGetSys ≠ none) :
    ∃ k, acquired reference k tr < acquired reference k (opt4Loop clks tr).2 := by
  induction clks with
  | nil => simp at h
  | cons e rest ih =>
    cases hget : e.clkGetSys with
    | some k => exact ⟨k, opt4Loop_leak rfl hget⟩
    | none =>
      have hrest : ∃ x ∈ rest, x.clkGetSys ≠ none := by
        obtain ⟨x, hx, hsome⟩ := h
        rcases List.mem_cons.mp hx with rfl | hx
        · exact absurd hget hsome
        · exact ⟨x, hx, hsome⟩
      simpa only [opt4Loop, hget] using ih hrest

theorem opt4Loop_none {clks : List Entry} (h : ∀ e ∈ clks, e.clkGetSys = none) (tr : List Event) :
    opt4Loop clks tr = (0, tr) := by
  induction clks with
  | nil => rfl
  | cons e rest ih =>
    rw [opt4Loop, h e (by simp)]
    exact ih fun x hx => h x (by simp [hx])

theorem clkTestOpt4_right_iff (counted : Bool) (bogus : Option Clk) (clks : List Entry) :
    SweepRight (Entry.Opt4Failed counted) clks (clkTestOpt4 bogus clks) ↔ bogus = none ∧ clks = [] := by
  constructor
  · intro h
    cases bogus with
    | some k => simpa [clkTestOpt4, get_counts] using h.references.counts k
    | none =>
      refine ⟨rfl, List.eq_nil_iff_forall_not_mem.mpr fun e he => ?_⟩
      have hnone : ∀ x ∈ clks, x.clkGetSys = none := by
        intro x hx
        by_contra hsome
        obtain ⟨k, hk⟩ := @opt4Loop_got clks [] ⟨x, hx, hsome⟩
        have hcounts := h.references.counts k
        have hreleased := (opt4Loop_counts clks [] k).1
        rw [show (clkTestOpt4 none clks) = opt4Loop clks [] from rfl, hreleased] at hcounts
        exact absurd hcounts (Nat.ne_of_gt hk)
      -- every look-up failed, which the loop forgets
      have hverdict := h.verdict.mpr ⟨e, he, .inl (hnone e he)⟩
      simp [clkTestOpt4, opt4Loop_none hnone] at hverdict
  · rintro ⟨rfl, rfl⟩
    exact ⟨by simp [clkTestOpt4, opt4Loop], holds_nil, holds_nil⟩

theorem clkTestOpt2_right_iff (clks : List Entry) : SweepRight Entry.Failed clks (clkTestOpt2 clks) ↔
    (∀ e ∈ clks, ∀ tclk, e.clkGetSys = some tclk → e.clkEnable = 0) ∧
      ((∀ e ∈ clks, ¬ e.Failed) ∨ ∃ e ∈ clks.getLast?, e.clkGetSys = none) := by
  have hF : ∀ e : Entry, e.clkGetSys = none → e.Failed := fun e h => .inl h
  have h := @guarded_right_iff (fun e _ => e.clkEnable) _ onlyRates_opt2 _ hF clks
  simp only [and_self] at h
  exact h

theorem clkTestOpt3_right_iff (counted : Bool) (clks : List Entry) :
    SweepRight (Entry.Opt3Failed counted) clks (clkTestOpt3 clks) ↔
      (∀ e ∈ clks, ∀ tclk, e.clkGetSys = some tclk → (opt3Sets tclk → e.clkSetRate 2 = 0) ∧ e.clkEnable = 0) ∧
        ((∀ e ∈ clks, ¬ e.Opt3Failed counted) ∨ ∃ e ∈ clks.getLast?, e.clkGetSys = none) := by
  have hret (e : Entry) (tclk : Clk) : opt3Ret e tclk = 0 ∧ e.clkEnable = 0 ↔
      (opt3Sets tclk → e.clkSetRate 2 = 0) ∧ e.clkEnable = 0 := by
    unfold opt3Ret
    split <;> simp [*]
  have hF : ∀ e : Entry, e.clkGetSys = none → e.Opt3Failed counted := fun e h => .inl (.inl h)
  have h := @guarded_right_iff opt3Ret _ onlyRates_opt3 _ hF clks
  simp only [hret] at h
  exact h

theorem clkSweeps_right_iff (counted : Bool) (bogus : Option Clk) (clks : List Entry) :
    (SweepRight Entry.Failed clks (clkTestOpt1 clks) ↔
      (∀ e ∈ clks, ¬ e.Failed) ∨ ∃ e ∈ clks.getLast?, e.Failed) ∧
    (SweepRight Entry.Failed clks (clkTestOpt2 clks) ↔
      (∀ e ∈ clks, ∀ tclk, e.clkGetSys = some tclk → e.clkEnable = 0) ∧
        ((∀ e ∈ clks, ¬ e.Failed) ∨ ∃ e ∈ clks.getLast?, e.clkGetSys = none)) ∧
    (SweepRight (Entry.Opt3Failed counted) clks (clkTestOpt3 clks) ↔
      (∀ e ∈ clks, ∀ tclk, e.clkGetSys = some tclk →
        (opt3Sets tclk → e.clkSetRate 2 = 0) ∧ e.clkEnable = 0) ∧
        ((∀ e ∈ clks, ¬ e.Opt3Failed counted) ∨ ∃ e ∈ clks.getLast?, e.clkGetSys = none)) ∧
    (SweepRight (Entry.Opt4Failed counted) clks (clkTestOpt4 bogus clks) ↔ bogus = none ∧ clks = []) :=
  ⟨clkTestOpt1_right_iff clks, clkTestOpt2_right_iff clks, clkTestOpt3_right_iff counted clks,
    clkTestOpt4_right_iff counted bogus clks⟩

/-- The first clock is not found, the second one passes every call. -/
def lostFailure : List Entry :=
  [⟨none, 0, fun _ => 0, fun _ => 0⟩,
    ⟨some ⟨0, "dpll_usb_ck", true, true⟩, 0, fun _ => 0, fun _ => 0⟩]

theorem lostFailure_not_right :
    ¬ SweepRight Entry.Failed lostFailure (clkTestOpt1 lostFailure) ∧
      ¬ SweepRight Entry.Failed lostFailure (clkTestOpt2 lostFailure) ∧
      ¬ SweepRight (Entry.Opt3Failed false) lostFailure (clkTestOpt3 lostFailure) ∧
      ¬ SweepRight (Entry.Opt4Failed false) lostFailure (clkTestOpt4 none lostFailure) := by
  have hfailed : ∃ e ∈ lostFailure, e.Failed := ⟨_, List.mem_cons_self, .inl rfl⟩
  have hfailed3 : ∃ e ∈ lostFailure, e.Opt3Failed false := hfailed.imp fun _ he => ⟨he.1, .inl he.2⟩
  have hret3 : (clkTestOpt3 lostFailure).1 = 0 := by
    simp [lostFailure, clkTestOpt3, sweep, opt3Body, guardedBody, opt3Ret]
  refine ⟨fun h => h.verdict.mpr hfailed rfl, fun h => h.verdict.mpr hfailed rfl,
    fun h => h.verdict.mpr hfailed3 hret3, fun h => ?_⟩
  have hempty := ((clkTestOpt4_right_iff false none lostFailure).mp h).2
  exact List.cons_ne_nil _ _ hempty

end ClockTest
end DeviceDriverTest
