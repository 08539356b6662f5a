import Mathlib.Data.List.Range
import Mathlib.Data.Nat.Log

/-! The bisection tool of the test automation. Called with a good and a bad
revision it proposes the revision to test next, or names the first bad one. -/

namespace DeviceDriverTest

namespace Bisect

abbrev Line := List Char

inductive Report where
  | listIsEmpty
  | test (commit : Line)
  | lastToTest (commit : Line)
  | badRevision (commit : Line)
  deriving DecidableEq

structure Bisector where
  commits : List Line
  good : Int
  number : Int
  bad : Int

/-- The commits of the command's output, `none` when there are none. -/
def Bisector.init (output : List Char) : Option Bisector :=
  let commits := (output.splitOn '\n').reverse
  if commits.length = 0 then none
  else
    let number : Int := commits.length - 2
    some ⟨commits, 0, number, number + 1⟩

/-- An index of a list, negative ones counted from its end. -/
def Bisector.getCommit (b : Bisector) (index : Int) : Option Line :=
  if 0 ≤ index then b.commits[index.toNat]?
  else if 0 ≤ index + b.commits.length then b.commits[(index + b.commits.length).toNat]?
  else none

def Bisector.isEven (b : Bisector) : Bool := b.number % 2 = 0

def Bisector.calculateRevisions (b : Bisector) : Int := b.bad - b.good - 1

def Bisector.searchExhausted (b : Bisector) : Bool := b.calculateRevisions ≤ 1

def Bisector.calculateInterval (b : Bisector) : Int :=
  if b.isEven then (b.bad - b.good - 3) / 2 else (b.bad - b.good - 2) / 2

def Bisector.getPointOfTest (b : Bisector) (delta : Int) : Int := b.good + delta + 1

def Bisector.execute (b : Bisector) : Option Report :=
  if !b.searchExhausted then (b.getCommit (b.getPointOfTest b.calculateInterval)).map .test
  else if b.calculateRevisions = 0 then (b.getCommit b.bad).map .badRevision
  else (b.getCommit (b.bad - 1)).map .lastToTest

/-- The tool on the output of its command; `none` when an index leaves the list. -/
def bisect (output : List Char) : Option Report :=
  match Bisector.init output with
  | none => some .listIsEmpty
  | some b => b.execute

/-- A repository with a linear history: the names of its revisions, and what
each name stands for. -/
structure Repository where
  sha : Nat → Line
  resolve : Line → Option Nat
  resolve_sha : ∀ k, resolve (sha k) = some k
  oneLine : ∀ k, '\n' ∉ sha k

/-- The revisions after the good one up to the bad one, newest first, with the
good one as their boundary. -/
def Repository.revList (r : Repository) (good bad : Nat) : List Char :=
  if bad ≤ good then []
  else
    ['\n'].intercalate
      (((List.range' (good + 1) (bad - good)).map r.sha).reverse ++ ['-' :: r.sha good])

def Repository.report (r : Repository) (good bad : Nat) : Option Report := bisect (r.revList good bad)

structure Step where
  good : Nat
  point : Nat
  bad : Nat

/-- Testing the revision that is proposed and calling the tool again on the half
that is left, until it names a revision. -/
def Repository.follow (r : Repository) (isBad : Nat → Bool) : Nat → Nat → Nat → List Step × Option Line
  | 0, _, _ => ([], none)
  | fuel + 1, good, bad =>
    let test (commit : Line) : List Step × Option Line :=
      match r.resolve commit with
      | none => ([], none)
      | some point =>
        let (steps, named) := if isBad point then r.follow isBad fuel good point else r.follow isBad fuel point bad
        (⟨good, point, bad⟩ :: steps, named)
    match r.report good bad with
    | some (.test commit) => test commit
    | some (.lastToTest commit) => test commit
    | some (.badRevision commit) => ([], some commit)
    | some .listIsEmpty => ([], none)
    | none => ([], none)

/-- The revisions are good before `first` and bad from it on. -/
structure Transition (isBad : Nat → Bool) (good first bad : Nat) : Prop where
  afterGood : good < first
  upToBad : first ≤ bad
  before : ∀ k, good ≤ k → k < first → isBad k = false
  after : ∀ k, first ≤ k → k ≤ bad → isBad k = true

/-- A search that only proposes revisions between its ends, comes to a smaller
range with each, and names the first bad revision after few enough tests. -/
structure Finds (r : Repository) (isBad : Nat → Bool) (fuel good first bad : Nat) : Prop where
  between : ∀ s ∈ (r.follow isBad fuel good bad).1, s.good < s.point ∧ s.point < s.bad
  shrinks : (r.follow isBad fuel good bad).1.Pairwise fun s s' => s'.bad - s'.good < s.bad - s.good
  tests : (r.follow isBad fuel good bad).1.length ≤ Nat.clog 2 (bad - good)
  named : (r.follow isBad fuel good bad).2 = some (r.sha first)

def IsOver (report : Option Report) : Prop :=
  report = some .listIsEmpty ∨ ∃ commit, report = some (.badRevision commit)

/-- The tool finds every first bad revision of the range, and proposes none where
none is left to test. -/
structure Bisects (r : Repository) (good bad : Nat) : Prop where
  ends : bad ≤ good + 1 → IsOver (r.report good bad)
  finds : ∀ isBad first, Transition isBad good first bad → Finds r isBad (bad - good) good first bad

section Reports

variable {r : Repository} {good bad : Nat}

theorem splitOn_revList (r : Repository) (h : good < bad) :
    ((r.revList good bad).splitOn '\n').reverse =
      ('-' :: r.sha good) :: (List.range' (good + 1) (bad - good)).map r.sha := by
  have hlines : ∀ line ∈ ((List.range' (good + 1) (bad - good)).map r.sha).reverse ++ ['-' :: r.sha good],
      '\n' ∉ line := by
    intro line hline
    rcases List.mem_append.mp hline with hline | hline
    · obtain ⟨k, _, rfl⟩ := List.mem_map.mp (List.mem_reverse.mp hline)
      exact r.oneLine k
    · rw [List.mem_singleton.mp hline]
      have hgood := r.oneLine good
      simp [hgood]
  rw [Repository.revList, if_neg (by omega), List.splitOn_intercalate _ hlines (by simp)]
  simp

def Repository.bisector (r : Repository) (good bad : Nat) : Bisector where
  commits := ('-' :: r.sha good) :: (List.range' (good + 1) (bad - good)).map r.sha
  good := 0
  number := (bad - good : Nat) - 1
  bad := (bad - good : Nat)

theorem init_revList (r : Repository) (h : good < bad) :
    Bisector.init (r.revList good bad) = some (r.bisector good bad) := by
  have hlen : (('-' :: r.sha good) :: (List.range' (good + 1) (bad - good)).map r.sha).length =
      bad - good + 1 := by simp
  have hnumber : ((bad - good + 1 : Nat) : Int) - 2 = (bad - good : Nat) - 1 := by omega
  simp only [Bisector.init, splitOn_revList r h, hlen, Nat.add_one_ne_zero, if_false, hnumber, Int.sub_add_cancel,
    Repository.bisector]

theorem getCommit_bisector {k : Nat} (hpos : 1 ≤ k) (hk : k ≤ bad - good) {index : Int} (hindex : index = k) :
    (r.bisector good bad).getCommit index = some (r.sha (good + k)) := by
  obtain ⟨j, rfl⟩ : ∃ j, k = j + 1 := ⟨k - 1, by omega⟩
  have hnat : index.toNat = j + 1 := by omega
  have hj : j < bad - good := by omega
  have hpoint : good + 1 + j = good + (j + 1) := by omega
  rw [Bisector.getCommit, if_pos (by omega), hnat, Repository.bisector, List.getElem?_cons_succ, List.getElem?_map,
    List.getElem?_range' hj]
  simp [hpoint]

theorem report_of_lt (h : good < bad) : r.report good bad = (r.bisector good bad).execute := by
  rw [Repository.report, bisect, init_revList r h]

theorem report_adjacent (r : Repository) (good : Nat) :
    r.report good (good + 1) = some (.badRevision (r.sha (good + 1))) := by
  have hbad : (r.bisector good (good + 1)).bad = 1 := by simp [Repository.bisector]
  have hrevisions : (r.bisector good (good + 1)).calculateRevisions = 0 := by
    rw [Bisector.calculateRevisions, hbad]
    rfl
  have hexhausted : (r.bisector good (good + 1)).searchExhausted = true := by
    rw [Bisector.searchExhausted, hrevisions]
    rfl
  have hcommit : (r.bisector good (good + 1)).getCommit (r.bisector good (good + 1)).bad = some (r.sha (good + 1)) :=
    getCommit_bisector le_rfl (by omega) hbad
  rw [report_of_lt (Nat.lt_succ_self good), Bisector.execute, hexhausted, hrevisions, hcommit]
  rfl

theorem getPointOfTest_bisector (r : Repository) (h : good + 1 < bad) :
    (r.bisector good bad).getPointOfTest (r.bisector good bad).calculateInterval = ((bad - good) / 2 : Nat) := by
  have heven : (r.bisector good bad).isEven = decide (((bad - good : Nat) : Int) % 2 = 1) := by
    show decide ((((bad - good : Nat) : Int) - 1) % 2 = 0) = _
    refine decide_eq_decide.mpr ?_
    omega
  have hbounds : (r.bisector good bad).good = 0 ∧ (r.bisector good bad).bad = (bad - good : Nat) := ⟨rfl, rfl⟩
  have hmany : 2 ≤ bad - good := by omega
  rw [Bisector.getPointOfTest, Bisector.calculateInterval, heven, hbounds.1, hbounds.2]
  -- the interval rounds down for an even number of untested revisions, up for an odd one
  generalize bad - good = n at hmany ⊢
  by_cases hodd : (n : Int) % 2 = 1
  · rw [if_pos (decide_eq_true hodd)]
    omega
  · rw [if_neg (by simpa using hodd)]
    omega

theorem report_proposes (r : Repository) (h : good + 1 < bad) :
    ∃ point, (r.report good bad = some (.test (r.sha point)) ∨ r.report good bad = some (.lastToTest (r.sha point))) ∧
      good < point ∧ point < bad ∧ point - good ≤ (bad - good + 1) / 2 ∧ bad - point ≤ (bad - good + 1) / 2 := by
  have hrevisions : (r.bisector good bad).calculateRevisions = (bad - good : Nat) - 1 := by
    simp only [Bisector.calculateRevisions, Repository.bisector, Int.sub_zero]
  by_cases htwo : bad - good = 2
  · have hone : (r.bisector good bad).calculateRevisions = 1 := by
      rw [hrevisions, htwo]
      rfl
    have hindex : (r.bisector good bad).bad - 1 = (1 : Nat) := by
      simp only [Repository.bisector, htwo]
      rfl
    have hcommit : (r.bisector good bad).getCommit ((r.bisector good bad).bad - 1) = some (r.sha (good + 1)) :=
      getCommit_bisector le_rfl (by omega) hindex
    refine ⟨good + 1, .inr ?_, by omega, by omega, by omega, by omega⟩
    rw [report_of_lt (by omega), Bisector.execute, Bisector.searchExhausted, hone, hcommit]
    rfl
  · have hmany : (r.bisector good bad).searchExhausted = false := by
      rw [Bisector.searchExhausted, hrevisions]
      exact decide_eq_false (by omega)
    have hcommit : (r.bisector good bad).getCommit
        ((r.bisector good bad).getPointOfTest (r.bisector good bad).calculateInterval) =
          some (r.sha (good + (bad - good) / 2)) :=
      getCommit_bisector (by omega) (by omega) (getPointOfTest_bisector r h)
    refine ⟨good + (bad - good) / 2, .inl ?_, by omega, by omega, by omega, by omega⟩
    rw [report_of_lt (by omega), Bisector.execute, hmany, hcommit]
    rfl

/-- Without output the list has one line, which is empty; the tool proposes it. -/
theorem report_empty (r : Repository) (h : bad ≤ good) : r.report good bad = some (.lastToTest []) := by
  rw [Repository.report, Repository.revList, if_pos h]
  decide

end Reports

section Search

variable {r : Repository} {isBad : Nat → Bool} {fuel good first bad : Nat}

theorem Transition.left {point : Nat} (h : Transition isBad good first bad) (hpoint : isBad point = true)
    (hlo : good < point) (hhi : point < bad) : Transition isBad good first point := by
  have hle : first ≤ point := by
    by_contra hlt
    exact absurd (hpoint.symm.trans (h.before point hlo.le (by omega))) (by decide)
  exact ⟨h.afterGood, hle, h.before, fun k hk hkp => h.after k hk (by omega)⟩

theorem Transition.right {point : Nat} (h : Transition isBad good first bad) (hpoint : isBad point = false)
    (hlo : good < point) (hhi : point < bad) : Transition isBad point first bad := by
  have hlt : point < first := by
    by_contra hle
    exact absurd (hpoint.symm.trans (h.after point (by omega) hhi.le)) (by decide)
  exact ⟨hlt, h.upToBad, fun k hk hkf => h.before k (by omega) hkf, h.after⟩

theorem clog_half {n k : Nat} (hn : 2 ≤ n) (hk : k ≤ (n + 1) / 2) : Nat.clog 2 k + 1 ≤ Nat.clog 2 n := by
  rw [Nat.clog_of_two_le (by decide) hn]
  exact Nat.add_le_add_right (Nat.clog_mono_right 2 hk) 1

/-- One test: the revision is recorded, and the search goes on in the half that
its verdict selects. -/
theorem follow_succ (h : good + 1 < bad) :
    ∃ point, (good < point ∧ point < bad) ∧
      (point - good ≤ (bad - good + 1) / 2 ∧ bad - point ≤ (bad - good + 1) / 2) ∧
      r.follow isBad (fuel + 1) good bad =
        (⟨good, point, bad⟩ ::
            (if isBad point then r.follow isBad fuel good point else r.follow isBad fuel point bad).1,
          (if isBad point then r.follow isBad fuel good point else r.follow isBad fuel point bad).2) := by
  obtain ⟨point, hreport, hlo, hhi, hleft, hright⟩ := report_proposes r h
  refine ⟨point, ⟨hlo, hhi⟩, ⟨hleft, hright⟩, ?_⟩
  rcases hreport with hreport | hreport
  · simp only [Repository.follow, hreport, r.resolve_sha]
  · simp only [Repository.follow, hreport, r.resolve_sha]

theorem follow_adjacent (r : Repository) (isBad : Nat → Bool) (fuel good : Nat) :
    r.follow isBad (fuel + 1) good (good + 1) = ([], some (r.sha (good + 1))) := by
  simp only [Repository.follow, report_adjacent]

theorem Finds.step {point lo hi : Nat} (hrest : Finds r isBad fuel lo first hi)
    (hranges : ∀ s ∈ (r.follow isBad fuel lo hi).1, s.bad - s.good ≤ hi - lo) (hbetween : good < point ∧ point < bad)
    (hhalf : hi - lo ≤ (bad - good + 1) / 2)
    (hfollow : r.follow isBad (fuel + 1) good bad =
      (⟨good, point, bad⟩ :: (r.follow isBad fuel lo hi).1, (r.follow isBad fuel lo hi).2)) :
    Finds r isBad (fuel + 1) good first bad ∧
      ∀ s ∈ (r.follow isBad (fuel + 1) good bad).1, s.bad - s.good ≤ bad - good := by
  have hsmaller : hi - lo < bad - good := by omega
  have hmember : ∀ s ∈ (r.follow isBad fuel lo hi).1, s.bad - s.good < bad - good := fun s hs =>
    lt_of_le_of_lt (hranges s hs) hsmaller
  refine ⟨⟨?between, ?shrinks, ?tests, ?named⟩, ?ranges⟩
  case between =>
    rw [hfollow]
    exact List.forall_mem_cons.mpr ⟨hbetween, hrest.between⟩
  case shrinks =>
    rw [hfollow]
    exact List.pairwise_cons.mpr ⟨hmember, hrest.shrinks⟩
  case tests =>
    rw [hfollow, List.length_cons]
    calc (r.follow isBad fuel lo hi).1.length + 1 ≤ Nat.clog 2 (hi - lo) + 1 := Nat.add_le_add_right hrest.tests 1
      _ ≤ Nat.clog 2 (bad - good) := clog_half (by omega) hhalf
  case named =>
    rw [hfollow]
    exact hrest.named
  case ranges =>
    rw [hfollow]
    exact List.forall_mem_cons.mpr ⟨le_rfl, fun s hs => (hmember s hs).le⟩

theorem follow_finds (r : Repository) (h : Transition isBad good first bad) (hfuel : bad - good ≤ fuel) :
    Finds r isBad fuel good first bad ∧ ∀ s ∈ (r.follow isBad fuel good bad).1, s.bad - s.good ≤ bad - good := by
  have hlo := h.afterGood
  have hhi := h.upToBad
  induction fuel generalizing good bad with
  | zero => omega
  | succ fuel ih =>
    by_cases hadjacent : bad = good + 1
    · obtain rfl : first = good + 1 := by omega
      subst hadjacent
      refine ⟨⟨?_, ?_, ?_, ?_⟩, ?_⟩ <;> rw [follow_adjacent]
      · exact List.forall_mem_nil _
      · exact List.Pairwise.nil
      · exact Nat.zero_le _
      · exact List.forall_mem_nil _
    · obtain ⟨point, hbetween, hhalf, hfollow⟩ := @follow_succ r isBad fuel good bad (by omega)
      cases hpoint : isBad point with
      | true =>
        have hleft := h.left hpoint hbetween.1 hbetween.2
        obtain ⟨hrest, hranges⟩ := ih hleft (by omega) hleft.afterGood hleft.upToBad
        rw [hpoint, if_pos rfl] at hfollow
        exact hrest.step hranges hbetween hhalf.1 hfollow
      | false =>
        have hright := h.right hpoint hbetween.1 hbetween.2
        obtain ⟨hrest, hranges⟩ := ih hright (by omega) hright.afterGood hright.upToBad
        rw [hpoint, if_neg Bool.false_ne_true] at hfollow
        exact hrest.step hranges hbetween hhalf.2 hfollow

end Search

/-- The tool bisects exactly the ranges that are not empty: the check for an
empty list cannot fire, since a split text has at least one line. -/
theorem bisects_iff (r : Repository) (good bad : Nat) : Bisects r good bad ↔ good < bad := by
  constructor
  · intro h
    by_contra hempty
    have hover := h.ends (by omega)
    rw [report_empty r (by omega)] at hover
    rcases hover with hover | ⟨commit, hover⟩
    · exact absurd hover (by decide)
    · exact absurd hover (by simp)
  · intro h
    refine ⟨fun hadjacent => ?_, fun isBad first htransition => (follow_finds r htransition le_rfl).1⟩
    obtain rfl : bad = good + 1 := by omega
    exact .inr ⟨_, report_adjacent r good⟩

def lettered : Repository where
  sha := fun k => List.replicate k 'a'
  resolve := fun line => some line.length
  resolve_sha := fun k => congrArg some List.length_replicate
  oneLine := fun k hk => absurd (List.eq_of_mem_replicate hk) (by decide)

/-- Asked about one revision that is good and bad, the tool proposes an empty
name as the last revision to test. -/
theorem empty_range_proposes :
    lettered.report 3 3 = some (.lastToTest []) ∧ ¬ Bisects lettered 3 3 := by
  have hreport : lettered.report 3 3 = some (.lastToTest []) := by decide
  refine ⟨hreport, fun h => ?_⟩
  rcases h.ends (by decide) with hover | ⟨commit, hover⟩
  · exact absurd (hreport.symm.trans hover) (by decide)
  · exact absurd (hreport.symm.trans hover) (by simp)

end Bisect

end DeviceDriverTest
