import DeviceDriverTest.RingHistory

/-! The animation of the framebuffer test: a segment whose end points bounce off
the edges of the screen, with a tail that is erased a hundred steps behind it. -/

namespace DeviceDriverTest

namespace SegmentAnimation

open RingHistory

def width : Int := 1024
def height : Int := 768
def tailLength : Nat := 100

instance : NeZero tailLength := ⟨by decide⟩

structure Point where
  x : Int
  y : Int
  deriving DecidableEq

def Point.add (lhs rhs : Point) : Point := ⟨lhs.x + rhs.x, lhs.y + rhs.y⟩

structure Line where
  p1 : Point
  p2 : Point
  color : Nat
  deriving DecidableEq

structure State where
  p1 : Point
  p2 : Point
  p1delta : Point
  p2delta : Point
  p1tail : Fin tailLength → Point
  p2tail : Fin tailLength → Point
  tailpos : Fin tailLength

def randomPoint (rand : Nat → Nat) (i : Nat) : Point := ⟨(rand i % 1024 : Nat), (rand (i + 1) % 768 : Nat)⟩

def randomDelta (rand : Nat → Nat) (i : Nat) : Point :=
  ⟨(rand i % 19 : Nat) - 10, (rand (i + 1) % 19 : Nat) - 10⟩

def start (rand : Nat → Nat) : State where
  p1 := randomPoint rand 0
  p2 := randomPoint rand 2
  p1delta := randomDelta rand 4
  p2delta := randomDelta rand 6
  p1tail := fun _ => ⟨0, 0⟩
  p2tail := fun _ => ⟨0, 0⟩
  tailpos := 0

/-- A coordinate that has left the screen takes its step back and turns round. -/
def bounce (extent x delta : Int) : Int × Int :=
  if x < 0 ∨ extent ≤ x then (x - delta * 2, -delta) else (x, delta)

def bouncePoint (p delta : Point) : Point × Point :=
  let (x, dx) := bounce width p.x delta.x
  let (y, dy) := bounce height p.y delta.y
  (⟨x, y⟩, ⟨dx, dy⟩)

/-- An iteration of the main loop, with the line it draws and the one it erases. -/
def step (color : Nat) (s : State) : State × Line × Line :=
  let (p1, p1delta) := bouncePoint (s.p1.add s.p1delta) s.p1delta
  let (p2, p2delta) := bouncePoint (s.p2.add s.p2delta) s.p2delta
  ({ p1, p2, p1delta, p2delta
     p1tail := Function.update s.p1tail s.tailpos p1
     p2tail := Function.update s.p2tail s.tailpos p2
     tailpos := s.tailpos + 1 },
    ⟨p1, p2, color⟩, ⟨s.p1tail s.tailpos, s.p2tail s.tailpos, 0⟩)

/-- The state after `n` iterations; the set-up takes the first eight random values. -/
def run (rand : Nat → Nat) : Nat → State
  | 0 => start rand
  | n + 1 => (step (rand (8 + n)) (run rand n)).1

def drawn (rand : Nat → Nat) (n : Nat) : Line := (step (rand (8 + n)) (run rand n)).2.1

def erased (rand : Nat → Nat) (n : Nat) : Line := (step (rand (8 + n)) (run rand n)).2.2

def Point.OnScreen (p : Point) : Prop := (0 ≤ p.x ∧ p.x < width) ∧ 0 ≤ p.y ∧ p.y < height

def Line.OnScreen (l : Line) : Prop := l.p1.OnScreen ∧ l.p2.OnScreen

def Point.IsDelta (p : Point) : Prop := (-10 ≤ p.x ∧ p.x ≤ 10) ∧ -10 ≤ p.y ∧ p.y ≤ 10

theorem bounce_inside (extent : Int) {x delta : Int} (hextent : 20 ≤ extent) (hx : 0 ≤ x ∧ x < extent)
    (hdelta : -10 ≤ delta ∧ delta ≤ 10) :
    (0 ≤ (bounce extent (x + delta) delta).1 ∧ (bounce extent (x + delta) delta).1 < extent) ∧
      -10 ≤ (bounce extent (x + delta) delta).2 ∧ (bounce extent (x + delta) delta).2 ≤ 10 := by
  rw [bounce]
  by_cases hout : x + delta < 0 ∨ extent ≤ x + delta
  · rw [if_pos hout]
    show (0 ≤ x + delta - delta * 2 ∧ x + delta - delta * 2 < extent) ∧ -10 ≤ -delta ∧ -delta ≤ 10
    omega
  · rw [if_neg hout]
    exact ⟨by omega, hdelta⟩

theorem bouncePoint_inside {p delta : Point} (hp : p.OnScreen) (hdelta : delta.IsDelta) :
    (bouncePoint (p.add delta) delta).1.OnScreen ∧ (bouncePoint (p.add delta) delta).2.IsDelta := by
  have hx := bounce_inside width (by decide) hp.1 hdelta.1
  have hy := bounce_inside height (by decide) hp.2 hdelta.2
  exact ⟨⟨hx.1, hy.1⟩, hx.2, hy.2⟩

/-- After some iterations: the end points are on the screen, and the tail holds
the last ones. -/
structure Invariant (history1 history2 : Nat → Point) (n : Nat) (s : State) : Prop where
  p1 : s.p1.OnScreen
  p2 : s.p2.OnScreen
  p1delta : s.p1delta.IsDelta
  p2delta : s.p2delta.IsDelta
  p1tail : s.p1tail = written ⟨0, 0⟩ history1 n
  p2tail : s.p2tail = written ⟨0, 0⟩ history2 n
  tailpos : s.tailpos = Fin.ofNat tailLength n

theorem invariant_start (rand : Nat → Nat) (history1 history2 : Nat → Point) :
    Invariant history1 history2 0 (start rand) := by
  have hpoint : ∀ i, (randomPoint rand i).OnScreen := by
    intro i
    show (0 ≤ ((rand i % 1024 : Nat) : Int) ∧ ((rand i % 1024 : Nat) : Int) < 1024) ∧
      0 ≤ ((rand (i + 1) % 768 : Nat) : Int) ∧ ((rand (i + 1) % 768 : Nat) : Int) < 768
    omega
  have hdelta : ∀ i, (randomDelta rand i).IsDelta := by
    intro i
    show (-10 ≤ ((rand i % 19 : Nat) : Int) - 10 ∧ ((rand i % 19 : Nat) : Int) - 10 ≤ 10) ∧
      -10 ≤ ((rand (i + 1) % 19 : Nat) : Int) - 10 ∧ ((rand (i + 1) % 19 : Nat) : Int) - 10 ≤ 10
    omega
  exact ⟨hpoint 0, hpoint 2, hdelta 4, hdelta 6, rfl, rfl, rfl⟩

theorem Invariant.step {history1 history2 : Nat → Point} {n : Nat} {s : State}
    (h : Invariant history1 history2 n s) (color : Nat)
    (h1 : history1 n = (SegmentAnimation.step color s).2.1.p1)
    (h2 : history2 n = (SegmentAnimation.step color s).2.1.p2) :
    Invariant history1 history2 (n + 1) (SegmentAnimation.step color s).1 := by
  have hp1 := bouncePoint_inside h.p1 h.p1delta
  have hp2 := bouncePoint_inside h.p2 h.p2delta
  refine ⟨hp1.1, hp2.1, hp1.2, hp2.2, ?_, ?_, ?_⟩
  · rw [written, h1, ← h.p1tail, ← h.tailpos]
    rfl
  · rw [written, h2, ← h.p2tail, ← h.tailpos]
    rfl
  · show s.tailpos + 1 = Fin.ofNat tailLength (n + 1)
    rw [h.tailpos]
    exact Fin.ext (Nat.add_mod n 1 tailLength).symm

theorem invariant_run (rand : Nat → Nat) (n : Nat) :
    Invariant (fun k => (drawn rand k).p1) (fun k => (drawn rand k).p2) n (run rand n) := by
  induction n with
  | zero => exact invariant_start rand _ _
  | succ n ih => exact ih.step (rand (8 + n)) rfl rfl

theorem erased_eq (rand : Nat → Nat) (n : Nat) :
    erased rand n =
      if n < tailLength then ⟨⟨0, 0⟩, ⟨0, 0⟩, 0⟩ else { drawn rand (n - tailLength) with color := 0 } := by
  have h := invariant_run rand n
  have htail : erased rand n = ⟨(run rand n).p1tail (run rand n).tailpos,
      (run rand n).p2tail (run rand n).tailpos, 0⟩ := rfl
  rw [htail, h.p1tail, h.p2tail, h.tailpos, written_next, written_next]
  by_cases hn : n < tailLength
  · simp only [if_pos hn]
  · simp only [if_neg hn]

theorem drawn_onScreen (rand : Nat → Nat) (n : Nat) : (drawn rand n).OnScreen := by
  have h := invariant_run rand (n + 1)
  exact ⟨h.p1, h.p2⟩

/-- After every iteration the end points are on the screen, and so are both lines
of the iteration; the one that is erased was drawn a tail length before. -/
structure Animated (rand : Nat → Nat) (n : Nat) : Prop where
  ends : (run rand (n + 1)).p1.OnScreen ∧ (run rand (n + 1)).p2.OnScreen
  lines : (drawn rand n).OnScreen ∧ (erased rand n).OnScreen
  tail : erased rand n =
    if n < tailLength then ⟨⟨0, 0⟩, ⟨0, 0⟩, 0⟩ else { drawn rand (n - tailLength) with color := 0 }

theorem animated (rand : Nat → Nat) (n : Nat) : Animated rand n := by
  have hends := invariant_run rand (n + 1)
  refine ⟨⟨hends.p1, hends.p2⟩, ⟨drawn_onScreen rand n, ?_⟩, erased_eq rand n⟩
  rw [erased_eq]
  by_cases hn : n < tailLength
  · rw [if_pos hn]
    have horigin : (⟨0, 0⟩ : Point).OnScreen := ⟨⟨le_rfl, by decide⟩, le_rfl, by decide⟩
    exact ⟨horigin, horigin⟩
  · rw [if_neg hn]
    exact drawn_onScreen rand (n - tailLength)

end SegmentAnimation

end DeviceDriverTest
