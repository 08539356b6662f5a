import Mathlib.Logic.Function.Basic
import DeviceDriverTest.ScheduledRun

/-! The GPIO test module: callers that request a line, set its direction, access it
and free it, over flags that they share. -/

namespace DeviceDriverTest

namespace GpioTest

open ScheduledRun

inductive Direction
  | input
  | output
  deriving DecidableEq

inductive Call
  | request (ok : Bool)
  | direction (d : Direction) (ok : Bool)
  | access (d : Direction)
  | free
  deriving DecidableEq

/-- The loop of a test case: how often it runs, the directions it sets in turn, and
whether it stops where the line is not reserved. -/
structure Program where
  iterations : Nat
  directions : List Direction
  breaks : Bool

def gpio_keep_reading (iterations : Nat) : Program := ⟨iterations, [.input], false⟩

def case6 (iterations : Nat) : Program := ⟨iterations, [.input], false⟩

def case7 (iterations : Nat) : Program := ⟨iterations, [.output], false⟩

def case11 : Program := ⟨500, [.output, .input], true⟩

/-- Where a caller is in its iteration. The assignment of a flag, its test and the
calls are steps of their own. -/
inductive Place
  | request
  | requested (ok : Bool)
  | testRequest
  | direction (d : Direction) (rest : List Direction)
  | directed (d : Direction) (rest : List Direction) (ok : Bool)
  | testDirection (d : Direction) (rest : List Direction)
  | access (d : Direction) (rest : List Direction)
  | free
  | done

/-- `input_direction_flag` and `output_direction_flag` are the values of
`direction_flag`, `error_flag_1` and `error_flag_2` those of `error_flag`. -/
structure Flags where
  request_flag : Bool
  direction_flag : Direction → Bool
  error_flag : Direction → Bool
  error_flag_3 : Bool

/-- `held` and `directed` are not in the source: they say that the caller's request,
or one of its direction calls, has succeeded in this iteration. -/
structure Caller where
  place : Place
  loop : Nat
  held : Bool
  directed : Bool

structure Event (ι : Type*) where
  caller : ι
  loop : Nat
  call : Call
  deriving DecidableEq

/-- The log of the calls has the last one first. -/
structure State (ι : Type*) where
  flags : Flags
  callers : ι → Caller
  log : List (Event ι)

def Program.enter (p : Program) (loop : Nat) : Caller :=
  ⟨if loop < p.iterations then .request else .done, loop, false, false⟩

/-- The place of the next direction call, or of `gpio_free` after the last. -/
def following : List Direction → Place
  | [] => .free
  | d :: rest => .direction d rest

/-- A step of a caller: `ok` is the driver's answer where the step is a call. -/
def advance (p : Program) (f : Flags) (c : Caller) (ok : Bool) : Flags × Caller × Option Call :=
  match c.place with
  | .request => (f, { c with place := .requested ok, held := ok }, some (.request ok))
  | .requested answer => ({ f with request_flag := f.request_flag || answer }, { c with place := .testRequest }, none)
  | .testRequest =>
    if f.request_flag then (f, { c with place := following p.directions }, none)
    else if p.breaks then (f, { c with place := .done }, none)
    else (f, p.enter (c.loop + 1), none)
  | .direction d rest =>
    (f, { c with place := .directed d rest ok, directed := c.directed || ok }, some (.direction d ok))
  | .directed d rest answer =>
    ({ f with
        direction_flag := Function.update f.direction_flag d (f.direction_flag d || answer)
        error_flag := Function.update f.error_flag d (f.error_flag d && answer) },
      { c with place := .testDirection d rest }, none)
  | .testDirection d rest =>
    (f, { c with place := if f.direction_flag d then .access d rest else following rest }, none)
  | .access d rest =>
    ({ f with error_flag_3 := f.error_flag_3 && (d == .output || ok) }, { c with place := following rest },
      some (.access d))
  | .free => (f, p.enter (c.loop + 1), some .free)
  | .done => (f, c, none)

variable {ι : Type*}

def record (i : ι) (loop : Nat) (log : List (Event ι)) : Option Call → List (Event ι)
  | none => log
  | some call => ⟨i, loop, call⟩ :: log

def step [DecidableEq ι] (program : ι → Program) (s : State ι) (a : ι × Bool) : State ι :=
  let (flags, caller, call) := advance (program a.1) s.flags (s.callers a.1) a.2
  ⟨flags, Function.update s.callers a.1 caller, record a.1 (s.callers a.1).loop s.log call⟩

def start (program : ι → Program) : State ι :=
  ⟨⟨false, fun _ => false, fun _ => true, true⟩, fun i => (program i).enter 0, []⟩

/-- A request of the caller in this iteration has succeeded, and it has freed nothing since. -/
def Holds (i : ι) (loop : Nat) (log : List (Event ι)) : Prop :=
  ∃ after before, log = after ++ ⟨i, loop, .request true⟩ :: before ∧
    ∀ e ∈ after, e.caller = i → e.call ≠ .free

def Directed (i : ι) (loop : Nat) (log : List (Event ι)) : Prop :=
  ∃ d, ⟨i, loop, .direction d true⟩ ∈ log

def Event.Allowed (e : Event ι) (before : List (Event ι)) : Prop :=
  match e.call with
  | .free => Holds e.caller e.loop before
  | .access _ => Directed e.caller e.loop before
  | _ => True

def Disciplined : List (Event ι) → Prop
  | [] => True
  | e :: before => e.Allowed before ∧ Disciplined before

/-- A flag that the caller finds set is one that it has set itself, in this iteration. -/
def Caller.Warranted (f : Flags) (c : Caller) : Prop :=
  match c.place with
  | .testRequest => f.request_flag = true → c.held = true
  | .testDirection d _ => f.direction_flag d = true → c.directed = true
  | _ => True

def Warranted (s : State ι) (a : ι × Bool) : Prop := (s.callers a.1).Warranted s.flags

/-- Between the test of `request_flag` and `gpio_free`. -/
def Place.Inside : Place → Prop
  | .request | .requested _ | .testRequest | .done => False
  | _ => True

structure CallerSound (log : List (Event ι)) (i : ι) (c : Caller) : Prop where
  held : c.held = true → Holds i c.loop log
  directed : c.directed = true → Directed i c.loop log
  inside : c.place.Inside → c.held = true
  access : ∀ d rest, c.place = .access d rest → c.directed = true

structure Invariant (s : State ι) : Prop where
  disciplined : Disciplined s.log
  callers : ∀ i, CallerSound s.log i (s.callers i)

variable {i : ι} {loop : Nat} {log : List (Event ι)} {c : Caller}

theorem Holds.cons (h : Holds i loop log) (e : Event ι) (he : e.caller = i → e.call ≠ .free) :
    Holds i loop (e :: log) := by
  obtain ⟨after, before, rfl, hafter⟩ := h
  refine ⟨e :: after, before, rfl, fun e' he' => ?_⟩
  obtain rfl | he' := List.mem_cons.mp he'
  · exact he
  · exact hafter e' he'

theorem Directed.cons (h : Directed i loop log) (e : Event ι) : Directed i loop (e :: log) := by
  obtain ⟨d, hd⟩ := h
  exact ⟨d, List.mem_cons_of_mem e hd⟩

theorem CallerSound.cons (h : CallerSound log i c) (e : Event ι) (he : e.caller = i → e.call ≠ .free) :
    CallerSound (e :: log) i c :=
  ⟨fun hheld => (h.held hheld).cons e he, fun hdirected => (h.directed hdirected).cons e, h.inside, h.access⟩

theorem CallerSound.record {j : ι} (h : CallerSound log i c) (hij : j ≠ i) (loop : Nat) (call : Option Call) :
    CallerSound (GpioTest.record j loop log call) i c := by
  cases call with
  | none => exact h
  | some call => exact h.cons _ fun hi => absurd hi hij

theorem CallerSound.move (h : CallerSound log i c) {place : Place} (hinside : place.Inside → c.held = true)
    (haccess : ∀ d rest, place = .access d rest → c.directed = true) :
    CallerSound log i { c with place } :=
  ⟨h.held, h.directed, hinside, haccess⟩

theorem callerSound_enter (p : Program) (log : List (Event ι)) (i : ι) (loop : Nat) :
    CallerSound log i (p.enter loop) := by
  have hplace : (p.enter loop).place = .request ∨ (p.enter loop).place = .done := by
    simp only [Program.enter]
    split
    · exact Or.inl rfl
    · exact Or.inr rfl
  refine ⟨fun h => absurd h Bool.false_ne_true, fun h => absurd h Bool.false_ne_true, fun h => ?_, fun d rest h => ?_⟩
  · obtain hp | hp := hplace
    · rw [hp] at h
      exact h.elim
    · rw [hp] at h
      exact h.elim
  · obtain hp | hp := hplace
    · rw [hp] at h
      contradiction
    · rw [hp] at h
      contradiction

theorem following_ne_access (rest : List Direction) (d : Direction) (more : List Direction) :
    following rest ≠ .access d more := by
  cases rest with
  | nil => exact nofun
  | cons d' rest => exact nofun

/-- One step of the caller itself: its call is allowed, and its place stays sound. -/
theorem CallerSound.advance (p : Program) (f : Flags) (ok : Bool) (h : CallerSound log i c)
    (hw : c.Warranted f) :
    (∀ call, (GpioTest.advance p f c ok).2.2 = some call → Event.Allowed ⟨i, c.loop, call⟩ log) ∧
      CallerSound (GpioTest.record i c.loop log (GpioTest.advance p f c ok).2.2) i
        (GpioTest.advance p f c ok).2.1 := by
  obtain ⟨place, loop, held, directed⟩ := c
  cases place with
  | request =>
    have hheld : ok = true → Holds i loop (⟨i, loop, .request ok⟩ :: log) := by
      rintro rfl
      exact ⟨[], log, rfl, nofun⟩
    have hdirected : directed = true → Directed i loop (⟨i, loop, .request ok⟩ :: log) :=
      fun hd => (h.directed hd).cons _
    refine ⟨fun call hcall => ?_, hheld, hdirected, nofun, nofun⟩
    cases hcall
    trivial
  | requested answer => exact ⟨nofun, h.move nofun nofun⟩
  | testRequest =>
    by_cases hflag : f.request_flag = true
    · have hstep : GpioTest.advance p f ⟨.testRequest, loop, held, directed⟩ ok =
          (f, ⟨following p.directions, loop, held, directed⟩, none) := if_pos hflag
      rw [hstep]
      exact ⟨nofun, h.move (fun _ => hw hflag) fun d rest hd => absurd hd (following_ne_access _ d rest)⟩
    · by_cases hbreaks : p.breaks = true
      · have hstep : GpioTest.advance p f ⟨.testRequest, loop, held, directed⟩ ok =
            (f, ⟨.done, loop, held, directed⟩, none) := (if_neg hflag).trans (if_pos hbreaks)
        rw [hstep]
        exact ⟨nofun, h.move nofun nofun⟩
      · have hstep : GpioTest.advance p f ⟨.testRequest, loop, held, directed⟩ ok =
            (f, p.enter (loop + 1), none) := (if_neg hflag).trans (if_neg hbreaks)
        rw [hstep]
        exact ⟨nofun, callerSound_enter p log i (loop + 1)⟩
  | direction d rest =>
    have hheld : held = true → Holds i loop (⟨i, loop, .direction d ok⟩ :: log) :=
      fun hh => (h.held hh).cons _ fun _ => nofun
    have hdirected : (directed || ok) = true → Directed i loop (⟨i, loop, .direction d ok⟩ :: log) := by
      intro hd
      obtain hd | rfl := (Bool.or_eq_true _ _).mp hd
      · exact (h.directed hd).cons _
      · exact ⟨d, List.mem_cons_self⟩
    refine ⟨fun call hcall => ?_, hheld, hdirected, fun _ => h.inside trivial, nofun⟩
    cases hcall
    trivial
  | directed d rest answer => exact ⟨nofun, h.move (fun _ => h.inside trivial) nofun⟩
  | testDirection d rest =>
    by_cases hflag : f.direction_flag d = true
    · have hstep : GpioTest.advance p f ⟨.testDirection d rest, loop, held, directed⟩ ok =
          (f, ⟨.access d rest, loop, held, directed⟩, none) := by
        simp only [GpioTest.advance, if_pos hflag]
      rw [hstep]
      exact ⟨nofun, h.move (fun _ => h.inside trivial) fun _ _ _ => hw hflag⟩
    · have hstep : GpioTest.advance p f ⟨.testDirection d rest, loop, held, directed⟩ ok =
          (f, ⟨following rest, loop, held, directed⟩, none) := by
        simp only [GpioTest.advance, if_neg hflag]
      rw [hstep]
      exact ⟨nofun, h.move (fun _ => h.inside trivial) fun d rest hd => absurd hd (following_ne_access _ d rest)⟩
  | access d rest =>
    have hmove : CallerSound log i ⟨following rest, loop, held, directed⟩ :=
      h.move (fun _ => h.inside trivial) fun d rest hd => absurd hd (following_ne_access _ d rest)
    refine ⟨fun call hcall => ?_, hmove.cons _ fun _ => nofun⟩
    cases hcall
    exact h.directed (h.access d rest rfl)
  | free =>
    refine ⟨fun call hcall => ?_, callerSound_enter p _ i (loop + 1)⟩
    cases hcall
    exact h.held (h.inside trivial)
  | done => exact ⟨nofun, h⟩

theorem invariant_start (program : ι → Program) : Invariant (start program) :=
  ⟨trivial, fun i => callerSound_enter (program i) [] i 0⟩

theorem Invariant.step [DecidableEq ι] {program : ι → Program} {s : State ι} (h : Invariant s) (a : ι × Bool)
    (hw : Warranted s a) : Invariant (GpioTest.step program s a) := by
  obtain ⟨hcall, hsound⟩ := (h.callers a.1).advance (program a.1) s.flags a.2 hw
  constructor
  · show Disciplined (GpioTest.record a.1 _ s.log (GpioTest.advance (program a.1) s.flags (s.callers a.1) a.2).2.2)
    cases hnone : (GpioTest.advance (program a.1) s.flags (s.callers a.1) a.2).2.2 with
    | none => exact h.disciplined
    | some call => exact ⟨hcall call hnone, h.disciplined⟩
  · intro j
    show CallerSound (GpioTest.record a.1 _ s.log _) j (Function.update s.callers a.1 _ j)
    by_cases hj : j = a.1
    · subst hj
      rw [Function.update_self]
      exact hsound
    · rw [Function.update_of_ne hj]
      exact (h.callers j).record (Ne.symm hj) _ _

end GpioTest

end DeviceDriverTest
