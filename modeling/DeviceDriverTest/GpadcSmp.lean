import Mathlib.Logic.Function.Basic
import DeviceDriverTest.ScheduledRun

/-! The two threads of the GPADC test, which hand conversions to each other
through one flag. -/

namespace DeviceDriverTest

namespace GpadcSmp

open ScheduledRun

inductive Cpu where
  | cpu1
  | cpu2
  deriving DecidableEq

def Cpu.other : Cpu → Cpu
  | .cpu1 => .cpu2
  | .cpu2 => .cpu1

/-- Where a thread is in its loop: at the test of the flag, at its assignment, at
the conversion, or in the second wait of `smp_test2`. -/
inductive Pc where
  | testing
  | setting
  | converting
  | waiting
  | done
  deriving DecidableEq

structure Thread where
  pc : Pc
  left : Nat
  deriving DecidableEq

/-- `wait_funccb`, which is 0 or 1, the threads, and the conversions started for
each whose callback has not run yet. -/
structure State where
  waitFunccb : Bool
  thread : Cpu → Thread
  outstanding : Cpu → Nat

/-- A step of a thread, whose conversion is accepted or fails, or a callback. -/
inductive Action where
  | run (cpu : Cpu) (accepted : Bool)
  | callback (cpu : Cpu)

def startThread (iterations : Int) : Thread :=
  if 0 < iterations then ⟨.testing, iterations.toNat - 1⟩ else ⟨.done, 0⟩

def start (iterations : Int) : State := ⟨false, fun _ => startThread iterations, fun _ => 0⟩

def Thread.afterRound (t : Thread) : Thread :=
  match t.left with
  | 0 => { t with pc := .done }
  | left + 1 => ⟨.testing, left⟩

def Thread.afterConversion (t : Thread) : Cpu → Thread
  | .cpu1 => t.afterRound
  | .cpu2 => { t with pc := .waiting }

def State.setThread (s : State) (cpu : Cpu) (t : Thread) : State :=
  { s with thread := Function.update s.thread cpu t }

def State.setOutstanding (s : State) (cpu : Cpu) (count : Nat) : State :=
  { s with outstanding := Function.update s.outstanding cpu count }

def runThread (s : State) (cpu : Cpu) (accepted : Bool) : State :=
  let t := s.thread cpu
  match t.pc with
  | .testing => if s.waitFunccb then s else s.setThread cpu { t with pc := .setting }
  | .setting => { s.setThread cpu { t with pc := .converting } with waitFunccb := true }
  | .converting =>
    let s := s.setThread cpu (t.afterConversion cpu)
    if accepted then s.setOutstanding cpu (s.outstanding cpu + 1) else s
  | .waiting => if s.waitFunccb then s.setThread cpu t.afterRound else s
  | .done => s

/-- A callback runs only for a conversion that was started. -/
def next (s : State) : Action → State
  | .run cpu accepted => runThread s cpu accepted
  | .callback cpu =>
    if s.outstanding cpu = 0 then s
    else { s.setOutstanding cpu (s.outstanding cpu - 1) with waitFunccb := false }

/-- The thread can only go round one of its wait loops, as the flag stands. -/
def Spins (s : State) (cpu : Cpu) : Prop :=
  (s.thread cpu).pc = .testing ∧ s.waitFunccb = true ∨ (s.thread cpu).pc = .waiting ∧ s.waitFunccb = false

/-- No callback is to come, and the threads that have not finished all spin. -/
def Stuck (s : State) : Prop :=
  (∀ cpu, s.outstanding cpu = 0) ∧ (∃ cpu, (s.thread cpu).pc ≠ .done) ∧
    ∀ cpu, (s.thread cpu).pc ≠ .done → Spins s cpu

structure Handshake (s : State) : Prop where
  exclusive : s.outstanding .cpu1 + s.outstanding .cpu2 ≤ 1
  live : ¬ Stuck s

def Retests (t : Thread) : Prop := t.pc = .testing ∨ t.pc ≠ .done ∧ t.left ≠ 0

/-- The thread that sets the flag finds it clear; a conversion fails only when
neither thread has to test the flag again; and a callback does not find
`smp_test2` in its second wait once `smp_test1` has finished. -/
def Orderly (s : State) : Action → Prop
  | .run cpu accepted =>
    ((s.thread cpu).pc = .setting → s.waitFunccb = false) ∧
      ((s.thread cpu).pc = .converting → accepted = false →
        (s.thread cpu).left = 0 ∧ ¬ Retests (s.thread cpu.other))
  | .callback cpu =>
    s.outstanding cpu ≠ 0 → (s.thread .cpu2).pc = .waiting → (s.thread .cpu1).pc ≠ .done

def State.busy (s : State) (cpu : Cpu) : Nat :=
  s.outstanding cpu + if (s.thread cpu).pc = .converting then 1 else 0

/-- The flag is set while a thread is busy. Where it stays set although none is,
no thread tests it any more; where it is clear, the second wait is still to end. -/
structure Inv (s : State) : Prop where
  single : ∀ cpu, s.busy cpu + s.busy cpu.other ≤ 1
  clear : s.waitFunccb = false → ∀ cpu, s.busy cpu = 0
  first : (s.thread .cpu1).pc ≠ .waiting
  failed : s.waitFunccb = true → (∀ cpu, s.busy cpu = 0) → ∀ cpu, ¬ Retests (s.thread cpu)
  second : s.waitFunccb = false → (s.thread .cpu2).pc = .waiting → (s.thread .cpu1).pc ≠ .done

theorem Cpu.eq_or_other (c d : Cpu) : d = c ∨ d = c.other := by
  cases c <;> cases d <;> simp [Cpu.other]

theorem Cpu.other_ne (c : Cpu) : c.other ≠ c := by
  cases c <;> decide

theorem Cpu.other_other (c : Cpu) : c.other.other = c := by
  cases c <;> rfl

theorem Cpu.forall_iff (c : Cpu) {p : Cpu → Prop} : (∀ d, p d) ↔ p c ∧ p c.other := by
  refine ⟨fun h => ⟨h c, h c.other⟩, fun h d => ?_⟩
  obtain rfl | rfl := c.eq_or_other d
  · exact h.1
  · exact h.2

theorem handshake_of_inv {s : State} (h : Inv s) : Handshake s := by
  have hbusy : ∀ c, s.outstanding c ≤ s.busy c := fun c => Nat.le_add_right _ _
  refine ⟨?_, ?_⟩
  · have hone := h.single .cpu1
    have hleft := hbusy .cpu1
    have hright := hbusy .cpu2
    rw [Cpu.other] at hone
    omega
  · rintro ⟨hnone, ⟨c, hc⟩, hspin⟩
    have hidle : ∀ d, s.busy d = 0 := by
      intro d
      have hpc : (s.thread d).pc ≠ .converting := by
        intro hconv
        obtain ⟨htest, -⟩ | ⟨hwait, -⟩ := hspin d (by rw [hconv]; decide)
        · rw [hconv] at htest
          contradiction
        · rw [hconv] at hwait
          contradiction
      rw [State.busy, hnone d, if_neg hpc]
    obtain ⟨htest, hflag⟩ | ⟨hwait, hflag⟩ := hspin c hc
    · exact h.failed hflag hidle c (Or.inl htest)
    · cases c with
      | cpu1 => exact h.first hwait
      | cpu2 =>
        have hrun := h.second hflag hwait
        obtain ⟨-, hset⟩ | ⟨hfirst, -⟩ := hspin .cpu1 hrun
        · rw [hflag] at hset
          contradiction
        · exact h.first hfirst

@[simp] theorem setThread_self (s : State) (c : Cpu) (t : Thread) : (s.setThread c t).thread c = t := by
  simp [State.setThread]

@[simp] theorem setThread_other (s : State) (c : Cpu) (t : Thread) :
    (s.setThread c t).thread c.other = s.thread c.other := by
  simp [State.setThread, c.other_ne]

@[simp] theorem setOutstanding_self (s : State) (c : Cpu) (count : Nat) :
    (s.setOutstanding c count).outstanding c = count := by
  simp [State.setOutstanding]

@[simp] theorem setOutstanding_other (s : State) (c : Cpu) (count : Nat) :
    (s.setOutstanding c count).outstanding c.other = s.outstanding c.other := by
  simp [State.setOutstanding, c.other_ne]

@[simp] theorem setOutstanding_thread (s : State) (c : Cpu) (count : Nat) :
    (s.setOutstanding c count).thread = s.thread := rfl

theorem busy_setThread_self (s : State) (c : Cpu) {t : Thread} (ht : t.pc ≠ .converting) :
    (s.setThread c t).busy c = s.outstanding c := by
  rw [State.busy, setThread_self, if_neg ht]
  rfl

theorem busy_setThread_other (s : State) (c : Cpu) (t : Thread) :
    (s.setThread c t).busy c.other = s.busy c.other := by
  rw [State.busy, State.busy, setThread_other]
  rfl

theorem afterRound_pc_ne (t : Thread) : t.afterRound.pc ≠ .converting ∧ t.afterRound.pc ≠ .waiting := by
  rw [Thread.afterRound]
  split
  · exact ⟨nofun, nofun⟩
  · exact ⟨nofun, nofun⟩

theorem afterConversion_pc_ne (t : Thread) (c : Cpu) : (t.afterConversion c).pc ≠ .converting := by
  cases c with
  | cpu1 => exact (afterRound_pc_ne t).1
  | cpu2 => exact nofun

theorem first_setThread {s : State} {c : Cpu} {t : Thread} (h : (s.thread .cpu1).pc ≠ .waiting)
    (ht : c = .cpu1 → t.pc ≠ .waiting) : ((s.setThread c t).thread .cpu1).pc ≠ .waiting := by
  cases c with
  | cpu1 =>
    rw [setThread_self]
    exact ht rfl
  | cpu2 =>
    have hother := setThread_other s .cpu2 t
    rw [Cpu.other] at hother
    rw [hother]
    exact h

section Steps

variable {s : State} {c : Cpu}

theorem inv_enter (h : Inv s) (hflag : s.waitFunccb = false) :
    Inv (s.setThread c { s.thread c with pc := .setting }) := by
  have hbusy : ∀ d, (s.setThread c { s.thread c with pc := .setting }).busy d = 0 := by
    rw [c.forall_iff]
    have hidle := h.clear hflag
    have hself : s.outstanding c = 0 := by
      have hbefore := hidle c
      rw [State.busy] at hbefore
      omega
    have hsetting : Pc.setting ≠ .converting := nofun
    exact ⟨(busy_setThread_self s c hsetting).trans hself, (busy_setThread_other s c _).trans (hidle c.other)⟩
  refine ⟨fun d => ?_, fun _ => hbusy, ?_, fun hset => ?_, fun _ hwait => ?_⟩
  · rw [hbusy, hbusy]
    exact Nat.zero_le 1
  · exact first_setThread h.first nofun
  · exact absurd (hflag.symm.trans hset) Bool.false_ne_true
  · cases c with
    | cpu1 =>
      rw [setThread_self]
      exact nofun
    | cpu2 =>
      rw [setThread_self] at hwait
      exact nomatch hwait

theorem inv_set (h : Inv s) (hpc : (s.thread c).pc = .setting) (hflag : s.waitFunccb = false) :
    Inv { s.setThread c { s.thread c with pc := .converting } with waitFunccb := true } := by
  have hself : State.busy { s.setThread c { s.thread c with pc := .converting } with waitFunccb := true } c = 1 := by
    have hidle := h.clear hflag c
    simp only [State.busy, hpc, reduceCtorEq, if_false, setThread_self, if_true] at hidle ⊢
    exact congrArg (· + 1) hidle
  have hother : State.busy { s.setThread c { s.thread c with pc := .converting } with waitFunccb := true } c.other = 0 :=
    (busy_setThread_other s c _).trans (h.clear hflag c.other)
  refine ⟨?_, fun hclear => ?_, ?_, fun _ hidle => ?_, fun hclear => ?_⟩
  · rw [c.forall_iff, Cpu.other_other, hself, hother]
    exact ⟨Nat.le_refl 1, Nat.le_refl 1⟩
  · exact absurd hclear Bool.noConfusion
  · exact first_setThread h.first nofun
  · have hone := hidle c
    rw [hself] at hone
    contradiction
  · exact absurd hclear Bool.noConfusion

theorem flag_of_busy (h : Inv s) (hbusy : s.busy c ≠ 0) : s.waitFunccb = true := by
  by_contra hflag
  exact hbusy (h.clear (Bool.eq_false_iff.mpr hflag) c)

theorem others_idle (h : Inv s) (hbusy : s.busy c ≠ 0) : s.busy c = 1 ∧ s.busy c.other = 0 := by
  have hone := h.single c
  omega

/-- A step after which the same thread is busy, if one is, and the flag is set. -/
theorem inv_same_busy {s' : State} (h : Inv s) (hsame : ∀ d, s'.busy d = s.busy d) (hflag : s'.waitFunccb = true)
    (hfirst : (s'.thread .cpu1).pc ≠ .waiting)
    (hfailed : (∀ d, s.busy d = 0) → ∀ d, ¬ Retests (s'.thread d)) : Inv s' := by
  have hset : s'.waitFunccb ≠ false := fun hclear => Bool.false_ne_true (hclear.symm.trans hflag)
  refine ⟨fun d => ?_, fun hclear => absurd hclear hset, hfirst, fun _ hidle => ?_, fun hclear => absurd hclear hset⟩
  · rw [hsame, hsame]
    exact h.single d
  · exact hfailed fun d => (hsame d).symm.trans (hidle d)

theorem inv_accepted (h : Inv s) (hpc : (s.thread c).pc = .converting) :
    Inv ((s.setThread c ((s.thread c).afterConversion c)).setOutstanding c (s.outstanding c + 1)) := by
  have hconv : s.busy c = s.outstanding c + 1 := by rw [State.busy, if_pos hpc]
  have hbusy : s.busy c ≠ 0 := by omega
  have hflag := flag_of_busy h hbusy
  have hsame : ∀ d, State.busy
      ((s.setThread c ((s.thread c).afterConversion c)).setOutstanding c (s.outstanding c + 1)) d = s.busy d := by
    rw [c.forall_iff]
    constructor
    · rw [hconv, State.busy, setOutstanding_thread, setThread_self, if_neg (afterConversion_pc_ne _ c),
        setOutstanding_self]
    · rw [State.busy, State.busy, setOutstanding_thread, setThread_other, setOutstanding_other]
      rfl
  refine inv_same_busy h hsame hflag ?_ fun hidle => absurd (hidle c) hbusy
  refine first_setThread h.first fun hc => ?_
  rw [hc]
  exact (afterRound_pc_ne _).2

theorem inv_refused (h : Inv s) (hpc : (s.thread c).pc = .converting) (hleft : (s.thread c).left = 0)
    (hother : ¬ Retests (s.thread c.other)) : Inv (s.setThread c ((s.thread c).afterConversion c)) := by
  have hconv : s.busy c = s.outstanding c + 1 := by rw [State.busy, if_pos hpc]
  have hbusy : s.busy c ≠ 0 := by omega
  obtain ⟨hone, hidle⟩ := others_idle h hbusy
  have hflag := flag_of_busy h hbusy
  have hnone : ∀ d, (s.setThread c ((s.thread c).afterConversion c)).busy d = 0 := by
    rw [c.forall_iff]
    have hself : s.outstanding c = 0 := by omega
    exact ⟨(busy_setThread_self s c (afterConversion_pc_ne _ c)).trans hself,
      (busy_setThread_other s c _).trans hidle⟩
  have hround : (s.thread c).afterRound = { s.thread c with pc := .done } := by
    rw [Thread.afterRound, hleft]
    exact congrArg _ hleft.symm
  refine ⟨fun d => ?_, fun _ => hnone, ?_, fun _ _ => ?_, fun hclear => ?_⟩
  · rw [hnone, hnone]
    exact Nat.zero_le 1
  · refine first_setThread h.first fun hc => ?_
    subst hc
    rw [Thread.afterConversion, hround]
    exact nofun
  · rw [c.forall_iff, setThread_self, setThread_other]
    refine ⟨?_, hother⟩
    cases c with
    | cpu1 =>
      rw [Thread.afterConversion, hround]
      rintro (htest | ⟨hdone, -⟩)
      · exact nomatch htest
      · exact hdone rfl
    | cpu2 =>
      rintro (htest | ⟨-, hmore⟩)
      · exact nomatch htest
      · exact hmore hleft
  · exact absurd (hflag.symm.trans hclear) Bool.noConfusion

theorem inv_leave (h : Inv s) (hpc : (s.thread c).pc = .waiting) (hflag : s.waitFunccb = true) :
    Inv (s.setThread c (s.thread c).afterRound) := by
  have hsame : ∀ d, (s.setThread c (s.thread c).afterRound).busy d = s.busy d := by
    rw [c.forall_iff]
    refine ⟨(busy_setThread_self s c (afterRound_pc_ne _).1).trans ?_, busy_setThread_other s c _⟩
    rw [State.busy, hpc]
    rfl
  refine inv_same_busy h hsame hflag (first_setThread h.first fun hc => ?_) fun hidle => ?_
  · subst hc
    exact absurd hpc h.first
  · have hbefore := h.failed hflag hidle
    rw [c.forall_iff, setThread_self, setThread_other]
    refine ⟨?_, hbefore c.other⟩
    have hleft : (s.thread c).left = 0 := by
      by_contra hmore
      exact hbefore c (Or.inr ⟨by rw [hpc]; decide, hmore⟩)
    rw [Thread.afterRound, hleft]
    rintro (htest | ⟨hdone, -⟩)
    · exact nomatch htest
    · exact hdone rfl

theorem inv_callback (h : Inv s) (hout : s.outstanding c ≠ 0)
    (hwait : (s.thread .cpu2).pc = .waiting → (s.thread .cpu1).pc ≠ .done) :
    Inv { s.setOutstanding c (s.outstanding c - 1) with waitFunccb := false } := by
  have hle : s.outstanding c ≤ s.busy c := Nat.le_add_right _ _
  obtain ⟨hone, hidle⟩ := others_idle h (by omega : s.busy c ≠ 0)
  have hpc : (s.thread c).pc ≠ .converting := by
    intro hconv
    rw [State.busy, if_pos hconv] at hone
    omega
  have hnone : ∀ d, State.busy { s.setOutstanding c (s.outstanding c - 1) with waitFunccb := false } d = 0 := by
    rw [c.forall_iff]
    rw [State.busy, if_neg hpc] at hone
    constructor
    · rw [State.busy, setOutstanding_thread, if_neg hpc, setOutstanding_self]
      omega
    · rw [State.busy] at hidle ⊢
      rw [setOutstanding_thread, setOutstanding_other]
      exact hidle
  refine ⟨fun d => ?_, fun _ => hnone, h.first, fun hset => ?_, fun _ => hwait⟩
  · rw [hnone, hnone]
    exact Nat.zero_le 1
  · exact absurd hset Bool.noConfusion

end Steps

theorem inv_next {s : State} (h : Inv s) (a : Action) (hok : Orderly s a) : Inv (next s a) := by
  cases a with
  | run c accepted =>
    obtain ⟨hset, hfail⟩ := hok
    rw [next, runThread]
    dsimp only
    cases hpc : (s.thread c).pc with
    | testing =>
      dsimp only
      by_cases hflag : s.waitFunccb = true
      · rw [if_pos hflag]
        exact h
      · rw [if_neg hflag]
        exact inv_enter h (Bool.eq_false_iff.mpr hflag)
    | setting => exact inv_set h hpc (hset hpc)
    | converting =>
      cases accepted with
      | true => exact inv_accepted h hpc
      | false =>
        obtain ⟨hleft, hother⟩ := hfail hpc rfl
        exact inv_refused h hpc hleft hother
    | waiting =>
      dsimp only
      by_cases hflag : s.waitFunccb = true
      · rw [if_pos hflag]
        exact inv_leave h hpc hflag
      · rw [if_neg hflag]
        exact h
    | done => exact h
  | callback c =>
    rw [next]
    by_cases hout : s.outstanding c = 0
    · rw [if_pos hout]
      exact h
    · rw [if_neg hout]
      exact inv_callback h hout (hok hout)

theorem inv_start (iterations : Int) : Inv (start iterations) := by
  have hpc : (startThread iterations).pc ≠ .converting ∧ (startThread iterations).pc ≠ .waiting := by
    rw [startThread]
    split
    · exact ⟨nofun, nofun⟩
    · exact ⟨nofun, nofun⟩
  have hbusy : ∀ c, (start iterations).busy c = 0 := by
    intro c
    show 0 + (if (startThread iterations).pc = .converting then 1 else 0) = 0
    rw [if_neg hpc.1]
  refine ⟨fun c => ?_, fun _ => hbusy, hpc.2, fun hset => ?_, fun _ hwait => ?_⟩
  · rw [hbusy, hbusy]
    exact Nat.zero_le 1
  · exact absurd hset Bool.noConfusion
  · exact absurd hwait hpc.2

/-- Every orderly run of the two threads and the callbacks keeps the handshake. -/
theorem handshake_throughout (iterations : Int) {schedule : List Action}
    (hok : StepsMeet next Orderly (start iterations) schedule) :
    Throughout next Handshake (start iterations) schedule := by
  have hprop : ∀ s, Inv s → Handshake s := fun _ h => handshake_of_inv h
  have hkeep : ∀ s a, Inv s → Orderly s a → Inv (next s a) := fun _ a h ha => inv_next h a ha
  exact throughout_of_stepsMeet hprop hkeep (inv_start iterations) hok

instance (t : Thread) : Decidable (Retests t) := inferInstanceAs (Decidable (_ ∨ _))

instance (s : State) : ∀ a, Decidable (Orderly s a)
  | .run cpu accepted => inferInstanceAs (Decidable (_ ∧ ((s.thread cpu).pc = .converting → accepted = false →
      (s.thread cpu).left = 0 ∧ ¬ Retests (s.thread cpu.other))))
  | .callback cpu => inferInstanceAs (Decidable (s.outstanding cpu ≠ 0 → _))

def orderlySchedule : List Action :=
  [.run .cpu1 true, .run .cpu1 true, .run .cpu1 true, .callback .cpu1,
    .run .cpu2 true, .run .cpu2 true, .run .cpu2 true, .run .cpu2 true, .callback .cpu2]

theorem orderly_handshake : Throughout next Handshake (start 1) orderlySchedule :=
  handshake_throughout 1 (by decide)

/-- Both threads test the flag before either sets it. -/
def raceSchedule : List Action :=
  [.run .cpu1 true, .run .cpu2 true, .run .cpu1 true, .run .cpu2 true, .run .cpu1 true, .run .cpu2 true]

/-- The only conversion started so far fails in the first of two rounds. -/
def refusedSchedule : List Action :=
  [.run .cpu1 true, .run .cpu1 true, .run .cpu1 false]

/-- The callback of the second thread comes before it looks at the flag again. -/
def earlyCallbackSchedule : List Action :=
  [.run .cpu1 true, .run .cpu1 true, .run .cpu1 true, .callback .cpu1,
    .run .cpu2 true, .run .cpu2 true, .run .cpu2 true, .callback .cpu2]

theorem handshake_broken :
    ¬ Throughout next Handshake (start 1) raceSchedule ∧
      ¬ Throughout next Handshake (start 2) refusedSchedule ∧
      ¬ Throughout next Handshake (start 1) earlyCallbackSchedule := by
  refine ⟨fun h => ?_, fun h => ?_, fun h => ?_⟩
  · have hend := throughout_foldl h
    exact absurd hend.exclusive (by decide)
  · have hend := throughout_foldl h
    refine hend.live ⟨?_, ⟨.cpu1, by decide⟩, ?_⟩
    · intro c
      cases c <;> rfl
    · intro c hc
      cases c with
      | cpu1 => exact Or.inl ⟨rfl, rfl⟩
      | cpu2 => exact Or.inl ⟨rfl, rfl⟩
  · have hend := throughout_foldl h
    refine hend.live ⟨?_, ⟨.cpu2, by decide⟩, ?_⟩
    · intro c
      cases c <;> rfl
    · intro c hc
      cases c with
      | cpu1 => exact absurd rfl hc
      | cpu2 => exact Or.inr ⟨rfl, rfl⟩

end GpadcSmp

end DeviceDriverTest
