import Mathlib.Data.Fintype.Basic
import Mathlib.Logic.Function.Basic
import Mathlib.Order.Fin.Basic
import Mathlib.Tactic.Cases
import DeviceDriverTest.ScheduledRun

/-! The streaming loop of the camera tests, which hand the same memory to the
camera and to the display in turn. A requeue sets the index of the camera's
buffer and leaves the address of the frame captured last. -/

namespace DeviceDriverTest

namespace CameraBufferShare

open ScheduledRun

abbrev bufferCount : Nat := 4

def dssStreamStartFrame : Nat := 3

inductive CameraTest where
  | streamingFrame
  | h3aStream
  | snapshot
  | streamingZoom
  | processCam

def CameraTest.frameLimit : CameraTest → Option Nat
  | streamingFrame => some 1000
  | h3aStream => none
  | snapshot => none
  | streamingZoom => some 500
  | processCam => some 1000

structure VBuffers where
  start : Fin bufferCount → Nat
  distinct : Function.Injective start

inductive Driver where
  | camera
  | display
  deriving DecidableEq

structure V4l2Buffer where
  index : Fin bufferCount
  userptr : Nat

inductive Pc where
  | setUp (i : Nat)
  | loopHead
  | queueDisplay
  | dequeueDisplay
  | check
  | requeueCamera
  | left
  | done
  deriving DecidableEq

/-- The slots each driver owns, with the memory queued for them; what memory the
application holds; and the variables of the program. -/
structure State where
  queued : Driver → Fin bufferCount → Option Nat
  held : Nat → Bool
  cfilledbuffer : V4l2Buffer
  vfilledbuffer : V4l2Buffer
  i : Nat
  pc : Pc

inductive Event where
  | program
  | cancel
  | returns (driver : Driver) (k : Fin bufferCount)

def State.qbuf (s : State) (driver : Driver) (buffer : V4l2Buffer) : State :=
  { s with
    queued := Function.update s.queued driver
      (Function.update (s.queued driver) buffer.index (some buffer.userptr))
    held := Function.update s.held buffer.userptr false }

def State.dqbuf (s : State) (driver : Driver) (buffer : V4l2Buffer) : State :=
  { s with
    queued := Function.update s.queued driver (Function.update (s.queued driver) buffer.index none)
    held := Function.update s.held buffer.userptr true }

def State.streamoff (s : State) : State :=
  { s with
    queued := fun _ _ => none
    held := fun a => s.held a || decide (∃ k, s.queued .camera k = some a ∨ s.queued .display k = some a) }

/-- The two buffer variables start with whatever is on the stack. -/
def init (vbuffers : VBuffers) (cfilledbuffer vfilledbuffer : V4l2Buffer) : State where
  queued := fun _ _ => none
  held := fun a => decide (∃ k, vbuffers.start k = a)
  cfilledbuffer := cfilledbuffer
  vfilledbuffer := vfilledbuffer
  i := 0
  pc := .setUp 0

def programStep (test : CameraTest) (vbuffers : VBuffers) (s : State) : State :=
  match s.pc with
  | .setUp i =>
    if h : i < bufferCount then
      { s.qbuf .camera ⟨⟨i, h⟩, vbuffers.start ⟨i, h⟩⟩ with pc := .setUp (i + 1) }
    else { s with pc := .loopHead }
  | .loopHead => if test.frameLimit = some s.i then { s with pc := .left } else s
  | .queueDisplay =>
    let vfilledbuffer : V4l2Buffer := ⟨s.cfilledbuffer.index, vbuffers.start s.cfilledbuffer.index⟩
    { s.qbuf .display vfilledbuffer with
      vfilledbuffer := vfilledbuffer
      i := s.i + 1
      pc := if dssStreamStartFrame ≤ s.i + 1 then .dequeueDisplay else .check }
  | .check => { s with pc := if dssStreamStartFrame ≤ s.i then .requeueCamera else .loopHead }
  | .requeueCamera =>
    -- the address is still that of the frame captured last
    let cfilledbuffer : V4l2Buffer := ⟨s.vfilledbuffer.index, s.cfilledbuffer.userptr⟩
    { s.qbuf .camera cfilledbuffer with cfilledbuffer := cfilledbuffer, pc := .loopHead }
  | .dequeueDisplay | .left | .done => s

/-- The frame count is reached or a key was pressed; a loop that is left without
`STREAMOFF` may do it afterwards. -/
def cancelStep (s : State) : State :=
  match s.pc with
  | .loopHead => { s with pc := .left }
  | .check | .left => { s.streamoff with pc := .done }
  | _ => s

/-- A driver gives back a slot it owns, with the memory queued for it, while the
program waits for one. -/
def returnStep (test : CameraTest) (s : State) (driver : Driver) (k : Fin bufferCount) : State :=
  match s.queued driver k with
  | none => s
  | some userptr =>
    match s.pc, driver with
    | .loopHead, .camera =>
      if test.frameLimit = some s.i then s
      else { s.dqbuf .camera ⟨k, userptr⟩ with cfilledbuffer := ⟨k, userptr⟩, pc := .queueDisplay }
    | .dequeueDisplay, .display =>
      { s.dqbuf .display ⟨k, userptr⟩ with vfilledbuffer := ⟨k, userptr⟩, pc := .check }
    | _, _ => s

def next (test : CameraTest) (vbuffers : VBuffers) (s : State) : Event → State
  | .program => programStep test vbuffers s
  | .cancel => cancelStep s
  | .returns driver k => returnStep test s driver k

inductive Owner where
  | driver (driver : Driver)
  | application
  deriving DecidableEq

def Owns (s : State) : Owner → Nat → Prop
  | .driver driver, a => ∃ k, s.queued driver k = some a
  | .application, a => s.held a = true

/-- Every block has exactly one owner, camera slots hold their own block, and
the frame about to be shown is the one captured for its index. -/
structure Shared (vbuffers : VBuffers) (s : State) : Prop where
  owned : ∀ k, ∃! o, Owns s o (vbuffers.start k)
  paired : ∀ k a, s.queued .camera k = some a → a = vbuffers.start k
  shown : s.pc = .queueDisplay → s.cfilledbuffer.userptr = vbuffers.start s.cfilledbuffer.index

/-- A requeue happens only when the display gave back the slot that was queued
to it last. -/
def ReturnsJustShown (s : State) : Event → Prop
  | .program => s.pc = .requeueCamera → s.vfilledbuffer.index = s.cfilledbuffer.index
  | _ => True

/-- The state agrees with an assignment of one owner to each block. -/
structure Represents (vbuffers : VBuffers) (s : State) (owner : Fin bufferCount → Owner) : Prop where
  queued : ∀ driver k, s.queued driver k =
    if owner k = .driver driver then some (vbuffers.start k) else none
  held : ∀ k, s.held (vbuffers.start k) = decide (owner k = .application)

def Stands (vbuffers : VBuffers) (s : State) (owner : Fin bufferCount → Owner) : Prop :=
  match s.pc with
  | .setUp i => ∀ k : Fin bufferCount, i ≤ k → owner k = .application
  | .queueDisplay => s.cfilledbuffer.userptr = vbuffers.start s.cfilledbuffer.index ∧
      owner s.cfilledbuffer.index = .application
  | .dequeueDisplay => s.cfilledbuffer.userptr = vbuffers.start s.cfilledbuffer.index
  | .check => dssStreamStartFrame ≤ s.i →
      s.cfilledbuffer.userptr = vbuffers.start s.cfilledbuffer.index ∧
      owner s.vfilledbuffer.index = .application
  | .requeueCamera => s.cfilledbuffer.userptr = vbuffers.start s.cfilledbuffer.index ∧
      owner s.vfilledbuffer.index = .application
  | .loopHead | .left | .done => True

def Invariant (vbuffers : VBuffers) (s : State) : Prop :=
  ∃ owner, Represents vbuffers s owner ∧ Stands vbuffers s owner

section Transfers

variable {vbuffers : VBuffers} {s : State} {owner : Fin bufferCount → Owner}

theorem Represents.queued_some (h : Represents vbuffers s owner) {driver : Driver}
    {k : Fin bufferCount} {a : Nat} (hk : s.queued driver k = some a) :
    owner k = .driver driver ∧ a = vbuffers.start k := by
  rw [h.queued] at hk
  by_cases ho : owner k = .driver driver
  · rw [if_pos ho] at hk
    exact ⟨ho, (Option.some.inj hk).symm⟩
  · simp [ho] at hk

theorem Represents.owns_iff (h : Represents vbuffers s owner) (o : Owner) (k : Fin bufferCount) :
    Owns s o (vbuffers.start k) ↔ o = owner k := by
  cases o with
  | application =>
    have hheld := h.held k
    simp [Owns, hheld, eq_comm]
  | driver driver =>
    constructor
    · rintro ⟨j, hj⟩
      obtain ⟨ho, heq⟩ := h.queued_some hj
      have hjk : k = j := vbuffers.distinct heq
      exact hjk ▸ ho.symm
    · intro ho
      exact ⟨k, by rw [h.queued, if_pos ho.symm]⟩

/-- One buffer moves between the application and a driver. -/
theorem Represents.moved (h : Represents vbuffers s owner) {s' : State} {driver : Driver} {k : Fin bufferCount} {o : Owner}
    (hqueued : s'.queued = Function.update s.queued driver (Function.update (s.queued driver) k
      (if o = .driver driver then some (vbuffers.start k) else none)))
    (hheld : s'.held = Function.update s.held (vbuffers.start k) (decide (o = .application)))
    (hother : ∀ other, other ≠ driver → owner k ≠ .driver other ∧ o ≠ .driver other) :
    Represents vbuffers s' (Function.update owner k o) := by
  constructor
  case queued =>
    intro other j
    rw [hqueued]
    by_cases hd : other = driver
    · subst hd
      by_cases hj : j = k
      · subst hj
        simp
      · simp [hj, h.queued other j]
    · rw [Function.update_of_ne hd, h.queued other j]
      by_cases hj : j = k
      · subst hj
        obtain ⟨hbefore, hafter⟩ := hother other hd
        simp [hbefore, hafter]
      · simp [hj]
  case held =>
    intro j
    rw [hheld]
    by_cases hj : j = k
    · subst hj
      simp
    · have hne : vbuffers.start j ≠ vbuffers.start k := fun heq => hj (vbuffers.distinct heq)
      simp [hj, hne, h.held]

theorem Represents.qbuf (h : Represents vbuffers s owner) (driver : Driver) {k : Fin bufferCount}
    (hk : owner k = .application) :
    Represents vbuffers (s.qbuf driver ⟨k, vbuffers.start k⟩) (Function.update owner k (.driver driver)) := by
  apply h.moved
  · rw [if_pos rfl]
    rfl
  · rfl
  · intro other hd
    rw [hk]
    exact ⟨nofun, fun heq => hd (Owner.driver.inj heq).symm⟩

theorem Represents.dqbuf (h : Represents vbuffers s owner) {driver : Driver} {k : Fin bufferCount}
    (hk : owner k = .driver driver) :
    Represents vbuffers (s.dqbuf driver ⟨k, vbuffers.start k⟩) (Function.update owner k .application) := by
  apply h.moved
  · rfl
  · rfl
  · intro other hd
    rw [hk]
    exact ⟨fun heq => hd (Owner.driver.inj heq).symm, nofun⟩

theorem Represents.congr (h : Represents vbuffers s owner) {s' : State} (hqueued : s'.queued = s.queued)
    (hheld : s'.held = s.held) : Represents vbuffers s' owner := by
  constructor
  case queued => exact hqueued ▸ h.queued
  case held => exact hheld ▸ h.held

theorem Represents.streamoff (h : Represents vbuffers s owner) :
    Represents vbuffers s.streamoff fun _ => .application := by
  constructor
  case queued => simp [State.streamoff]
  case held =>
    intro k
    have hheld := h.held k
    cases ho : owner k with
    | application => simp [State.streamoff, hheld, ho]
    | driver driver =>
      have hqueued : s.queued driver k = some (vbuffers.start k) := by rw [h.queued, if_pos ho]
      have hsome : ∃ j, s.queued .camera j = some (vbuffers.start k) ∨
          s.queued .display j = some (vbuffers.start k) := by
        cases driver with
        | camera => exact ⟨k, .inl hqueued⟩
        | display => exact ⟨k, .inr hqueued⟩
      simp [State.streamoff, hsome]

theorem Represents.shared (h : Represents vbuffers s owner) (hstands : Stands vbuffers s owner) :
    Shared vbuffers s := by
  constructor
  case owned => exact fun k => ⟨owner k, (h.owns_iff _ k).mpr rfl, fun o ho => (h.owns_iff o k).mp ho⟩
  case paired => exact fun k a hk => (h.queued_some hk).2
  case shown =>
    intro hpc
    rw [Stands, hpc] at hstands
    exact hstands.1

end Transfers

section Steps

variable {test : CameraTest} {vbuffers : VBuffers} {s : State}

theorem invariant_init (cfilledbuffer vfilledbuffer : V4l2Buffer) :
    Invariant vbuffers (init vbuffers cfilledbuffer vfilledbuffer) := by
  refine ⟨fun _ => .application, ⟨by simp [init], fun k => ?_⟩, fun _ _ => rfl⟩
  simp [init]

theorem setUp_invariant {i : Nat} (hpc : s.pc = .setUp i) (h : Invariant vbuffers s) :
    Invariant vbuffers (programStep test vbuffers s) := by
  obtain ⟨owner, hr, hstands⟩ := h
  rw [Stands, hpc] at hstands
  by_cases hi : i < bufferCount
  · have happ : owner ⟨i, hi⟩ = .application := hstands ⟨i, hi⟩ le_rfl
    have hstep : programStep test vbuffers s =
        { s.qbuf .camera ⟨⟨i, hi⟩, vbuffers.start ⟨i, hi⟩⟩ with pc := .setUp (i + 1) } := by
      rw [programStep, hpc]
      exact dif_pos hi
    rw [hstep]
    refine ⟨_, (hr.qbuf .camera happ).congr rfl rfl, fun k hk => ?_⟩
    have hne : k ≠ ⟨i, hi⟩ := fun heq => by
      rw [heq] at hk
      exact absurd hk (Nat.not_succ_le_self i)
    rw [Function.update_of_ne hne]
    exact hstands k (Nat.le_of_succ_le hk)
  · have hstep : programStep test vbuffers s = { s with pc := .loopHead } := by
      rw [programStep, hpc]
      exact dif_neg hi
    rw [hstep]
    exact ⟨owner, hr.congr rfl rfl, trivial⟩

theorem queueDisplay_invariant (hpc : s.pc = .queueDisplay) (h : Invariant vbuffers s) :
    Invariant vbuffers (programStep test vbuffers s) := by
  obtain ⟨owner, hr, hstands⟩ := h
  rw [Stands, hpc] at hstands
  obtain ⟨huserptr, happ⟩ := hstands
  rw [programStep, hpc]
  refine ⟨_, (hr.qbuf .display happ).congr rfl rfl, ?_⟩
  by_cases hi : dssStreamStartFrame ≤ s.i + 1
  · simp only [Stands, hi, if_true]
    exact huserptr
  · simp [Stands, hi]

theorem check_invariant (hpc : s.pc = .check) (h : Invariant vbuffers s) :
    Invariant vbuffers (programStep test vbuffers s) := by
  obtain ⟨owner, hr, hstands⟩ := h
  rw [Stands, hpc] at hstands
  rw [programStep, hpc]
  refine ⟨owner, hr.congr rfl rfl, ?_⟩
  by_cases hi : dssStreamStartFrame ≤ s.i
  · simp only [Stands, hi, if_true]
    exact hstands hi
  · simp only [Stands, hi, if_false]

theorem requeueCamera_invariant (hpc : s.pc = .requeueCamera) (h : Invariant vbuffers s)
    (hlast : s.vfilledbuffer.index = s.cfilledbuffer.index) :
    Invariant vbuffers (programStep test vbuffers s) := by
  obtain ⟨owner, hr, hstands⟩ := h
  rw [Stands, hpc] at hstands
  obtain ⟨huserptr, happ⟩ := hstands
  have haddress : s.cfilledbuffer.userptr = vbuffers.start s.vfilledbuffer.index := by
    rw [huserptr, hlast]
  have hqueued := hr.qbuf .camera happ
  rw [← haddress] at hqueued
  rw [programStep, hpc]
  exact ⟨_, hqueued.congr rfl rfl, trivial⟩

theorem Invariant.program (h : Invariant vbuffers s) (hok : ReturnsJustShown s .program) :
    Invariant vbuffers (programStep test vbuffers s) := by
  cases hpc : s.pc with
  | setUp i => exact setUp_invariant hpc h
  | queueDisplay => exact queueDisplay_invariant hpc h
  | check => exact check_invariant hpc h
  | requeueCamera => exact requeueCamera_invariant hpc h (hok hpc)
  | loopHead =>
    obtain ⟨owner, hr, hstands⟩ := h
    rw [programStep, hpc]
    by_cases hlimit : test.frameLimit = some s.i
    · rw [if_pos hlimit]
      exact ⟨owner, hr.congr rfl rfl, trivial⟩
    · rw [if_neg hlimit]
      exact ⟨owner, hr, hstands⟩
  | dequeueDisplay | left | done =>
    rw [programStep, hpc]
    exact h

theorem Invariant.cancel (h : Invariant vbuffers s) : Invariant vbuffers (cancelStep s) := by
  obtain ⟨owner, hr, hstands⟩ := h
  cases hpc : s.pc with
  | loopHead =>
    rw [cancelStep, hpc]
    exact ⟨owner, hr.congr rfl rfl, trivial⟩
  | check | left =>
    rw [cancelStep, hpc]
    exact ⟨_, hr.streamoff.congr rfl rfl, trivial⟩
  | setUp _ | queueDisplay | dequeueDisplay | requeueCamera | done =>
    rw [cancelStep, hpc]
    exact ⟨owner, hr, hstands⟩

theorem returnStep_cases (test : CameraTest) (s : State) (driver : Driver) (k : Fin bufferCount) :
    returnStep test s driver k = s ∨ ∃ userptr, s.queued driver k = some userptr ∧
      (driver = .camera ∧ returnStep test s driver k =
          { s.dqbuf .camera ⟨k, userptr⟩ with cfilledbuffer := ⟨k, userptr⟩, pc := .queueDisplay } ∨
        driver = .display ∧ s.pc = .dequeueDisplay ∧ returnStep test s driver k =
          { s.dqbuf .display ⟨k, userptr⟩ with vfilledbuffer := ⟨k, userptr⟩, pc := .check }) := by
  cases hk : s.queued driver k with
  | none => exact .inl (by simp [returnStep, hk])
  | some userptr =>
    cases driver with
    | camera =>
      by_cases hpc : s.pc = .loopHead ∧ test.frameLimit ≠ some s.i
      · exact .inr ⟨userptr, rfl, .inl ⟨rfl, by simp [returnStep, hk, hpc.1, hpc.2]⟩⟩
      · left
        rw [not_and, not_not] at hpc
        cases hp : s.pc with
        | loopHead => simp [returnStep, hk, hp, hpc hp]
        | _ => simp [returnStep, hk, hp]
    | display =>
      cases hp : s.pc with
      | dequeueDisplay => exact .inr ⟨userptr, rfl, .inr ⟨rfl, rfl, by simp [returnStep, hk, hp]⟩⟩
      | _ => exact .inl (by simp [returnStep, hk, hp])

theorem Invariant.returns (h : Invariant vbuffers s) (driver : Driver) (k : Fin bufferCount) :
    Invariant vbuffers (returnStep test s driver k) := by
  rcases returnStep_cases test s driver k with heq | ⟨userptr, hk, hcase⟩
  · rw [heq]
    exact h
  · obtain ⟨owner, hr, hstands⟩ := h
    obtain ⟨hown, rfl⟩ := hr.queued_some hk
    have htaken := hr.dqbuf hown
    rcases hcase with ⟨rfl, heq⟩ | ⟨rfl, hpc, heq⟩ <;> rw [heq]
    · exact ⟨_, htaken.congr rfl rfl, rfl, Function.update_self k _ owner⟩
    · rw [Stands, hpc] at hstands
      exact ⟨_, htaken.congr rfl rfl, fun _ => ⟨hstands, Function.update_self k _ owner⟩⟩

theorem Invariant.next (h : Invariant vbuffers s) (e : Event) (hok : ReturnsJustShown s e) :
    Invariant vbuffers (next test vbuffers s e) := by
  cases e with
  | program => exact h.program hok
  | cancel => exact h.cancel
  | returns driver k => exact h.returns driver k

/-- A requeue of another slot gives the camera the block that was just shown. -/
theorem Invariant.not_shared (h : Invariant vbuffers s) (e : Event) (hnot : ¬ ReturnsJustShown s e) :
    ¬ Shared vbuffers (CameraBufferShare.next test vbuffers s e) := by
  cases e with
  | cancel => exact absurd trivial hnot
  | returns driver k => exact absurd trivial hnot
  | program =>
    have hpc : s.pc = .requeueCamera ∧ s.vfilledbuffer.index ≠ s.cfilledbuffer.index :=
      Classical.not_imp.mp hnot
    obtain ⟨hpc, hother⟩ := hpc
    obtain ⟨owner, hr, hstands⟩ := h
    rw [Stands, hpc] at hstands
    intro hshared
    have hrequeued : (CameraBufferShare.next test vbuffers s .program).queued .camera s.vfilledbuffer.index =
        some s.cfilledbuffer.userptr := by
      simp [CameraBufferShare.next, programStep, hpc, State.qbuf]
    have haddress := hshared.paired _ _ hrequeued
    rw [hstands.1] at haddress
    exact hother (vbuffers.distinct haddress).symm

/-- The memory is shared as intended throughout exactly the runs in which the
display, before each requeue, gives back the slot that was queued to it last. -/
theorem shared_iff (test : CameraTest) (vbuffers : VBuffers) (cfilledbuffer vfilledbuffer : V4l2Buffer)
    (events : List Event) :
    Throughout (next test vbuffers) (Shared vbuffers) (init vbuffers cfilledbuffer vfilledbuffer) events ↔
      StepsMeet (next test vbuffers) ReturnsJustShown (init vbuffers cfilledbuffer vfilledbuffer) events := by
  have hprop : ∀ s, Invariant vbuffers s → Shared vbuffers s := by
    intro s h
    obtain ⟨owner, hr, hstands⟩ := h
    exact hr.shared hstands
  exact throughout_iff_stepsMeet hprop (fun _ e h => h.next e) (fun _ e h => h.not_shared e)
    (invariant_init cfilledbuffer vfilledbuffer) events

end Steps

def pages : VBuffers where
  start := fun k => 4096 * (k + 1)
  distinct := by
    intro j k h
    have hval : 4096 * (j.val + 1) = 4096 * (k.val + 1) := h
    omega

/-- Three frames, shown in the order in which they were captured. The display
gives back the first of them and its slot is requeued. -/
def fifoEvents (first second third : Fin bufferCount) : List Event :=
  List.replicate 5 .program ++
    [.returns .camera first, .program, .program, .returns .camera second, .program, .program,
      .returns .camera third, .program, .returns .display first, .program, .program]

def fifoEnd (first second third : Fin bufferCount) (buffer : V4l2Buffer) : State :=
  (fifoEvents first second third).foldl (next .streamingFrame pages) (init pages buffer buffer)

theorem fifo_shares_block :
    (fifoEnd 0 1 2 ⟨3, 0⟩).queued .camera 0 = some (pages.start 2) ∧ (fifoEnd 0 1 2 ⟨3, 0⟩).queued .display 2 = some (pages.start 2) ∧
      ¬ Throughout (next .streamingFrame pages) (Shared pages) (init pages ⟨3, 0⟩ ⟨3, 0⟩)
        (fifoEvents 0 1 2) := by
  have hcamera : (fifoEnd 0 1 2 ⟨3, 0⟩).queued .camera 0 = some (pages.start 2) := by decide
  refine ⟨hcamera, by decide, fun h => ?_⟩
  have hpaired := (throughout_foldl h).paired 0 _ hcamera
  exact absurd hpaired (by decide)

end CameraBufferShare

end DeviceDriverTest
