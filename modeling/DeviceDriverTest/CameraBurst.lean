import Mathlib.Data.List.Range
import Mathlib.Logic.Function.Basic
import Mathlib.Tactic.Common
import DeviceDriverTest.ScheduledRun

/-! The burst capture. The program takes the frames off the camera one by one,
gives every buffer but the last back to it, and saves the buffers at the end. -/

namespace DeviceDriverTest

namespace CameraBurst

open ScheduledRun

inductive Pc where
  | dequeue
  | requeue (k : Nat)
  | save (k : Nat)
  | done
  deriving DecidableEq

/-- The buffers the camera is still to fill and those it has filled, both in
order; the frame in each buffer; and the variables of the program. -/
structure State where
  queued : List Nat
  filled : List Nat
  streaming : Bool
  frame : Nat → Option Nat
  captured : Nat
  i : Nat
  file : List (Option Nat)
  pc : Pc

inductive Event where
  | program
  | capture
  deriving DecidableEq

def frameCount (requested granted : Nat) : Nat := if granted ≠ requested then granted else requested

def init (granted : Nat) : State where
  queued := List.range granted
  filled := []
  streaming := true
  frame := fun _ => none
  captured := 0
  i := 0
  file := []
  pc := .dequeue

def programStep (count : Nat) (s : State) : State :=
  match s.pc with
  | .dequeue =>
    if s.i < 1000 then
      match s.filled with
      | [] => s
      | k :: rest =>
        if s.i + 1 = count then
          { s with queued := [], filled := [], streaming := false, i := s.i + 1, pc := .save 0 }
        else { s with filled := rest, i := s.i + 1, pc := .requeue k }
    else { s with pc := .save 0 }
  | .requeue k => { s with queued := s.queued ++ [k], pc := .dequeue }
  | .save k =>
    if k < count then { s with file := s.file ++ [s.frame k], pc := .save (k + 1) } else { s with pc := .done }
  | .done => s

def captureStep (s : State) : State :=
  if s.streaming then
    match s.queued with
    | [] => s
    | k :: rest =>
      { s with
        queued := rest
        filled := s.filled ++ [k]
        frame := Function.update s.frame k (some s.captured)
        captured := s.captured + 1 }
  else s

def next (requested granted : Nat) (s : State) : Event → State
  | .program => programStep (frameCount requested granted) s
  | .capture => captureStep s

/-- The file holds the first frames in order, and all of them in the end. -/
def FirstFrames (count : Nat) (s : State) : Prop :=
  s.file = (List.range s.file.length).map some ∧ (s.pc = .done → s.file.length = count)

/-- A buffer is saved after the camera has filled it and before it fills it again. -/
def SavesInTime (count : Nat) (s : State) (e : Event) : Prop :=
  ∀ k < count, e = .program → s.pc = .save k → k < s.captured ∧ s.captured ≤ k + count

def requeued (s : State) : Nat :=
  match s.pc with
  | .requeue _ => s.i - 1
  | _ => s.i

/-- While the camera streams, buffers go round in the order of their numbers. -/
structure Streaming (granted : Nat) (s : State) : Prop where
  taken : s.i ≤ s.captured
  room : s.captured ≤ granted + requeued s
  filled : s.filled = (List.range' s.i (s.captured - s.i)).map (· % granted)
  queued : s.queued = (List.range' s.captured (granted + requeued s - s.captured)).map (· % granted)

structure Invariant (granted : Nat) (s : State) : Prop where
  frame : ∀ k f, s.frame k = some f ↔ f < s.captured ∧ f % granted = k ∧ s.captured ≤ f + granted
  streaming : s.streaming = true → Streaming granted s
  stopped : s.streaming = false → s.pc ≠ .dequeue ∧ ∀ k, s.pc ≠ .requeue k
  requeue : ∀ k, s.pc = .requeue k → 1 ≤ s.i ∧ k = (s.i - 1) % granted
  saved : match s.pc with
    | .save k => s.file.length = k ∧ k ≤ granted
    | .done => s.file.length = granted
    | _ => s.file = []
  file : s.file = (List.range s.file.length).map some

theorem frameCount_eq (requested granted : Nat) : frameCount requested granted = granted := by
  rw [frameCount]
  split
  · rfl
  · next h => exact (not_not.mp h).symm

theorem invariant_init (granted : Nat) : Invariant granted (init granted) := by
  have hring : List.range granted = (List.range' 0 granted).map (· % granted) := by
    rw [← List.range_eq_range']
    refine (List.map_id _).symm.trans (List.map_congr_left fun k hk => ?_)
    exact (Nat.mod_eq_of_lt (List.mem_range.mp hk)).symm
  refine ⟨fun k f => by simp [init], fun _ => ⟨le_rfl, Nat.zero_le _, rfl, hring⟩, ?_, ?_, rfl, rfl⟩
  · intro h
    contradiction
  · intro k h
    contradiction

theorem requeued_le (s : State) : requeued s ≤ s.i := by
  rw [requeued]
  split
  · omega
  · exact le_rfl

section Capture

variable {granted : Nat} {s : State}

/-- The buffer filled next, and those still to fill after it. -/
theorem Streaming.queued_cons (h : Streaming granted s) {k : Nat} {rest : List Nat} (hq : s.queued = k :: rest) :
    s.captured + 1 ≤ granted + requeued s ∧ k = s.captured % granted ∧
      rest = (List.range' (s.captured + 1) (granted + requeued s - (s.captured + 1))).map (· % granted) := by
  have hring := h.queued
  have hroom := h.room
  rw [hq] at hring
  by_cases hlt : s.captured + 1 ≤ granted + requeued s
  · have hlen : granted + requeued s - s.captured = granted + requeued s - (s.captured + 1) + 1 := by omega
    rw [hlen, List.range'_succ, List.map_cons] at hring
    obtain ⟨hk, hrest⟩ := List.cons.inj hring
    exact ⟨hlt, hk, hrest⟩
  · have hlen : granted + requeued s - s.captured = 0 := by omega
    rw [hlen] at hring
    contradiction

/-- A buffer holds the last frame whose number is its own modulo their count. -/
theorem frame_update {frame : Nat → Option Nat} {captured : Nat} (hg : 1 ≤ granted)
    (h : ∀ k f, frame k = some f ↔ f < captured ∧ f % granted = k ∧ captured ≤ f + granted) (k f : Nat) :
    Function.update frame (captured % granted) (some captured) k = some f ↔
      f < captured + 1 ∧ f % granted = k ∧ captured + 1 ≤ f + granted := by
  by_cases hk : k = captured % granted
  · rw [hk, Function.update_self, Option.some.injEq]
    constructor
    · rintro rfl
      exact ⟨by omega, rfl, by omega⟩
    · rintro ⟨hlt, hmod, hlast⟩
      have hzero := Nat.sub_mod_eq_zero_of_mod_eq hmod.symm
      rw [Nat.mod_eq_of_lt (by omega)] at hzero
      omega
  · rw [Function.update_of_ne hk, h k f]
    constructor
    · rintro ⟨hlt, hmod, hlast⟩
      have hne : captured ≠ f + granted := by
        intro heq
        rw [heq, Nat.add_mod_right] at hk
        exact hk hmod.symm
      exact ⟨by omega, hmod, by omega⟩
    · rintro ⟨hlt, hmod, hlast⟩
      have hne : f ≠ captured := by
        rintro rfl
        exact hk hmod.symm
      exact ⟨by omega, hmod, by omega⟩

theorem Invariant.capture (h : Invariant granted s) : Invariant granted (captureStep s) := by
  rw [captureStep]
  cases hstream : s.streaming with
  | false => exact h
  | true =>
    have hs := h.streaming hstream
    rcases hq : s.queued with _ | ⟨k, rest⟩
    · exact h
    · obtain ⟨hroom, hk, hrest⟩ := hs.queued_cons hq
      have htaken := hs.taken
      have hle := requeued_le s
      refine ⟨?_, fun _ => ⟨Nat.le_succ_of_le htaken, hroom, ?_, hrest⟩, ?_, h.requeue, h.saved, h.file⟩
      · rw [hk]
        exact frame_update (by omega) h.frame
      · have hlen : s.captured + 1 - s.i = s.captured - s.i + 1 := by omega
        have hlast : s.i + (s.captured - s.i) = s.captured := by omega
        show s.filled ++ [k] = (List.range' s.i (s.captured + 1 - s.i)).map (· % granted)
        rw [hlen, List.range'_1_concat, List.map_append, List.map_singleton, hlast, hs.filled, hk]
      · intro hstop
        change true = false at hstop
        contradiction

end Capture

section Program

variable {granted : Nat} {s : State}

theorem Streaming.filled_cons (h : Streaming granted s) {k : Nat} {rest : List Nat} (hf : s.filled = k :: rest) :
    s.i + 1 ≤ s.captured ∧ k = s.i % granted ∧
      rest = (List.range' (s.i + 1) (s.captured - (s.i + 1))).map (· % granted) := by
  have hring := h.filled
  rw [hf] at hring
  by_cases hlt : s.i + 1 ≤ s.captured
  · have hlen : s.captured - s.i = s.captured - (s.i + 1) + 1 := by omega
    rw [hlen, List.range'_succ, List.map_cons] at hring
    obtain ⟨hk, hrest⟩ := List.cons.inj hring
    exact ⟨hlt, hk, hrest⟩
  · have hlen : s.captured - s.i = 0 := by omega
    rw [hlen] at hring
    contradiction

/-- Saving takes place while the buffers stay where they are. -/
theorem Streaming.moveOn (h : Streaming granted s) (hgiven : requeued s = s.i) (file : List (Option Nat)) {pc : Pc}
    (hpc : ∀ k, pc ≠ .requeue k) : Streaming granted { s with file := file, pc := pc } := by
  have hstays : requeued { s with file := file, pc := pc } = s.i := by
    cases pc with
    | requeue k => exact absurd rfl (hpc k)
    | _ => rfl
  have hroom := h.room
  have hqueued := h.queued
  rw [hgiven] at hroom hqueued
  exact ⟨h.taken, by rwa [hstays], h.filled, by rwa [hstays]⟩

/-- Until the first buffer is saved the camera streams and the file is empty. -/
theorem Invariant.capturing (h : Invariant granted s) (hpc : s.pc = .dequeue ∨ ∃ k, s.pc = .requeue k) :
    s.streaming = true ∧ s.file = [] := by
  constructor
  · by_contra hstop
    have hleft := h.stopped (by simpa using hstop)
    rcases hpc with hpc | ⟨k, hpc⟩
    · exact hleft.1 hpc
    · exact hleft.2 k hpc
  · have hsaved := h.saved
    rcases hpc with hpc | ⟨k, hpc⟩
    · rwa [hpc] at hsaved
    · rwa [hpc] at hsaved

theorem Invariant.saving (h : Invariant granted s) {k : Nat} (hpc : s.pc = .save k) :
    s.file.length = k ∧ k ≤ granted := by
  have hsaved := h.saved
  rwa [hpc] at hsaved

theorem Invariant.dequeue (h : Invariant granted s) (hpc : s.pc = .dequeue) :
    Invariant granted (programStep granted s) := by
  obtain ⟨hstream, hfile⟩ := h.capturing (.inl hpc)
  have hlen : s.file.length = 0 := by rw [hfile, List.length_nil]
  have hs := h.streaming hstream
  have hgiven : requeued s = s.i := by rw [requeued, hpc]
  simp only [programStep, hpc]
  by_cases hi : s.i < 1000
  · rw [if_pos hi]
    rcases hf : s.filled with _ | ⟨k, rest⟩
    · exact h
    · obtain ⟨htaken, hk, hrest⟩ := hs.filled_cons hf
      by_cases hcount : s.i + 1 = granted
      · simp only [if_pos hcount]
        refine ⟨h.frame, ?_, fun _ => ⟨Pc.noConfusion, fun _ => Pc.noConfusion⟩, fun _ => Pc.noConfusion,
          ⟨hlen, Nat.zero_le _⟩, h.file⟩
        intro hstop
        contradiction
      · simp only [if_neg hcount]
        refine ⟨h.frame, fun _ => ⟨htaken, ?_, hrest, ?_⟩, ?_, ?_, hfile, h.file⟩
        · have hroom := hs.room
          rwa [hgiven] at hroom
        · have hqueued := hs.queued
          rwa [hgiven] at hqueued
        · intro hstop
          exact absurd (hstream.symm.trans hstop) (by decide)
        · rintro k' hk'
          obtain rfl : k = k' := Pc.requeue.inj hk'
          exact ⟨by simp, by simpa using hk⟩
  · rw [if_neg hi]
    exact ⟨h.frame, fun _ => hs.moveOn hgiven s.file fun _ => Pc.noConfusion,
      fun _ => ⟨Pc.noConfusion, fun _ => Pc.noConfusion⟩, fun _ => Pc.noConfusion, ⟨hlen, Nat.zero_le _⟩, h.file⟩

theorem Invariant.giveBack (h : Invariant granted s) {k : Nat} (hpc : s.pc = .requeue k) :
    Invariant granted { s with queued := s.queued ++ [k], pc := .dequeue } := by
  obtain ⟨hstream, hfile⟩ := h.capturing (.inr ⟨k, hpc⟩)
  have hs := h.streaming hstream
  have hgiven : requeued s = s.i - 1 := by rw [requeued, hpc]
  obtain ⟨hpos, hk⟩ := h.requeue k hpc
  have hroom := hs.room
  rw [hgiven] at hroom
  refine ⟨h.frame, fun _ => ⟨hs.taken, ?_, hs.filled, ?_⟩, ?_, fun _ => Pc.noConfusion, hfile, h.file⟩
  · show s.captured ≤ granted + s.i
    omega
  · show s.queued ++ [k] = (List.range' s.captured (granted + s.i - s.captured)).map (· % granted)
    have hlen : granted + s.i - s.captured = granted + (s.i - 1) - s.captured + 1 := by omega
    have hlast : s.captured + (granted + (s.i - 1) - s.captured) = granted + (s.i - 1) := by omega
    rw [hlen, List.range'_1_concat, List.map_append, List.map_singleton, hlast, Nat.add_mod_left, hs.queued, hgiven,
      hk]
  · intro hstop
    exact absurd (hstream.symm.trans hstop) (by decide)

theorem file_save {file : List (Option Nat)} {k : Nat} (hlen : file.length = k)
    (hfile : file = (List.range file.length).map some) :
    file ++ [some k] = (List.range (file ++ [some k]).length).map some := by
  rw [List.length_append, List.length_singleton, List.range_succ, List.map_append, ← hfile, hlen]
  rfl

theorem Invariant.save (h : Invariant granted s) {k : Nat} (hpc : s.pc = .save k)
    (hok : SavesInTime granted s .program) : Invariant granted (programStep granted s) := by
  obtain ⟨hlen, hle⟩ := h.saving hpc
  have hgiven : requeued s = s.i := by rw [requeued, hpc]
  simp only [programStep, hpc]
  by_cases hk : k < granted
  · have hframe : s.frame k = some k := by
      obtain ⟨hfilled, hlast⟩ := hok k hk rfl hpc
      exact (h.frame k k).mpr ⟨hfilled, Nat.mod_eq_of_lt hk, hlast⟩
    rw [if_pos hk, hframe]
    refine ⟨h.frame, fun hstream => (h.streaming hstream).moveOn hgiven _ fun _ => Pc.noConfusion,
      fun _ => ⟨Pc.noConfusion, fun _ => Pc.noConfusion⟩, fun _ => Pc.noConfusion, ⟨?_, hk⟩, file_save hlen h.file⟩
    show (s.file ++ [some k]).length = k + 1
    rw [List.length_append, List.length_singleton, hlen]
  · rw [if_neg hk]
    refine ⟨h.frame, fun hstream => (h.streaming hstream).moveOn hgiven s.file fun _ => Pc.noConfusion,
      fun _ => ⟨Pc.noConfusion, fun _ => Pc.noConfusion⟩, fun _ => Pc.noConfusion, ?_, h.file⟩
    show s.file.length = granted
    omega

end Program

section Runs

variable {requested granted : Nat} {s : State} {e : Event}

theorem Invariant.next (h : Invariant granted s) (hok : SavesInTime granted s e) :
    Invariant granted (next requested granted s e) := by
  cases e with
  | capture => exact h.capture
  | program =>
    rw [CameraBurst.next, frameCount_eq]
    cases hpc : s.pc with
    | dequeue => exact h.dequeue hpc
    | requeue k =>
      simp only [programStep, hpc]
      exact h.giveBack hpc
    | save k => exact h.save hpc hok
    | done =>
      simp only [programStep, hpc]
      exact h

theorem Invariant.firstFrames (h : Invariant granted s) : FirstFrames granted s := by
  refine ⟨h.file, fun hdone => ?_⟩
  have hsaved := h.saved
  rwa [hdone] at hsaved

theorem Invariant.not_firstFrames (h : Invariant granted s) (hnot : ¬ SavesInTime granted s e) :
    ¬ FirstFrames granted (CameraBurst.next requested granted s e) := by
  simp only [SavesInTime, not_forall] at hnot
  obtain ⟨k, hk, rfl, hpc, hlate⟩ := hnot
  obtain ⟨hlen, _⟩ := h.saving hpc
  rintro ⟨hfile, _⟩
  rw [CameraBurst.next, frameCount_eq] at hfile
  simp only [programStep, hpc, if_pos hk, List.length_append, List.length_singleton, List.range_succ,
    List.map_append, List.map_singleton, hlen] at hfile
  have hlast := (List.append_inj' hfile rfl).2
  have hframe := (h.frame k k).mp (List.cons.inj hlast).1
  exact hlate ⟨hframe.1, hframe.2.2⟩

end Runs

/-- The file holds the first frames in order throughout a run exactly when every
buffer of the run is saved in time. -/
theorem firstFrames_iff (requested granted : Nat) (run : List Event) :
    Throughout (next requested granted) (FirstFrames (frameCount requested granted)) (init granted) run ↔
      StepsMeet (next requested granted) (SavesInTime (frameCount requested granted)) (init granted) run := by
  rw [frameCount_eq]
  exact throughout_iff_stepsMeet (fun _ h => h.firstFrames) (fun _ _ h hok => h.next hok)
    (fun _ _ h hnot => h.not_firstFrames hnot) (invariant_init granted) run

/-- Two buffers: the camera has filled the first one again before the second is
taken. -/
def thirdFrame : List Event :=
  [.capture, .program, .program, .capture, .capture, .program, .program, .program, .program]

theorem third_frame_saved_first :
    ¬ Throughout (next 2 2) (FirstFrames (frameCount 2 2)) (init 2) thirdFrame ∧
      (thirdFrame.foldl (next 2 2) (init 2)).file = [some 2, some 1] := by
  refine ⟨fun hall => ?_, rfl⟩
  have hfile : [some 2, some 1] = (List.range 2).map some := (throughout_foldl hall).1
  revert hfile
  decide

end CameraBurst

end DeviceDriverTest
