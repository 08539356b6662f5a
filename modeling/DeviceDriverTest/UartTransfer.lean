import Mathlib.Data.List.TakeWhile
import DeviceDriverTest.PaddedCopy

/-! The UART transfer program: the two port functions, the send loop and the
receive loop. The receiver knows the break by a read of a single zero byte. -/

namespace DeviceDriverTest

namespace UartTransfer

open PaddedCopy

def bufsize : Nat := 4095

def SUCCESS : Nat := 1

/-- The bytes `write` takes: `none` stands for an error, `some n` for room for `n`. -/
def taken (answer : Option Nat) (data : List UInt8) : List UInt8 := data.take (answer.getD 0)

def writeport (answer : Option Nat) : Nat :=
  match answer with
  | none => 0
  -- a short count is as good as a whole one
  | some _ => SUCCESS

def readport (read : Option (List UInt8)) (result : List UInt8) : Nat × List UInt8 :=
  match read with
  | none => (0, result)
  | some bytes =>
    let result := bytes ++ result.drop bytes.length
    if bytes.length = 1 ∧ result.head? = some 0x00 then (0, result) else (bytes.length, result)

structure Sent where
  line : List UInt8
  break_sent : Bool

def sendLoop (port : Nat → Option Nat) (k : Nat) (file line : List UInt8) : Sent :=
  if h : file = [] then ⟨line, true⟩
  else
    let input_buf := file.take bufsize
    let line := line ++ taken (port k) input_buf
    if writeport (port k) = 0 then ⟨line, false⟩
    else sendLoop port (k + 1) (file.drop bufsize) line
termination_by file.length
decreasing_by
  have hpos : 0 < file.length := List.length_pos_of_ne_nil h
  have hbuf : 0 < bufsize := by decide
  rw [List.length_drop]
  omega

def send (port : Nat → Option Nat) (file : List UInt8) : Sent := sendLoop port 0 file []

/-- One return of `select`: the port is readable and `read` gives these bytes
or an error, or the time is up. -/
inductive Event
  | ready (read : Option (List UInt8))
  | timeout
deriving DecidableEq

def Event.bytes : Event → List UInt8
  | .ready (some bytes) => bytes
  | .ready none => []
  | .timeout => []

def delivered (events : List Event) : List UInt8 := events.flatMap Event.bytes

def Event.Arrives : Event → Prop
  | .ready (some bytes) => 0 < bytes.length ∧ bytes.length ≤ bufsize
  | .ready none => False
  | .timeout => True

structure OutFile where
  contents : List UInt8
  offset : Nat

def OutFile.write (f : OutFile) (data : List UInt8) : OutFile where
  contents := f.contents.take f.offset ++ data ++ f.contents.drop (f.offset + data.length)
  offset := f.offset + data.length

structure Receiver where
  rd : Nat
  read_flag : Bool
  output_buf : List UInt8
  writes : Nat
  file : OutFile

/-- The file is opened without `O_TRUNC`. -/
def Receiver.opened (old stack : List UInt8) : Receiver where
  rd := 0
  read_flag := false
  output_buf := stack
  writes := 0
  file := ⟨old, 0⟩

def Receiver.poll (st : Receiver) : Event → Receiver
  | .ready read =>
    { st with
      read_flag := true
      rd := (readport read st.output_buf).1
      output_buf := (readport read st.output_buf).2 }
  -- `rd` is still that of the last read
  | .timeout => st

def Receiver.store (disk : Nat → Option Nat) (st : Receiver) : Receiver :=
  { st with
    writes := st.writes + 1
    file := st.file.write (taken (disk st.writes) (st.output_buf.take st.rd))
    output_buf := List.replicate bufsize 0 }

inductive Received
  | deleted
  | ended (contents : List UInt8) (left : List Event)
  | waiting

def receiveLoop (disk : Nat → Option Nat) : Receiver → List Event → Received
  | _, [] => .waiting
  | st, event :: events =>
    let st := st.poll event
    if st.read_flag = false then .deleted
    else if st.rd = 0 then .ended st.file.contents events
    else receiveLoop disk (st.store disk) events

/-! Sending. -/

theorem writeport_eq_zero (answer : Option Nat) : writeport answer = 0 ↔ answer = none := by
  cases answer with
  | none => simp [writeport]
  | some n => simp [writeport, SUCCESS]

def RoomFor (port : Nat → Option Nat) (k length : Nat) : Prop :=
  ∀ j, j * bufsize < length → min bufsize (length - j * bufsize) ≤ (port (k + j)).getD 0

theorem roomFor_step (port : Nat → Option Nat) (k length : Nat) (hpos : 0 < length) :
    RoomFor port k length ↔ min bufsize length ≤ (port k).getD 0 ∧
      RoomFor port (k + 1) (length - bufsize) := by
  constructor
  · intro h
    refine ⟨by simpa using h 0 (by omega), fun j hj => ?_⟩
    have hmul : (j + 1) * bufsize = j * bufsize + bufsize := Nat.succ_mul j bufsize
    have hnext := h (j + 1) (by omega)
    rw [show k + (j + 1) = k + 1 + j by omega] at hnext
    omega
  · rintro ⟨hfirst, hrest⟩ j hj
    cases j with
    | zero => simpa using hfirst
    | succ j =>
      have hmul : (j + 1) * bufsize = j * bufsize + bufsize := Nat.succ_mul j bufsize
      have hnext := hrest j (by omega)
      rw [show k + (j + 1) = k + 1 + j by omega]
      omega

theorem sendLoop_line (port : Nat → Option Nat) (k : Nat) (file line : List UInt8) :
    ∃ sent, (sendLoop port k file line).line = line ++ sent ∧ sent.length ≤ file.length ∧
      (sent = file ↔ RoomFor port k file.length) := by
  induction k, file, line using sendLoop.induct port with
  | case1 k line =>
    refine ⟨[], by simp [sendLoop], Nat.le_refl _, ⟨fun _ j hj => ?_, fun _ => rfl⟩⟩
    exact absurd hj (Nat.not_lt_zero _)
  | case2 k file line hne hfail =>
    have hnone := (writeport_eq_zero _).mp hfail
    refine ⟨[], by simp [sendLoop, hne, hnone, writeport, taken], Nat.zero_le _, ?_⟩
    have hpos : 0 < file.length := List.length_pos_of_ne_nil hne
    rw [roomFor_step port k _ hpos, hnone]
    refine ⟨fun h => absurd h.symm hne, fun h => ?_⟩
    have hroom : min bufsize file.length ≤ 0 := h.1
    have hbuf : bufsize = 4095 := rfl
    omega
  | case3 k file line hne input_buf line' hok ih =>
    obtain ⟨sent, hline, hle, hiff⟩ := ih
    have hpos : 0 < file.length := List.length_pos_of_ne_nil hne
    have hlen : (taken (port k) (file.take bufsize)).length = min ((port k).getD 0) (min bufsize file.length) := by
      simp [taken]
    refine ⟨taken (port k) (file.take bufsize) ++ sent, ?_, ?_, ?_⟩
    · rw [sendLoop, dif_neg hne, if_neg hok, hline, List.append_assoc]
    · rw [List.length_append, hlen]
      rw [List.length_drop] at hle
      omega
    · rw [roomFor_step port k _ hpos, ← List.length_drop, ← hiff]
      constructor
      · intro h
        have htotal := congrArg List.length h
        rw [List.length_append, hlen] at htotal
        rw [List.length_drop] at hle
        have hroom : min bufsize file.length ≤ (port k).getD 0 := by omega
        have hall : taken (port k) (file.take bufsize) = file.take bufsize :=
          List.take_of_length_le (by simpa using hroom)
        refine ⟨hroom, ?_⟩
        rw [hall] at h
        conv at h => rhs; rw [← List.take_append_drop bufsize file]
        exact List.append_cancel_left h
      · rintro ⟨hroom, hsent⟩
        have hall : taken (port k) (file.take bufsize) = file.take bufsize :=
          List.take_of_length_le (by simpa using hroom)
        rw [hall, hsent, List.take_append_drop]

theorem send_line_iff (port : Nat → Option Nat) (file : List UInt8) :
    (send port file).line = file ↔ RoomFor port 0 file.length := by
  obtain ⟨sent, hline, -, hiff⟩ := sendLoop_line port 0 file []
  rw [send, hline, List.nil_append, hiff]

/-! Receiving. -/

/-- What each write of the receive loop is asked to put in the file, and how much it takes. -/
def fileSteps (disk : Nat → Option Nat) : Nat → Nat → List Event → List (Step UInt8)
  | _, _, [] => []
  | k, _, .ready read :: events =>
    .piece (Event.ready read).bytes ((disk k).getD 0) ::
      fileSteps disk (k + 1) (Event.ready read).bytes.length events
  | k, rd, .timeout :: events =>
    .fill (min ((disk k).getD 0) rd) :: fileSteps disk (k + 1) rd events

theorem fileSteps_source (disk : Nat → Option Nat) (k rd : Nat) (events : List Event) :
    source (fileSteps disk k rd events) = delivered events := by
  induction events generalizing k rd with
  | nil => rfl
  | cons event events ih =>
    cases event with
    | ready read =>
      simp only [fileSteps, source, ih]
      rfl
    | timeout =>
      simp only [fileSteps, source, ih]
      rfl

def breakRead : Event := .ready (some [0x00])

def beforeBreak (events : List Event) : List Event := events.takeWhile (· ≠ breakRead)

def OutFile.Holds (old stored : List UInt8) (f : OutFile) : Prop :=
  f.offset = stored.length ∧ f.contents = stored ++ old.drop stored.length

theorem OutFile.Holds.write {old stored : List UInt8} {f : OutFile} (h : f.Holds old stored)
    (data : List UInt8) : (f.write data).Holds old (stored ++ data) := by
  obtain ⟨hoff, hcont⟩ := h
  refine ⟨by simp [OutFile.write, hoff], ?_⟩
  have hrest : (stored ++ old.drop stored.length).drop (stored.length + data.length) =
      old.drop (stored.length + data.length) := by
    rw [← List.drop_drop, List.drop_left, List.drop_drop]
  simp only [OutFile.write, hoff, hcont, List.take_left, hrest, List.length_append]

structure Receiver.Kept (old stored : List UInt8) (st : Receiver) : Prop where
  file : st.file.Holds old stored
  rd_pos : st.read_flag = true → 0 < st.rd
  rd_le : st.read_flag = true → st.rd ≤ bufsize
  cleared : st.read_flag = true → st.output_buf = List.replicate bufsize 0

theorem opened_kept (old stack : List UInt8) : (Receiver.opened old stack).Kept old [] where
  file := ⟨rfl, rfl⟩
  rd_pos := nofun
  rd_le := nofun
  cleared := nofun

theorem readport_read {bytes : List UInt8} (hne : bytes ≠ [0x00]) (buf : List UInt8) :
    readport (some bytes) buf = (bytes.length, bytes ++ buf.drop bytes.length) := by
  refine if_neg fun ⟨hlen, hhead⟩ => hne ?_
  obtain ⟨b, rfl⟩ := List.length_eq_one_iff.mp hlen
  simpa using hhead

theorem readport_break (buf : List UInt8) : (readport (some [0x00]) buf).1 = 0 := by
  simp [readport]

/-- One round of the loop that is not the last: the file gets the bytes read,
or after a time-out as many zero bytes as were read last. -/
theorem receiveLoop_round {disk : Nat → Option Nat} {old stored : List UInt8} {st : Receiver}
    {event : Event} (hkept : st.Kept old stored) (harr : event.Arrives) (hne : event ≠ breakRead)
    (hgo : st.read_flag = true ∨ event ≠ .timeout) :
    ∃ next : Receiver, next.read_flag = true ∧
      next.Kept old (stored ++ copy 0 (fileSteps disk st.writes st.rd [event])) ∧
      ∀ events, fileSteps disk st.writes st.rd (event :: events) =
          fileSteps disk st.writes st.rd [event] ++ fileSteps disk next.writes next.rd events ∧
        receiveLoop disk st (event :: events) = receiveLoop disk next events := by
  cases event with
  | ready read =>
    cases read with
    | none => exact harr.elim
    | some bytes =>
      have hbytes : bytes ≠ [0x00] := fun h => hne (by rw [h, breakRead])
      have hport := readport_read hbytes st.output_buf
      refine ⟨(st.poll (.ready (some bytes))).store disk, rfl, ⟨?_, fun _ => ?_, fun _ => ?_,
        fun _ => rfl⟩, fun events => ⟨?_, ?_⟩⟩
      · have hput := hkept.file.write (taken (disk st.writes) bytes)
        simpa [Receiver.store, Receiver.poll, hport, fileSteps, copy, Event.bytes, taken] using hput
      · simpa [Receiver.store, Receiver.poll, hport] using harr.1
      · simpa [Receiver.store, Receiver.poll, hport] using harr.2
      · simp [fileSteps, Receiver.store, Receiver.poll, hport, Event.bytes]
      · have hrd : (st.poll (.ready (some bytes))).rd ≠ 0 := by
          simpa [Receiver.poll, hport] using Nat.pos_iff_ne_zero.mp harr.1
        rw [receiveLoop, if_neg (by simp [Receiver.poll]), if_neg hrd]
  | timeout =>
    have hflag : st.read_flag = true := hgo.resolve_right fun h => h rfl
    refine ⟨st.store disk, hflag, ⟨?_, hkept.rd_pos, hkept.rd_le, fun _ => rfl⟩,
      fun events => ⟨?_, ?_⟩⟩
    · have hput := hkept.file.write (List.replicate (min ((disk st.writes).getD 0) st.rd) 0)
      have hmin : min ((disk st.writes).getD 0) (min st.rd bufsize) =
          min ((disk st.writes).getD 0) st.rd := by
        rw [Nat.min_eq_left (hkept.rd_le hflag)]
      simpa [Receiver.store, hkept.cleared hflag, fileSteps, copy, taken, hmin] using hput
    · simp [fileSteps, Receiver.store]
    · have hrd : st.rd ≠ 0 := Nat.pos_iff_ne_zero.mp (hkept.rd_pos hflag)
      rw [receiveLoop]
      simp only [Receiver.poll, hflag, hrd, if_false, Bool.true_eq_false]

theorem receiveLoop_run (disk : Nat → Option Nat) {old stored : List UInt8} {st : Receiver}
    {events : List Event} (hkept : st.Kept old stored) (harr : ∀ e ∈ events, e.Arrives)
    (hne : breakRead ∉ events) (hgo : st.read_flag = true ∨ events.head? ≠ some .timeout)
    (rest : List Event) :
    ∃ next : Receiver,
      next.Kept old (stored ++ copy 0 (fileSteps disk st.writes st.rd events)) ∧
      receiveLoop disk st (events ++ rest) = receiveLoop disk next rest := by
  induction events generalizing st stored with
  | nil => exact ⟨st, by simpa [fileSteps, copy] using hkept, rfl⟩
  | cons event events ih =>
    have hevent : event ≠ breakRead := fun h => hne (h ▸ List.mem_cons_self)
    have hstart : st.read_flag = true ∨ event ≠ .timeout :=
      hgo.imp_right fun h heq => h (by rw [heq]; rfl)
    obtain ⟨mid, hflag, hmid, hround⟩ := receiveLoop_round hkept (harr event List.mem_cons_self) hevent hstart
    obtain ⟨next, hnext, hrun⟩ := ih hmid (fun e he => harr e (List.mem_cons_of_mem _ he))
      (fun h => hne (List.mem_cons_of_mem _ h)) (.inl hflag)
    refine ⟨next, ?_, (hround (events ++ rest)).2.trans hrun⟩
    rw [(hround events).1, copy_append, ← List.append_assoc]
    exact hnext

theorem receiveLoop_break {disk : Nat → Option Nat} (st : Receiver) (events : List Event) :
    receiveLoop disk st (breakRead :: events) = .ended st.file.contents events := by
  rw [breakRead, receiveLoop]
  simp [Receiver.poll, readport_break]

theorem split_at_break (events : List Event) :
    beforeBreak events = events ∨
      ∃ left, events = beforeBreak events ++ breakRead :: left := by
  unfold beforeBreak
  induction events with
  | nil => exact .inl rfl
  | cons event events ih =>
    by_cases hbreak : event = breakRead
    · exact .inr ⟨events, by simp [hbreak]⟩
    · rw [List.takeWhile_cons_of_pos (by simpa using hbreak)]
      exact ih.imp (fun h => by rw [h]) fun ⟨left, h⟩ => ⟨left, by rw [List.cons_append, ← h]⟩

theorem break_notMem (events : List Event) : breakRead ∉ beforeBreak events := by
  intro hmem
  simpa using List.mem_takeWhile_imp hmem

/-- The file is right whatever was in it before only if the bytes stored cover all of that. -/
theorem covers_iff (stored line : List UInt8) (previous : Nat) :
    (∀ old : List UInt8, old.length = previous → stored ++ old.drop stored.length = line) ↔
      stored = line ∧ previous ≤ line.length := by
  constructor
  · intro h
    have hzeros := h (List.replicate previous 0) List.length_replicate
    have hones := h (List.replicate previous 1) List.length_replicate
    rw [List.drop_replicate] at hzeros hones
    have hfit : previous - stored.length = 0 := by
      have htail := List.append_cancel_left (hzeros.trans hones.symm)
      rw [List.replicate_inj] at htail
      exact htail.2.resolve_right (by decide)
    rw [hfit, List.replicate_zero, List.append_nil] at hzeros
    exact ⟨hzeros, by rw [← hzeros]; omega⟩
  · rintro ⟨rfl, hfit⟩ old hold
    rw [List.drop_of_length_le (by omega), List.append_nil]

structure Transfer where
  content : List UInt8
  port : Nat → Option Nat
  disk : Nat → Option Nat
  stack : List UInt8
  previous : Nat
  events : List Event
  arrives : ∀ e ∈ events, e.Arrives
  delivers : delivered events = (send port content).line ++ [0x00]

/-- Every byte is put on the line once, and whatever the file held before, it
holds what was sent when the loop ends on the break. -/
def Transfer.Correct (t : Transfer) : Prop :=
  (send t.port t.content).line = t.content ∧
    ∀ old : List UInt8, old.length = t.previous →
      ∃ left, receiveLoop t.disk (Receiver.opened old t.stack) t.events =
          .ended (send t.port t.content).line left ∧
        delivered left = []

structure Transfer.Clean (t : Transfer) : Prop where
  room : RoomFor t.port 0 t.content.length
  break_alone : delivered (beforeBreak t.events) = t.content
  starts : t.events.head? ≠ some .timeout
  fits : t.previous ≤ t.content.length
  balanced : Balanced 0 0 0 (fileSteps t.disk 0 0 (beforeBreak t.events))

theorem receiveLoop_late (disk : Nat → Option Nat) (old stack : List UInt8) {events : List Event}
    (h : events.head? = some .timeout) :
    receiveLoop disk (Receiver.opened old stack) events = .deleted := by
  obtain ⟨rest, rfl⟩ := List.head?_eq_some_iff.mp h
  rfl

theorem delivered_append (s t : List Event) : delivered (s ++ t) = delivered s ++ delivered t := by
  simp [delivered]

theorem head_beforeBreak {events : List Event} (hstart : events.head? ≠ some .timeout) :
    (beforeBreak events).head? ≠ some .timeout := by
  cases events with
  | nil => exact hstart
  | cons event events =>
    by_cases hbreak : event = breakRead
    · simp [beforeBreak, hbreak]
    · simpa [beforeBreak, hbreak] using hstart

def stored (disk : Nat → Option Nat) (events : List Event) : List UInt8 :=
  copy 0 (fileSteps disk 0 0 (beforeBreak events))

theorem stored_iff (disk : Nat → Option Nat) (events : List Event) :
    Balanced 0 0 0 (fileSteps disk 0 0 (beforeBreak events)) ↔
      stored disk events = delivered (beforeBreak events) := by
  rw [← copy_eq_source_iff, fileSteps_source, stored]

section Reception

variable {disk : Nat → Option Nat} {stack line : List UInt8} {previous : Nat} {events left : List Event}

theorem receiveLoop_before (harr : ∀ e ∈ events, e.Arrives) (hstart : events.head? ≠ some .timeout)
    (old : List UInt8) (tail : List Event) :
    ∃ next : Receiver, next.Kept old (stored disk events) ∧
      receiveLoop disk (Receiver.opened old stack) (beforeBreak events ++ tail) =
        receiveLoop disk next tail :=
  receiveLoop_run disk (opened_kept old stack)
    (fun e he => harr e ((List.takeWhile_sublist _).subset he)) (break_notMem events)
    (.inr (head_beforeBreak hstart)) tail

theorem receiveLoop_waits (harr : ∀ e ∈ events, e.Arrives) (hstart : events.head? ≠ some .timeout)
    (hnone : beforeBreak events = events) (old : List UInt8) :
    receiveLoop disk (Receiver.opened old stack) events = .waiting := by
  obtain ⟨next, -, heq⟩ := receiveLoop_before harr hstart old []
  rw [hnone, List.append_nil] at heq
  exact heq

theorem receiveLoop_ends (harr : ∀ e ∈ events, e.Arrives) (hstart : events.head? ≠ some .timeout)
    (hsplit : events = beforeBreak events ++ breakRead :: left) (old : List UInt8) :
    receiveLoop disk (Receiver.opened old stack) events =
      .ended (stored disk events ++ old.drop (stored disk events).length) left := by
  obtain ⟨next, hkept, heq⟩ := receiveLoop_before harr hstart old (breakRead :: left)
  have hcontents := hkept.file.2
  rw [← hsplit, receiveLoop_break, hcontents] at heq
  exact heq

/-- Nothing is left after the break exactly when all that was sent came before it. -/
theorem left_iff (hdel : delivered events = line ++ [0x00])
    (hsplit : events = beforeBreak events ++ breakRead :: left) :
    delivered left = [] ↔ delivered (beforeBreak events) = line := by
  have hparts : delivered (beforeBreak events) ++ [0x00] ++ delivered left = line ++ [0x00] := by
    rw [← hdel, List.append_assoc]
    conv => rhs; rw [hsplit, delivered_append]
    rfl
  constructor
  · intro h
    rw [h, List.append_nil] at hparts
    exact List.append_cancel_right hparts
  · intro h
    rw [h] at hparts
    simpa using hparts

theorem receive_iff (harr : ∀ e ∈ events, e.Arrives) (hdel : delivered events = line ++ [0x00]) :
    (∀ old : List UInt8, old.length = previous →
      ∃ left, receiveLoop disk (Receiver.opened old stack) events = .ended line left ∧
        delivered left = []) ↔
      delivered (beforeBreak events) = line ∧ events.head? ≠ some .timeout ∧
        previous ≤ line.length ∧ Balanced 0 0 0 (fileSteps disk 0 0 (beforeBreak events)) := by
  rw [stored_iff]
  by_cases hstart : events.head? = some .timeout
  · refine ⟨fun h => ?_, fun h => absurd hstart h.2.1⟩
    obtain ⟨left, hend, -⟩ := h (List.replicate previous 0) List.length_replicate
    rw [receiveLoop_late disk _ _ hstart] at hend
    exact nomatch hend
  rcases split_at_break events with hnone | ⟨left, hsplit⟩
  · -- without a read of the break alone the loop never ends
    constructor
    · intro h
      obtain ⟨left, hend, -⟩ := h (List.replicate previous 0) List.length_replicate
      rw [receiveLoop_waits harr hstart hnone] at hend
      exact nomatch hend
    · rintro ⟨hline, -⟩
      rw [hnone, hdel] at hline
      simp at hline
  · have hends := @receiveLoop_ends disk stack events left harr hstart hsplit
    constructor
    · intro h
      have hstored := fun (old : List UInt8) (hold : old.length = previous) =>
        (h old hold).elim fun left' hend => (Received.ended.inj ((hends old).symm.trans hend.1)).1
      obtain ⟨hcopy, hfit⟩ := (covers_iff _ _ _).mp hstored
      obtain ⟨left', hend, hnil⟩ := h (List.replicate previous 0) List.length_replicate
      have hsame : left = left' := (Received.ended.inj ((hends _).symm.trans hend)).2
      have hline := (left_iff hdel hsplit).mp (hsame ▸ hnil)
      exact ⟨hline, hstart, hfit, hcopy.trans hline.symm⟩
    · rintro ⟨hline, -, hfit, hcopy⟩ old hold
      refine ⟨left, ?_, (left_iff hdel hsplit).mpr hline⟩
      rw [hends, (covers_iff _ _ _).mpr ⟨hcopy.trans hline, hfit⟩ old hold]

end Reception

theorem fileSteps_kept {disk : Nat → Option Nat} (hwhole : ∀ k, bufsize ≤ (disk k).getD 0)
    {events : List Event} (harr : ∀ e ∈ events, e.Arrives) (k rd : Nat) {items : List UInt8}
    {kept : Nat} (hmem : .piece items kept ∈ fileSteps disk k rd events) : items.length ≤ kept := by
  induction events generalizing k rd with
  | nil => exact absurd hmem List.not_mem_nil
  | cons event events ih =>
    have hrest : ∀ e ∈ events, e.Arrives := fun e he => harr e (List.mem_cons_of_mem _ he)
    cases event with
    | ready read =>
      rcases List.mem_cons.mp hmem with heq | hmem
      · obtain ⟨rfl, rfl⟩ := Step.piece.inj heq
        cases read with
        | none => exact Nat.zero_le _
        | some bytes => exact Nat.le_trans (harr _ List.mem_cons_self).2 (hwhole k)
      · exact ih hrest _ _ hmem
    | timeout =>
      rcases List.mem_cons.mp hmem with heq | hmem
      · exact nomatch heq
      · exact ih hrest _ _ hmem

theorem fileSteps_fills {disk : Nat → Option Nat} (hwhole : ∀ k, bufsize ≤ (disk k).getD 0)
    {events : List Event} (harr : ∀ e ∈ events, e.Arrives) (k rd : Nat)
    (hstart : 0 < rd ∨ events.head? ≠ some .timeout) :
    (∀ count, .fill count ∈ fileSteps disk k rd events → count = 0) ↔ .timeout ∉ events := by
  induction events generalizing k rd with
  | nil => simp [fileSteps]
  | cons event events ih =>
    have hrest : ∀ e ∈ events, e.Arrives := fun e he => harr e (List.mem_cons_of_mem _ he)
    cases event with
    | ready read =>
      have hpos : 0 < (Event.ready read).bytes.length := by
        have hread := harr _ List.mem_cons_self
        cases read with
        | none => exact hread.elim
        | some bytes => exact hread.1
      simpa [fileSteps] using ih hrest (k + 1) _ (.inl hpos)
    | timeout =>
      have hrd : 0 < rd := hstart.resolve_right fun h => h rfl
      have hbuf : 0 < bufsize := by decide
      have hroom := hwhole k
      refine ⟨fun h => ?_, fun h => absurd List.mem_cons_self h⟩
      have hzero : min ((disk k).getD 0) rd = 0 := h _ List.mem_cons_self
      omega

/-- With whole writes to the file the balance leaves no room for a time-out. -/
theorem balanced_whole_iff {disk : Nat → Option Nat} (hwhole : ∀ k, bufsize ≤ (disk k).getD 0)
    {events : List Event} (harr : ∀ e ∈ events, e.Arrives)
    (hstart : events.head? ≠ some .timeout) :
    Balanced 0 0 0 (fileSteps disk 0 0 events) ↔ .timeout ∉ events := by
  rw [balanced_kept_iff (fun _ _ => fileSteps_kept hwhole harr 0 0) (Nat.le_refl 0),
    fileSteps_fills hwhole harr 0 0 (.inr hstart)]
  exact and_iff_right rfl

theorem transfer_iff (t : Transfer) : t.Correct ↔ t.Clean := by
  constructor
  · rintro ⟨hsent, hreceived⟩
    have hdel := t.delivers
    rw [hsent] at hdel hreceived
    obtain ⟨halone, hstart, hfit, hbal⟩ := (receive_iff t.arrives hdel).mp hreceived
    exact ⟨(send_line_iff _ _).mp hsent, halone, hstart, hfit, hbal⟩
  · rintro ⟨hroom, halone, hstart, hfit, hbal⟩
    have hsent := (send_line_iff _ _).mpr hroom
    have hdel := t.delivers
    rw [hsent] at hdel
    refine ⟨hsent, ?_⟩
    rw [hsent]
    exact (receive_iff t.arrives hdel).mpr ⟨halone, hstart, hfit, hbal⟩

def pausedTransfer : Transfer where
  content := [0xAA]
  port := fun _ => some bufsize
  disk := fun _ => some bufsize
  stack := []
  previous := 0
  events := [.ready (some [0xAA]), .timeout, breakRead]
  arrives := by simp [breakRead, Event.Arrives, bufsize]
  delivers := by
    have hsent := (send_line_iff (fun _ => some bufsize) [0xAA]).mpr fun j hj =>
      Nat.min_le_left bufsize _
    rw [hsent]
    rfl

theorem pausedTransfer_duplicates : ¬ pausedTransfer.Correct := by
  intro h
  have hsent := h.1
  obtain ⟨left, hend, -⟩ := h.2 [] rfl
  rw [hsent] at hend
  exact absurd (Received.ended.inj hend).1 (by decide)

end UartTransfer

end DeviceDriverTest
