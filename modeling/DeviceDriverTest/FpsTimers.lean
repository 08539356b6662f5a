import Mathlib.Algebra.GroupWithZero.Nat
import Mathlib.Logic.Function.Basic
import DeviceDriverTest.CmdOptions
import DeviceDriverTest.FrameRate

/-! The timers of `fps.c`: what the calls of a run are measured with, and the statistics at its end. -/

namespace DeviceDriverTest

namespace FpsTimers

open FrameRate (Timeval)

inductive Timer
  | open_
  | close
  | querycap
  | gFmt
  | sFmt
  | reqbufs
  | querybuf
  | qbuf
  | dqbuf
  | streamon
  | streamoff
  deriving DecidableEq

structure InstrumentTimer where
  start : Timeval
  min : UInt32
  max : UInt32
  total : UInt64
  count : UInt32

def instrumentInit : InstrumentTimer := ⟨⟨0, 0⟩, 0xffffffff, 0, 0, 0⟩

def instrumentStart (now : Timeval) (it : InstrumentTimer) : InstrumentTimer := { it with start := now }

/-- `tv_sec * 1000000 + tv_usec` in 32 bits. -/
def micros (t : Timeval) : UInt32 := UInt32.ofInt t.sec * 1000000 + UInt32.ofInt t.usec

def instrumentStop (stop : Timeval) (it : InstrumentTimer) : InstrumentTimer :=
  let diff := micros stop - micros it.start
  { it with
    min := if diff < it.min then diff else it.min
    max := if diff > it.max then diff else it.max
    total := it.total + diff.toUInt64
    count := it.count + 1 }

/-- What the program finds: the clock and the measured calls, by the number of the call of
`gettimeofday`, and the answers to what is not measured. -/
structure Device where
  clock : Nat → Timeval
  succeeds : Nat → Bool
  validateSize : String → Bool
  defaultFormat : Bool
  setFramerate : Int32 → Bool
  streaming : Bool
  /-- How many buffers `VIDIOC_REQBUFS` grants, no more than `VIDEO_MAX_FRAME`. -/
  buffers : Nat
  few : buffers ≤ 32

/-- `calls` says which timer was started by which call of `gettimeofday`. -/
structure State where
  now : Nat
  timers : Timer → InstrumentTimer
  calls : List (Timer × Nat)

def sample (device : Device) (t : Timer) (s : State) : State where
  now := s.now + 2
  timers := Function.update s.timers t
    (instrumentStop (device.clock (s.now + 1)) (instrumentStart (device.clock s.now) (s.timers t)))
  calls := s.calls ++ [(t, s.now)]

def timed (device : Device) (t : Timer) (s : State) : Option State :=
  if device.succeeds s.now then some (sample device t s) else none

/-- Whether the command line has a pixel format, and the words behind the size. -/
def arguments (device : Device) : List String → Option (Bool × List String)
  | [] | [_] => some (false, [])
  | [_, _] => some (true, [])
  | _ :: _ :: size :: rest =>
    if device.validateSize size then some (true, rest)
    else
      match rest with
      | [] => none
      | _ :: rest => some (true, rest)

def setFormat (device : Device) (specified : Bool) (s : State) : Option State :=
  if specified then timed device .sFmt s else if device.defaultFormat then some s else none

def frames : List String → Int32
  | [] => 1
  | count :: _ => CmdOptions.atoi count

def setRate (device : Device) : List String → State → Option State
  | _ :: rate :: _, s =>
    let framerate := CmdOptions.atoi rate
    let framerate := if framerate = 0 then 15 else framerate
    if device.setFramerate framerate then some s else none
  | _, s => some s

def queryCapability (device : Device) (s : State) : Option State :=
  (timed device .querycap s).bind fun s => if device.streaming then some s else none

def setBuffers (device : Device) : Nat → State → Option State
  | 0, s => some s
  | n + 1, s => (timed device .querybuf s).bind fun s => (timed device .qbuf s).bind (setBuffers device n)

/-- The loop `while (1)` from frame `i` on, with fuel. -/
def capture (device : Device) (count : Int32) : Nat → Nat → State → Option State
  | 0, _, _ => none
  | fuel + 1, i, s =>
    (timed device .dqbuf s).bind fun s =>
      let i := i + 1
      if (i : Int) = count.toInt then timed device .streamoff s
      else (timed device .qbuf s).bind (capture device count fuel i)

def lateStreamoff (device : Device) (count : Int32) (s : State) : Option State :=
  if count = -1 then timed device .streamoff s else some s

def start : State := ⟨0, fun _ => instrumentInit, []⟩

/-- The state that the statistics are displayed from, for the runs that get there. -/
def main (device : Device) (argv : List String) (fuel : Nat) : Option State :=
  if argv.head? = some "?" then none
  else do
    let s ← timed device .open_ start
    let parsed ← arguments device argv
    let s ← setFormat device parsed.1 s
    let s ← setRate device parsed.2 s
    let s ← queryCapability device s
    let s ← timed device .gFmt s
    let s ← timed device .reqbufs s
    let s ← setBuffers device device.buffers s
    let s ← timed device .streamon s
    let s ← capture device (frames parsed.2) fuel 0 s
    let s ← lateStreamoff device (frames parsed.2) s
    some (sample device .close s)

/-- What `INSTRUMENT_DISPLAY` divides. -/
def average (it : InstrumentTimer) : Nat := it.total.toNat / it.count.toNat

/-! One timer. -/

/-- The statistics of these intervals. -/
structure Accumulates (it : InstrumentTimer) (intervals : List Nat) : Prop where
  count : it.count.toNat = intervals.length
  total : it.total.toNat = intervals.sum
  min : ∀ d ∈ intervals, it.min.toNat ≤ d
  max : ∀ d ∈ intervals, d ≤ it.max.toNat

theorem accumulates_init : Accumulates instrumentInit [] :=
  ⟨rfl, rfl, fun _ h => absurd h List.not_mem_nil, fun _ h => absurd h List.not_mem_nil⟩

theorem micros_eq (t : Timeval) : micros t = UInt32.ofInt t.micros := by
  rw [micros, Timeval.micros, UInt32.ofInt_add, UInt32.ofInt_mul]
  rfl

theorem toNat_ofInt {d : Int} (h0 : 0 ≤ d) (h : d < 4294967296) : (UInt32.ofInt d).toNat = d.toNat := by
  obtain ⟨n, rfl⟩ := Int.eq_ofNat_of_zero_le h0
  rw [UInt32.ofInt, Int.toNat_natCast, UInt32.toNat_ofNat']
  omega

/-- The difference is right in 32 bits, for an interval that fits them. -/
theorem micros_sub {a b : Timeval} (hle : b.micros ≤ a.micros) (h : a.micros - b.micros < 4294967296) :
    (micros a - micros b).toNat = (a.micros - b.micros).toNat := by
  have hsum : UInt32.ofInt a.micros = UInt32.ofInt (a.micros - b.micros) + UInt32.ofInt b.micros := by
    rw [← UInt32.ofInt_add, Int.sub_add_cancel]
  rw [micros_eq, micros_eq, hsum, UInt32.add_sub_cancel, toNat_ofInt (Int.sub_nonneg_of_le hle) h]

theorem sum_le {intervals : List Nat} {most : Nat} (h : ∀ d ∈ intervals, d ≤ most) :
    intervals.sum ≤ intervals.length * most := by
  induction intervals with
  | nil => simp
  | cons d intervals ih =>
    have hd := h d List.mem_cons_self
    have hrest := ih fun x hx => h x (List.mem_cons_of_mem d hx)
    rw [List.sum_cons, List.length_cons, Nat.succ_mul]
    omega

theorem le_sum {intervals : List Nat} {least : Nat} (h : ∀ d ∈ intervals, least ≤ d) :
    intervals.length * least ≤ intervals.sum := by
  induction intervals with
  | nil => simp
  | cons d intervals ih =>
    have hd := h d List.mem_cons_self
    have hrest := ih fun x hx => h x (List.mem_cons_of_mem d hx)
    rw [List.sum_cons, List.length_cons, Nat.succ_mul]
    omega

/-- A further interval, while the count does not wrap round. -/
theorem Accumulates.push {it : InstrumentTimer} {intervals : List Nat} {begin stop : Timeval}
    (h : Accumulates it intervals) (hlength : intervals.length + 1 < 4294967296) (hle : begin.micros ≤ stop.micros)
    (hshort : stop.micros - begin.micros < 4294967296) (hall : ∀ d ∈ intervals, d < 4294967296) :
    Accumulates (instrumentStop stop (instrumentStart begin it)) (intervals ++ [(stop.micros - begin.micros).toNat]) := by
  have hdiff := micros_sub hle hshort
  have hsum := sum_le fun d hd => Nat.le_of_lt_succ (hall d hd)
  generalize hd : micros stop - micros begin = diff at hdiff
  generalize (stop.micros - begin.micros).toNat = d at hdiff
  have hfit := diff.toNat_lt
  obtain ⟨hcount, htotal, hmin, hmax⟩ := h
  refine ⟨?_, ?_, fun x hx => ?_, fun x hx => ?_⟩
  · rw [List.length_append, List.length_singleton]
    show (it.count + 1).toNat = intervals.length + 1
    rw [UInt32.toNat_add, hcount]
    exact Nat.mod_eq_of_lt hlength
  · show (it.total + (micros stop - micros begin).toUInt64).toNat = _
    rw [hd, List.sum_append, List.sum_singleton, UInt64.toNat_add, UInt32.toNat_toUInt64, htotal, hdiff]
    apply Nat.mod_eq_of_lt
    have hmul : intervals.length * 4294967295 ≤ 4294967294 * 4294967295 := Nat.mul_le_mul_right _ (by omega)
    omega
  · show (if micros stop - micros begin < it.min then micros stop - micros begin else it.min).toNat ≤ x
    rw [hd]
    obtain hx | hx := List.mem_append.mp hx
    · have hx := hmin x hx
      split
      · next hlt => exact Nat.le_trans (Nat.le_of_lt (UInt32.lt_iff_toNat_lt.mp hlt)) hx
      · exact hx
    · rw [List.mem_singleton.mp hx, ← hdiff]
      split
      · exact Nat.le_refl _
      · next hlt => exact Nat.le_of_not_lt fun h => hlt (UInt32.lt_iff_toNat_lt.mpr h)
  · show x ≤ (if micros stop - micros begin > it.max then micros stop - micros begin else it.max).toNat
    rw [hd]
    obtain hx | hx := List.mem_append.mp hx
    · have hx := hmax x hx
      split
      · next hlt => exact Nat.le_trans hx (Nat.le_of_lt (UInt32.lt_iff_toNat_lt.mp hlt))
      · exact hx
    · rw [List.mem_singleton.mp hx, ← hdiff]
      split
      · exact Nat.le_refl _
      · next hlt => exact Nat.le_of_not_lt fun h => hlt (UInt32.lt_iff_toNat_lt.mpr h)

/-- What is claimed of a displayed timer with these intervals. -/
structure StatisticsRight (it : InstrumentTimer) (intervals : List Nat) : Prop where
  count : it.count ≠ 0
  total : it.total.toNat = intervals.sum
  least : it.min.toNat ≤ average it
  most : average it ≤ it.max.toNat

theorem Accumulates.statisticsRight_iff {it : InstrumentTimer} {intervals : List Nat} (h : Accumulates it intervals) :
    StatisticsRight it intervals ↔ intervals ≠ [] := by
  have hzero : it.count = 0 ↔ intervals = [] := by
    rw [← UInt32.toNat_inj, h.count]
    exact List.length_eq_zero_iff
  constructor
  · intro hright
    exact (not_congr hzero).mp hright.count
  · intro hne
    have hpos := List.length_pos_iff.mpr hne
    refine ⟨(not_congr hzero).mpr hne, h.total, ?_, ?_⟩
    · rw [average, h.count, h.total, Nat.le_div_iff_mul_le hpos, Nat.mul_comm]
      exact le_sum h.min
    · rw [average, h.count, h.total]
      apply Nat.div_le_of_le_mul
      exact sum_le h.max

/-! The run. -/

def samples (s : State) (t : Timer) : List Nat := (s.calls.filter fun call => call.1 = t).map Prod.snd

def interval (device : Device) (n : Nat) : Nat := ((device.clock (n + 1)).micros - (device.clock n).micros).toNat

def intervals (device : Device) (s : State) (t : Timer) : List Nat := (samples s t).map (interval device)

def NonDecreasing (device : Device) : Prop := ∀ n, (device.clock n).micros ≤ (device.clock (n + 1)).micros

/-- No measured interval is as long as `2 ^ 32` microseconds. -/
def Short (device : Device) (s : State) : Prop :=
  ∀ call ∈ s.calls, (device.clock (call.2 + 1)).micros - (device.clock call.2).micros < 4294967296

def Measured (device : Device) (s : State) : Prop :=
  Short device s → ∀ t, (samples s t).length < 4294967296 → Accumulates (s.timers t) (intervals device s t)

/-- From `s` to `s'` there are `n t` samples of each timer `t`. -/
structure Adds (device : Device) (n : Timer → Nat) (s s' : State) : Prop where
  samples : ∀ t, (samples s' t).length = (samples s t).length + n t
  measured : Measured device s → Measured device s'

variable {device : Device} {n m : Timer → Nat} {s s' s'' : State}

theorem Adds.none (device : Device) (s : State) : Adds device (fun _ => 0) s s := ⟨fun _ => rfl, id⟩

theorem Adds.trans (h : Adds device n s s') (h' : Adds device m s' s'') : Adds device (fun t => n t + m t) s s'' :=
  ⟨fun t => by rw [h'.samples, h.samples, Nat.add_assoc], fun hs => h'.measured (h.measured hs)⟩

def once (t : Timer) : Timer → Nat := fun u => if u = t then 1 else 0

theorem samples_sample_self (device : Device) (t : Timer) (s : State) :
    samples (sample device t s) t = samples s t ++ [s.now] := by
  simp [samples, sample]

theorem samples_sample_other (device : Device) {t u : Timer} (h : u ≠ t) (s : State) :
    samples (sample device t s) u = samples s u := by
  simp [samples, sample, h.symm]

theorem sample_adds (hclock : NonDecreasing device) (t : Timer) (s : State) :
    Adds device (once t) s (sample device t s) := by
  refine ⟨fun u => ?_, fun hs hshort u hlength => ?_⟩
  · by_cases hu : u = t
    · rw [hu, samples_sample_self, List.length_append, once, if_pos rfl, List.length_singleton]
    · rw [samples_sample_other device hu, once, if_neg hu, Nat.add_zero]
  · have hbefore : Short device s := fun call hcall => hshort call (List.mem_append_left _ hcall)
    by_cases hu : u = t
    · subst hu
      rw [samples_sample_self, List.length_append, List.length_singleton] at hlength
      have hold := hs hbefore u (by omega)
      have hnow : ((device.clock (s.now + 1)).micros - (device.clock s.now).micros) < 4294967296 :=
        hshort (u, s.now) (by simp [sample])
      have hall : ∀ d ∈ intervals device s u, d < 4294967296 := by
        intro d hd
        obtain ⟨k, hk, rfl⟩ := List.mem_map.mp hd
        obtain ⟨call, hcall, rfl⟩ := List.mem_map.mp hk
        have hle := hclock call.2
        have hcall := hbefore call (List.mem_filter.mp hcall).1
        rw [interval]
        omega
      have hpush := hold.push (by rwa [intervals, List.length_map]) (hclock s.now) hnow hall
      rw [intervals, samples_sample_self, List.map_append, sample]
      dsimp only
      rw [Function.update_self]
      exact hpush
    · rw [samples_sample_other device hu] at hlength
      rw [intervals, samples_sample_other device hu, sample]
      dsimp only
      rw [Function.update_of_ne hu]
      exact hs hbefore u hlength

theorem timed_adds (hclock : NonDecreasing device) {t : Timer} (h : timed device t s = some s') :
    Adds device (once t) s s' := by
  rw [timed] at h
  split at h
  · rw [← Option.some.inj h]
    exact sample_adds hclock t s
  · exact absurd h (by simp)

theorem setFormat_adds (hclock : NonDecreasing device) {specified : Bool} (h : setFormat device specified s = some s') :
    Adds device (if specified then once .sFmt else fun _ => 0) s s' := by
  cases specified with
  | true => exact timed_adds hclock h
  | false =>
    rw [setFormat, if_neg Bool.false_ne_true] at h
    split at h
    · rw [← Option.some.inj h]
      exact Adds.none device s
    · exact absurd h (by simp)

theorem setRate_eq {rest : List String} (h : setRate device rest s = some s') : s' = s := by
  unfold setRate at h
  split at h
  · dsimp only at h
    split at h <;> simp_all
  · exact (Option.some.inj h).symm

theorem queryCapability_adds (hclock : NonDecreasing device) (h : queryCapability device s = some s') :
    Adds device (once .querycap) s s' := by
  obtain ⟨s₁, htimed, hstreaming⟩ := Option.bind_eq_some_iff.mp h
  split at hstreaming
  · rw [← Option.some.inj hstreaming]
    exact timed_adds hclock htimed
  · exact absurd hstreaming (by simp)

/-- What setting up `k` buffers adds. -/
def perBuffer (k : Nat) : Timer → Nat
  | .querybuf | .qbuf => k
  | _ => 0

theorem setBuffers_adds (hclock : NonDecreasing device) {k : Nat} (h : setBuffers device k s = some s') :
    Adds device (perBuffer k) s s' := by
  induction k generalizing s with
  | zero =>
    rw [← Option.some.inj h]
    refine ⟨fun t => ?_, id⟩
    cases t <;> rfl
  | succ k ih =>
    obtain ⟨s₁, hquery, h⟩ := Option.bind_eq_some_iff.mp h
    obtain ⟨s₂, hqueue, h⟩ := Option.bind_eq_some_iff.mp h
    have hall := ((timed_adds hclock hquery).trans (timed_adds hclock hqueue)).trans (ih h)
    refine ⟨fun t => ?_, hall.measured⟩
    rw [hall.samples]
    cases t <;> simp [once, perBuffer, Nat.add_comm]

/-- What `k` frames and the end of the capture add. -/
def perFrame (k : Nat) : Timer → Nat
  | .dqbuf => k
  | .qbuf => k - 1
  | .streamoff => 1
  | _ => 0

theorem capture_adds (hclock : NonDecreasing device) {count : Int32} {fuel i : Nat}
    (h : capture device count fuel i s = some s') :
    ∃ k, 1 ≤ k ∧ ((i + k : Nat) : Int) = count.toInt ∧ Adds device (perFrame k) s s' := by
  induction fuel generalizing i s with
  | zero => exact absurd h (by simp [capture])
  | succ fuel ih =>
    obtain ⟨s₁, hdequeue, h⟩ := Option.bind_eq_some_iff.mp h
    dsimp only at h
    have hfirst := timed_adds hclock hdequeue
    split at h
    · next hlast =>
      have hall := hfirst.trans (timed_adds hclock h)
      refine ⟨1, Nat.le_refl 1, hlast, fun t => ?_, hall.measured⟩
      rw [hall.samples]
      cases t <;> rfl
    · obtain ⟨s₂, hqueue, h⟩ := Option.bind_eq_some_iff.mp h
      obtain ⟨k, hk, hcount, hrest⟩ := ih h
      have hall := (hfirst.trans (timed_adds hclock hqueue)).trans hrest
      refine ⟨k + 1, Nat.le_add_left 1 k, by rw [← hcount]; omega, fun t => ?_, hall.measured⟩
      rw [hall.samples]
      cases t <;> simp [once, perFrame] <;> omega

/-- The samples of a run that displays its statistics. -/
def expected (specified : Bool) (buffers k : Nat) : Timer → Nat
  | .sFmt => if specified then 1 else 0
  | .querybuf => buffers
  | .qbuf => buffers + (k - 1)
  | .dqbuf => k
  | _ => 1

theorem main_adds (hclock : NonDecreasing device) {argv : List String} {fuel : Nat} (h : main device argv fuel = some s) :
    ∃ specified rest, ∃ k : Nat, arguments device argv = some (specified, rest) ∧ 1 ≤ k ∧
      (k : Int) = (frames rest).toInt ∧ Adds device (expected specified device.buffers k) start s := by
  rw [main] at h
  split at h
  · exact absurd h (by simp)
  · simp only [Option.bind_eq_bind, Option.bind_eq_some_iff] at h
    obtain ⟨s₁, hopen, ⟨specified, rest⟩, hparsed, s₂, hformat, s₃, hrate, s₄, hcap, s₅, hget, s₆, hrequest, s₇, hbuffers,
      s₈, hon, s₉, hcapture, s₁₀, hlate, hclose⟩ := h
    obtain ⟨k, hk, hcount, hframes⟩ := capture_adds hclock hcapture
    rw [Nat.zero_add] at hcount
    have hs₃ := setRate_eq hrate
    have hs₁₀ : s₁₀ = s₉ := by
      have hne : frames rest ≠ -1 := by
        intro heq
        rw [heq] at hcount
        have hminus : (-1 : Int32).toInt = -1 := rfl
        omega
      rw [lateStreamoff, if_neg hne] at hlate
      exact (Option.some.inj hlate).symm
    subst hs₃ hs₁₀
    have hall := ((((((((timed_adds hclock hopen).trans (setFormat_adds hclock hformat)).trans
      (queryCapability_adds hclock hcap)).trans (timed_adds hclock hget)).trans (timed_adds hclock hrequest)).trans
      (setBuffers_adds hclock hbuffers)).trans (timed_adds hclock hon)).trans hframes).trans (sample_adds hclock .close _)
    refine ⟨specified, rest, k, hparsed, hk, hcount, fun t => ?_, ?_⟩
    · rw [← Option.some.inj hclose, hall.samples]
      cases specified <;> cases t <;> simp [once, perBuffer, perFrame, expected]
    · rw [← Option.some.inj hclose]
      exact hall.measured

theorem arguments_specified {argv rest : List String} {specified : Bool}
    (h : arguments device argv = some (specified, rest)) : specified = true ↔ 2 ≤ argv.length := by
  unfold arguments at h
  split at h
  · obtain ⟨rfl, -⟩ := Prod.mk.inj (Option.some.inj h)
    simp
  · obtain ⟨rfl, -⟩ := Prod.mk.inj (Option.some.inj h)
    simp
  · obtain ⟨rfl, -⟩ := Prod.mk.inj (Option.some.inj h)
    simp
  · have hspecified : specified = true := by
      split at h
      · exact (Prod.mk.inj (Option.some.inj h)).1.symm
      · split at h
        · exact absurd h (by simp)
        · exact (Prod.mk.inj (Option.some.inj h)).1.symm
    rw [hspecified]
    simp

theorem measured_start (device : Device) : Measured device start := fun _ _ _ => accumulates_init

/-- The displayed statistics are right exactly in the runs that were given a pixel format and were
granted a buffer. -/
theorem displayed_right_iff {argv : List String} {fuel : Nat} (hrun : main device argv fuel = some s)
    (hclock : NonDecreasing device) (hshort : Short device s) :
    (∀ t, StatisticsRight (s.timers t) (intervals device s t)) ↔ 2 ≤ argv.length ∧ device.buffers ≠ 0 := by
  obtain ⟨specified, rest, k, hparsed, hk, hcount, hadds⟩ := main_adds hclock hrun
  have hlength : ∀ t, (samples s t).length = expected specified device.buffers k t := by
    intro t
    rw [hadds.samples]
    exact Nat.zero_add _
  have hmost : k < 2147483648 := by
    have := (frames rest).toInt_lt
    omega
  have hfew := device.few
  have hfit : ∀ t, (samples s t).length < 4294967296 := by
    intro t
    rw [hlength]
    cases t <;> simp only [expected] <;> (try split) <;> omega
  have hright : ∀ t, StatisticsRight (s.timers t) (intervals device s t) ↔ expected specified device.buffers k t ≠ 0 := by
    intro t
    rw [(hadds.measured (measured_start device) hshort t (hfit t)).statisticsRight_iff, ← hlength, intervals, Ne,
      List.map_eq_nil_iff, ← List.length_eq_zero_iff]
  rw [← arguments_specified hparsed]
  constructor
  · intro h
    have hformat := (hright .sFmt).mp (h .sFmt)
    have hquery := (hright .querybuf).mp (h .querybuf)
    exact ⟨by simpa [expected] using hformat, hquery⟩
  · intro h t
    obtain ⟨hformat, hbuffers⟩ := h
    rw [hright]
    cases t <;> simp only [expected, hformat, if_pos] <;> omega

/-- A camera that grants two buffers, all of whose calls succeed and take a microsecond. -/
def quick : Device where
  clock n := ⟨0, n⟩
  succeeds _ := true
  validateSize _ := true
  defaultFormat := true
  setFramerate _ := true
  streaming := true
  buffers := 2
  few := by decide

theorem quick_nonDecreasing : NonDecreasing quick := by
  intro n
  simp only [quick, Timeval.micros]
  omega

theorem quick_short (s : State) : Short quick s := by
  intro call _
  simp only [quick, Timeval.micros]
  omega

theorem displayed_right_format_given : ∃ s, main quick ["1", "YUYV"] 1 = some s ∧
    ∀ t, StatisticsRight (s.timers t) (intervals quick s t) := by
  have hrun : ∃ s, main quick ["1", "YUYV"] 1 = some s := ⟨_, rfl⟩
  obtain ⟨s, hs⟩ := hrun
  exact ⟨s, hs, (displayed_right_iff hs quick_nonDecreasing (quick_short s)).mpr ⟨by decide, by decide⟩⟩

/-- Without a pixel format, the format is set without being measured. -/
theorem format_not_measured : ∃ s, main quick ["1"] 1 = some s ∧
    ¬ ∀ t, StatisticsRight (s.timers t) (intervals quick s t) :=
  ⟨_, rfl, fun h => (h .sFmt).count rfl⟩

end FpsTimers

end DeviceDriverTest
