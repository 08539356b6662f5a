import DeviceDriverTest.MemTester
import DeviceDriverTest.RoundLoop

/-! The script that takes the driver away from the ethernet adapters of a USB port and gives it back, a
hundred times, with one loop for each of three controllers. -/

namespace DeviceDriverTest

namespace BindUnbind

open MemTester (grep)
open RoundLoop
open TestRunner (Word)

inductive Driver
  | musb
  | ehci
  | ohci

inductive Operation
  | unbind
  | bind
  deriving DecidableEq

/-- What is done to a device, by its place in the list of the iteration. -/
structure Step where
  iteration : Nat
  device : Nat
  operation : Operation
  deriving DecidableEq

/-- What the script finds: in an iteration the listing at its start, and the names of the bound devices
behind the port of the controller; and the lines of `/proc/bus/usb/devices` after a step. -/
structure Host where
  header : Nat → List Word
  bound : Nat → List Word
  contents : Step → List Word

/-- The number that a step has written to the file of its operation. -/
structure Write where
  step : Step
  USB_PORTNO : Word

def usbBus (lines : List Word) : Word :=
  if grep "Bus=02".toList (grep "Lev=01".toList lines) = [] then ['3'] else ['2']

def port (header : List Word) : Driver → Word
  | .musb => "1-1.".toList
  | .ehci => usbBus header ++ "-1.".toList
  | .ohci => usbBus header ++ "-2.".toList

/-- The names that the pattern of the loop stands for; without any the pattern itself. -/
def paths (port : Word) (bound : List Word) : List Word :=
  if bound = [] then ["/sys/bus/usb/drivers/asix/".toList ++ port ++ ['*']]
  else bound.map fun name => "/sys/bus/usb/drivers/asix/".toList ++ port ++ name

/-- `${i: -9}`. -/
def lastNine (i : Word) : Word := i.drop (i.length - 9)

/-- The lines that `grep ifc | grep asix` leaves, as one text. -/
def shown (lines : List Word) : Word := List.intercalate ['\n'] (grep "asix".toList (grep "ifc".toList lines))

/-- The loop as it stands in the branches, with their tests of the two texts. -/
def etherDevice (unbindFails bindFails : Word → Bool) (host : Host) (iteration device : Nat) (i : Word)
    (s : List Write) : Round (List Write) :=
  let unbind : Step := ⟨iteration, device, .unbind⟩
  let s := s ++ [⟨unbind, lastNine i⟩]
  if unbindFails (shown (host.contents unbind)) then .exits s
  else
    let bind : Step := ⟨iteration, device, .bind⟩
    let s := s ++ [⟨bind, lastNine i⟩]
    if bindFails (shown (host.contents bind)) then .exits s else .goesOn s

def musbDevice : Host → Nat → Nat → Word → List Write → Round (List Write) :=
  etherDevice (fun USB_UNBIND => USB_UNBIND != []) (fun USB_BIND => USB_BIND == [])

def ohciDevice : Host → Nat → Nat → Word → List Write → Round (List Write) :=
  etherDevice (fun USB_UNBIND => USB_UNBIND != []) (fun USB_BIND => USB_BIND == [])

/-- Here the two tests are the other way round. -/
def ehciDevice (host : Host) (iteration device : Nat) (i : Word) (s : List Write) : Round (List Write) :=
  let unbind : Step := ⟨iteration, device, .unbind⟩
  let s := s ++ [⟨unbind, lastNine i⟩]
  if shown (host.contents unbind) == [] then .exits s
  else
    let bind : Step := ⟨iteration, device, .bind⟩
    let s := s ++ [⟨bind, lastNine i⟩]
    if shown (host.contents bind) != [] then .exits s else .goesOn s

def device : Driver → Host → Nat → Nat → Word → List Write → Round (List Write)
  | .musb => musbDevice
  | .ehci => ehciDevice
  | .ohci => ohciDevice

def devices (body : Nat → Word → List Write → Round (List Write)) : Nat → List Word → List Write → Round (List Write)
  | _, [], s => .goesOn s
  | n, i :: rest, s =>
    match body n i s with
    | .goesOn s => devices body (n + 1) rest s
    | .breaks s => .breaks s
    | .exits s => .exits s

def ether (driver : Driver) (host : Host) (iteration : Nat) : List Write → Round (List Write) :=
  devices (device driver host iteration) 0 (paths (port (host.header iteration) driver) (host.bound iteration))

/-- `bindUnbindtest.sh`, for the devices of the type `ether`. -/
def script (driver : Driver) (host : Host) : Ending (List Write) := rounds (ether driver host) 100 0 []

def status : Ending (List Write) → Nat
  | .done _ => 0
  | .exited _ => 1

/-- The step at which the script fails, if it does. -/
def verdict (driver : Driver) (host : Host) : Option Step := (script driver host).failure.map Write.step

/-! What the script should find. -/

/-- Some line tells of an interface with the driver. -/
def showsAsix (lines : List Word) : Bool :=
  lines.any fun line => decide ("ifc".toList <:+: line) && decide ("asix".toList <:+: line)

/-- The driver is still there, or it is not there again. -/
def wrong (host : Host) (step : Step) : Bool :=
  match step.operation with
  | .unbind => showsAsix (host.contents step)
  | .bind => !showsAsix (host.contents step)

/-- The steps of a run through lists of these lengths. -/
def steps (lengths : Nat → Nat) : List Step :=
  (List.range' 0 100).flatMap fun iteration =>
    (List.range' 0 (lengths iteration)).flatMap fun device =>
      [⟨iteration, device, .unbind⟩, ⟨iteration, device, .bind⟩]

def due (host : Host) : List Step := steps fun iteration => (host.bound iteration).length

def expected (host : Host) : Option Step := (due host).find? (wrong host)

/-- All three come to the verdict that the devices and the listings call for. -/
def AsClaimed (host : Host) : Prop := ∀ driver, verdict driver host = expected host

def StatusAsClaimed (host : Host) : Prop := ∀ driver, status (script driver host) = 0 ↔ expected host = none

/-! The three loops as lists of steps. -/

variable {host : Host} {driver : Driver}

theorem shown_eq_nil_iff (lines : List Word) : shown lines = [] ↔ showsAsix lines = false := by
  have hgrep : grep "asix".toList (grep "ifc".toList lines) = [] ↔ showsAsix lines = false := by
    simp only [grep, showsAsix, List.filter_filter, List.filter_eq_nil_iff, List.any_eq_false]
    exact forall₂_congr fun line _ => by rw [Bool.and_comm]
  rw [← hgrep, shown]
  cases hlines : grep "asix".toList (grep "ifc".toList lines) with
  | nil => simp
  | cons line rest =>
    have hline : line ∈ grep "asix".toList (grep "ifc".toList lines) := by
      rw [hlines]
      exact List.mem_cons_self
    have hne : line ≠ [] := by
      rintro rfl
      simp [grep] at hline
    cases rest with
    | nil => simpa using hne
    | cons next rest => simp [hne]

def fails (host : Host) (driver : Driver) (step : Step) : Bool :=
  match driver with
  | .musb => wrong host step
  | .ehci => !wrong host step
  | .ohci => wrong host step

def writes (iteration : Nat) : Nat → List Word → List Write
  | _, [] => []
  | n, i :: rest =>
    ⟨⟨iteration, n, .unbind⟩, lastNine i⟩ :: ⟨⟨iteration, n, .bind⟩, lastNine i⟩ :: writes iteration (n + 1) rest

theorem shown_bne_nil (lines : List Word) : (shown lines != []) = showsAsix lines := by
  have hiff := shown_eq_nil_iff lines
  cases hshows : showsAsix lines with
  | false => simpa [hshows] using hiff
  | true => simpa [hshows] using hiff

theorem shown_beq_nil (lines : List Word) : (shown lines == []) = !showsAsix lines := by
  rw [← shown_bne_nil, bne, Bool.not_not]

theorem device_eq (driver : Driver) (host : Host) (iteration n : Nat) (i : Word) (s : List Write) :
    device driver host iteration n i s =
      attempt (fun write => fails host driver write.step) (writes iteration n [i]) s := by
  cases driver with
  | musb =>
    simp only [device, musbDevice, etherDevice, writes, attempt, fails, wrong, shown_bne_nil, shown_beq_nil]
  | ohci =>
    simp only [device, ohciDevice, etherDevice, writes, attempt, fails, wrong, shown_bne_nil, shown_beq_nil]
  | ehci =>
    simp only [device, ehciDevice, writes, attempt, fails, wrong, shown_bne_nil, shown_beq_nil, Bool.not_not]

theorem devices_eq (driver : Driver) (host : Host) (iteration n : Nat) (is : List Word) (s : List Write) :
    devices (device driver host iteration) n is s =
      attempt (fun write => fails host driver write.step) (writes iteration n is) s := by
  induction is generalizing n s with
  | nil => rfl
  | cons i rest ih =>
    have hwrites : writes iteration n (i :: rest) = writes iteration n [i] ++ writes iteration (n + 1) rest := rfl
    rw [devices, device_eq, hwrites, attempt_append]
    cases attempt (fun write => fails host driver write.step) (writes iteration n [i]) s with
    | goesOn t => exact ih (n + 1) t
    | breaks t => rfl
    | exits t => rfl

theorem writes_steps (iteration n : Nat) (is : List Word) : (writes iteration n is).map Write.step =
    (List.range' n is.length).flatMap fun device => [⟨iteration, device, .unbind⟩, ⟨iteration, device, .bind⟩] := by
  induction is generalizing n with
  | nil => rfl
  | cons i rest ih =>
    rw [writes, List.map_cons, List.map_cons, ih, List.length_cons, List.range'_succ, List.flatMap_cons]
    rfl

theorem length_paths (port : Word) (bound : List Word) : (paths port bound).length = max 1 bound.length := by
  unfold paths
  split
  next h => simp [h]
  next h =>
    have hpos := List.length_pos_iff.mpr h
    rw [List.length_map, max_eq_right hpos]

/-- The steps that are taken: one pair for the pattern where no device is bound. -/
def taken (host : Host) : List Step := steps fun iteration => max 1 (host.bound iteration).length

def plan (driver : Driver) (host : Host) : List Write :=
  (List.range' 0 100).flatMap fun iteration =>
    writes iteration 0 (paths (port (host.header iteration) driver) (host.bound iteration))

theorem script_eq (driver : Driver) (host : Host) :
    script driver host = (attempt (fun write => fails host driver write.step) (plan driver host) []).ending := by
  have hether : ∀ iteration s, ether driver host iteration s = attempt (fun write => fails host driver write.step)
      (writes iteration 0 (paths (port (host.header iteration) driver) (host.bound iteration))) s :=
    fun iteration s => devices_eq driver host iteration 0 _ s
  rw [script, rounds_attempt hether, plan]

theorem plan_steps (driver : Driver) (host : Host) : (plan driver host).map Write.step = taken host := by
  rw [plan, List.map_flatMap, taken, steps]
  simp only [writes_steps, length_paths]

theorem verdict_eq (driver : Driver) (host : Host) : verdict driver host = (taken host).find? (fails host driver) := by
  rw [verdict, script_eq, failure_attempt, ← plan_steps driver host, List.find?_map]
  rfl

theorem status_eq_zero_iff (driver : Driver) (host : Host) :
    status (script driver host) = 0 ↔ ∀ step ∈ taken host, fails host driver step = false := by
  have hverdict : status (script driver host) = 0 ↔ verdict driver host = none := by
    rw [verdict, script_eq]
    cases hround : attempt (fun write => fails host driver write.step) (plan driver host) [] with
    | goesOn s => exact iff_of_true rfl rfl
    | breaks s => exact iff_of_true rfl rfl
    | exits s =>
      apply iff_of_false Nat.one_ne_zero
      intro hnone
      exact attempt_exits_ne_nil hround (List.getLast?_eq_none_iff.mp (Option.map_eq_none_iff.mp hnone))
  rw [hverdict, verdict_eq, List.find?_eq_none]
  simp only [Bool.not_eq_true]

theorem mem_steps_iff {lengths : Nat → Nat} {step : Step} :
    step ∈ steps lengths ↔ step.iteration < 100 ∧ step.device < lengths step.iteration := by
  obtain ⟨iteration, device, operation⟩ := step
  cases operation with
  | unbind => simp [steps]
  | bind => simp [steps]

theorem taken_cons (host : Host) : ∃ rest, taken host = ⟨0, 0, .unbind⟩ :: rest := by
  have hpos : ∀ n, max 1 n = max 1 n - 1 + 1 := fun n => by omega
  rw [taken, steps, List.range'_succ, List.flatMap_cons, hpos, List.range'_succ, List.flatMap_cons]
  exact ⟨_, rfl⟩

/-- At the first step one of the first two branches fails, and not the other. -/
theorem verdict_ne (host : Host) : verdict .musb host ≠ verdict .ehci host := by
  obtain ⟨rest, htaken⟩ := taken_cons host
  rw [verdict_eq, verdict_eq, htaken]
  have hfails : fails host .ehci ⟨0, 0, .unbind⟩ = !fails host .musb ⟨0, 0, .unbind⟩ := rfl
  intro heq
  cases hfirst : fails host .musb ⟨0, 0, .unbind⟩ with
  | true =>
    rw [hfirst] at hfails
    rw [List.find?_cons_of_pos hfirst] at heq
    have hfound := List.find?_some heq.symm
    rw [hfails] at hfound
    cases hfound
  | false =>
    rw [hfirst] at hfails
    rw [List.find?_cons_of_pos (p := fails host .ehci) hfails] at heq
    have hfound := List.find?_some heq
    rw [hfirst] at hfound
    cases hfound

theorem taken_of_due {step : Step} (h : step ∈ due host) : step ∈ taken host := by
  obtain ⟨hiteration, hdevice⟩ := mem_steps_iff.mp h
  exact mem_steps_iff.mpr ⟨hiteration, by omega⟩

theorem expected_eq_none_iff (host : Host) : expected host = none ↔ ∀ step ∈ due host, wrong host step = false := by
  rw [expected, List.find?_eq_none]
  simp only [Bool.not_eq_true]

/-- Two of the branches are right as long as a device is bound. -/
theorem verdict_right (hdriver : driver ≠ .ehci) (h : ∀ iteration < 100, host.bound iteration ≠ []) :
    verdict driver host = expected host := by
  have htaken : taken host = due host := by
    rw [taken, due, steps, steps]
    apply List.flatMap_congr
    intro iteration hiteration
    have hpos := List.length_pos_iff.mpr (h iteration (List.mem_range'_1.mp hiteration).2)
    rw [max_eq_right hpos]
  rw [verdict_eq, htaken]
  cases driver with
  | musb => rfl
  | ehci => exact absurd rfl hdriver
  | ohci => rfl

/-- The statuses are the wanted ones where a step goes wrong and another one does not. -/
theorem statusAsClaimed_iff (host : Host) : StatusAsClaimed host ↔
    (∃ step ∈ due host, wrong host step = true) ∧ ∃ step ∈ taken host, wrong host step = false := by
  constructor
  · intro h
    have hmusb := h .musb
    have hehci := h .ehci
    rw [status_eq_zero_iff] at hmusb hehci
    have hnot : ¬ ∀ step ∈ due host, wrong host step = false := by
      intro hnone
      obtain ⟨rest, htaken⟩ := taken_cons host
      have hfirst : (⟨0, 0, .unbind⟩ : Step) ∈ taken host := by
        rw [htaken]
        exact List.mem_cons_self
      have hright := hmusb.mpr ((expected_eq_none_iff host).mpr hnone) _ hfirst
      have hwrong := hehci.mpr ((expected_eq_none_iff host).mpr hnone) _ hfirst
      rw [fails] at hright
      rw [fails, hright] at hwrong
      cases hwrong
    constructor
    · by_contra hnone
      exact hnot fun step hstep => Bool.eq_false_iff.mpr fun hwrong => hnone ⟨step, hstep, hwrong⟩
    · by_contra hnone
      apply hnot
      rw [← expected_eq_none_iff]
      apply hehci.mp
      intro step hstep
      rw [fails, Bool.not_eq_false']
      exact Bool.ne_false_iff.mp fun hright => hnone ⟨step, hstep, hright⟩
  · rintro ⟨⟨step, hstep, hwrong⟩, other, hother, hright⟩ driver
    rw [status_eq_zero_iff, expected_eq_none_iff]
    apply iff_of_false
    · intro hnone
      cases driver with
      | musb => exact Bool.false_ne_true ((hnone step (taken_of_due hstep)).symm.trans hwrong)
      | ohci => exact Bool.false_ne_true ((hnone step (taken_of_due hstep)).symm.trans hwrong)
      | ehci =>
        have hfails := hnone other hother
        rw [fails, hright] at hfails
        cases hfails
    · intro hnone
      exact Bool.false_ne_true ((hnone step hstep).symm.trans hwrong)

/-- The three never fail at the same step, and have the wanted statuses only where they fail at several. -/
theorem branches_disagree (host : Host) : ¬ AsClaimed host ∧ (StatusAsClaimed host ↔
    (∃ step ∈ due host, wrong host step = true) ∧ ∃ step ∈ taken host, wrong host step = false) :=
  ⟨fun h => verdict_ne host ((h .musb).trans (h .ehci).symm), statusAsClaimed_iff host⟩

def unboundLine : Word := "I:* If#= 0 Cls=00(>ifc ) Driver=(none)".toList

def boundLine : Word := "I:* If#= 0 Cls=00(>ifc ) Driver=asix".toList

/-- One adapter, whose driver goes and comes back. -/
def healthy : Host where
  header _ := []
  bound _ := ["2:1.0".toList]
  contents step :=
    match step.operation with
    | .unbind => [unboundLine]
    | .bind => [boundLine]

theorem healthy_fails : expected healthy = none ∧ verdict .musb healthy = none ∧ verdict .ohci healthy = none ∧
    verdict .ehci healthy = some ⟨0, 0, .unbind⟩ ∧ ¬ AsClaimed healthy := by
  have hunbound : showsAsix [unboundLine] = false := by decide
  have hbound : showsAsix [boundLine] = true := by decide
  have hright : ∀ step, wrong healthy step = false := by
    rintro ⟨iteration, device, operation⟩
    cases operation with
    | unbind => exact hunbound
    | bind => exact congrArg not hbound
  have hnone : ∀ steps : List Step, steps.find? (wrong healthy) = none := by
    intro steps
    rw [List.find?_eq_none]
    exact fun step _ => by rw [hright step]; exact Bool.false_ne_true
  have hehci : verdict .ehci healthy = some ⟨0, 0, .unbind⟩ := by
    obtain ⟨rest, htaken⟩ := taken_cons healthy
    have hfirst : fails healthy .ehci ⟨0, 0, .unbind⟩ = true := by rw [fails, hright]; rfl
    rw [verdict_eq, htaken, List.find?_cons_of_pos hfirst]
  refine ⟨hnone _, ?_, ?_, hehci, ?_⟩
  · rw [verdict_eq]
    exact hnone _
  · rw [verdict_eq]
    exact hnone _
  · intro h
    have hverdict := h .ehci
    rw [hehci, expected, hnone] at hverdict
    cases hverdict

end BindUnbind

end DeviceDriverTest
