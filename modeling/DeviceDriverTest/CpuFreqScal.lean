import DeviceDriverTest.HandlerError

/-! The handler that sets the frequencies of the processor, behind the governor `userspace`, and
the handler of the governors. -/

namespace DeviceDriverTest

namespace CpuFreqScal

/-- What the handlers find. `readBack k` is the frequency read after the one with the number `k` was
set, and `rounds` says after how many rounds the command of `run` is still there. -/
structure Host where
  availableFrequencies : Bool
  setSpeed : Bool
  governorFiles : Bool
  governors : List String
  frequencies : List Nat
  readBack : Nat → Nat
  rounds : Nat

structure World where
  files : HandlerError.Files String
  governor : String
  /-- `$HCFSG_CURRENT_GOVERNOR_FILE`, where it exists. -/
  saved : Option String

inductive GovernorOperation
  | get
  | set (governor : String)
  | restore

def setGovernor (host : Host) (governor : String) (w : World) : World :=
  if host.governors.contains governor then { w with governor := governor } else w

def operate (host : Host) (w : World) : GovernorOperation → World × Nat
  | .get => ({ w with saved := some w.governor }, 0)
  | .set governor => (setGovernor host governor w, if host.governors.contains governor then 0 else 1)
  | .restore =>
    match w.saved with
    | some governor => (setGovernor host governor w, 0)
    | none => (w, 0)

def halted (w : World) (handler : String) : World :=
  { w with files := HandlerError.log w.files HandlerError.failed .halt handler }

/-- `handlerCpuFreqScalGovernors.sh`, with its exit status. -/
def governorHandler (host : Host) (operation : GovernorOperation) (w : World) : World × Nat :=
  if (HandlerError.test w.files).exit = 1 then (w, 1)
  else if !host.governorFiles then (halted w "handlerCpuFreqScalGovernors.sh", 1)
  else operate host w operation

structure Setting where
  frequency : Nat
  readBack : Nat

structure State where
  sets : List Setting
  error : Bool

/-- The frequency for the number of an OPP: the last one for a number that is too large, none for zero. -/
def chosen (frequencies : List Nat) (number : Nat) : Option Nat :=
  let number := if number > frequencies.length then frequencies.length else number
  if number = 0 then none else frequencies[number - 1]?

def setOneFrequency (host : Host) (number : Nat) : List Setting :=
  match chosen host.frequencies number with
  | none => []
  | some frequency => [⟨frequency, host.readBack 0⟩]

/-- The loop `for i in $LOCAL_FREQUENCIES_LIST_AVAILABLE`. -/
def setEach (host : Host) (frequencies : List Nat) (s : State) : State :=
  frequencies.foldl (fun s i =>
    let current := host.readBack s.sets.length
    ⟨s.sets ++ [⟨i, current⟩], if i ≠ current then true else s.error⟩) s

def setRounds (host : Host) : Nat → State → State
  | 0, s => s
  | n + 1, s => setRounds host n (setEach host host.frequencies s)

/-- How often `while [ 1 ]` goes through the list: without a command, once. -/
def roundsOf (host : Host) (command : Bool) : Nat := if command then host.rounds + 1 else 1

def setAllFrequencies (host : Host) (command : Bool) : State := setRounds host (roundsOf host command) ⟨[], false⟩

/-- The operand of `set` and `run`, and whether `run` has a command. -/
inductive Request
  | one (number : Nat) (command : Bool)
  | all (command : Bool)

structure Report where
  status : Nat
  sets : List Setting
  world : World

def fatal (w : World) : Report where
  status := 1
  sets := []
  world := halted w "handlerCpuFreqScalFrequencies.sh"

/-- `exit $LOCAL_ERROR` gives the status of the handler before it, for the variable is not set. -/
def finish (host : Host) (sets : List Setting) (w : World) : Report :=
  let r := governorHandler host .restore w
  ⟨r.2, sets, r.1⟩

def main (host : Host) (w : World) (request : Request) : Report :=
  if (HandlerError.test w.files).exit = 1 then ⟨1, [], w⟩
  else if !host.availableFrequencies then fatal w
  else if !host.setSpeed then fatal w
  else
    let w := (governorHandler host .get w).1
    let w := (governorHandler host (.set "userspace") w).1
    match request with
    | .one number _ => finish host (setOneFrequency host number) w
    | .all command =>
      let s := setAllFrequencies host command
      if s.error then ⟨1, s.sets, w⟩ else finish host s.sets w

/-- The frequencies that a request is to set. -/
def requested (host : Host) : Request → List Nat
  | .one number _ => (chosen host.frequencies number).toList
  | .all command => (List.replicate (roundsOf host command) host.frequencies).flatten

/-- Some frequency is read back different. -/
def Mismatch (host : Host) (request : Request) : Prop :=
  ∃ k frequency, (requested host request)[k]? = some frequency ∧ frequency ≠ host.readBack k

/-- No error is latched and the files of the frequencies are there; a governor can be set that was active. -/
structure Ready (host : Host) (w : World) : Prop where
  halt : w.files.halt = none
  availableFrequencies : host.availableFrequencies = true
  setSpeed : host.setSpeed = true
  active : w.governor ∈ host.governors

structure FrequencyHandled (host : Host) (w : World) (request : Request) : Prop where
  status : (main host w request).status ≠ 0 ↔ ∃ x ∈ (main host w request).sets, x.frequency ≠ x.readBack
  governor : (main host w request).world.governor = w.governor

/-! What is set. -/

def settings (host : Host) (k : Nat) : List Nat → List Setting
  | [] => []
  | frequency :: frequencies => ⟨frequency, host.readBack k⟩ :: settings host (k + 1) frequencies

variable {host : Host} {w : World} {request : Request}

theorem mem_settings_iff {k : Nat} {frequencies : List Nat} {x : Setting} : x ∈ settings host k frequencies ↔
    ∃ j frequency, frequencies[j]? = some frequency ∧ x = ⟨frequency, host.readBack (k + j)⟩ := by
  induction frequencies generalizing k with
  | nil => simp [settings]
  | cons frequency frequencies ih =>
    rw [settings, List.mem_cons, ih]
    constructor
    · rintro (rfl | ⟨j, other, hother, rfl⟩)
      · exact ⟨0, frequency, rfl, rfl⟩
      · exact ⟨j + 1, other, hother, by rw [Nat.add_assoc, Nat.add_comm 1 j]⟩
    · rintro ⟨j, other, hother, rfl⟩
      cases j with
      | zero =>
        rw [List.getElem?_cons_zero] at hother
        rw [Option.some.inj hother]
        exact Or.inl rfl
      | succ j => exact Or.inr ⟨j, other, hother, by rw [Nat.add_assoc, Nat.add_comm 1 j]⟩

def differs (x : Setting) : Bool := decide (x.frequency ≠ x.readBack)

/-- What the list adds to a state, and when it sets the flag. -/
theorem setEach_eq (host : Host) (frequencies : List Nat) (s : State) : setEach host frequencies s =
    ⟨s.sets ++ settings host s.sets.length frequencies,
      s.error || (settings host s.sets.length frequencies).any differs⟩ := by
  induction frequencies generalizing s with
  | nil => simp [setEach, settings]
  | cons frequency frequencies ih =>
    have hcons : setEach host (frequency :: frequencies) s = setEach host frequencies
        ⟨s.sets ++ [⟨frequency, host.readBack s.sets.length⟩],
          if frequency ≠ host.readBack s.sets.length then true else s.error⟩ := rfl
    rw [hcons, ih]
    by_cases h : frequency = host.readBack s.sets.length <;> simp [settings, differs, h]

theorem setRounds_eq (host : Host) (n : Nat) (s : State) :
    setRounds host n s = setEach host (List.replicate n host.frequencies).flatten s := by
  induction n generalizing s with
  | zero => rfl
  | succ n ih =>
    rw [setRounds, ih, List.replicate_succ, List.flatten_cons, setEach, setEach, setEach, List.foldl_append]

theorem setAllFrequencies_eq (host : Host) (command : Bool) : setAllFrequencies host command =
    ⟨settings host 0 (requested host (.all command)), (settings host 0 (requested host (.all command))).any differs⟩ := by
  rw [setAllFrequencies, setRounds_eq, setEach_eq]
  rfl

theorem setOneFrequency_eq (host : Host) (number : Nat) (command : Bool) :
    setOneFrequency host number = settings host 0 (requested host (.one number command)) := by
  rw [setOneFrequency, requested]
  cases chosen host.frequencies number <;> rfl

theorem differs_iff : (∃ x ∈ settings host 0 (requested host request), x.frequency ≠ x.readBack) ↔
    Mismatch host request := by
  constructor
  · rintro ⟨x, hx, hne⟩
    obtain ⟨j, frequency, hj, rfl⟩ := mem_settings_iff.mp hx
    rw [Nat.zero_add] at hne
    exact ⟨j, frequency, hj, hne⟩
  · rintro ⟨j, frequency, hj, hne⟩
    refine ⟨_, mem_settings_iff.mpr ⟨j, frequency, hj, rfl⟩, ?_⟩
    rw [Nat.zero_add]
    exact hne

theorem any_differs_iff : (settings host 0 (requested host request)).any differs = true ↔ Mismatch host request := by
  rw [← differs_iff, List.any_eq_true]
  simp only [differs, decide_eq_true_eq]

/-! The governor. -/

/-- The governor between the two handlers. -/
def governorBetween (host : Host) (w : World) : String :=
  if host.governors.contains "userspace" then "userspace" else w.governor

def between (host : Host) (w : World) : World :=
  (governorHandler host (.set "userspace") (governorHandler host .get w).1).1

theorem governorHandler_available (hhalt : w.files.halt = none) (hfiles : host.governorFiles = true)
    (operation : GovernorOperation) : governorHandler host operation w = operate host w operation := by
  rw [governorHandler, if_neg ((HandlerError.test_exit_ne_iff w.files).mpr hhalt), hfiles]
  rfl

theorem governorHandler_halted (hexit : (HandlerError.test w.files).exit = 1) (operation : GovernorOperation) :
    governorHandler host operation w = (w, 1) := by
  rw [governorHandler, if_pos hexit]

theorem between_available (hready : Ready host w) (hfiles : host.governorFiles = true) :
    between host w = ⟨w.files, governorBetween host w, some w.governor⟩ := by
  rw [between, governorHandler_available hready.halt hfiles, governorHandler_available (by exact hready.halt) hfiles]
  unfold operate setGovernor governorBetween
  dsimp only
  split <;> rfl

theorem finish_available (hready : Ready host w) (hfiles : host.governorFiles = true) (sets : List Setting) :
    finish host sets (between host w) = ⟨0, sets, ⟨w.files, w.governor, some w.governor⟩⟩ := by
  have hactive : host.governors.contains w.governor = true := List.contains_iff_mem.mpr hready.active
  rw [finish, between_available hready hfiles, governorHandler_available (by exact hready.halt) hfiles]
  unfold operate setGovernor
  dsimp only
  rw [if_pos hactive]

/-- Without its files the handler of the governors latches an error and leaves the governor alone. -/
theorem between_unavailable (hready : Ready host w) (hfiles : host.governorFiles = false) :
    between host w = halted w "handlerCpuFreqScalGovernors.sh" := by
  have hget : governorHandler host .get w = (halted w "handlerCpuFreqScalGovernors.sh", 1) := by
    rw [governorHandler, if_neg ((HandlerError.test_exit_ne_iff w.files).mpr hready.halt), hfiles]
    rfl
  rw [between, hget, governorHandler_halted]
  rfl

theorem finish_unavailable (hready : Ready host w) (hfiles : host.governorFiles = false) (sets : List Setting) :
    finish host sets (between host w) = ⟨1, sets, between host w⟩ := by
  rw [finish, governorHandler_halted]
  rw [between_unavailable hready hfiles]
  rfl

theorem main_one (hready : Ready host w) (number : Nat) (command : Bool) : main host w (.one number command) =
    finish host (settings host 0 (requested host (.one number command))) (between host w) := by
  have hexit := (HandlerError.test_exit_ne_iff w.files).mpr hready.halt
  rw [main, if_neg hexit, hready.availableFrequencies, hready.setSpeed, ← setOneFrequency_eq]
  rfl

theorem main_all (hready : Ready host w) (command : Bool) : main host w (.all command) =
    if (settings host 0 (requested host (.all command))).any differs then
      ⟨1, settings host 0 (requested host (.all command)), between host w⟩
    else finish host (settings host 0 (requested host (.all command))) (between host w) := by
  have hexit := (HandlerError.test_exit_ne_iff w.files).mpr hready.halt
  rw [main, if_neg hexit, hready.availableFrequencies, hready.setSpeed, Bool.not_true, if_neg Bool.false_ne_true,
    if_neg Bool.false_ne_true]
  dsimp only
  rw [setAllFrequencies_eq]
  rfl

/-- The governor is the one from before the call at each end, but for the one inside `setAllFrequencies`. -/
theorem governorBetween_eq_iff : governorBetween host w = w.governor ↔ w.governor = "userspace" ∨ "userspace" ∉ host.governors := by
  rw [governorBetween]
  by_cases h : "userspace" ∈ host.governors
  · rw [if_pos (List.contains_iff_mem.mpr h), or_iff_left (not_not_intro h)]
    exact eq_comm
  · rw [if_neg (mt List.contains_iff_mem.mp h)]
    exact iff_of_true rfl (Or.inr h)

theorem handled_of_eq {status : Nat} {world : World}
    (h : main host w request = ⟨status, settings host 0 (requested host request), world⟩) :
    FrequencyHandled host w request ↔ (status ≠ 0 ↔ Mismatch host request) ∧ world.governor = w.governor := by
  constructor
  · intro hhandled
    obtain ⟨hstatus, hgovernor⟩ := hhandled
    rw [h] at hstatus hgovernor
    exact ⟨hstatus.trans differs_iff, hgovernor⟩
  · intro hright
    obtain ⟨hstatus, hgovernor⟩ := hright
    constructor
    · rw [h]
      exact hstatus.trans differs_iff.symm
    · rw [h]
      exact hgovernor

def Request.isAll : Request → Bool
  | .one _ _ => false
  | .all _ => true

theorem handled_available (hready : Ready host w) (hfiles : host.governorFiles = true) :
    FrequencyHandled host w request ↔ (Mismatch host request →
      request.isAll = true ∧ (w.governor = "userspace" ∨ "userspace" ∉ host.governors)) := by
  cases request with
  | one number command =>
    rw [handled_of_eq ((main_one hready number command).trans (finish_available hready hfiles _)), and_iff_left rfl]
    constructor
    · intro h hmismatch
      exact absurd rfl (h.mpr hmismatch)
    · intro h
      exact iff_of_false (fun hne => hne rfl) fun hmismatch => Bool.false_ne_true (h hmismatch).1
  | all command =>
    have hmain := main_all hready command
    cases hany : (settings host 0 (requested host (.all command))).any differs with
    | true =>
      have hmismatch := any_differs_iff.mp hany
      rw [hany, if_pos rfl] at hmain
      rw [handled_of_eq hmain, and_iff_right (iff_of_true Nat.one_ne_zero hmismatch), between_available hready hfiles,
        governorBetween_eq_iff]
      exact ⟨fun h _ => ⟨rfl, h⟩, fun h => (h hmismatch).2⟩
    | false =>
      have hmismatch : ¬ Mismatch host (.all command) :=
        fun h => Bool.false_ne_true (hany.symm.trans (any_differs_iff.mpr h))
      rw [hany, if_neg Bool.false_ne_true, finish_available hready hfiles] at hmain
      rw [handled_of_eq hmain, and_iff_left rfl]
      exact iff_of_true (iff_of_false (fun hne => hne rfl) hmismatch) fun h => absurd h hmismatch

theorem handled_unavailable (hready : Ready host w) (hfiles : host.governorFiles = false) :
    FrequencyHandled host w request ↔ Mismatch host request := by
  have hgovernor : (between host w).governor = w.governor := by
    rw [between_unavailable hready hfiles]
    rfl
  have hmain : main host w request = ⟨1, settings host 0 (requested host request), between host w⟩ := by
    cases request with
    | one number command => rw [main_one hready, finish_unavailable hready hfiles]
    | all command => rw [main_all hready, finish_unavailable hready hfiles, ite_self]
  rw [handled_of_eq hmain, and_iff_left hgovernor]
  exact ⟨fun h => h.mp Nat.one_ne_zero, fun h => iff_of_true Nat.one_ne_zero h⟩

/-- Two frequencies, and after the second one 300000 is read. -/
def stuck : Host where
  availableFrequencies := true
  setSpeed := true
  governorFiles := true
  governors := ["ondemand", "userspace"]
  frequencies := [300000, 600000]
  readBack _ := 300000
  rounds := 0

def ondemand : World := ⟨HandlerError.clean, "ondemand", none⟩

theorem stuck_ready : Ready stuck ondemand := ⟨rfl, rfl, rfl, List.mem_cons_self⟩

end CpuFreqScal

end DeviceDriverTest
