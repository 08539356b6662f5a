import DeviceDriverTest.HandlerUsage

/-! The handler that suspends and resumes an Android system. -/

namespace DeviceDriverTest

namespace AndroidPM

open HandlerUsage
open TestRunner (Word)
open TestRunnerOptions (expand)

inductive Call
  | setWakeUpTimer (timer_value : Word)
  | releaseWakelocks (wakelocks : List Word)
  | holdWakelock (wakelock_to_hold : Word)
  /-- `handlerInputSubsystem.sh keypad` -/
  | keypad (key : String)
  /-- `mem` is written to `$SYSFS_POWER_STATE`. -/
  | mem

/-- The answers to the calls, and `$SYSTEM_WAKE_LOCK`. -/
structure Host extends Shell where
  registered : Word → Bool
  released : List Word → Bool
  held : Word → Bool
  system_wakelocks : Word

variable (host : Host)

def first (operand : Word) : Word := (expand host.directory.names operand).headD []

def isNumber (val : Word) : Bool := !val.isEmpty && val.all Char.isDigit

/-- The operand has no quotes, so it is the first of its words that is looked at. -/
def isPositiveInteger (operand3 : Word) (s : State Call) : State Call :=
  if isNumber (first host operand3) then s else { s with error_val := true }

def environments : List Word := ["android".toList, "kernel".toList]

def methods : List Word := ["force".toList, "timeout".toList]

def statuses : List Word := ["hold".toList, "release".toList]

def checkArguments (argv : List Word) (s : State Call) : Flow Call :=
  if operand argv 0 = "suspend".toList then
    (check (argv.length = 4) s).andThen fun s =>
    (check (countsOne host.toShell environments (operand argv 1)) s).andThen fun s =>
    (check (countsOne host.toShell methods (operand argv 2)) s).andThen fun s =>
    verifyErrorFlag (isPositiveInteger host (operand argv 3) s)
  else if operand argv 0 = "resume".toList then
    (check (argv.length = 2) s).andThen fun s =>
    check (countsOne host.toShell environments (operand argv 1)) s
  else if operand argv 0 = "wakelock".toList then
    (check (argv.length = 3) s).andThen fun s =>
    check (countsOne host.toShell statuses (operand argv 1)) s
  else check false s

def holdWakelock (name : Word) : State Call → Flow Call := verified (.holdWakelock name) (host.held name)

def releaseWakelocks (names : List Word) : State Call → Flow Call :=
  verified (.releaseWakelocks names) (host.released names)

def releaseSystem : State Call → Flow Call :=
  releaseWakelocks host (expand host.directory.names host.system_wakelocks)

def setWakeUpTimer (operand3 : Word) : State Call → Flow Call :=
  verified (.setWakeUpTimer (first host operand3)) (host.registered (first host operand3))

def suspend (environment_type suspend_method wakeup_timer : Word) (s : State Call) : Flow Call :=
  (setWakeUpTimer host wakeup_timer s).andThen fun s =>
  if environment_type = "android".toList then
    if equals host.toShell suspend_method "force".toList then
      (releaseSystem host s).andThen (perform (.keypad "KeyCodeEndCall"))
    else if equals host.toShell suspend_method "timeout".toList then releaseSystem host s
    else .goesOn s
  else if environment_type = "kernel".toList then
    if equals host.toShell suspend_method "force".toList then (releaseSystem host s).andThen (perform .mem)
    else if equals host.toShell suspend_method "timeout".toList then releaseSystem host s
    else .goesOn s
  else .goesOn s

def test_wakelock : Word := "android_test_wakelock".toList

/-- The kernel has said that the system is back: the script waits for that first, whatever its operand is. -/
def resume (environment_type : Word) (s : State Call) : Flow Call :=
  if environment_type = "android".toList then
    (holdWakelock host test_wakelock s).andThen fun s =>
    (perform (.keypad "KeyCodeEndCall") s).andThen (perform (.keypad "KeyCodeF1"))
  else if environment_type = "kernel".toList then holdWakelock host test_wakelock s
  else .goesOn s

def wakelock (wakelock_status wakelock_name : Word) (s : State Call) : Flow Call :=
  if equals host.toShell wakelock_status "hold".toList then holdWakelock host (first host wakelock_name) s
  else if equals host.toShell wakelock_status "release".toList then
    releaseWakelocks host (expand host.directory.names wakelock_name) s
  else .goesOn s

def operate (argv : List Word) (s : State Call) : Flow Call :=
  if operand argv 0 = "suspend".toList then suspend host (operand argv 1) (operand argv 2) (operand argv 3) s
  else if operand argv 0 = "resume".toList then resume host (operand argv 1) s
  else if operand argv 0 = "wakelock".toList then wakelock host (operand argv 1) (operand argv 2) s
  else .goesOn s

def handler : String := "handlerAndroidPM.sh"

def main (files : HandlerError.Files String) (argv : List Word) : End Call :=
  if (HandlerError.test files).exit = 1 then ⟨1, files, []⟩
  else finish handler files ((checkArguments host argv ⟨false, []⟩).andThen (operate host argv))

/-- The usage text. -/
inductive InGrammar : List Word → Prop
  | suspend {environment method timer : Word} (henvironment : environment ∈ environments) (hmethod : method ∈ methods)
      (htimer : isNumber timer = true) : InGrammar ["suspend".toList, environment, method, timer]
  | resume {environment : Word} (henvironment : environment ∈ environments) : InGrammar ["resume".toList, environment]
  | wakelock {status : Word} (hstatus : status ∈ statuses) (name : Word) : InGrammar ["wakelock".toList, status, name]

/-- The one check that works. -/
def Unnumbered (argv : List Word) : Prop :=
  operand argv 0 = "suspend".toList ∧ isNumber (first host (operand argv 3)) = false

variable {host} {argv : List Word} {files : HandlerError.Files String}

/-! What the checks let through. -/

theorem isNumber_wordy {timer : Word} (h : isNumber timer = true) : Wordy timer := by
  rw [isNumber, Bool.and_eq_true] at h
  obtain ⟨hne, hdigits⟩ := h
  refine ⟨by simpa using hne, ?_⟩
  intro c hc
  left
  rw [Char.isAlphanum, List.all_eq_true.mp hdigits c hc, Bool.or_true]

theorem first_wordy {word : Word} (h : Wordy word) : first host word = word := by
  rw [first, h.expand]
  rfl

theorem InGrammar.operation (h : InGrammar argv) :
    (operand argv 0 = "suspend".toList ∧ isNumber (operand argv 3) = true) ∨
      (operand argv 0 = "resume".toList ∧ operand argv 1 ∈ environments) ∨
        operand argv 0 = "wakelock".toList ∧ operand argv 1 ∈ statuses := by
  cases h with
  | suspend henvironment hmethod htimer => exact Or.inl ⟨rfl, htimer⟩
  | resume henvironment => exact Or.inr (Or.inl ⟨rfl, henvironment⟩)
  | wakelock hstatus name => exact Or.inr (Or.inr ⟨rfl, hstatus⟩)

theorem InGrammar.numbered (h : InGrammar argv) : ¬ Unnumbered host argv := by
  rintro ⟨hoperation, hnumber⟩
  obtain ⟨-, htimer⟩ | ⟨hother, -⟩ | ⟨hother, -⟩ := h.operation
  · rw [first_wordy (isNumber_wordy htimer), htimer] at hnumber
    cases hnumber
  · exact absurd (hoperation.symm.trans hother) (by decide)
  · exact absurd (hoperation.symm.trans hother) (by decide)

theorem InGrammar.environment (h : InGrammar argv) (hoperation : operand argv 0 = "resume".toList) :
    operand argv 1 ∈ environments := by
  obtain ⟨hother, -⟩ | ⟨-, henvironment⟩ | ⟨hother, -⟩ := h.operation
  · exact absurd (hoperation.symm.trans hother) (by decide)
  · exact henvironment
  · exact absurd (hoperation.symm.trans hother) (by decide)

theorem InGrammar.status (h : InGrammar argv) (hoperation : operand argv 0 = "wakelock".toList) :
    operand argv 1 ∈ statuses := by
  obtain ⟨hother, -⟩ | ⟨hother, -⟩ | ⟨-, hstatus⟩ := h.operation
  · exact absurd (hoperation.symm.trans hother) (by decide)
  · exact absurd (hoperation.symm.trans hother) (by decide)
  · exact hstatus

theorem checkArguments_suspend (h : operand argv 0 = "suspend".toList) :
    checkArguments host argv ⟨false, []⟩ = verifyErrorFlag (isPositiveInteger host (operand argv 3) ⟨false, []⟩) := by
  rw [checkArguments, if_pos h, check_goesOn rfl, Flow.andThen, check_goesOn rfl, Flow.andThen, check_goesOn rfl,
    Flow.andThen]

theorem checkArguments_other (h : operand argv 0 ≠ "suspend".toList) :
    checkArguments host argv ⟨false, []⟩ = .goesOn ⟨false, []⟩ := by
  rw [checkArguments, if_neg h]
  split
  · rw [check_goesOn rfl]
    exact check_goesOn rfl _
  · split
    · rw [check_goesOn rfl]
      exact check_goesOn rfl _
    · exact check_goesOn rfl _

/-! Where the script acts. -/

theorem releaseSystem_calls (s : State Call) : (releaseSystem host s).calls ≠ [] := verified_calls _ _ s

theorem suspend_calls (environment_type suspend_method wakeup_timer : Word) (s : State Call) :
    (suspend host environment_type suspend_method wakeup_timer s).calls ≠ [] := by
  apply andThen_calls (verified_calls _ _ s)
  intro s hs
  have hkeypad : ∀ call : Call, ((releaseSystem host s).andThen (perform call)).calls ≠ [] := fun call =>
    andThen_calls (releaseSystem_calls s) fun s _ => perform_calls call s
  split
  · split
    · apply hkeypad
    · split
      · apply releaseSystem_calls
      · exact hs
  · split
    · split
      · apply hkeypad
      · split
        · apply releaseSystem_calls
        · exact hs
    · exact hs

theorem resume_calls {environment : Word} (h : environment ∈ environments) (s : State Call) :
    (resume host environment s).calls ≠ [] := by
  rw [environments, List.mem_pair] at h
  unfold resume
  obtain rfl | rfl := h
  · rw [if_pos rfl]
    apply andThen_calls (verified_calls _ _ s)
    intro s hs
    exact andThen_calls (perform_calls _ s) fun s _ => perform_calls _ s
  · rw [if_neg (by decide), if_pos rfl]
    apply verified_calls

theorem resume_silent {environment : Word} (h : environment ∉ environments) (s : State Call) :
    resume host environment s = .goesOn s := by
  rw [environments, List.mem_pair, not_or] at h
  rw [resume, if_neg h.1, if_neg h.2]

theorem wakelock_calls {status name : Word}
    (h : equals host.toShell status "hold".toList = true ∨ equals host.toShell status "release".toList = true)
    (s : State Call) : (wakelock host status name s).calls ≠ [] := by
  unfold wakelock
  split
  · apply verified_calls
  next hhold =>
    rw [if_pos (h.resolve_left hhold)]
    apply verified_calls

theorem status_equals {status : Word} (h : status ∈ statuses) :
    equals host.toShell status "hold".toList = true ∨ equals host.toShell status "release".toList = true := by
  rw [statuses, List.mem_pair] at h
  obtain rfl | rfl := h
  · left
    rw [Wordy.equals (by decide)]
    rfl
  · right
    rw [Wordy.equals (by decide)]
    rfl

theorem operate_resume (h : operand argv 0 = "resume".toList) (s : State Call) :
    operate host argv s = resume host (operand argv 1) s := by
  rw [operate, h, if_neg (by decide), if_pos rfl]

theorem operate_wakelock (h : operand argv 0 = "wakelock".toList) (s : State Call) :
    operate host argv s = wakelock host (operand argv 1) (operand argv 2) s := by
  rw [operate, h, if_neg (by decide), if_neg (by decide), if_pos rfl]

/-- Without the check of the number the script acts, or it ends as if nothing were wrong. -/
theorem asClaimed_operate_iff (h : operand argv 0 ≠ "suspend".toList) :
    AsClaimed (InGrammar argv) handler (finish handler files (operate host argv ⟨false, []⟩)) ↔ InGrammar argv := by
  by_cases hresume : operand argv 0 = "resume".toList
  · rw [operate_resume hresume]
    by_cases henvironment : operand argv 1 ∈ environments
    · exact asClaimed_acts (resume_calls henvironment _)
    · rw [resume_silent henvironment]
      exact iff_of_false asClaimed_silent fun hgrammar => henvironment (hgrammar.environment hresume)
  by_cases hwakelock : operand argv 0 = "wakelock".toList
  · rw [operate_wakelock hwakelock]
    by_cases hstatus : equals host.toShell (operand argv 1) "hold".toList = true ∨
        equals host.toShell (operand argv 1) "release".toList = true
    · exact asClaimed_acts (wakelock_calls hstatus _)
    · have hnot := hstatus
      rw [not_or] at hnot
      rw [wakelock, if_neg hnot.1, if_neg hnot.2]
      exact iff_of_false asClaimed_silent fun hgrammar => hstatus (status_equals (hgrammar.status hwakelock))
  · rw [operate, if_neg h, if_neg hresume, if_neg hwakelock]
    apply iff_of_false asClaimed_silent
    intro hgrammar
    obtain ⟨hsuspend, -⟩ | ⟨hother, -⟩ | ⟨hother, -⟩ := hgrammar.operation
    · exact h hsuspend
    · exact hresume hother
    · exact hwakelock hother

theorem asClaimed_iff (hgate : files.halt = none) :
    AsClaimed (InGrammar argv) handler (main host files argv) ↔ InGrammar argv ∨ Unnumbered host argv := by
  rw [main, if_neg ((HandlerError.test_exit_ne_iff files).mpr hgate)]
  by_cases hsuspend : operand argv 0 = "suspend".toList
  · rw [checkArguments_suspend hsuspend, isPositiveInteger]
    cases hnumber : isNumber (first host (operand argv 3)) with
    | true =>
      have hacts : (operate host argv ⟨false, []⟩).calls ≠ [] := by
        rw [operate, if_pos hsuspend]
        apply suspend_calls
      have hnot : ¬ Unnumbered host argv := fun h => Bool.false_ne_true (h.2.symm.trans hnumber)
      rw [if_pos rfl, or_iff_left hnot]
      exact asClaimed_acts hacts
    | false =>
      have hunnumbered : Unnumbered host argv := ⟨hsuspend, hnumber⟩
      rw [if_neg Bool.false_ne_true]
      refine asClaimed_exits.trans ?_
      exact iff_of_true (fun h => h.numbered hunnumbered) (Or.inr hunnumbered)
  · have hnot : ¬ Unnumbered host argv := fun h => hsuspend h.1
    rw [checkArguments_other hsuspend, or_iff_left hnot]
    exact asClaimed_operate_iff hsuspend

end AndroidPM

end DeviceDriverTest
