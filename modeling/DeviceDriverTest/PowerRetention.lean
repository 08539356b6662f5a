import DeviceDriverTest.PowerTransitionStats

/-! The two retention checks over the power transition statistics. Each logs
the counters of a domain, lets the system idle or suspend, logs them again and
compares. -/

namespace DeviceDriverTest

namespace PowerRetention

open PowerTransitionStats

def checkRetention (sh : Shell) (moments : Nat → Moment) (args : List String) (tmp : Tmp) : Nat × Tmp :=
  let LOCAL_POWER_DOMAIN := sh.expand (args.getD 0 "")
  let tmp := (handlerPowerTransitionStats sh (moments 0) (["log"] ++ LOCAL_POWER_DOMAIN ++ ["RET", "1"]) tmp).2
  -- the command, if any, and the sleep
  let tmp := (handlerPowerTransitionStats sh (moments 1) (["log"] ++ LOCAL_POWER_DOMAIN ++ ["RET", "2"]) tmp).2
  let compared := handlerPowerTransitionStats sh (moments 2) ["compare", "RET", "1", "2"] tmp
  (if compared.1 = 1 then 1 else 0, compared.2)

/-- A suspend, the second log of both counters and their comparison. -/
def suspendRound (sh : Shell) (moments : Nat → Moment) (first : Nat) (LOCAL_POWER_DOMAIN : List String)
    (before after : String) (LOCAL_ERROR : Nat) (tmp : Tmp) : Nat × Tmp :=
  let tmp := (handlerPowerTransitionStats sh (moments first)
    (["log"] ++ LOCAL_POWER_DOMAIN ++ ["RET", after]) tmp).2
  let tmp := (handlerPowerTransitionStats sh (moments (first + 1))
    (["log"] ++ LOCAL_POWER_DOMAIN ++ ["RET-LOGIC-OFF", after]) tmp).2
  let ret := handlerPowerTransitionStats sh (moments (first + 2)) ["compare", "RET", before, after] tmp
  let LOCAL_ERROR := if ret.1 = 1 then 1 else LOCAL_ERROR
  let off := handlerPowerTransitionStats sh (moments (first + 3))
    ["compare", "RET-LOGIC-OFF", before, after] ret.2
  (if off.1 = 1 then 1 else LOCAL_ERROR, off.2)

def checkRetentionOpenSwitch (sh : Shell) (moments : Nat → Moment) (args : List String) (tmp : Tmp) :
    Nat × Tmp :=
  let LOCAL_POWER_DOMAIN := sh.expand (args.getD 0 "")
  let LOCAL_COMMAND_LINE := args.getD 1 ""
  let tmp := (handlerPowerTransitionStats sh (moments 0) (["log"] ++ LOCAL_POWER_DOMAIN ++ ["RET", "1"]) tmp).2
  let tmp := (handlerPowerTransitionStats sh (moments 1)
    (["log"] ++ LOCAL_POWER_DOMAIN ++ ["RET-LOGIC-OFF", "1"]) tmp).2
  let round := suspendRound sh moments 2 LOCAL_POWER_DOMAIN "1" "2" 0 tmp
  if LOCAL_COMMAND_LINE = "" then round
  else suspendRound sh moments 6 LOCAL_POWER_DOMAIN "2" "3" round.1 round.2

structure Surroundings where
  shell : Shell
  files : HandlerError.Files String
  cpu1Online : Bool
  moments : Nat → Moment

def handlerPowerRetention (around : Surroundings) (operation domain command : String) (tmp : Tmp) : Nat × Tmp :=
  if (HandlerError.test around.files).exit = 1 then (1, tmp)
  -- without `$SYSFS_FB_BLANK` the script goes on
  else if around.cpu1Online = false then (1, tmp)
  -- these two write to sysfs only
  else if operation = "enable" ∨ operation = "disable" then (0, tmp)
  else if operation = "check" then
    checkRetention around.shell around.moments (around.shell.expand domain) tmp
  else if operation = "run" then
    checkRetention around.shell around.moments (around.shell.expand domain ++ [command]) tmp
  else (1, tmp)

def handlerPowerOSWR (around : Surroundings) (operation domain command : String) (tmp : Tmp) : Nat × Tmp :=
  if (HandlerError.test around.files).exit = 1 then (1, tmp)
  else if operation = "check" then
    checkRetentionOpenSwitch around.shell around.moments (around.shell.expand domain) tmp
  else if operation = "run" then
    checkRetentionOpenSwitch around.shell around.moments (around.shell.expand domain ++ [command]) tmp
  else (1, tmp)

/-! Counters of a domain. -/

def rowName (row : String) : String :=
  String.ofList (row.toList.takeWhile fun c => c ≠ ' ' ∧ c ≠ ',')

/-- The counter labelled `label` in the row of exactly this domain. -/
def counter (table : List String) (domain label : String) : Option Nat :=
  (table.find? (rowName · = domain)).bind fun row =>
    ((row.toList.splitOn ',').find? ((label ++ ":").toList.isPrefixOf ·)).bind fun field =>
      number? (field.drop (label ++ ":").toList.length)

def Increased (before after : List String) (domain label : String) : Prop :=
  ∃ m n, counter before domain label = some m ∧ counter after domain label = some n ∧ m < n

inductive Script
  | retention
  | openSwitch

structure Check where
  script : Script
  domain : String
  command : Option String
  around : Surroundings

def Check.operation (c : Check) : String := if c.command = none then "check" else "run"

def Check.run (c : Check) (tmp : Tmp) : Nat × Tmp :=
  match c.script with
  | .retention => handlerPowerRetention c.around c.operation c.domain (c.command.getD "") tmp
  | .openSwitch => handlerPowerOSWR c.around c.operation c.domain (c.command.getD "") tmp

def Check.table (c : Check) (k : Nat) : List String := (c.around.moments k).pmCount

/-- The counters a check is about increase between its log steps; with a command
the open switch check has a second round. -/
def Check.Increases (c : Check) : Prop :=
  match c.script with
  | .retention => Increased (c.table 0) (c.table 1) c.domain "RET"
  | .openSwitch =>
    Increased (c.table 0) (c.table 2) c.domain "RET" ∧
      Increased (c.table 1) (c.table 3) c.domain "RET-LOGIC-OFF" ∧
      (c.command.getD "" ≠ "" →
        Increased (c.table 2) (c.table 6) c.domain "RET" ∧
          Increased (c.table 3) (c.table 7) c.domain "RET-LOGIC-OFF")

/-- The log files after a history of checks; at first there are none. -/
def afterChecks (history : List Check) : Tmp :=
  history.foldl (fun tmp c => (c.run tmp).2) fun _ => none

/-! The comparisons. -/

theorem call_compare (sh : Shell) (now : Moment) (pwrdm pwr_state log_name : String) (tmp : Tmp) :
    handlerPowerTransitionStats sh now ["compare", pwrdm, pwr_state, log_name] tmp =
      if (HandlerError.test now.files).exit = 1 then (1, tmp)
      else (compare sh pwrdm pwr_state log_name "" tmp, tmp) := by
  simp [handlerPowerTransitionStats]

/-- The comparisons name the state where the domain belongs, so they read files
that hold no value. -/
theorem compareCall_fails (sh : Shell) {tmp : Tmp} (h : Unmeasured tmp) (now : Moment)
    {label before after : String} (hlabel : FilePart label) (hbefore : FilePart before)
    (hafter : FilePart after) (hplace : pwrStatePlace before = 0) :
    (handlerPowerTransitionStats sh now ["compare", label, before, after] tmp).1 = 1 := by
  have hnone : FilePart "" := by simp [FilePart]
  have hcompare : compare sh label before after "" tmp = 1 :=
    compare_nothing (h.value sh hlabel hbefore hafter hplace) (h.value sh hlabel hbefore hnone hplace)
  rw [call_compare, hcompare, ite_self]

theorem filePart_ret : FilePart "RET" := by
  simp [FilePart, PlainChar]

theorem filePart_retLogicOff : FilePart "RET-LOGIC-OFF" := by
  simp [FilePart, PlainChar]

theorem roundCompare_fails (sh : Shell) {tmp : Tmp} (h : Unmeasured tmp) (now : Moment)
    {label before after : String} (hlabel : FilePart label)
    (hround : before = "1" ∧ after = "2" ∨ before = "2" ∧ after = "3") :
    (handlerPowerTransitionStats sh now ["compare", label, before, after] tmp).1 = 1 := by
  rcases hround with ⟨rfl, rfl⟩ | ⟨rfl, rfl⟩
  · exact compareCall_fails sh h now hlabel (by simp [FilePart, PlainChar])
      (by simp [FilePart, PlainChar]) (by decide)
  · exact compareCall_fails sh h now hlabel (by simp [FilePart, PlainChar])
      (by simp [FilePart, PlainChar]) (by decide)

/-! The checks. -/

theorem checkRetention_spec (sh : Shell) {tmp : Tmp} (h : Unmeasured tmp) (moments : Nat → Moment)
    (args : List String) :
    (checkRetention sh moments args tmp).1 = 1 ∧ Unmeasured (checkRetention sh moments args tmp).2 := by
  have hlogged := (h.call sh (moments 0) (["log"] ++ sh.expand (args.getD 0 "") ++ ["RET", "1"])).call
    sh (moments 1) (["log"] ++ sh.expand (args.getD 0 "") ++ ["RET", "2"])
  have hfails := roundCompare_fails sh hlogged (moments 2) filePart_ret (.inl ⟨rfl, rfl⟩)
  refine ⟨?_, hlogged.call sh (moments 2) ["compare", "RET", "1", "2"]⟩
  simp only [checkRetention, hfails, if_true]

theorem suspendRound_spec (sh : Shell) {tmp : Tmp} (h : Unmeasured tmp) (moments : Nat → Moment)
    (first : Nat) (domain : List String) {before after : String}
    (hround : before = "1" ∧ after = "2" ∨ before = "2" ∧ after = "3") (error : Nat) :
    (suspendRound sh moments first domain before after error tmp).1 = 1 ∧
      Unmeasured (suspendRound sh moments first domain before after error tmp).2 := by
  have hlogged := (h.call sh (moments first) (["log"] ++ domain ++ ["RET", after])).call
    sh (moments (first + 1)) (["log"] ++ domain ++ ["RET-LOGIC-OFF", after])
  have hcompared := hlogged.call sh (moments (first + 2)) ["compare", "RET", before, after]
  have hfails := roundCompare_fails sh hcompared (moments (first + 3)) filePart_retLogicOff hround
  refine ⟨?_, hcompared.call sh (moments (first + 3)) ["compare", "RET-LOGIC-OFF", before, after]⟩
  simp only [suspendRound, hfails, if_true]

theorem checkRetentionOpenSwitch_spec (sh : Shell) {tmp : Tmp} (h : Unmeasured tmp)
    (moments : Nat → Moment) (args : List String) :
    (checkRetentionOpenSwitch sh moments args tmp).1 = 1 ∧
      Unmeasured (checkRetentionOpenSwitch sh moments args tmp).2 := by
  have hlogged := (h.call sh (moments 0) (["log"] ++ sh.expand (args.getD 0 "") ++ ["RET", "1"])).call
    sh (moments 1) (["log"] ++ sh.expand (args.getD 0 "") ++ ["RET-LOGIC-OFF", "1"])
  have hround := suspendRound_spec sh hlogged moments 2 (sh.expand (args.getD 0 "")) (.inl ⟨rfl, rfl⟩) 0
  unfold checkRetentionOpenSwitch
  dsimp only
  split
  · exact hround
  · exact suspendRound_spec sh hround.2 moments 6 _ (.inr ⟨rfl, rfl⟩) _

theorem handlerPowerRetention_spec {tmp : Tmp} (h : Unmeasured tmp) (around : Surroundings)
    {operation : String} (hop : operation = "check" ∨ operation = "run") (domain command : String) :
    (handlerPowerRetention around operation domain command tmp).1 = 1 ∧
      Unmeasured (handlerPowerRetention around operation domain command tmp).2 := by
  unfold handlerPowerRetention
  split
  · exact ⟨rfl, h⟩
  split
  · exact ⟨rfl, h⟩
  rcases hop with rfl | rfl
  · rw [if_neg (by decide), if_pos rfl]
    exact checkRetention_spec around.shell h around.moments _
  · rw [if_neg (by decide), if_neg (by decide), if_pos rfl]
    exact checkRetention_spec around.shell h around.moments _

theorem handlerPowerOSWR_spec {tmp : Tmp} (h : Unmeasured tmp) (around : Surroundings)
    {operation : String} (hop : operation = "check" ∨ operation = "run") (domain command : String) :
    (handlerPowerOSWR around operation domain command tmp).1 = 1 ∧
      Unmeasured (handlerPowerOSWR around operation domain command tmp).2 := by
  unfold handlerPowerOSWR
  split
  · exact ⟨rfl, h⟩
  rcases hop with rfl | rfl
  · rw [if_pos rfl]
    exact checkRetentionOpenSwitch_spec around.shell h around.moments _
  · rw [if_neg (by decide), if_pos rfl]
    exact checkRetentionOpenSwitch_spec around.shell h around.moments _

theorem run_spec {tmp : Tmp} (h : Unmeasured tmp) (c : Check) :
    (c.run tmp).1 = 1 ∧ Unmeasured (c.run tmp).2 := by
  have hop : c.operation = "check" ∨ c.operation = "run" := by
    unfold Check.operation
    split
    · exact .inl rfl
    · exact .inr rfl
  unfold Check.run
  split
  · exact handlerPowerRetention_spec h c.around hop c.domain _
  · exact handlerPowerOSWR_spec h c.around hop c.domain _

theorem afterChecks_unmeasured (history : List Check) :
    Unmeasured (afterChecks history) := by
  induction history using List.reverseRecOn with
  | nil => exact fun p s l _ _ _ _ => rfl
  | append_singleton history c ih =>
    rw [afterChecks, List.foldl_append]
    exact (run_spec ih c).2

theorem check_exact_iff (history : List Check) (c : Check) :
    ((c.run (afterChecks history)).1 = 0 ↔ c.Increases) ↔ ¬ c.Increases := by
  have hfails := (run_spec (afterChecks_unmeasured history) c).1
  rw [hfails]
  exact ⟨fun h hinc => Nat.one_ne_zero (h.mpr hinc), fun h => ⟨nofun, fun hinc => absurd hinc h⟩⟩

/-- A directory without names to match, and `grep` on a pattern without special characters. -/
def plainShell : Shell where
  glob := fun word => [word]
  grep := fun args lines => lines.filter fun line => (args.headD "").toList.tail.isPrefixOf line.toList
  echo := String.intercalate " "
  test := fun _ => 2
  creates := fun _ => true
  glob_plain := fun _ _ => rfl
  echo_nil := rfl

def coreRow (ret : String) : String := "core_pwrdm (ON),OFF:0,RET:" ++ ret ++ ",INA:0,ON:9,RET-LOGIC-OFF:0"

def coreCheck : Check where
  script := .retention
  domain := "core_pwrdm"
  command := none
  around := ⟨plainShell, HandlerError.clean, true, fun k => ⟨HandlerError.clean, [coreRow (if k = 0 then "4" else "5")]⟩⟩

theorem coreCheck_rejected :
    ¬ ((coreCheck.run (afterChecks [])).1 = 0 ↔ coreCheck.Increases) := by
  intro h
  have hfails := (run_spec (afterChecks_unmeasured []) coreCheck).1
  have hincreases : coreCheck.Increases := ⟨4, 5, by decide, by decide, by decide⟩
  exact Nat.one_ne_zero (hfails.symm.trans (h.mpr hincreases))

end PowerRetention

end DeviceDriverTest
