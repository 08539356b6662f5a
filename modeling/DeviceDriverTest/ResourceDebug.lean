import Mathlib.Data.List.FinRange
import DeviceDriverTest.AcquireRelease

/-! The tests of the shared resource framework. Each requests a resource for one
to four devices, reads its level and releases it again; the last one also locks
the operating point. -/

namespace DeviceDriverTest

namespace ResourceDebug

open AcquireRelease

/-- The constants of the kernel's header for the operating points. -/
class OmapOpps where
  vdd1Opp : Int
  vdd2Opp : Int
  vdd2Opp2 : UInt32
  vdd2Opp3 : UInt32

def testPass : Int := 0
def testFail : Int := -1
def vdd2Level3Throughput : UInt32 := 400000
def vdd2Level2Throughput : UInt32 := 200000
def pdLatencyOff : Nat := 0
def pdLatencyRet : Nat := 1
def pdLatencyOn : Nat := 3

/-- The local `struct device` variables of a test; `dev` of the tests with one is `dev1`. -/
inductive Dev where
  | dev1
  | dev2
  | dev3
  | dev4
  deriving DecidableEq

/-- The calls of the framework in a test, with what they returned. -/
inductive Event where
  | request (res : String) (dev : Dev) (level : UInt32) (ret : Int)
  | release (res : String) (dev : Dev) (ret : Int)
  | getLevel (res : String) (level : UInt32)
  | lock (lockVal ret : Int)
  | unlock (lockVal ret : Int)
  | refresh (ret : Int)

structure Answer where
  ret : Int
  level : UInt32

abbrev Answers := Nat → Answer

abbrev Trace := List Event

section Framework

variable (answers : Answers)

def resourceRequest (res : String) (dev : Dev) (level : UInt32) (tr : Trace) : Trace × Int :=
  (tr ++ [.request res dev level (answers tr.length).ret], (answers tr.length).ret)

def resourceRelease (res : String) (dev : Dev) (tr : Trace) : Trace × Int :=
  (tr ++ [.release res dev (answers tr.length).ret], (answers tr.length).ret)

def resourceGetLevel (res : String) (tr : Trace) : Trace × UInt32 :=
  (tr ++ [.getLevel res (answers tr.length).level], (answers tr.length).level)

/-- `resource_access_opp_lock(lock_val, 1)`. -/
def oppLock (lockVal : Int) (tr : Trace) : Trace × Int :=
  (tr ++ [.lock lockVal (answers tr.length).ret], (answers tr.length).ret)

/-- `resource_access_opp_lock(lock_val, -1)`. -/
def oppUnlock (lockVal : Int) (tr : Trace) : Trace × Int :=
  (tr ++ [.unlock lockVal (answers tr.length).ret], (answers tr.length).ret)

def resourceRefresh (tr : Trace) : Trace × Int :=
  (tr ++ [.refresh (answers tr.length).ret], (answers tr.length).ret)

end Framework

section Tests

variable [OmapOpps] (answers : Answers)

def requestVdd2Opp (dev : Dev) (reqLvl : UInt32) (tr : Trace) : Trace × Int :=
  if reqLvl = OmapOpps.vdd2Opp2 then resourceRequest answers "vdd2_opp" dev vdd2Level2Throughput tr
  else if reqLvl = OmapOpps.vdd2Opp3 then resourceRequest answers "vdd2_opp" dev vdd2Level3Throughput tr
  else (tr, testFail)

def oppRequest (res : String) (dev : Dev) (reqLvl : UInt32) (tr : Trace) : Trace × Int :=
  if res = "vdd2_opp" then requestVdd2Opp answers dev reqLvl tr
  else resourceRequest answers res dev reqLvl tr

def minLevel (a b : UInt32) : UInt32 := if a ≤ b then a else b

def maxLevel (a b : UInt32) : UInt32 := if b ≤ a then a else b

def minLevel1 (a b c d : UInt32) : UInt32 :=
  let tmp := if a ≤ b ∧ a ≤ c then a else if b ≤ c then b else c
  if tmp ≤ d then tmp else d

def maxLevel1 (a b c : UInt32) : UInt32 := if b ≤ a ∧ c ≤ a then a else if c ≤ b then b else c

def latencyState (enableOffMode : Bool) (refTable : Fin 3 → UInt32) (reqLat : UInt32) : UInt32 :=
  let i := (List.finRange 3).findIdx fun i => refTable i < reqLat
  if !enableOffMode && i == pdLatencyOff then UInt32.ofNat pdLatencyRet
  -- the inactive state is not being tested
  else if i = 2 then UInt32.ofNat pdLatencyOn
  else UInt32.ofNat i

/-- Releases on an error path, with their results dropped. -/
def releaseIgnoring (res : String) : List Dev → Trace → Trace
  | [], tr => tr
  | dev :: rest, tr => releaseIgnoring res rest (resourceRelease answers res dev tr).1

/-- The releases at the end of a test; one that fails fails the test. -/
def releaseAll (res : String) : List Dev → Int → Trace → Trace × Int
  | [], result, tr => (tr, result)
  | dev :: rest, result, tr =>
    let (tr, ret) := resourceRelease answers res dev tr
    releaseAll res rest (if ret ≠ 0 then testFail else result) tr

/-- The requests still to come, for devices after those of `done`; one that
fails gives back what the earlier ones got. -/
def requestAll (request : Dev → UInt32 → Trace → Trace × Int) (res : String) (done : List Dev) :
    List (Dev × UInt32) → Trace → Trace × Bool
  | [], tr => (tr, true)
  | (dev, level) :: rest, tr =>
    let (tr, ret) := request dev level tr
    if ret ≠ 0 then (releaseIgnoring answers res done tr, false)
    else requestAll request res (done ++ [dev]) rest tr

def sharedTest (request : Dev → UInt32 → Trace → Trace × Int) (res : String) (requests : List (Dev × UInt32))
    (expected : UInt32) : Trace × Int :=
  let (tr, granted) := requestAll answers request res [] requests []
  if !granted then (tr, testFail)
  else
    let (tr, curLvl) := resourceGetLevel answers res tr
    let result := if curLvl ≠ expected then testFail else testPass
    releaseAll answers res (requests.map Prod.fst) result tr

def resourceTest1 (res : String) (reqLvl : UInt32) : Trace × Int :=
  sharedTest answers (oppRequest answers res) res [(.dev1, reqLvl)] reqLvl

def resourceTest2 (res : String) (reqLvl1 reqLvl2 : UInt32) : Trace × Int :=
  sharedTest answers (oppRequest answers res) res [(.dev1, reqLvl1), (.dev2, reqLvl2)] (maxLevel reqLvl1 reqLvl2)

def resourceTest3 (res : String) (reqLvl1 reqLvl2 reqLvl3 : UInt32) : Trace × Int :=
  sharedTest answers (oppRequest answers res) res [(.dev1, reqLvl1), (.dev2, reqLvl2), (.dev3, reqLvl3)]
    (maxLevel1 reqLvl1 reqLvl2 reqLvl3)

variable (enableOffMode : Bool)

def resourceTest4 (res : String) (reqLat : UInt32) (refTable : Fin 3 → UInt32) : Trace × Int :=
  sharedTest answers (resourceRequest answers res) res [(.dev1, reqLat)] (latencyState enableOffMode refTable reqLat)

def resourceTest5 (res : String) (reqLat1 reqLat2 : UInt32) (refTable : Fin 3 → UInt32) : Trace × Int :=
  sharedTest answers (resourceRequest answers res) res [(.dev1, reqLat1), (.dev2, reqLat2)]
    (latencyState enableOffMode refTable (minLevel reqLat1 reqLat2))

def resourceTest6 (res : String) (reqLat1 reqLat2 reqLat3 reqLat4 : UInt32) (refTable : Fin 3 → UInt32) :
    Trace × Int :=
  sharedTest answers (resourceRequest answers res) res
    [(.dev1, reqLat1), (.dev2, reqLat2), (.dev3, reqLat3), (.dev4, reqLat4)]
    (latencyState enableOffMode refTable (minLevel1 reqLat1 reqLat2 reqLat3 reqLat4))

def unlockedSteps (res : String) (lockVal : Int) (reqLvl1 reqLvl2 : UInt32) (tr : Trace) : Trace × Int :=
  let (tr, curLvl) := resourceGetLevel answers res tr
  let result := if curLvl ≠ reqLvl1 then testFail else testPass
  let (tr, ret) := oppUnlock answers lockVal tr
  let result := if ret < 0 then testFail else result
  let (tr, ret) := resourceRefresh answers tr
  let result := if ret ≠ 0 then testFail else result
  let (tr, curLvl) := resourceGetLevel answers res tr
  (tr, if curLvl ≠ reqLvl2 then testFail else result)

def lockedSteps (res : String) (lockVal : Int) (reqLvl1 reqLvl2 : UInt32) (tr : Trace) : Trace × Int :=
  let (tr, curLvl) := resourceGetLevel answers res tr
  if curLvl ≠ reqLvl1 then (tr, testFail)
  else
    let (tr, ret) := oppLock answers lockVal tr
    if ret < 0 then (tr, testFail)
    else
      let (tr, ret) := resourceRequest answers res .dev2 reqLvl2 tr
      if ret ≠ 0 then
        let (tr, _) := oppUnlock answers lockVal tr
        (tr, testFail)
      else unlockedSteps answers res lockVal reqLvl1 reqLvl2 tr

def lockVal? (res : String) : Option Int :=
  if res = "vdd1_opp" then some OmapOpps.vdd1Opp
  else if res = "vdd2_opp" then some OmapOpps.vdd2Opp
  else none

def resourceTest7 (res : String) (reqLvl1 reqLvl2 : UInt32) : Trace × Int :=
  match lockVal? res with
  | none => ([], testFail)
  | some lockVal =>
    let (tr, ret) := resourceRequest answers res .dev1 reqLvl1 []
    if ret ≠ 0 then (tr, testFail)
    else
      let (tr, result) := lockedSteps answers res lockVal reqLvl1 reqLvl2 tr
      releaseAll answers res [.dev1, .dev2] result tr

end Tests

inductive Call where
  | test1 (res : String) (reqLvl : UInt32)
  | test2 (res : String) (reqLvl1 reqLvl2 : UInt32)
  | test3 (res : String) (reqLvl1 reqLvl2 reqLvl3 : UInt32)
  | test4 (res : String) (reqLat : UInt32) (refTable : Fin 3 → UInt32)
  | test5 (res : String) (reqLat1 reqLat2 : UInt32) (refTable : Fin 3 → UInt32)
  | test6 (res : String) (reqLat1 reqLat2 reqLat3 reqLat4 : UInt32) (refTable : Fin 3 → UInt32)
  | test7 (res : String) (reqLvl1 reqLvl2 : UInt32)

structure Invocation where
  call : Call
  answers : Answers
  enableOffMode : Bool

section Calls

variable [OmapOpps]

def Invocation.run (inv : Invocation) : Trace × Int :=
  match inv.call with
  | .test1 res reqLvl => resourceTest1 inv.answers res reqLvl
  | .test2 res reqLvl1 reqLvl2 => resourceTest2 inv.answers res reqLvl1 reqLvl2
  | .test3 res reqLvl1 reqLvl2 reqLvl3 => resourceTest3 inv.answers res reqLvl1 reqLvl2 reqLvl3
  | .test4 res reqLat refTable => resourceTest4 inv.answers inv.enableOffMode res reqLat refTable
  | .test5 res reqLat1 reqLat2 refTable => resourceTest5 inv.answers inv.enableOffMode res reqLat1 reqLat2 refTable
  | .test6 res reqLat1 reqLat2 reqLat3 reqLat4 refTable =>
    resourceTest6 inv.answers inv.enableOffMode res reqLat1 reqLat2 reqLat3 reqLat4 refTable
  | .test7 res reqLvl1 reqLvl2 => resourceTest7 inv.answers res reqLvl1 reqLvl2

end Calls

def Call.devices : Call → List Dev
  | .test1 .. | .test4 .. => [.dev1]
  | .test2 .. | .test5 .. | .test7 .. => [.dev1, .dev2]
  | .test3 .. => [.dev1, .dev2, .dev3]
  | .test6 .. => [.dev1, .dev2, .dev3, .dev4]

def Invocation.expected (inv : Invocation) : List UInt32 :=
  match inv.call with
  | .test1 _ reqLvl => [reqLvl]
  | .test2 _ reqLvl1 reqLvl2 => [maxLevel reqLvl1 reqLvl2]
  | .test3 _ reqLvl1 reqLvl2 reqLvl3 => [maxLevel1 reqLvl1 reqLvl2 reqLvl3]
  | .test4 _ reqLat refTable => [latencyState inv.enableOffMode refTable reqLat]
  | .test5 _ reqLat1 reqLat2 refTable => [latencyState inv.enableOffMode refTable (minLevel reqLat1 reqLat2)]
  | .test6 _ reqLat1 reqLat2 reqLat3 reqLat4 refTable =>
    [latencyState inv.enableOffMode refTable (minLevel1 reqLat1 reqLat2 reqLat3 reqLat4)]
  | .test7 _ reqLvl1 reqLvl2 => [reqLvl1, reqLvl1, reqLvl2]

def deviceEffect : Event → Effect Dev
  | .request _ dev _ ret => if ret = 0 then .acquires dev else .neither
  | .release _ dev _ => .releases dev
  | _ => .neither

def lockEffect : Event → Effect Int
  | .lock lockVal ret => if 0 ≤ ret then .acquires lockVal else .neither
  | .unlock lockVal _ => .releases lockVal
  | _ => .neither

def Event.Succeeded : Event → Prop
  | .request _ _ _ ret => ret = 0
  | .release _ _ ret => ret = 0
  | .getLevel _ _ => True
  | .lock _ ret => 0 ≤ ret
  | .unlock _ ret => 0 ≤ ret
  | .refresh ret => ret = 0

def Event.requested? : Event → Option Dev
  | .request _ dev _ _ => some dev
  | _ => none

def Event.level? : Event → Option UInt32
  | .getLevel _ level => some level
  | _ => none

/-- Every step went well; these devices were requested and these levels read. -/
structure Clean (tr : Trace) (devs : List Dev) (levels : List UInt32) : Prop where
  steps : ∀ e ∈ tr, e.Succeeded
  devices : tr.filterMap Event.requested? = devs
  levels : tr.filterMap Event.level? = levels

section Property

variable [OmapOpps]

/-- What was requested is released once, what was locked is unlocked once, and
a passed test saw every step succeed and the levels it expects. -/
structure CallBalanced (inv : Invocation) : Prop where
  devices : Balanced deviceEffect inv.run.1
  locks : Balanced lockEffect inv.run.1
  passed : inv.run.2 = testPass → Clean inv.run.1 inv.call.devices inv.expected

/-- From its `n`-th call on, the seventh test reads its first level, locks the
operating point and is granted its second request. -/
def ReachesSecond (answers : Answers) (n : Nat) (reqLvl1 : UInt32) : Prop :=
  (answers n).level = reqLvl1 ∧ 0 ≤ (answers (n + 1)).ret ∧ (answers (n + 2)).ret = 0

/-- A call of the seventh test that gets its first request gets the second one too. -/
def SecondGranted (inv : Invocation) : Prop :=
  ∀ res reqLvl1 reqLvl2, inv.call = .test7 res reqLvl1 reqLvl2 → (lockVal? res).isSome = true →
    (inv.answers 0).ret = 0 → ReachesSecond inv.answers 1 reqLvl1

end Property

structure Ledger (tr : Trace) (devs : List Dev) (locks : List Int) : Prop where
  devices : Holds deviceEffect tr devs
  locks : Holds lockEffect tr locks

theorem ledger_nil : Ledger [] [] [] := ⟨holds_nil, holds_nil⟩

theorem clean_nil : Clean [] [] [] := ⟨fun _ he => absurd he List.not_mem_nil, rfl, rfl⟩

section Steps

variable {answers : Answers} {tr : Trace} {devs : List Dev} {locks : List Int} {levels : List UInt32}
  {res : String} {dev : Dev} {level : UInt32} {lockVal ret : Int}

theorem Ledger.granted (h : Ledger tr devs locks) :
    Ledger (tr ++ [.request res dev level 0]) (devs ++ [dev]) locks := by
  have heffect : deviceEffect (.request res dev level 0) = .acquires dev := rfl
  exact ⟨h.devices.acquire heffect, h.locks.other rfl⟩

theorem Ledger.refused (h : Ledger tr devs locks) (hret : ret ≠ 0) :
    Ledger (tr ++ [.request res dev level ret]) devs locks :=
  ⟨h.devices.other (if_neg hret), h.locks.other rfl⟩

theorem Ledger.released (h : Ledger tr (dev :: devs) locks) : Ledger (tr ++ [.release res dev ret]) devs locks :=
  ⟨h.devices.release rfl, h.locks.other rfl⟩

theorem Ledger.read (h : Ledger tr devs locks) : Ledger (tr ++ [.getLevel res level]) devs locks :=
  ⟨h.devices.other rfl, h.locks.other rfl⟩

theorem Ledger.locked (h : Ledger tr devs locks) (hret : 0 ≤ ret) :
    Ledger (tr ++ [.lock lockVal ret]) devs (locks ++ [lockVal]) :=
  ⟨h.devices.other rfl, h.locks.acquire (if_pos hret)⟩

theorem Ledger.notLocked (h : Ledger tr devs locks) (hret : ¬ 0 ≤ ret) : Ledger (tr ++ [.lock lockVal ret]) devs locks :=
  ⟨h.devices.other rfl, h.locks.other (if_neg hret)⟩

theorem Ledger.unlocked (h : Ledger tr devs (lockVal :: locks)) : Ledger (tr ++ [.unlock lockVal ret]) devs locks :=
  ⟨h.devices.other rfl, h.locks.release rfl⟩

theorem Ledger.refreshed (h : Ledger tr devs locks) : Ledger (tr ++ [.refresh ret]) devs locks :=
  ⟨h.devices.other rfl, h.locks.other rfl⟩

theorem Clean.concat (h : Clean tr devs levels) {e : Event} (he : e.Succeeded) :
    Clean (tr ++ [e]) (devs ++ e.requested?.toList) (levels ++ e.level?.toList) := by
  refine ⟨fun x hx => ?_, ?_, ?_⟩
  · obtain hx | hx := List.mem_append.mp hx
    · exact h.steps x hx
    · rw [List.mem_singleton.mp hx]
      exact he
  · rw [List.filterMap_append, h.devices]
    cases e <;> rfl
  · rw [List.filterMap_append, h.levels]
    cases e <;> rfl

theorem Clean.quiet (h : Clean tr devs levels) {e : Event} (he : e.Succeeded) (hdev : e.requested? = none)
    (hlevel : e.level? = none) : Clean (tr ++ [e]) devs levels := by
  simpa only [hdev, hlevel, Option.toList_none, List.append_nil] using h.concat he

theorem Clean.read (h : Clean tr devs levels) :
    Clean (tr ++ [.getLevel res level]) devs (levels ++ [level]) := by
  have hstep : Clean (tr ++ [.getLevel res level]) (devs ++ []) (levels ++ [level]) := h.concat trivial
  rw [List.append_nil] at hstep
  exact hstep

theorem Clean.requested (h : Clean tr devs levels) :
    Clean (tr ++ [.request res dev level 0]) (devs ++ [dev]) levels := by
  have hok : (Event.request res dev level 0).Succeeded := rfl
  have hstep : Clean (tr ++ [.request res dev level 0]) (devs ++ [dev]) (levels ++ []) := h.concat hok
  rw [List.append_nil] at hstep
  exact hstep

end Steps

section Releases

variable {answers : Answers} {locks : List Int} {levels : List UInt32} {res : String}

theorem releaseIgnoring_ledger {devs : List Dev} {tr : Trace} (h : Ledger tr devs locks) :
    Ledger (releaseIgnoring answers res devs tr) [] locks := by
  induction devs generalizing tr with
  | nil => exact h
  | cons dev rest ih => exact ih h.released

theorem releaseAll_ledger {devs : List Dev} {result : Int} {tr : Trace} (h : Ledger tr devs locks) :
    Ledger (releaseAll answers res devs result tr).1 [] locks := by
  induction devs generalizing result tr with
  | nil => exact h
  | cons dev rest ih => exact ih h.released

theorem releaseAll_fails {devs : List Dev} {tr : Trace} : (releaseAll answers res devs testFail tr).2 = testFail := by
  induction devs generalizing tr with
  | nil => rfl
  | cons dev rest ih =>
    rw [releaseAll, resourceRelease]
    dsimp only
    rw [ite_self]
    exact ih

theorem releaseAll_clean {devs held : List Dev} {result : Int} {tr : Trace}
    (h : (releaseAll answers res devs result tr).2 = testPass) :
    result = testPass ∧ (Clean tr held levels → Clean (releaseAll answers res devs result tr).1 held levels) := by
  induction devs generalizing result tr with
  | nil => exact ⟨h, fun hclean => hclean⟩
  | cons dev rest ih =>
    rw [releaseAll, resourceRelease] at h ⊢
    dsimp only at h ⊢
    by_cases hret : (answers tr.length).ret = 0
    · rw [if_neg (not_not.mpr hret)] at h ⊢
      obtain ⟨hresult, hkeep⟩ := ih h
      exact ⟨hresult, fun hclean => hkeep (hclean.quiet hret rfl rfl)⟩
    · rw [if_pos hret, releaseAll_fails] at h
      exact absurd h (by decide)

end Releases

section SharedTests

variable {answers : Answers} {request : Dev → UInt32 → Trace → Trace × Int} {res : String}

/-- A request makes one call of the framework and returns its answer, or fails
without a call. -/
def Requests (request : Dev → UInt32 → Trace → Trace × Int) : Prop :=
  ∀ dev level tr, (∃ res' level' ret, request dev level tr = (tr ++ [.request res' dev level' ret], ret)) ∨
    ∃ ret, request dev level tr = (tr, ret) ∧ ret ≠ 0

theorem resourceRequest_requests (answers : Answers) (res : String) : Requests (resourceRequest answers res) :=
  fun _ level tr => Or.inl ⟨res, level, (answers tr.length).ret, rfl⟩

theorem oppRequest_requests [OmapOpps] (answers : Answers) (res : String) : Requests (oppRequest answers res) := by
  intro dev level tr
  rw [oppRequest, requestVdd2Opp]
  split_ifs
  · exact Or.inl ⟨_, _, _, rfl⟩
  · exact Or.inl ⟨_, _, _, rfl⟩
  · exact Or.inr ⟨testFail, rfl, by decide⟩
  · exact Or.inl ⟨_, _, _, rfl⟩

theorem requestAll_cases (answers : Answers) (hrequest : Requests request) (res : String)
    (rest : List (Dev × UInt32)) {done : List Dev} {tr : Trace} (h : Ledger tr done []) :
    (∃ tr', requestAll answers request res done rest tr = (tr', false) ∧ Ledger tr' [] []) ∨
      ∃ tr', requestAll answers request res done rest tr = (tr', true) ∧
        Ledger tr' (done ++ rest.map Prod.fst) [] ∧
        (Clean tr done [] → Clean tr' (done ++ rest.map Prod.fst) []) := by
  induction rest generalizing done tr with
  | nil =>
    rw [List.map_nil, List.append_nil]
    exact Or.inr ⟨tr, rfl, h, fun hclean => hclean⟩
  | cons first rest ih =>
    obtain ⟨dev, level⟩ := first
    have hdevs : done ++ ((dev, level) :: rest).map Prod.fst = done ++ [dev] ++ rest.map Prod.fst := by simp
    rw [requestAll, hdevs]
    obtain ⟨res', level', ret, hcall⟩ | ⟨ret, hcall, hret⟩ := hrequest dev level tr
    · rw [hcall]
      dsimp only
      by_cases hret : ret = 0
      · subst hret
        rw [if_neg (not_not.mpr rfl)]
        have hgranted : Ledger (tr ++ [.request res' dev level' 0]) (done ++ [dev]) [] := h.granted
        obtain ⟨tr', hfail, hledger⟩ | ⟨tr', hok, hledger, hclean⟩ := ih hgranted
        · exact Or.inl ⟨tr', hfail, hledger⟩
        · exact Or.inr ⟨tr', hok, hledger, fun h => hclean h.requested⟩
      · rw [if_pos hret]
        exact Or.inl ⟨_, rfl, releaseIgnoring_ledger (h.refused hret)⟩
    · rw [hcall]
      dsimp only
      rw [if_pos hret]
      exact Or.inl ⟨_, rfl, releaseIgnoring_ledger h⟩

/-- The common body releases what it got, and passes on a clean trace only. -/
theorem sharedTest_spec (hrequest : Requests request) (requests : List (Dev × UInt32)) (expected : UInt32) :
    Ledger (sharedTest answers request res requests expected).1 [] [] ∧
      ((sharedTest answers request res requests expected).2 = testPass →
        Clean (sharedTest answers request res requests expected).1 (requests.map Prod.fst) [expected]) := by
  obtain ⟨tr, hfail, hledger⟩ | ⟨tr, hok, hledger, hclean⟩ := requestAll_cases answers hrequest res requests ledger_nil
  · have heq : sharedTest answers request res requests expected = (tr, testFail) := by
      rw [sharedTest, hfail]
      rfl
    rw [heq]
    exact ⟨hledger, fun h => absurd h (show testFail ≠ testPass by decide)⟩
  · have heq : sharedTest answers request res requests expected =
        releaseAll answers res (requests.map Prod.fst)
          (if (answers tr.length).level ≠ expected then testFail else testPass)
          (tr ++ [.getLevel res (answers tr.length).level]) := by
      rw [sharedTest, hok]
      rfl
    rw [heq]
    refine ⟨releaseAll_ledger hledger.read, fun hpass => ?_⟩
    obtain ⟨hresult, hkeep⟩ := releaseAll_clean hpass
    refine hkeep ?_
    have hlevel : (answers tr.length).level = expected := by
      by_contra hne
      rw [if_pos hne] at hresult
      exact absurd hresult (by decide)
    rw [hlevel]
    exact (hclean clean_nil).read

end SharedTests

section LockedTest

variable {answers : Answers} {res : String} {lockVal : Int} {reqLvl1 reqLvl2 : UInt32}

theorem unlockedSteps_ledger {tr : Trace} {devs : List Dev} (h : Ledger tr devs [lockVal]) :
    Ledger (unlockedSteps answers res lockVal reqLvl1 reqLvl2 tr).1 devs [] :=
  h.read.unlocked.refreshed.read

/-- Between its first request and its releases the test either gets its second
device while it holds the lock, or fails without both. -/
theorem lockedSteps_cases {tr : Trace} (h : Ledger tr [.dev1] []) :
    (ReachesSecond answers tr.length reqLvl1 ∧ ∃ tr', Ledger tr' [.dev1, .dev2] [lockVal] ∧
      (Clean tr [.dev1] [] → Clean tr' [.dev1, .dev2] [reqLvl1]) ∧
      lockedSteps answers res lockVal reqLvl1 reqLvl2 tr =
        unlockedSteps answers res lockVal reqLvl1 reqLvl2 tr') ∨
    (¬ ReachesSecond answers tr.length reqLvl1 ∧
      Ledger (lockedSteps answers res lockVal reqLvl1 reqLvl2 tr).1 [.dev1] [] ∧
      (lockedSteps answers res lockVal reqLvl1 reqLvl2 tr).2 = testFail) := by
  rw [lockedSteps, resourceGetLevel]
  dsimp only
  by_cases hlevel : (answers tr.length).level = reqLvl1
  · rw [if_neg (not_not.mpr hlevel), oppLock]
    dsimp only
    rw [List.length_append, List.length_singleton]
    by_cases hlock : (answers (tr.length + 1)).ret < 0
    · rw [if_pos hlock]
      exact Or.inr ⟨fun hreach => absurd hreach.2.1 (not_le.mpr hlock), h.read.notLocked (not_le.mpr hlock), rfl⟩
    · rw [if_neg hlock, resourceRequest]
      dsimp only
      rw [List.length_append, List.length_append, List.length_singleton, List.length_singleton]
      have hlocked : Ledger (tr ++ [.getLevel res (answers tr.length).level] ++
          [.lock lockVal (answers (tr.length + 1)).ret]) [.dev1] [lockVal] := h.read.locked (not_lt.mp hlock)
      by_cases hret : (answers (tr.length + 1 + 1)).ret = 0
      · rw [if_neg (not_not.mpr hret), hret]
        refine Or.inl ⟨⟨hlevel, not_lt.mp hlock, hret⟩, _, hlocked.granted, fun hclean => ?_, rfl⟩
        have hread : Clean (tr ++ [.getLevel res (answers tr.length).level]) [.dev1] [reqLvl1] := by
          rw [hlevel]
          exact hclean.read
        have hquiet := hread.quiet (e := .lock lockVal (answers (tr.length + 1)).ret) (not_lt.mp hlock) rfl rfl
        exact hquiet.requested
      · rw [if_pos hret]
        refine Or.inr ⟨fun hreach => hret hreach.2.2, ?_, rfl⟩
        exact (hlocked.refused hret).unlocked
  · rw [if_pos hlevel]
    exact Or.inr ⟨fun hreach => hlevel hreach.1, h.read, rfl⟩

theorem fail_or_eq_pass {p : Prop} [Decidable p] {result : Int} :
    (if p then testFail else result) = testPass ↔ ¬ p ∧ result = testPass := by
  by_cases h : p
  · rw [if_pos h]
    exact iff_of_false (by decide) fun hp => hp.1 h
  · rw [if_neg h, and_iff_right h]

theorem unlockedSteps_clean {tr : Trace} {devs : List Dev} {levels : List UInt32} (h : Clean tr devs levels)
    (hpass : (unlockedSteps answers res lockVal reqLvl1 reqLvl2 tr).2 = testPass) :
    Clean (unlockedSteps answers res lockVal reqLvl1 reqLvl2 tr).1 devs (levels ++ [reqLvl1] ++ [reqLvl2]) := by
  rw [unlockedSteps] at hpass ⊢
  dsimp only [resourceGetLevel, oppUnlock, resourceRefresh] at hpass ⊢
  rw [fail_or_eq_pass, fail_or_eq_pass, fail_or_eq_pass, fail_or_eq_pass, not_not, not_not, not_not] at hpass
  obtain ⟨hsecond, hrefresh, hunlock, hfirst, -⟩ := hpass
  rw [hfirst] at hsecond hrefresh hunlock ⊢
  rw [hsecond]
  have hread : Clean (tr ++ [.getLevel res reqLvl1]) devs (levels ++ [reqLvl1]) := h.read
  have hunlocked := hread.quiet (e := .unlock lockVal _) (not_lt.mp hunlock) rfl rfl
  have hrefreshed := hunlocked.quiet (e := .refresh _) hrefresh rfl rfl
  exact hrefreshed.read

theorem releaseAll_not_safe {tr : Trace} (h : Ledger tr [.dev1] []) (result : Int) :
    ¬ Safe deviceEffect (releaseAll answers res [.dev1, .dev2] result tr).1 := by
  have hfirst : Ledger (tr ++ [.release res .dev1 (answers tr.length).ret]) [] [] := h.released
  exact hfirst.devices.not_safe List.not_mem_nil rfl []

theorem resourceTest7_eq [OmapOpps] (hlock : lockVal? res = some lockVal) (hret : (answers 0).ret = 0) :
    resourceTest7 answers res reqLvl1 reqLvl2 =
      releaseAll answers res [.dev1, .dev2]
        (lockedSteps answers res lockVal reqLvl1 reqLvl2 [.request res .dev1 reqLvl1 0]).2
        (lockedSteps answers res lockVal reqLvl1 reqLvl2 [.request res .dev1 reqLvl1 0]).1 := by
  have hrequest : resourceRequest answers res .dev1 reqLvl1 [] = ([.request res .dev1 reqLvl1 0], 0) := by
    rw [← hret]
    rfl
  rw [resourceTest7, hlock]
  dsimp only
  rw [hrequest]
  dsimp only
  rw [if_neg (not_not.mpr rfl)]

theorem resourceTest7_stops [OmapOpps]
    (h : ¬ ((lockVal? res).isSome = true ∧ (answers 0).ret = 0)) :
    Ledger (resourceTest7 answers res reqLvl1 reqLvl2).1 [] [] ∧
      (resourceTest7 answers res reqLvl1 reqLvl2).2 = testFail := by
  rw [resourceTest7]
  cases hlock : lockVal? res with
  | none => exact ⟨ledger_nil, rfl⟩
  | some lockVal =>
    have hret : (answers 0).ret ≠ 0 := fun hret => h ⟨by rw [hlock, Option.isSome_some], hret⟩
    dsimp only
    have hrequest : resourceRequest answers res .dev1 reqLvl1 [] =
        ([] ++ [.request res .dev1 reqLvl1 (answers 0).ret], (answers 0).ret) := rfl
    rw [hrequest]
    dsimp only
    rw [if_pos hret]
    exact ⟨ledger_nil.refused hret, rfl⟩

/-- With its first request granted, the seventh test is balanced exactly when it
reaches the second one. -/
theorem resourceTest7_cases [OmapOpps] (hlock : lockVal? res = some lockVal) (hret : (answers 0).ret = 0) :
    (ReachesSecond answers 1 reqLvl1 ∧ Ledger (resourceTest7 answers res reqLvl1 reqLvl2).1 [] [] ∧
      ((resourceTest7 answers res reqLvl1 reqLvl2).2 = testPass →
        Clean (resourceTest7 answers res reqLvl1 reqLvl2).1 [.dev1, .dev2] [reqLvl1, reqLvl1, reqLvl2])) ∨
      (¬ ReachesSecond answers 1 reqLvl1 ∧
        ¬ Safe deviceEffect (resourceTest7 answers res reqLvl1 reqLvl2).1) := by
  rw [resourceTest7_eq hlock hret]
  have hheld : Ledger [.request res .dev1 reqLvl1 0] [.dev1] [] := ledger_nil.granted
  have hclean : Clean [.request res .dev1 reqLvl1 0] [.dev1] [] := clean_nil.requested
  obtain ⟨hreach, tr, hboth, hsteps, heq⟩ | ⟨hnot, hledger, -⟩ := lockedSteps_cases hheld
  · rw [heq]
    refine Or.inl ⟨hreach, releaseAll_ledger (unlockedSteps_ledger hboth), fun hpass => ?_⟩
    obtain ⟨hresult, hkeep⟩ := releaseAll_clean hpass
    exact hkeep (unlockedSteps_clean (hsteps hclean) hresult)
  · exact Or.inr ⟨hnot, releaseAll_not_safe hledger _⟩

end LockedTest

section Calls

variable [OmapOpps]

theorem callBalanced_of_ledger {inv : Invocation} (h : Ledger inv.run.1 [] [])
    (hpass : inv.run.2 = testPass → Clean inv.run.1 inv.call.devices inv.expected) : CallBalanced inv :=
  ⟨h.devices, h.locks, hpass⟩

theorem callBalanced_test7 {inv : Invocation} {res : String} {reqLvl1 reqLvl2 : UInt32}
    (hcall : inv.call = .test7 res reqLvl1 reqLvl2) :
    CallBalanced inv ↔ ((lockVal? res).isSome = true → (inv.answers 0).ret = 0 → ReachesSecond inv.answers 1 reqLvl1) := by
  obtain ⟨call, answers, enableOffMode⟩ := inv
  obtain rfl : call = .test7 res reqLvl1 reqLvl2 := hcall
  by_cases hstart : (lockVal? res).isSome = true ∧ (answers 0).ret = 0
  · obtain ⟨lockVal, hlock⟩ := Option.isSome_iff_exists.mp hstart.1
    obtain ⟨hreach, hledger, hclean⟩ | ⟨hnot, hunsafe⟩ := resourceTest7_cases hlock hstart.2
    · exact iff_of_true (callBalanced_of_ledger hledger hclean) fun _ _ => hreach
    · exact iff_of_false (fun h => hunsafe h.devices.safe) fun h => hnot (h hstart.1 hstart.2)
  · obtain ⟨hledger, hfail⟩ := resourceTest7_stops hstart
    refine iff_of_true (callBalanced_of_ledger hledger fun hpass => ?_) fun hsome hret => absurd ⟨hsome, hret⟩ hstart
    exact absurd (hfail.symm.trans hpass) (by decide)

theorem callBalanced_iff (inv : Invocation) : CallBalanced inv ↔ SecondGranted inv := by
  have hshared : (∀ res reqLvl1 reqLvl2, inv.call ≠ .test7 res reqLvl1 reqLvl2) → SecondGranted inv :=
    fun hne res reqLvl1 reqLvl2 hcall => absurd hcall (hne res reqLvl1 reqLvl2)
  obtain ⟨call, answers, enableOffMode⟩ := inv
  cases call with
  | test7 res reqLvl1 reqLvl2 =>
    refine (callBalanced_test7 rfl).trans ⟨fun h res' lvl1 lvl2 hcall => ?_, fun h => h res reqLvl1 reqLvl2 rfl⟩
    obtain ⟨rfl, rfl, rfl⟩ := Call.test7.inj hcall
    exact h
  | test1 | test2 | test3 =>
    obtain ⟨hledger, hclean⟩ := sharedTest_spec (oppRequest_requests answers _) _ _
    refine iff_of_true (callBalanced_of_ledger hledger hclean) (hshared fun _ _ _ => Call.noConfusion)
  | test4 | test5 | test6 =>
    obtain ⟨hledger, hclean⟩ := sharedTest_spec (resourceRequest_requests answers _) _ _
    refine iff_of_true (callBalanced_of_ledger hledger hclean) (hshared fun _ _ _ => Call.noConfusion)

/-- A sequence of calls is balanced in each exactly when every seventh test that
gets its first request also gets the second. -/
theorem callsBalanced_iff (invs : List Invocation) :
    (∀ inv ∈ invs, CallBalanced inv) ↔ ∀ inv ∈ invs, SecondGranted inv :=
  forall₂_congr fun inv _ => callBalanced_iff inv

end Calls

abbrev sampleOpps : OmapOpps := ⟨1, 2, 2, 3⟩

def levelOff : Invocation where
  call := .test7 "vdd1_opp" 3 5
  answers := fun _ => ⟨0, 1⟩
  enableOffMode := false

/-- The second device is released though nothing was requested for it. -/
theorem unrequested_release : ¬ ∀ inv ∈ [levelOff], @CallBalanced sampleOpps inv := by
  intro h
  have hbalanced := h levelOff List.mem_cons_self
  have hreach := (@callBalanced_test7 sampleOpps levelOff "vdd1_opp" 3 5 rfl).mp hbalanced rfl rfl
  exact absurd hreach.1 (by decide)

end ResourceDebug

end DeviceDriverTest
