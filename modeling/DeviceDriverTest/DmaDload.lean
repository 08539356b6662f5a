import Mathlib.Algebra.GroupWithZero.Nat
import DeviceDriverTest.DmaBuffers
import DeviceDriverTest.DmaVerdict

/-! The descriptor load test. The final callback compares the gathered
destination with the scattered sources and stores a verdict when they agree. -/

namespace DeviceDriverTest

namespace DmaDload

def numElementsInList : Nat := 7

def testElementSize : UInt32 := 100

/-- `struct tlist_transfer`; entries of the arrays from `numElementsInList` on
are the memory behind them. -/
structure TlistTransfer where
  srcAddr : Nat → Nat
  transferSizes : Nat → UInt32
  totalNumElements : UInt32
  dstAddr : Nat
  sglistId : Int
  userSglist : Nat
  deriving Inhabited

structure DloadAnswers where
  srcAlloc : Nat → Nat
  dstAlloc : Nat
  requestDma : Option Int
  userSglistAlloc : Nat
  setSglistMode : Int
  startTransfers : Int

inductive Ending where
  | killed
  | returned (rc : Int)
  deriving DecidableEq

/-- The loop that allocates and fills the sources still to come, with whether it
got through. -/
def fillSources (answers : DloadAnswers) : List Nat → TlistTransfer → TlistTransfer × Bool
  | [], tls => (tls, true)
  | i :: rest, tls =>
    let tls := { tls with
      transferSizes := Function.update tls.transferSizes i ((UInt32.ofNat i + 10) * testElementSize)
      srcAddr := Function.update tls.srcAddr i (answers.srcAlloc i) }
    if tls.srcAddr i = 0 then (tls, false)
    else fillSources answers rest { tls with totalNumElements := tls.totalNumElements + tls.transferSizes i }

def dmasglistTest1 (answers : DloadAnswers) (tls : TlistTransfer) : TlistTransfer × Ending :=
  let (tls, filled) := fillSources answers (List.range numElementsInList) tls
  if !filled then (tls, .killed)
  else if answers.dstAlloc = 0 then (tls, .killed)
  else
    let tls := { tls with
      dstAddr := answers.dstAlloc
      sglistId := answers.requestDma.getD tls.sglistId }
    if answers.userSglistAlloc = 0 then (tls, .returned (-105))
    else
      let tls := { tls with userSglist := answers.userSglistAlloc }
      if answers.setSglistMode ≠ 0 then (tls, .returned answers.setSglistMode)
      else (tls, .returned answers.startTransfers)

def TlistTransfer.bytes (tl : TlistTransfer) (i : Nat) : Nat := (tl.transferSizes i * 4).toNat

def verifyElements (mem : Memory) (tl : TlistTransfer) : List Nat → Nat → Int
  | [], _ => 0
  | i :: rest, dst =>
    if verifyLoop 1 mem (tl.srcAddr i) dst (tl.bytes i) ≠ 0 then -1
    else verifyElements mem tl rest (dst + tl.bytes i)

def verifyDestBuffer (mem : Memory) (tl : TlistTransfer) (nelems : Nat) : Int :=
  verifyElements mem tl (List.range nelems) tl.dstAddr

/-- A final callback: its status word and the memory it finds. -/
structure FinalCallback where
  chStatus : UInt16
  mem : Memory

def dmaSglistCbFinal (tl : TlistTransfer) (e : FinalCallback) : List Int :=
  if verifyDestBuffer e.mem tl numElementsInList = 0 then [1] else []

def testPassedAfter (tl : TlistTransfer) (es : List FinalCallback) : Int :=
  es.foldl (fun testPassed e => (dmaSglistCbFinal tl e).foldl setTestPassed testPassed) testPassedInit

/-- Where the data of source `i` lands: behind that of the sources before it. -/
def TlistTransfer.offset (tl : TlistTransfer) (i : Nat) : Nat :=
  ((List.range i).map tl.bytes).sum

def Gathered (mem : Memory) (tl : TlistTransfer) (nelems : Nat) : Prop :=
  ∀ i < nelems, ∀ j < tl.bytes i, mem (tl.srcAddr i + j) = mem (tl.dstAddr + tl.offset i + j)

theorem offset_succ (tl : TlistTransfer) (i : Nat) : tl.offset (i + 1) = tl.offset i + tl.bytes i := by
  simp [TlistTransfer.offset, List.range_succ]

theorem verifyElements_eq_zero (mem : Memory) (tl : TlistTransfer) (start count : Nat) :
    verifyElements mem tl (List.range' start count) (tl.dstAddr + tl.offset start) = 0 ↔
      ∀ i, start ≤ i → i < start + count → ∀ j < tl.bytes i,
        mem (tl.srcAddr i + j) = mem (tl.dstAddr + tl.offset i + j) := by
  induction count generalizing start with
  | zero =>
    refine iff_of_true rfl fun i hlo hhi => ?_
    omega
  | succ count ih =>
    have hsrc : verifyLoop 1 mem (tl.srcAddr start) (tl.dstAddr + tl.offset start) (tl.bytes start) = 0 ↔
        ∀ j < tl.bytes start, mem (tl.srcAddr start + j) = mem (tl.dstAddr + tl.offset start + j) := by
      simp only [verifyLoop_eq_zero, Nat.one_mul]
    have hrest := ih (start + 1)
    rw [offset_succ, ← Nat.add_assoc] at hrest
    rw [List.range'_succ, verifyElements]
    by_cases hz : verifyLoop 1 mem (tl.srcAddr start) (tl.dstAddr + tl.offset start) (tl.bytes start) = 0
    · rw [if_neg (not_not.mpr hz), hrest]
      constructor
      · intro hall i hlo hhi
        rcases Nat.eq_or_lt_of_le hlo with rfl | hlt
        · exact hsrc.mp hz
        · exact hall i hlt (by omega)
      · intro hall i hlo hhi
        exact hall i (by omega) (by omega)
    · rw [if_pos hz]
      refine iff_of_false (by decide) fun hall => hz (hsrc.mpr (hall start le_rfl (by omega)))

theorem verifyDestBuffer_eq_zero {mem : Memory} {tl : TlistTransfer} {nelems : Nat} :
    verifyDestBuffer mem tl nelems = 0 ↔ Gathered mem tl nelems := by
  have h := verifyElements_eq_zero mem tl 0 nelems
  have hzero : tl.offset 0 = 0 := rfl
  rw [hzero, Nat.add_zero, Nat.zero_add] at h
  rw [verifyDestBuffer, List.range_eq_range', h, Gathered]
  exact ⟨fun hall i hi => hall i (Nat.zero_le i) hi, fun hall i _ hi => hall i hi⟩

theorem dmaSglistCbFinal_cases (tl : TlistTransfer) (e : FinalCallback) :
    Gathered e.mem tl numElementsInList ∧ dmaSglistCbFinal tl e = [1] ∨
      ¬ Gathered e.mem tl numElementsInList ∧ dmaSglistCbFinal tl e = [] := by
  rw [← verifyDestBuffer_eq_zero]
  by_cases h : verifyDestBuffer e.mem tl numElementsInList = 0
  · exact .inl ⟨h, if_pos h⟩
  · exact .inr ⟨h, if_neg h⟩

def RecordsVerdict (tl : TlistTransfer) (e : FinalCallback) : Prop :=
  Gathered e.mem tl numElementsInList ∧ dmaSglistCbFinal tl e = [1] ∨
    ¬ Gathered e.mem tl numElementsInList ∧ dmaSglistCbFinal tl e = [0]

/-- Every final callback stores its verdict, and a reader gets an answer after
the last of them. -/
def VerdictComplete (tl : TlistTransfer) (es : List FinalCallback) : Prop :=
  (∀ e ∈ es, RecordsVerdict tl e) ∧ (es ≠ [] → (dmaReadProc (testPassedAfter tl es)).isSome = true)

theorem recordsVerdict_iff {tl : TlistTransfer} {e : FinalCallback} :
    RecordsVerdict tl e ↔ Gathered e.mem tl numElementsInList := by
  rcases dmaSglistCbFinal_cases tl e with ⟨hg, hcalls⟩ | ⟨hg, hcalls⟩
  · exact iff_of_true (.inl ⟨hg, hcalls⟩) hg
  · refine iff_of_false (fun hrecords => ?_) hg
    rcases hrecords with ⟨hyes, _⟩ | ⟨_, hzero⟩
    · exact hg hyes
    · rw [hcalls] at hzero
      contradiction

theorem testPassedAfter_concat (tl : TlistTransfer) (es : List FinalCallback) (e : FinalCallback) :
    testPassedAfter tl (es ++ [e]) = (dmaSglistCbFinal tl e).foldl setTestPassed (testPassedAfter tl es) := by
  rw [testPassedAfter, List.foldl_append, List.foldl_cons, List.foldl_nil, testPassedAfter]

/-- The verdict stays open until a callback finds the data gathered, and is
PASSED from then on. -/
theorem testPassedAfter_cases (tl : TlistTransfer) (es : List FinalCallback) :
    (∃ e ∈ es, Gathered e.mem tl numElementsInList) ∧ testPassedAfter tl es = 1 ∨
      (∀ e ∈ es, ¬ Gathered e.mem tl numElementsInList) ∧ testPassedAfter tl es = testPassedInit := by
  induction es using List.reverseRecOn with
  | nil => exact .inr ⟨by simp, rfl⟩
  | append_singleton es e ih =>
    rw [testPassedAfter_concat]
    rcases dmaSglistCbFinal_cases tl e with ⟨hg, hcalls⟩ | ⟨hg, hcalls⟩ <;> rw [hcalls]
    · exact .inl ⟨⟨e, by simp, hg⟩, rfl⟩
    · rcases ih with ⟨⟨e', he', hg'⟩, hone⟩ | ⟨hall, hinit⟩
      · exact .inl ⟨⟨e', List.mem_append_left _ he', hg'⟩, hone⟩
      · refine .inr ⟨fun e' he' => ?_, hinit⟩
        rcases List.mem_append.mp he' with he' | he'
        · exact hall e' he'
        · rw [List.mem_singleton.mp he']
          exact hg

theorem verdictComplete_iff (tl : TlistTransfer) (es : List FinalCallback) :
    VerdictComplete tl es ↔ ∀ e ∈ es, Gathered e.mem tl numElementsInList := by
  have hrecords : (∀ e ∈ es, RecordsVerdict tl e) ↔ ∀ e ∈ es, Gathered e.mem tl numElementsInList :=
    forall₂_congr fun e _ => recordsVerdict_iff
  rw [VerdictComplete, hrecords]
  refine and_iff_left_of_imp fun hall hne => ?_
  rcases testPassedAfter_cases tl es with ⟨_, hone⟩ | ⟨hnone, _⟩
  · rw [hone]
    rfl
  · obtain ⟨e, he⟩ := List.exists_mem_of_ne_nil es hne
    exact absurd (hall e he) (hnone e he)

def grantedAnswers : DloadAnswers where
  srcAlloc := fun i => 8192 * (i + 1)
  dstAlloc := 65536
  requestDma := some 0
  userSglistAlloc := 131072
  setSglistMode := 0
  startTransfers := 0

def startedTransfer : TlistTransfer := (dmasglistTest1 grantedAnswers default).1

/-- The sources as they were filled, the destination as it was cleaned. -/
def idleMemory (a : Nat) : UInt8 := if a < 65536 then UInt8.ofNat (a / 8192 - 1 + 0x41) else 0xff

/-- A callback that finds the destination untouched: nothing is stored, and a
reader waits on. -/
theorem mismatch_leaves_reader_waiting :
    ¬ VerdictComplete startedTransfer [⟨0, idleMemory⟩] ∧
      dmaReadProc (testPassedAfter startedTransfer [⟨0, idleMemory⟩]) = none := by
  have hbad : ¬ Gathered idleMemory startedTransfer numElementsInList := by
    intro hall
    have hbyte := hall 0 (by decide) 0 (by decide)
    exact absurd hbyte (by decide)
  refine ⟨fun hcomplete => ?_, ?_⟩
  · have hrecords := hcomplete.1 _ List.mem_cons_self
    exact hbad (recordsVerdict_iff.mp hrecords)
  · rcases testPassedAfter_cases startedTransfer [⟨0, idleMemory⟩] with ⟨⟨e, he, hg⟩, _⟩ | ⟨_, hinit⟩
    · rw [List.mem_singleton.mp he] at hg
      exact absurd hg hbad
    · rw [hinit]
      rfl

end DmaDload

end DeviceDriverTest
