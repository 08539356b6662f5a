import Mathlib.Data.List.FinRange
import DeviceDriverTest.DmaBuffers
import DeviceDriverTest.KeyedFold

/-! What both kinds of tests take from the DMA framework: the element types, and
the invocations of a callback over an array of transfers. -/

namespace DeviceDriverTest

/-- Every module defines the same bound on its polls. -/
def transferPollCount : Nat := 60

inductive DataType where
  | s8
  | s16
  | s32
  deriving DecidableEq

instance : Inhabited DataType := ⟨.s8⟩

def DataType.elementsInFrame : DataType → Nat → Nat
  | .s8, bufSize => bufSize
  | .s16, bufSize => bufSize / 2
  | .s32, bufSize => bufSize / 4

/-- One invocation of the callback: the transfer it is handed, the status word
and the memory it finds. -/
structure Callback (n : Nat) where
  data : Fin n
  transferStatus : UInt16
  mem : Memory

def AllCalledBack {n : Nat} (es : List (Callback n)) : Prop :=
  ∀ k, ∃ e ∈ es, e.data = k

def lastCallback {n : Nat} (k : Fin n) (es : List (Callback n)) : Option (Callback n) :=
  (KeyedFold.addressed Callback.data k es).getLast?

theorem lastCallback_isSome_iff {n : Nat} {k : Fin n} {es : List (Callback n)} :
    (lastCallback k es).isSome = true ↔ ∃ e ∈ es, e.data = k := by
  rw [lastCallback, List.getLast?_isSome]
  simp [KeyedFold.addressed]

def oneEach (n : Nat) (status : UInt16) (mem : Memory) : List (Callback n) :=
  (List.finRange n).map fun k => { data := k, transferStatus := status, mem := mem }

theorem oneEach_allCalledBack (n : Nat) (status : UInt16) (mem : Memory) :
    AllCalledBack (oneEach n status mem) :=
  fun k => ⟨_, List.mem_map_of_mem (List.mem_finRange k), rfl⟩

theorem lastCallback_oneEach {n : Nat} (status : UInt16) (mem : Memory) (k : Fin n) :
    lastCallback k (oneEach n status mem) = some { data := k, transferStatus := status, mem := mem } := by
  obtain ⟨e, he⟩ := Option.isSome_iff_exists.mp
    (lastCallback_isSome_iff.mpr (oneEach_allCalledBack n status mem k))
  have hm : e ∈ KeyedFold.addressed Callback.data k (oneEach n status mem) := List.mem_of_mem_getLast? he
  obtain ⟨hm, hk⟩ := KeyedFold.mem_addressed.mp hm
  obtain ⟨j, _, rfl⟩ := List.mem_map.mp hm
  cases hk
  exact he

end DeviceDriverTest
