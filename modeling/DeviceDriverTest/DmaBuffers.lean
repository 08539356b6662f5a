import Mathlib.Data.List.Range
import Mathlib.Logic.Function.Basic

/-! The buffers of a transfer, as the single channel and the chain helpers
share them: allocation, the source pattern and the byte comparison. -/

namespace DeviceDriverTest

/-- What the sources take from the kernel's DMA header. -/
class OmapDma where
  omapDmaBlockIrq : UInt16

abbrev Memory := Nat → UInt8

/-- `struct dma_buffers_info`; a null pointer is address 0. -/
structure DmaBuffersInfo where
  srcBuf : Nat
  srcBufPhys : Nat
  destBuf : Nat
  destBufPhys : Nat
  bufSize : Nat
  deriving DecidableEq, Inhabited

structure KmallocPair where
  src : Nat
  dest : Nat

def createTransferBuffers (alloc : KmallocPair) (buffers : DmaBuffersInfo) : DmaBuffersInfo × Int :=
  let buffers := { buffers with srcBuf := alloc.src, destBuf := alloc.dest }
  if buffers.srcBuf = 0 then (buffers, 1)
  else if buffers.destBuf = 0 then (buffers, 1)
  else (buffers, 0)

def mapToPhysBuffers (srcPhys destPhys : Nat) (buffers : DmaBuffersInfo) : DmaBuffersInfo :=
  { buffers with srcBufPhys := srcPhys, destBufPhys := destPhys }

def fillByte (bufSize i : Nat) : UInt8 :=
  ((~~~(UInt32.ofNat i)) <<< 7 ||| UInt32.ofNat bufSize <<< 3 ||| UInt32.ofNat i).toUInt8

def fillSourceBuffer (buffers : DmaBuffersInfo) (mem : Memory) : Memory :=
  (List.range buffers.bufSize).foldl
    (fun mem i => Function.update mem (buffers.srcBuf + i) (fillByte buffers.bufSize i)) mem

/-- The comparison loop, with the step of the source pointer and the number of
bytes still to compare. -/
def verifyLoop (srcStep : Nat) (mem : Memory) (srcAddress destAddress : Nat) : Nat → Int
  | 0 => 0
  | left + 1 =>
    if mem srcAddress ≠ mem destAddress then 1
    else verifyLoop srcStep mem (srcAddress + srcStep) (destAddress + 1) left

def verifyBuffers (mem : Memory) (buffers : DmaBuffersInfo) : Int :=
  verifyLoop 1 mem buffers.srcBuf buffers.destBuf buffers.bufSize

def Matches (mem : Memory) (buffers : DmaBuffersInfo) : Prop :=
  ∀ i < buffers.bufSize, mem (buffers.srcBuf + i) = mem (buffers.destBuf + i)

def statusAcceptable [OmapDma] (status : UInt16) : Bool :=
  (status &&& OmapDma.omapDmaBlockIrq) != 0 || status == 0

@[simp] theorem statusAcceptable_zero [OmapDma] : statusAcceptable 0 = true := by
  simp [statusAcceptable]

theorem createTransferBuffers_succeeds {alloc : KmallocPair} (buffers : DmaBuffersInfo) :
    (createTransferBuffers alloc buffers).2 = 0 ↔ alloc.src ≠ 0 ∧ alloc.dest ≠ 0 := by
  unfold createTransferBuffers
  dsimp only
  split_ifs with hs hd <;> simp [hs]
  · exact hd
  · exact hd

@[simp] theorem createTransferBuffers_bufSize (alloc : KmallocPair) (buffers : DmaBuffersInfo) :
    (createTransferBuffers alloc buffers).1.bufSize = buffers.bufSize := by
  unfold createTransferBuffers
  dsimp only
  split_ifs <;> rfl

theorem verifyLoop_eq_zero {srcStep : Nat} {mem : Memory} {src dest left : Nat} :
    verifyLoop srcStep mem src dest left = 0 ↔
      ∀ i < left, mem (src + srcStep * i) = mem (dest + i) := by
  induction left generalizing src dest with
  | zero => simp [verifyLoop]
  | succ left ih =>
    rw [verifyLoop, Nat.forall_lt_succ_left]
    by_cases h : mem src = mem dest
    · simp [h, ih, Nat.mul_add, Nat.add_assoc, Nat.add_comm, Nat.add_left_comm]
    · simp [h]

theorem verifyBuffers_eq_zero {mem : Memory} {buffers : DmaBuffersInfo} :
    verifyBuffers mem buffers = 0 ↔ Matches mem buffers := by
  simp only [verifyBuffers, verifyLoop_eq_zero, Nat.one_mul, Matches]

theorem fillSourceBuffer_apply (buffers : DmaBuffersInfo) (mem : Memory) (a : Nat) :
    fillSourceBuffer buffers mem a =
      if buffers.srcBuf ≤ a ∧ a < buffers.srcBuf + buffers.bufSize then
        fillByte buffers.bufSize (a - buffers.srcBuf)
      else mem a := by
  suffices h : ∀ n, (List.range n).foldl (fun mem i =>
      Function.update mem (buffers.srcBuf + i) (fillByte buffers.bufSize i)) mem a =
      if buffers.srcBuf ≤ a ∧ a < buffers.srcBuf + n then
        fillByte buffers.bufSize (a - buffers.srcBuf) else mem a from h _
  intro n
  induction n with
  | zero => simp
  | succ n ih =>
    rw [List.range_succ, List.foldl_append, List.foldl_cons, List.foldl_nil]
    by_cases ha : a = buffers.srcBuf + n
    · simp [ha]
    · rw [Function.update_of_ne ha, ih]
      exact if_congr (by omega) rfl rfl

def copied (buffers : DmaBuffersInfo) (mem : Memory) : Memory := fun a =>
  if buffers.destBuf ≤ a ∧ a < buffers.destBuf + buffers.bufSize then
    mem (buffers.srcBuf + (a - buffers.destBuf))
  else mem a

theorem matches_copied {buffers : DmaBuffersInfo} (mem : Memory)
    (h : buffers.srcBuf + buffers.bufSize ≤ buffers.destBuf) : Matches (copied buffers mem) buffers := by
  intro i hi
  have hs : ¬ (buffers.destBuf ≤ buffers.srcBuf + i ∧
      buffers.srcBuf + i < buffers.destBuf + buffers.bufSize) := by omega
  simp [copied, hs, hi]

theorem not_matches_fill {buffers : DmaBuffersInfo} (hn : 0 < buffers.bufSize)
    (h : buffers.srcBuf + buffers.bufSize ≤ buffers.destBuf)
    (hb : fillByte buffers.bufSize 0 ≠ 0) :
    ¬ Matches (fillSourceBuffer buffers (fun _ => 0)) buffers := by
  intro hm
  have h0 := hm 0 hn
  have hd : ¬ (buffers.srcBuf ≤ buffers.destBuf ∧
      buffers.destBuf < buffers.srcBuf + buffers.bufSize) := by omega
  simp [fillSourceBuffer_apply, hn, hd] at h0
  exact hb h0

example : fillByte 1024 0 = 0x80 := by decide

end DeviceDriverTest
