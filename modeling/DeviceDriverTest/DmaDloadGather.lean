import DeviceDriverTest.DmaDload

/-! The descriptor list of the load test and the comparison of the destination:
two loops over the same sources. -/

namespace DeviceDriverTest

namespace DmaDload

/-- The words of `sg_node` that the test fills in, for its two descriptor types. -/
inductive SgNode where
  | t2a (srcAddr dstAddr cfnFn cicr dstElemIdx srcElemIdx dstFrameIdxOrPktSize srcFrameIdxOrPktSize : Nat)
  | t3b (srcOrDestAddr : Nat)
  deriving DecidableEq

/-- `struct omap_dma_sglist_node`, with its flags apart. -/
structure SglistNode where
  sgNode : SgNode
  numOfElem : UInt32
  srcValid : Bool
  dstValid : Bool
  deriving DecidableEq

structure MappedTransfer extends TlistTransfer where
  srcAddrPhy : Nat → Nat
  dstAddrPhy : Nat

def firstNode (tl : MappedTransfer) : SglistNode where
  sgNode := .t2a (tl.srcAddrPhy 0) tl.dstAddrPhy 1 0x922 0 1 0 1
  numOfElem := tl.transferSizes 0
  srcValid := true
  dstValid := true

def nextNode (tl : MappedTransfer) (i : Nat) : SglistNode where
  sgNode := .t3b (tl.srcAddrPhy i)
  numOfElem := tl.transferSizes i
  srcValid := true
  dstValid := false

/-- The memory of `user_sglist`; its first node is written for any `nelem`. -/
def dmatestPopulateSglist (tl : MappedTransfer) (nelem : Nat) (sglist : Nat → SglistNode) : Nat → SglistNode :=
  (List.range' 1 (nelem - 1)).foldl (fun sglist i => Function.update sglist i (nextNode tl i))
    (Function.update sglist 0 (firstNode tl))

def SglistNode.source (node : SglistNode) : Nat :=
  match node.sgNode with
  | .t2a srcAddr _ _ _ _ _ _ _ => srcAddr
  | .t3b srcOrDestAddr => srcOrDestAddr

def bytesAt (mem : Memory) (address count : Nat) : List UInt8 :=
  (List.range count).map fun j => mem (address + j)

/-- The bytes that a list of `nelem` nodes transfers, four for each element. -/
def listBytes (physMem : Memory) (sglist : Nat → SglistNode) (nelem : Nat) : List UInt8 :=
  (List.range nelem).flatMap fun i => bytesAt physMem (sglist i).source (4 * (sglist i).numOfElem.toNat)

/-- A transfer whose sources lie in coherent memory: the processor and the
controller find the same bytes in them, each at its own address. -/
structure CoherentTransfer (nelem : Nat) extends MappedTransfer where
  mem : Memory
  physMem : Memory
  fits : ∀ i < nelem, 0 < srcAddr i ∧ srcAddr i + 4 * (transferSizes i).toNat ≤ 2 ^ 32
  coherent : ∀ i < nelem, ∀ j < 4 * (transferSizes i).toNat, physMem (srcAddrPhy i + j) = mem (srcAddr i + j)

section Bytes

variable {mem physMem : Memory}

@[simp] theorem length_bytesAt (address count : Nat) : (bytesAt mem address count).length = count := by
  simp [bytesAt]

theorem bytesAt_add (address m n : Nat) :
    bytesAt mem address (m + n) = bytesAt mem address m ++ bytesAt mem (address + m) n := by
  simp [bytesAt, List.range_add, Nat.add_assoc]

theorem bytesAt_congr {address other count : Nat} :
    bytesAt physMem address count = bytesAt mem other count ↔
      ∀ j < count, physMem (address + j) = mem (other + j) := by
  rw [bytesAt, bytesAt, List.map_inj_left]
  exact forall_congr' fun j => by rw [List.mem_range]

end Bytes

def sourceBytes (mem : Memory) (tl : TlistTransfer) (nelem : Nat) : List UInt8 :=
  (List.range nelem).flatMap fun i => bytesAt mem (tl.srcAddr i) (tl.bytes i)

theorem sourceBytes_succ (mem : Memory) (tl : TlistTransfer) (nelem : Nat) :
    sourceBytes mem tl (nelem + 1) = sourceBytes mem tl nelem ++ bytesAt mem (tl.srcAddr nelem) (tl.bytes nelem) := by
  rw [sourceBytes, List.range_succ, List.flatMap_append, List.flatMap_singleton, sourceBytes]

theorem length_sourceBytes (mem : Memory) (tl : TlistTransfer) (nelem : Nat) :
    (sourceBytes mem tl nelem).length = tl.offset nelem := by
  induction nelem with
  | zero => rfl
  | succ nelem ih => rw [sourceBytes_succ, List.length_append, ih, length_bytesAt, offset_succ]

/-- The sources are gathered up to one of them exactly when the destination
starts with their concatenation. -/
theorem gathered_iff_bytesAt (mem : Memory) (tl : TlistTransfer) (nelem : Nat) :
    Gathered mem tl nelem ↔ bytesAt mem tl.dstAddr (tl.offset nelem) = sourceBytes mem tl nelem := by
  induction nelem with
  | zero => exact iff_of_true (fun i hi => absurd hi (Nat.not_lt_zero i)) rfl
  | succ nelem ih =>
    have hsplit : Gathered mem tl (nelem + 1) ↔ Gathered mem tl nelem ∧
        ∀ j < tl.bytes nelem, mem (tl.srcAddr nelem + j) = mem (tl.dstAddr + tl.offset nelem + j) :=
      Nat.forall_lt_succ_right
    have hlength : (bytesAt mem tl.dstAddr (tl.offset nelem)).length = (sourceBytes mem tl nelem).length := by
      rw [length_bytesAt, length_sourceBytes]
    have hblock : (∀ j < tl.bytes nelem, mem (tl.srcAddr nelem + j) = mem (tl.dstAddr + tl.offset nelem + j)) ↔
        bytesAt mem (tl.dstAddr + tl.offset nelem) (tl.bytes nelem) =
          bytesAt mem (tl.srcAddr nelem) (tl.bytes nelem) := by
      rw [eq_comm, bytesAt_congr]
    rw [hsplit, ih, hblock, offset_succ, bytesAt_add, sourceBytes_succ]
    constructor
    · rintro ⟨hbefore, hlast⟩
      rw [hbefore, hlast]
    · intro h
      exact List.append_inj h hlength

section Populate

variable (tl : MappedTransfer) (sglist : Nat → SglistNode)

theorem populateSglist_apply {nelem i : Nat} (hi : i < nelem) :
    dmatestPopulateSglist tl nelem sglist i = if i = 0 then firstNode tl else nextNode tl i := by
  suffices h : ∀ n, (List.range' 1 n).foldl (fun sglist i => Function.update sglist i (nextNode tl i))
      (Function.update sglist 0 (firstNode tl)) i =
      if i = 0 then firstNode tl else if i ≤ n then nextNode tl i else sglist i by
    rw [dmatestPopulateSglist, h]
    refine if_congr Iff.rfl rfl (if_pos ?_)
    omega
  intro n
  induction n with
  | zero =>
    by_cases hzero : i = 0
    · simp [hzero]
    · simp [hzero]
  | succ n ih =>
    rw [List.range'_concat, List.foldl_append, List.foldl_cons, List.foldl_nil]
    by_cases hlast : i = 1 + 1 * n
    · subst hlast
      rw [Function.update_self, if_neg (by omega), if_pos (by omega)]
    · rw [Function.update_of_ne hlast, ih]
      refine if_congr Iff.rfl rfl (if_congr ?_ rfl rfl)
      omega

theorem populateSglist_describes {nelem i : Nat} (hi : i < nelem) :
    (dmatestPopulateSglist tl nelem sglist i).source = tl.srcAddrPhy i ∧
      (dmatestPopulateSglist tl nelem sglist i).numOfElem = tl.transferSizes i := by
  rw [populateSglist_apply tl sglist hi]
  by_cases hzero : i = 0
  · rw [if_pos hzero, hzero]
    exact ⟨rfl, rfl⟩
  · rw [if_neg hzero]
    exact ⟨rfl, rfl⟩

end Populate

section Coherent

variable {nelem : Nat} (tl : CoherentTransfer nelem)

theorem CoherentTransfer.bytes_eq {i : Nat} (hi : i < nelem) :
    tl.bytes i = 4 * (tl.transferSizes i).toNat := by
  obtain ⟨hpos, hfits⟩ := tl.fits i hi
  have hfour : (4 : UInt32).toNat = 4 := rfl
  rw [TlistTransfer.bytes, UInt32.toNat_mul, hfour, Nat.mul_comm]
  exact Nat.mod_eq_of_lt (by omega)

theorem CoherentTransfer.listBytes_eq (sglist : Nat → SglistNode) :
    listBytes tl.physMem (dmatestPopulateSglist tl.toMappedTransfer nelem sglist) nelem =
      sourceBytes tl.mem tl.toTlistTransfer nelem := by
  rw [listBytes, sourceBytes]
  refine List.flatMap_congr fun i hi => ?_
  have hlt := List.mem_range.mp hi
  obtain ⟨hsource, hcount⟩ := populateSglist_describes tl.toMappedTransfer sglist hlt
  rw [hsource, hcount, tl.bytes_eq hlt, bytesAt_congr]
  exact tl.coherent i hlt

/-- The verifier accepts the destination that starts with what the populated
list transfers, and both walk the same sources with the same sizes. -/
theorem verifyDestBuffer_iff_listBytes (sglist : Nat → SglistNode) :
    (verifyDestBuffer tl.mem tl.toTlistTransfer nelem = 0 ↔
      let gathered := listBytes tl.physMem (dmatestPopulateSglist tl.toMappedTransfer nelem sglist) nelem
      bytesAt tl.mem tl.dstAddr gathered.length = gathered) ∧
    ∀ i < nelem, (dmatestPopulateSglist tl.toMappedTransfer nelem sglist i).source = tl.srcAddrPhy i ∧
      4 * (dmatestPopulateSglist tl.toMappedTransfer nelem sglist i).numOfElem.toNat = tl.bytes i := by
  constructor
  · dsimp only
    rw [tl.listBytes_eq, length_sourceBytes, verifyDestBuffer_eq_zero, gathered_iff_bytesAt]
  · intro i hi
    obtain ⟨hsource, hcount⟩ := populateSglist_describes tl.toMappedTransfer sglist hi
    rw [hcount, tl.bytes_eq hi]
    exact ⟨hsource, rfl⟩

end Coherent

def gatheredPair : CoherentTransfer 2 where
  srcAddr := fun i => 256 * (i + 1)
  transferSizes := fun i => if i = 0 then 1 else 2
  totalNumElements := 3
  dstAddr := 1024
  sglistId := 0
  userSglist := 2048
  srcAddrPhy := fun i => 65536 + 256 * (i + 1)
  dstAddrPhy := 65536 + 1024
  mem := fun a => if a < 1024 then UInt8.ofNat (a / 256) else if a < 1028 then 1 else 2
  physMem := fun a => if a < 65536 + 1024 then UInt8.ofNat ((a - 65536) / 256) else if a < 65536 + 1028 then 1 else 2
  fits := by decide
  coherent := by decide

example : verifyDestBuffer gatheredPair.mem gatheredPair.toTlistTransfer 2 = 0 := by decide

example : verifyDestBuffer (Function.update gatheredPair.mem 1030 0) gatheredPair.toTlistTransfer 2 = -1 := by decide

end DmaDload

end DeviceDriverTest
