import DeviceDriverTest.CountedLoop
import DeviceDriverTest.DvfsData
import DeviceDriverTest.KeyedFold

/-! The table of OPP tuples. A triple loop stores one tuple for each choice of
an OPP in the three domains, at a slot computed from the three numbers. -/

namespace DeviceDriverTest

namespace Dvfs

open CountedLoop

structure OppTupple where
  vdd1Oppnum : Nat
  vdd2Oppnum : Nat
  vdd3Oppnum : Nat
  validOpp : Bool
  deriving DecidableEq

structure Triple where
  i : Nat
  j : Nat
  k : Nat
  deriving DecidableEq

def sizeofOppTupple : Nat := 16

def sizeValues : Nat := 2 ^ 32

variable {Device : Type*}

def oppTuppleCount (vdds : VoltDomain → DvfsData Device) : Nat :=
  (vdds .mpu).oppCnt * (vdds .dsp).oppCnt * (vdds .l3).oppCnt

/-- The tuples that `kmalloc` makes room for. -/
def allocatedTupples (vdds : VoltDomain → DvfsData Device) : Nat :=
  (oppTuppleCount vdds * sizeofOppTupple) % sizeValues / sizeofOppTupple

def slot (vdds : VoltDomain → DvfsData Device) (t : Triple) : Nat :=
  t.i * ((vdds .dsp).oppCnt + (vdds .l3).oppCnt) + t.j * (vdds .l3).oppCnt + t.k

def tupple (t : Triple) : OppTupple where
  vdd1Oppnum := t.i
  vdd2Oppnum := t.j
  vdd3Oppnum := t.k
  validOpp := !(t.i != 0 || t.j != 0) || t.k != 0

/-- The table as the triple loop leaves it, from the memory that `kmalloc` returned. -/
def updateOppTuple (vdds : VoltDomain → DvfsData Device) (data : Nat → OppTupple) : Nat → OppTupple :=
  (List.range (vdds .mpu).oppCnt).foldl (fun data i =>
    (List.range (vdds .dsp).oppCnt).foldl (fun data j =>
      (List.range (vdds .l3).oppCnt).foldl (fun data k =>
        Function.update data (slot vdds ⟨i, j, k⟩) (tupple ⟨i, j, k⟩)) data) data) data

def OppTupple.triple (t : OppTupple) : Triple := ⟨t.vdd1Oppnum, t.vdd2Oppnum, t.vdd3Oppnum⟩

def triples (vdds : VoltDomain → DvfsData Device) : List Triple :=
  (List.range (vdds .mpu).oppCnt).flatMap fun i =>
    (List.range (vdds .dsp).oppCnt).flatMap fun j =>
      (List.range (vdds .l3).oppCnt).map fun k => ⟨i, j, k⟩

/-- The table holds every triple in a slot of its own and nothing else, whatever
the memory held before. -/
structure TableComplete (vdds : VoltDomain → DvfsData Device) : Prop where
  inside : ∀ t ∈ triples vdds, slot vdds t < allocatedTupples vdds
  apart : ∀ t ∈ triples vdds, ∀ u ∈ triples vdds, slot vdds t = slot vdds u → t = u
  filled : ∀ s < oppTuppleCount vdds, ∃ t ∈ triples vdds, slot vdds t = s
  stored : ∀ data, ∀ t ∈ triples vdds, updateOppTuple vdds data (slot vdds t) = tupple t
  scanned : ∀ data, ∀ t ∈ triples vdds,
    ∃! s, s < oppTuppleCount vdds ∧ (updateOppTuple vdds data s).triple = t

/-- The slots agree with the row-major order, and the size of the table fits its type. -/
def RowMajorCounts (vdds : VoltDomain → DvfsData Device) : Prop :=
  ((vdds .mpu).oppCnt = 1 ∨ (vdds .dsp).oppCnt = 2 ∧ (vdds .l3).oppCnt = 2) ∧
    oppTuppleCount vdds * sizeofOppTupple < sizeValues

theorem mem_triples {vdds : VoltDomain → DvfsData Device} {t : Triple} :
    t ∈ triples vdds ↔ t.i < (vdds .mpu).oppCnt ∧ t.j < (vdds .dsp).oppCnt ∧ t.k < (vdds .l3).oppCnt := by
  obtain ⟨i, j, k⟩ := t
  simp [triples]

theorem updateOppTuple_eq (vdds : VoltDomain → DvfsData Device) (data : Nat → OppTupple) :
    updateOppTuple vdds data =
      (triples vdds).foldl (KeyedFold.deliver (slot vdds) fun _ t => tupple t) data := by
  simp only [triples, List.foldl_flatMap, List.foldl_map]
  rfl

theorem updateOppTuple_slot {vdds : VoltDomain → DvfsData Device}
    (hapart : ∀ t ∈ triples vdds, ∀ u ∈ triples vdds, slot vdds t = slot vdds u → t = u)
    (data : Nat → OppTupple) {t : Triple} (ht : t ∈ triples vdds) :
    updateOppTuple vdds data (slot vdds t) = tupple t := by
  rw [updateOppTuple_eq, KeyedFold.foldl_deliver_apply]
  have hlast := KeyedFold.foldl_project_last (fun _ => True) (fun c : OppTupple => c) tupple
    (fun _ _ _ => trivial) (fun c e _ => rfl)
    (KeyedFold.addressed (slot vdds) (slot vdds t) (triples vdds)) (c := data (slot vdds t)) trivial
  rw [hlast]
  have hmem : t ∈ KeyedFold.addressed (slot vdds) (slot vdds t) (triples vdds) :=
    KeyedFold.mem_addressed.mpr ⟨ht, rfl⟩
  obtain ⟨last, hget⟩ := Option.isSome_iff_exists.mp
    (List.getLast?_isSome.mpr (List.ne_nil_of_mem hmem))
  obtain ⟨hin, hslot⟩ := KeyedFold.mem_addressed.mp (List.mem_of_getLast? hget)
  rw [hget, hapart last hin t ht hslot]
  rfl

theorem allocatedTupples_le (vdds : VoltDomain → DvfsData Device) :
    allocatedTupples vdds ≤ oppTuppleCount vdds := by
  rw [allocatedTupples]
  have hle := Nat.mod_le (oppTuppleCount vdds * sizeofOppTupple) sizeValues
  exact (Nat.div_le_div_right hle).trans (Nat.mul_div_cancel _ (by decide)).le

theorem allocatedTupples_eq {vdds : VoltDomain → DvfsData Device}
    (h : oppTuppleCount vdds * sizeofOppTupple < sizeValues) : allocatedTupples vdds = oppTuppleCount vdds := by
  rw [allocatedTupples, Nat.mod_eq_of_lt h, Nat.mul_div_cancel _ (by decide)]

section Counts

variable {vdds : VoltDomain → DvfsData Device}

theorem slot_eq_rowMajor (h : RowMajorCounts vdds) {t : Triple} (ht : t ∈ triples vdds) :
    slot vdds t = (t.i * (vdds .dsp).oppCnt + t.j) * (vdds .l3).oppCnt + t.k := by
  rw [slot, Nat.add_mul]
  obtain hone | ⟨hdsp, hl3⟩ := h.1
  · have hi : t.i = 0 := by
      have hlt := (mem_triples.mp ht).1
      omega
    rw [hi, Nat.zero_mul, Nat.zero_mul, Nat.zero_mul]
  · rw [hdsp, hl3]
    omega

theorem slots_inside (h : RowMajorCounts vdds) {t : Triple} (ht : t ∈ triples vdds) :
    slot vdds t < allocatedTupples vdds := by
  rw [allocatedTupples_eq h.2, slot_eq_rowMajor h ht]
  obtain ⟨hi, hj, hk⟩ := mem_triples.mp ht
  exact index_lt (index_lt hi hj) hk

theorem slots_apart (h : RowMajorCounts vdds) {t u : Triple} (ht : t ∈ triples vdds) (hu : u ∈ triples vdds)
    (heq : slot vdds t = slot vdds u) : t = u := by
  rw [slot_eq_rowMajor h ht, slot_eq_rowMajor h hu] at heq
  obtain ⟨-, htj, htk⟩ := mem_triples.mp ht
  obtain ⟨-, huj, huk⟩ := mem_triples.mp hu
  obtain ⟨hrow, hk⟩ := index_inj htk huk heq
  obtain ⟨hi, hj⟩ := index_inj htj huj hrow
  obtain ⟨i, j, k⟩ := t
  obtain ⟨i', j', k'⟩ := u
  rw [Triple.mk.injEq]
  exact ⟨hi, hj, hk⟩

theorem slots_filled (hpos : ∀ d, 0 < (vdds d).oppCnt) (h : RowMajorCounts vdds) {s : Nat}
    (hs : s < oppTuppleCount vdds) : ∃ t ∈ triples vdds, slot vdds t = s := by
  have hrow : s / (vdds .l3).oppCnt < (vdds .mpu).oppCnt * (vdds .dsp).oppCnt := by
    apply Nat.div_lt_of_lt_mul
    rw [Nat.mul_comm]
    exact hs
  have hi : s / (vdds .l3).oppCnt / (vdds .dsp).oppCnt < (vdds .mpu).oppCnt := by
    apply Nat.div_lt_of_lt_mul
    rw [Nat.mul_comm]
    exact hrow
  have hmem : (⟨s / (vdds .l3).oppCnt / (vdds .dsp).oppCnt, s / (vdds .l3).oppCnt % (vdds .dsp).oppCnt,
      s % (vdds .l3).oppCnt⟩ : Triple) ∈ triples vdds :=
    mem_triples.mpr ⟨hi, Nat.mod_lt _ (hpos _), Nat.mod_lt _ (hpos _)⟩
  refine ⟨_, hmem, ?_⟩
  rw [slot_eq_rowMajor h hmem]
  dsimp only
  rw [Nat.div_add_mod', Nat.div_add_mod']

theorem tableComplete_of_slots (hinside : ∀ t ∈ triples vdds, slot vdds t < allocatedTupples vdds)
    (hapart : ∀ t ∈ triples vdds, ∀ u ∈ triples vdds, slot vdds t = slot vdds u → t = u)
    (hfilled : ∀ s < oppTuppleCount vdds, ∃ t ∈ triples vdds, slot vdds t = s) : TableComplete vdds := by
  have hstored : ∀ data, ∀ t ∈ triples vdds, updateOppTuple vdds data (slot vdds t) = tupple t :=
    fun data t ht => updateOppTuple_slot hapart data ht
  refine ⟨hinside, hapart, hfilled, hstored, fun data t ht => ⟨slot vdds t, ⟨?_, ?_⟩, ?_⟩⟩
  · exact (hinside t ht).trans_le (allocatedTupples_le vdds)
  · rw [hstored data t ht]
    rfl
  · rintro s ⟨hs, hread⟩
    obtain ⟨u, hu, rfl⟩ := hfilled s hs
    rw [hstored data u hu] at hread
    have htu : u = t := hread
    rw [htu]

theorem size_fits_of_filled (hpos : ∀ d, 0 < (vdds d).oppCnt)
    (hinside : ∀ t ∈ triples vdds, slot vdds t < allocatedTupples vdds)
    (hfilled : ∀ s < oppTuppleCount vdds, ∃ t ∈ triples vdds, slot vdds t = s) :
    oppTuppleCount vdds * sizeofOppTupple < sizeValues := by
  have hcount : 0 < oppTuppleCount vdds := Nat.mul_pos (Nat.mul_pos (hpos _) (hpos _)) (hpos _)
  obtain ⟨t, ht, hslot⟩ := hfilled (oppTuppleCount vdds - 1) (by omega)
  have hroom := hinside t ht
  have hmod := Nat.mod_lt (oppTuppleCount vdds * sizeofOppTupple) (by decide : 0 < sizeValues)
  simp only [allocatedTupples, sizeofOppTupple] at hroom hmod ⊢
  omega

theorem eq_two_of_add_eq_mul {n m : Nat} (hn : 0 < n) (hm : 0 < m) (h : n + m = n * m) : n = 2 ∧ m = 2 := by
  obtain ⟨a, rfl⟩ := Nat.exists_eq_add_one.mpr hn
  obtain ⟨b, rfl⟩ := Nat.exists_eq_add_one.mpr hm
  have hone : a * b = 1 := by
    rw [Nat.add_mul, Nat.mul_add] at h
    omega
  have ha := Nat.eq_one_of_mul_eq_one_right hone
  have hb := Nat.eq_one_of_mul_eq_one_left hone
  rw [ha, hb]
  exact ⟨rfl, rfl⟩

/-- The last triple stays inside, so the stride of a row is at most the length of one. -/
theorem stride_le_of_inside (hpos : ∀ d, 0 < (vdds d).oppCnt)
    (hinside : ∀ t ∈ triples vdds, slot vdds t < allocatedTupples vdds) (hmany : (vdds .mpu).oppCnt ≠ 1) :
    (vdds .dsp).oppCnt + (vdds .l3).oppCnt ≤ (vdds .dsp).oppCnt * (vdds .l3).oppCnt := by
  obtain ⟨m, hm⟩ := Nat.exists_eq_add_one.mpr (hpos .mpu)
  obtain ⟨a, ha⟩ := Nat.exists_eq_add_one.mpr (hpos .dsp)
  obtain ⟨b, hb⟩ := Nat.exists_eq_add_one.mpr (hpos .l3)
  have hmem : (⟨m, a, b⟩ : Triple) ∈ triples vdds := by
    rw [mem_triples, hm, ha, hb]
    exact ⟨Nat.lt_succ_self m, Nat.lt_succ_self a, Nat.lt_succ_self b⟩
  have hlast := (hinside _ hmem).trans_le (allocatedTupples_le vdds)
  rw [slot, oppTuppleCount, hm] at hlast
  dsimp only at hlast
  have hrow : a * (vdds .l3).oppCnt + b + 1 = (vdds .dsp).oppCnt * (vdds .l3).oppCnt := by
    rw [ha, Nat.add_mul, hb]
    omega
  have hrows : (m + 1) * (vdds .dsp).oppCnt * (vdds .l3).oppCnt =
      m * ((vdds .dsp).oppCnt * (vdds .l3).oppCnt) + (vdds .dsp).oppCnt * (vdds .l3).oppCnt := by
    rw [Nat.mul_assoc, Nat.succ_mul]
  apply Nat.le_of_mul_le_mul_left _ (by omega : 0 < m)
  omega

/-- The first triple of the second row is apart from the first row, so the
stride is at least the length of a row. -/
theorem le_stride_of_apart (hpos : ∀ d, 0 < (vdds d).oppCnt)
    (hapart : ∀ t ∈ triples vdds, ∀ u ∈ triples vdds, slot vdds t = slot vdds u → t = u)
    (hmany : (vdds .mpu).oppCnt ≠ 1) :
    (vdds .dsp).oppCnt * (vdds .l3).oppCnt ≤ (vdds .dsp).oppCnt + (vdds .l3).oppCnt := by
  by_contra hlt
  have hmpu := hpos .mpu
  have htwo : 1 < (vdds .mpu).oppCnt := by omega
  have hsecond : (⟨1, 0, 0⟩ : Triple) ∈ triples vdds :=
    mem_triples.mpr ⟨htwo, hpos .dsp, hpos .l3⟩
  have hj : ((vdds .dsp).oppCnt + (vdds .l3).oppCnt) / (vdds .l3).oppCnt < (vdds .dsp).oppCnt := by
    apply Nat.div_lt_of_lt_mul
    rw [Nat.mul_comm]
    exact not_le.mp hlt
  have hfirst : (⟨0, ((vdds .dsp).oppCnt + (vdds .l3).oppCnt) / (vdds .l3).oppCnt,
      ((vdds .dsp).oppCnt + (vdds .l3).oppCnt) % (vdds .l3).oppCnt⟩ : Triple) ∈ triples vdds :=
    mem_triples.mpr ⟨hmpu, hj, Nat.mod_lt _ (hpos .l3)⟩
  have hsame := hapart _ hsecond _ hfirst (by
    simp only [slot, Nat.zero_mul, Nat.one_mul, Nat.zero_add, Nat.add_zero]
    rw [Nat.div_add_mod'])
  exact absurd (Triple.mk.inj hsame).1 one_ne_zero

theorem rowMajorCounts_of_complete (hpos : ∀ d, 0 < (vdds d).oppCnt) (h : TableComplete vdds) :
    RowMajorCounts vdds := by
  refine ⟨?_, size_fits_of_filled hpos h.inside h.filled⟩
  by_cases hone : (vdds .mpu).oppCnt = 1
  · exact Or.inl hone
  · have hstride := le_antisymm (stride_le_of_inside hpos h.inside hone) (le_stride_of_apart hpos h.apart hone)
    exact Or.inr (eq_two_of_add_eq_mul (hpos _) (hpos _) hstride)

theorem tableComplete_iff (hpos : ∀ d, 0 < (vdds d).oppCnt) : TableComplete vdds ↔ RowMajorCounts vdds := by
  refine ⟨rowMajorCounts_of_complete hpos, fun h => tableComplete_of_slots ?_ ?_ ?_⟩
  · exact fun t ht => slots_inside h ht
  · exact fun t ht u hu => slots_apart h ht hu
  · exact fun s hs => slots_filled hpos h hs

end Counts

def countedVdds (mpu dsp l3 : Nat) : VoltDomain → DvfsData Unit
  | .mpu => ⟨true, false, 1, mpu, fun _ => 0, none⟩
  | .dsp => ⟨true, false, 2, dsp, fun _ => 0, none⟩
  | .l3 => ⟨true, false, 3, l3, fun _ => 0, none⟩

theorem tableComplete_four_two_two : TableComplete (countedVdds 4 2 2) := by
  have hpos : ∀ d, 0 < (countedVdds 4 2 2 d).oppCnt := by
    intro d
    cases d <;> decide
  exact (tableComplete_iff hpos).mpr ⟨Or.inr ⟨rfl, rfl⟩, by decide⟩

/-- With three OPPs in the second domain, the triples (0, 2, 1) and (1, 0, 0) share slot 5. -/
theorem shared_slot_four_three_two :
    ¬ TableComplete (countedVdds 4 3 2) ∧
      slot (countedVdds 4 3 2) ⟨0, 2, 1⟩ = slot (countedVdds 4 3 2) ⟨1, 0, 0⟩ := by
  refine ⟨fun h => ?_, rfl⟩
  have hsame := h.apart ⟨0, 2, 1⟩ (by decide) ⟨1, 0, 0⟩ (by decide) rfl
  exact absurd hsame (by decide)

end Dvfs

end DeviceDriverTest
