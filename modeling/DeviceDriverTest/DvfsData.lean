import Mathlib.Algebra.Group.Nat.Defs
import Mathlib.Data.Finset.Sort
import Mathlib.Logic.Function.Basic

/-! The OPP rate tables of the DVFS test. `updateDvfsData` asks a device for its
frequencies one after the other and stores them in a table of eight. -/

namespace DeviceDriverTest

namespace Dvfs

def freqInMhz : Nat := 1000000

/-- The indices of `dvfs_data_vdd`. -/
inductive VoltDomain where
  | mpu
  | dsp
  | l3
  deriving DecidableEq

def rateTableLength : Nat := 8

def ulongValues : Nat := 2 ^ 32

structure EnabledOpps where
  freqs : Finset Nat
  fits : ∀ f ∈ freqs, f < ulongValues

/-- `struct dvfs_data` without its completion; entries of `rateTable` from
`rateTableLength` on are the memory behind it, `none` is a null `dev_ptr`. -/
structure DvfsData (Device : Type*) where
  enableTest : Bool
  testPassed : Bool
  vddNum : Nat
  oppCnt : Nat
  rateTable : Nat → Nat
  devPtr : Option Device

/-- The devices of the board, as the `omap2_get_*_device` calls return them, and
their OPPs. -/
structure Board (Device : Type*) where
  mpuss : Option Device
  iva : Option Device
  l3 : Option Device
  opps : Device → EnabledOpps

variable {Device : Type*}

def oppFindFreqCeil (opps : EnabledOpps) (freq : Nat) : Option Nat :=
  if h : (opps.freqs.filter (freq ≤ ·)).Nonempty then some ((opps.freqs.filter (freq ≤ ·)).min' h) else none

/-- The search loop with `room` entries of the table left: the frequencies it
stores, or `none` when it stores one behind the table. -/
def searchFreqs (opps : EnabledOpps) (room freq : Nat) : Option (List Nat) :=
  match oppFindFreqCeil opps freq with
  | none => some []
  | some found =>
    match room with
    | 0 => none
    | room + 1 => (searchFreqs opps room ((found + freqInMhz) % ulongValues)).map (found :: ·)

/-- The `switch` on the number of the domain: its index, its `vdd_num` and its device. -/
def vddSwitch (board : Board Device) : Nat → Option (VoltDomain × Nat × Option Device)
  | 1 => some (.mpu, 1, board.mpuss)
  | 2 => some (.dsp, 2, board.iva)
  | 4 => some (.l3, 3, board.l3)
  | _ => none

/-- The table with its return value; `none` when the memory behind a rate table is hit. -/
def updateDvfsData (board : Board Device) (vddNum : Nat) (vdds : VoltDomain → DvfsData Device) :
    Option ((VoltDomain → DvfsData Device) × Int) :=
  match vddSwitch board vddNum with
  | none => some (vdds, -1)
  | some (indx, num, devPtr) =>
    let vdd := { vdds indx with vddNum := num, devPtr := devPtr }
    match devPtr with
    | none => some (Function.update vdds indx vdd, -1)
    | some dev =>
      match searchFreqs (board.opps dev) rateTableLength 0 with
      | none => none
      | some found =>
        let vdd := { vdd with rateTable := fun i => found.getD i (vdd.rateTable i) }
        if found.length = 0 then some (Function.update vdds indx vdd, -1)
        else some (Function.update vdds indx { vdd with oppCnt := found.length, enableTest := true }, 0)

/-- The three updates at the start of `dvfs_test_init`, with the disjunction of
their results. -/
def updateAll (board : Board Device) (vdds : VoltDomain → DvfsData Device) :
    Option ((VoltDomain → DvfsData Device) × Int) :=
  (updateDvfsData board 1 vdds).bind fun first =>
    (updateDvfsData board 2 first.1).bind fun second =>
      (updateDvfsData board 4 second.1).map fun third =>
        (third.1, if first.2 = 0 ∧ second.2 = 0 ∧ third.2 = 0 then 0 else -1)

/-- The table of the domain holds its enabled frequencies, in increasing order. -/
def RateTableExact (opps : EnabledOpps) (indx : VoltDomain)
    (outcome : Option ((VoltDomain → DvfsData Device) × Int)) : Prop :=
  ∃ vdds ret, outcome = some (vdds, ret) ∧ (vdds indx).oppCnt ≤ rateTableLength ∧
    (List.range (vdds indx).oppCnt).map (vdds indx).rateTable = opps.freqs.sort

/-- The frequencies keep the distance that the search steps over. -/
structure EnabledOpps.Spaced (opps : EnabledOpps) : Prop where
  few : opps.freqs.card ≤ rateTableLength
  below : ∀ f ∈ opps.freqs, f + freqInMhz < ulongValues
  apart : ∀ f ∈ opps.freqs, ∀ g ∈ opps.freqs, f < g → f + freqInMhz ≤ g

theorem oppFindFreqCeil_eq_none {opps : EnabledOpps} {freq : Nat} :
    oppFindFreqCeil opps freq = none ↔ ∀ f ∈ opps.freqs, f < freq := by
  rw [oppFindFreqCeil, dite_eq_right_iff]
  constructor
  · intro h f hf
    by_contra hle
    exact absurd (h ⟨f, Finset.mem_filter.mpr ⟨hf, not_lt.mp hle⟩⟩) (Option.some_ne_none _)
  · rintro h ⟨f, hf⟩
    obtain ⟨hf, hle⟩ := Finset.mem_filter.mp hf
    exact absurd (h f hf) (not_lt.mpr hle)

theorem oppFindFreqCeil_spec {opps : EnabledOpps} {freq found : Nat} (h : oppFindFreqCeil opps freq = some found) :
    found ∈ opps.freqs ∧ freq ≤ found ∧ ∀ f ∈ opps.freqs, freq ≤ f → found ≤ f := by
  obtain ⟨hne, hmin⟩ := Option.dite_none_right_eq_some.mp h
  rw [Option.some.injEq] at hmin
  have hmem := Finset.min'_mem _ hne
  rw [hmin, Finset.mem_filter] at hmem
  refine ⟨hmem.1, hmem.2, fun f hf hle => ?_⟩
  rw [← hmin]
  exact Finset.min'_le _ f (Finset.mem_filter.mpr ⟨hf, hle⟩)

theorem searchFreqs_none {opps : EnabledOpps} {freq : Nat} (h : oppFindFreqCeil opps freq = none) (room : Nat) :
    searchFreqs opps room freq = some [] := by
  rw [searchFreqs, h]

theorem searchFreqs_some {opps : EnabledOpps} {freq found : Nat} (h : oppFindFreqCeil opps freq = some found)
    (room : Nat) : searchFreqs opps (room + 1) freq =
      (searchFreqs opps room ((found + freqInMhz) % ulongValues)).map (found :: ·) := by
  rw [searchFreqs, h]

theorem searchFreqs_cases {opps : EnabledOpps} {room freq : Nat} {l : List Nat}
    (h : searchFreqs opps room freq = some l) :
    (oppFindFreqCeil opps freq = none ∧ l = []) ∨
      ∃ left found rest, room = left + 1 ∧ oppFindFreqCeil opps freq = some found ∧ l = found :: rest ∧
        searchFreqs opps left ((found + freqInMhz) % ulongValues) = some rest := by
  cases hceil : oppFindFreqCeil opps freq with
  | none =>
    rw [searchFreqs_none hceil, Option.some.injEq] at h
    exact Or.inl ⟨rfl, h.symm⟩
  | some found =>
    cases room with
    | zero =>
      rw [searchFreqs, hceil] at h
      contradiction
    | succ left =>
      rw [searchFreqs_some hceil, Option.map_eq_some_iff] at h
      obtain ⟨rest, hrest, hl⟩ := h
      exact Or.inr ⟨left, found, rest, rfl, rfl, hl.symm, hrest⟩

theorem searchFreqs_length_le {opps : EnabledOpps} {room freq : Nat} {l : List Nat}
    (h : searchFreqs opps room freq = some l) : l.length ≤ room := by
  induction room generalizing freq l with
  | zero =>
    obtain ⟨-, rfl⟩ | ⟨left, found, rest, hroom, -⟩ := searchFreqs_cases h
    · exact le_rfl
    · omega
  | succ room ih =>
    obtain ⟨-, rfl⟩ | ⟨left, found, rest, hroom, -, rfl, hrest⟩ := searchFreqs_cases h
    · exact Nat.zero_le _
    · obtain rfl : room = left := by omega
      exact Nat.succ_le_succ (ih hrest)

theorem freqs_from_ceil {opps : EnabledOpps}
    (hapart : ∀ f ∈ opps.freqs, ∀ g ∈ opps.freqs, f < g → f + freqInMhz ≤ g) {freq found : Nat}
    (hceil : oppFindFreqCeil opps freq = some found) :
    opps.freqs.filter (freq ≤ ·) = insert found (opps.freqs.filter (found + freqInMhz ≤ ·)) := by
  obtain ⟨hfound, hkey, hleast⟩ := oppFindFreqCeil_spec hceil
  ext f
  rw [Finset.mem_insert, Finset.mem_filter, Finset.mem_filter]
  constructor
  · intro ⟨hf, hle⟩
    obtain heq | hlt := eq_or_lt_of_le (hleast f hf hle)
    · exact Or.inl heq.symm
    · exact Or.inr ⟨hf, hapart found hfound f hf hlt⟩
  · rintro (rfl | ⟨hf, hle⟩)
    · exact ⟨hfound, hkey⟩
    · exact ⟨hf, by omega⟩

theorem searchFreqs_of_apart {opps : EnabledOpps} (hbelow : ∀ f ∈ opps.freqs, f + freqInMhz < ulongValues)
    (hapart : ∀ f ∈ opps.freqs, ∀ g ∈ opps.freqs, f < g → f + freqInMhz ≤ g) {room freq : Nat}
    (hroom : (opps.freqs.filter (freq ≤ ·)).card ≤ room) :
    searchFreqs opps room freq = some (opps.freqs.filter (freq ≤ ·)).sort := by
  induction room generalizing freq with
  | zero =>
    have hempty := Finset.card_eq_zero.mp (Nat.le_zero.mp hroom)
    have hceil : oppFindFreqCeil opps freq = none :=
      oppFindFreqCeil_eq_none.mpr fun f hf => not_le.mp (Finset.filter_eq_empty_iff.mp hempty hf)
    rw [searchFreqs_none hceil, hempty, Finset.sort_empty]
  | succ room ih =>
    cases hceil : oppFindFreqCeil opps freq with
    | none =>
      have hempty : opps.freqs.filter (freq ≤ ·) = ∅ :=
        Finset.filter_eq_empty_iff.mpr fun f hf => not_le.mpr (oppFindFreqCeil_eq_none.mp hceil f hf)
      rw [searchFreqs_none hceil, hempty, Finset.sort_empty]
    | some found =>
      have hfound := (oppFindFreqCeil_spec hceil).1
      have hsplit := freqs_from_ceil hapart hceil
      have hstep : 0 < freqInMhz := by decide
      have hnew : found ∉ opps.freqs.filter (found + freqInMhz ≤ ·) := by
        rw [Finset.mem_filter]
        omega
      have hcard : (opps.freqs.filter (found + freqInMhz ≤ ·)).card ≤ room := by
        rw [hsplit, Finset.card_insert_of_notMem hnew] at hroom
        omega
      have hfirst : ∀ f ∈ opps.freqs.filter (found + freqInMhz ≤ ·), found ≤ f := by
        intro f hf
        have hle := (Finset.mem_filter.mp hf).2
        omega
      rw [searchFreqs_some hceil, Nat.mod_eq_of_lt (hbelow found hfound), ih hcard, hsplit,
        Finset.sort_insert _ hfirst hnew]
      rfl

theorem searchFreqs_first_le {opps : EnabledOpps} {room freq found : Nat} {rest : List Nat}
    (h : searchFreqs opps room freq = some (found :: rest)) : freq ≤ found := by
  obtain ⟨-, hl⟩ | ⟨left, first, tail, -, hceil, hl, -⟩ := searchFreqs_cases h
  · contradiction
  · rw [(List.cons.inj hl).1]
    exact (oppFindFreqCeil_spec hceil).2.1

/-- An increasing result was found without a step across another frequency or
past the last value. -/
theorem spaced_of_searchFreqs {opps : EnabledOpps} {room freq : Nat} {l : List Nat}
    (h : searchFreqs opps room freq = some l) (hsorted : l.Pairwise (· < ·)) :
    ∀ f ∈ l, f + freqInMhz < ulongValues ∧ ∀ g ∈ l, f < g → f + freqInMhz ≤ g := by
  induction l generalizing room freq with
  | nil => simp
  | cons found rest ih =>
    obtain ⟨-, hl⟩ | ⟨left, first, tail, -, hceil, hl, hrest⟩ := searchFreqs_cases h
    · contradiction
    obtain ⟨rfl, rfl⟩ := List.cons.inj hl
    obtain ⟨hless, htail⟩ := List.pairwise_cons.mp hsorted
    have hfound := (oppFindFreqCeil_spec hceil).1
    have hstep : freqInMhz < ulongValues := by decide
    have hbelow : found + freqInMhz < ulongValues := by
      by_contra hwrap
      have hfits := opps.fits found hfound
      have hkey : (found + freqInMhz) % ulongValues ≤ found := by
        rw [Nat.mod_eq_sub_mod (not_lt.mp hwrap), Nat.mod_eq_of_lt (by omega)]
        omega
      -- the key has wrapped round to a frequency already stored, which the loop finds again
      obtain ⟨hnone, -⟩ | ⟨-, again, after, -, hagain, rfl, -⟩ := searchFreqs_cases hrest
      · exact absurd (oppFindFreqCeil_eq_none.mp hnone found hfound) (not_lt.mpr hkey)
      · have hle := (oppFindFreqCeil_spec hagain).2.2 found hfound hkey
        have hlt := hless again (List.mem_cons_self)
        omega
    rw [Nat.mod_eq_of_lt hbelow] at hrest
    have hover : ∀ g ∈ rest, found + freqInMhz ≤ g := by
      cases rest with
      | nil => simp
      | cons next after =>
        have hnext := searchFreqs_first_le hrest
        intro g hg
        obtain rfl | hg := List.mem_cons.mp hg
        · exact hnext
        · have hlt := (List.pairwise_cons.mp htail).1 g hg
          omega
    intro f hf
    obtain rfl | hf := List.mem_cons.mp hf
    · refine ⟨hbelow, fun g hg hlt => ?_⟩
      obtain rfl | hg := List.mem_cons.mp hg
      · omega
      · exact hover g hg
    · obtain ⟨hfits, happart⟩ := ih hrest htail f hf
      refine ⟨hfits, fun g hg hlt => ?_⟩
      have hfirst := hless f hf
      obtain rfl | hg := List.mem_cons.mp hg
      · omega
      · exact happart g hg hlt

theorem updateDvfsData_of_device {board : Board Device} {vddNum num : Nat} {indx : VoltDomain} {dev : Device}
    (hvdd : vddSwitch board vddNum = some (indx, num, some dev)) (vdds : VoltDomain → DvfsData Device) :
    (searchFreqs (board.opps dev) rateTableLength 0 = none ∧ updateDvfsData board vddNum vdds = none) ∨
      ∃ found vdds' ret, searchFreqs (board.opps dev) rateTableLength 0 = some found ∧
        updateDvfsData board vddNum vdds = some (vdds', ret) ∧
        (vdds' indx).oppCnt = (if found = [] then (vdds indx).oppCnt else found.length) ∧
        ∀ i < found.length, (vdds' indx).rateTable i = found.getD i 0 := by
  rw [updateDvfsData, hvdd]
  dsimp only
  cases hsearch : searchFreqs (board.opps dev) rateTableLength 0 with
  | none => exact Or.inl ⟨rfl, rfl⟩
  | some found =>
    refine Or.inr ?_
    cases found with
    | nil => exact ⟨[], _, -1, rfl, rfl, by simp, by simp⟩
    | cons first rest =>
      refine ⟨first :: rest, _, 0, rfl, rfl, by simp, fun i hi => ?_⟩
      simp [List.getElem?_eq_getElem hi]

theorem map_range_getD (l : List Nat) : (List.range l.length).map (fun i => l.getD i 0) = l := by
  apply List.ext_getElem
  · simp
  · intro i hi hl
    simp [List.getElem?_eq_getElem hl]

theorem rateTableExact_of_search {opps : EnabledOpps} {found : List Nat}
    (hsearch : searchFreqs opps rateTableLength 0 = some found) {vdds : VoltDomain → DvfsData Device}
    {indx : VoltDomain} {ret : Int} (hcnt : (vdds indx).oppCnt = found.length)
    (htable : ∀ i < found.length, (vdds indx).rateTable i = found.getD i 0) :
    RateTableExact opps indx (some (vdds, ret)) ↔ found = opps.freqs.sort := by
  have hread : (List.range (vdds indx).oppCnt).map (vdds indx).rateTable = found := by
    have hentries := List.map_congr_left fun i hi => htable i (List.mem_range.mp hi)
    rw [hcnt, hentries, map_range_getD]
  constructor
  · rintro ⟨vdds', ret', heq, -, hsort⟩
    obtain ⟨rfl, -⟩ := Prod.mk.inj (Option.some.inj heq)
    rw [← hread, hsort]
  · intro hsort
    refine ⟨vdds, ret, rfl, ?_, hread.trans hsort⟩
    rw [hcnt]
    exact searchFreqs_length_le hsearch

theorem freqs_eq_empty_of_search {opps : EnabledOpps} {room : Nat} (h : searchFreqs opps room 0 = some []) :
    opps.freqs = ∅ := by
  obtain ⟨hnone, -⟩ | ⟨-, found, rest, -, -, hl, -⟩ := searchFreqs_cases h
  · refine Finset.eq_empty_of_forall_notMem fun f hf => ?_
    exact absurd (oppFindFreqCeil_eq_none.mp hnone f hf) (Nat.not_lt_zero f)
  · contradiction

theorem updateDvfsData_testPassed {board : Board Device} {vddNum : Nat} {vdds vdds' : VoltDomain → DvfsData Device}
    {ret : Int} (h : updateDvfsData board vddNum vdds = some (vdds', ret)) (d : VoltDomain) :
    (vdds' d).testPassed = (vdds d).testPassed := by
  have hkeep : ∀ indx (vdd : DvfsData Device), vdd.testPassed = (vdds indx).testPassed →
      (Function.update vdds indx vdd d).testPassed = (vdds d).testPassed := by
    intro indx vdd hvdd
    by_cases hd : d = indx
    · subst hd
      rw [Function.update_self, hvdd]
    · rw [Function.update_of_ne hd]
  rw [updateDvfsData] at h
  cases hswitch : vddSwitch board vddNum with
  | none =>
    rw [hswitch] at h
    cases h
    rfl
  | some selected =>
    obtain ⟨indx, num, devPtr⟩ := selected
    rw [hswitch] at h
    cases devPtr with
    | none =>
      cases h
      exact hkeep indx _ rfl
    | some dev =>
      dsimp only at h
      cases hsearch : searchFreqs (board.opps dev) rateTableLength 0 with
      | none =>
        rw [hsearch] at h
        contradiction
      | some found =>
        rw [hsearch] at h
        dsimp only at h
        split_ifs at h
        · cases h
          exact hkeep indx _ rfl
        · cases h
          exact hkeep indx _ rfl

theorem updateAll_testPassed {board : Board Device} {vdds vdds' : VoltDomain → DvfsData Device} {ret : Int}
    (h : updateAll board vdds = some (vdds', ret)) (d : VoltDomain) :
    (vdds' d).testPassed = (vdds d).testPassed := by
  obtain ⟨first, hfirst, h⟩ := Option.bind_eq_some_iff.mp h
  obtain ⟨second, hsecond, h⟩ := Option.bind_eq_some_iff.mp h
  obtain ⟨third, hthird, h⟩ := Option.map_eq_some_iff.mp h
  obtain ⟨rfl, -⟩ := Prod.mk.inj h
  rw [updateDvfsData_testPassed hthird, updateDvfsData_testPassed hsecond, updateDvfsData_testPassed hfirst]

section UpdateDvfsData

variable {board : Board Device} {vddNum num : Nat} {indx : VoltDomain} {dev : Device}
  (hvdd : vddSwitch board vddNum = some (indx, num, some dev)) {vdds : VoltDomain → DvfsData Device}

include hvdd

theorem spaced_of_rateTableExact
    (h : RateTableExact (board.opps dev) indx (updateDvfsData board vddNum vdds)) :
    (board.opps dev).Spaced ∧ ((board.opps dev).freqs = ∅ → (vdds indx).oppCnt = 0) := by
  obtain ⟨-, hnone⟩ | ⟨found, vdds', ret, hsearch, hupdate, hcnt, htable⟩ := updateDvfsData_of_device hvdd vdds
  · obtain ⟨vdds', ret, hsome, -⟩ := h
    rw [hnone] at hsome
    contradiction
  rw [hupdate] at h
  by_cases hempty : found = []
  · subst hempty
    have hfreqs := freqs_eq_empty_of_search hsearch
    obtain ⟨final, last, heq, -, hsort⟩ := h
    obtain ⟨rfl, -⟩ := Prod.mk.inj (Option.some.inj heq)
    rw [hfreqs, Finset.sort_empty, List.map_eq_nil_iff, List.range_eq_nil, hcnt, if_pos rfl] at hsort
    refine ⟨⟨?_, ?_, ?_⟩, fun _ => hsort⟩ <;> simp [hfreqs]
  · rw [if_neg hempty] at hcnt
    have hsort := (rateTableExact_of_search hsearch hcnt htable).mp h
    have hsorted : found.Pairwise (· < ·) := by
      rw [hsort]
      exact (Finset.sortedLT_sort _).pairwise
    have hspaced := spaced_of_searchFreqs hsearch hsorted
    have hmem : ∀ f, f ∈ (board.opps dev).freqs ↔ f ∈ found := by
      intro f
      rw [hsort, Finset.mem_sort]
    refine ⟨⟨?_, fun f hf => ?_, fun f hf g hg hlt => ?_⟩, fun hfreqs => ?_⟩
    · rw [← Finset.length_sort (· ≤ ·), ← hsort]
      exact searchFreqs_length_le hsearch
    · exact (hspaced f ((hmem f).mp hf)).1
    · exact (hspaced f ((hmem f).mp hf)).2 g ((hmem g).mp hg) hlt
    · rw [hfreqs, Finset.sort_empty] at hsort
      exact absurd hsort hempty

theorem rateTableExact_of_spaced (hspaced : (board.opps dev).Spaced)
    (hzero : (board.opps dev).freqs = ∅ → (vdds indx).oppCnt = 0) :
    RateTableExact (board.opps dev) indx (updateDvfsData board vddNum vdds) := by
  have hfilter : (board.opps dev).freqs.filter (0 ≤ ·) = (board.opps dev).freqs :=
    Finset.filter_true_of_mem fun f _ => Nat.zero_le f
  have hfew : ((board.opps dev).freqs.filter (0 ≤ ·)).card ≤ rateTableLength := by
    rw [hfilter]
    exact hspaced.few
  have hfound := searchFreqs_of_apart hspaced.below hspaced.apart hfew
  rw [hfilter] at hfound
  obtain ⟨hnone, -⟩ | ⟨found, vdds', ret, hsearch, hupdate, hcnt, htable⟩ := updateDvfsData_of_device hvdd vdds
  · rw [hfound] at hnone
    contradiction
  have hsort : found = (board.opps dev).freqs.sort := Option.some.inj (hsearch.symm.trans hfound)
  have hlength : (vdds' indx).oppCnt = found.length := by
    rw [hcnt]
    split_ifs with hempty
    · rw [hempty, hzero, List.length_nil]
      exact freqs_eq_empty_of_search (hempty ▸ hsearch)
    · rfl
  rw [hupdate]
  exact (rateTableExact_of_search hsearch hlength htable).mpr hsort

/-- The table is exact for the frequencies that are few and far enough apart for the search. -/
theorem updateDvfsData_exact_iff :
    RateTableExact (board.opps dev) indx (updateDvfsData board vddNum vdds) ↔
      (board.opps dev).Spaced ∧ ((board.opps dev).freqs = ∅ → (vdds indx).oppCnt = 0) :=
  ⟨spaced_of_rateTableExact hvdd, fun h => rateTableExact_of_spaced hvdd h.1 h.2⟩

end UpdateDvfsData

def mpuBoard (opps : EnabledOpps) : Board Unit := ⟨some (), none, none, fun _ => opps⟩

def loadedVdds : VoltDomain → DvfsData Device := fun _ => ⟨false, false, 0, 0, fun _ => 0, none⟩

def mpuOpps : EnabledOpps := ⟨{300000000, 600000000, 1008000000}, by decide⟩

def closeOpps : EnabledOpps := ⟨{300000000, 300500000}, by decide⟩

theorem mpu_table_exact :
    RateTableExact mpuOpps .mpu (updateDvfsData (mpuBoard mpuOpps) 1 loadedVdds) := by
  have hvdd : vddSwitch (mpuBoard mpuOpps) 1 = some (.mpu, 1, some ()) := rfl
  have hspaced : mpuOpps.Spaced := ⟨by decide, by decide, by decide⟩
  exact (updateDvfsData_exact_iff hvdd).mpr ⟨hspaced, fun _ => rfl⟩

/-- Of two OPPs half a megahertz apart the second is skipped. -/
theorem close_opp_skipped :
    ¬ RateTableExact closeOpps .mpu (updateDvfsData (mpuBoard closeOpps) 1 loadedVdds) := by
  intro h
  have hvdd : vddSwitch (mpuBoard closeOpps) 1 = some (.mpu, 1, some ()) := rfl
  have hspaced := (spaced_of_rateTableExact hvdd h).1
  exact absurd (hspaced.apart 300000000 (by decide) 300500000 (by decide) (by decide)) (by decide)

end Dvfs

end DeviceDriverTest
