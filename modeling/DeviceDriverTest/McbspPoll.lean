import Mathlib.Data.List.Basic
import Mathlib.Data.List.Range
import Mathlib.Tactic.Ring

/-! The polled loopback test of the McBSP. A start writes and reads its words in
chunks of 128 and compares each word read with the one written for it. -/

namespace DeviceDriverTest

namespace McbspPoll

def word8 : Int32 := 0
def word16 : Int32 := 2
def word32 : Int32 := 5

def rjustZeromsb : Int32 := 0
def rjustSignmsb : Int32 := 1
def ljustZerolsb : Int32 := 2

/-- The module parameters; `stack1` and `stack2` are what `data1` and `data2`
hold when no word length sets them. -/
structure Params where
  noOfTrans : Int32
  wordLength1 : Int32
  wordLength2 : Int32
  justification : Int32
  stack1 : UInt32
  stack2 : UInt32

def Params.data1 (p : Params) : UInt32 :=
  if p.wordLength1 = word8 then 0x80
  else if p.wordLength1 = word16 then 0xA500
  else if p.wordLength1 = word32 then 0x5A5A0000
  else p.stack1

def Params.data2 (p : Params) : UInt32 :=
  if p.wordLength2 = word8 then 0x80
  else if p.wordLength2 = word16 then 0xA500
  else if p.wordLength2 = word32 then 0xA5A50000
  else p.stack2

/-- What the driver answers in a start: what its writes return, and the words
its reads deliver, `none` for a read that fails. -/
structure Loopback where
  pollwrite : Nat → Int
  pollread : Nat → Option UInt32

structure Statics where
  transmissionStatus : Int
  noOfWordsTx : Int32
  noOfWordsRx : Int32

/-- A start under way, with the words it has written and those it has compared
a read with. -/
structure Run where
  txErr : Int
  rxErr : Int
  noOfWordsTx : Int32
  noOfWordsRx : Int32
  written : List UInt32
  compared : List UInt32

def writeWord (e : Loopback) (word : UInt32) (r : Run) : Run :=
  let ret := e.pollwrite r.written.length
  let r := { r with written := r.written ++ [word] }
  if ret ≠ 0 then { r with txErr := -1 } else { r with noOfWordsTx := r.noOfWordsTx + 1 }

def readWord (p : Params) (e : Loopback) (word : UInt32) (r : Run) : Run :=
  let ret := e.pollread r.compared.length
  let r := { r with compared := r.compared ++ [word] }
  match ret with
  | none => { r with rxErr := -2 }
  | some temp =>
    if p.justification = rjustZeromsb ∧ temp = word then { r with noOfWordsRx := r.noOfWordsRx + 1 }
    else if p.justification = ljustZerolsb ∧ temp = word <<< 24 then
      { r with noOfWordsRx := r.noOfWordsRx + 1 }
    else if p.justification = rjustSignmsb ∧ temp = word ||| 0xFFFFFF00 then
      { r with noOfWordsRx := r.noOfWordsRx + 1 }
    else { r with rxErr := -1, noOfWordsRx := r.noOfWordsRx + 1 }

/-- The loop over `k`, with the pairs it still has to do and the call it makes
for each word. -/
def pairLoop (p : Params) (call : UInt32 → Run → Run) (j : Int32) : Nat → Nat → Run → Run
  | 0, _, r => r
  | pairs + 1, k, r =>
    if p.noOfTrans ≤ j + Int32.ofNat k then r
    else
      let r := call (p.data1 + UInt32.ofNat k) r
      if p.noOfTrans ≤ j + Int32.ofNat (k + 1) then r
      else pairLoop p call j pairs (k + 2) (call (p.data2 + UInt32.ofNat (k + 1)) r)

/-- The loop over `j`, `none` when the fuel does not see its end. -/
def chunkLoop (p : Params) (e : Loopback) : Nat → Int32 → Run → Option Run
  | 0, _, _ => none
  | fuel + 1, j, r =>
    if p.noOfTrans ≤ j then some r
    else chunkLoop p e fuel (j + 128)
      (pairLoop p (readWord p e) j 64 0 (pairLoop p (writeWord e) j 64 0 r))

def Statics.run (s : Statics) : Run where
  txErr := 0
  rxErr := 0
  noOfWordsTx := 0
  noOfWordsRx := s.noOfWordsRx
  written := []
  compared := []

def Run.statics (r : Run) : Statics where
  transmissionStatus := if r.txErr ≠ 0 ∨ r.rxErr ≠ 0 then 1 else 0
  noOfWordsTx := r.noOfWordsTx
  noOfWordsRx := r.noOfWordsRx

def startMcbspTransmission (p : Params) (e : Loopback) (fuel : Nat) (s : Statics) : Option Run :=
  chunkLoop p e fuel 0 s.run

/-- The word a loopback in the given justification delivers for a word written. -/
def expected (justification : Int32) (word : UInt32) : Option UInt32 :=
  if justification = rjustZeromsb then some word
  else if justification = ljustZerolsb then some (word <<< 24)
  else if justification = rjustSignmsb then some (word ||| 0xFFFFFF00)
  else none

def Params.word (p : Params) (t : Nat) : UInt32 :=
  (if t % 2 = 0 then p.data1 else p.data2) + UInt32.ofNat (t % 128)

def Params.words (p : Params) : Nat := p.noOfTrans.toInt.toNat

def Matches (p : Params) (e : Loopback) (t : Nat) : Prop :=
  ∃ temp, e.pollread t = some temp ∧ expected p.justification (p.word t) = some temp

def wordsReceived (e : Loopback) (reads : Nat) : Nat :=
  ((List.range reads).filter fun t => (e.pollread t).isSome).length

/-- After some writes and reads of a start that began with `received` words on
the counter. -/
structure Progress (p : Params) (e : Loopback) (received : Int32) (writes reads : Nat) (r : Run) : Prop where
  written : r.written = (List.range writes).map p.word
  compared : r.compared = (List.range reads).map p.word
  txErr : r.txErr = 0 ↔ ∀ t < writes, e.pollwrite t = 0
  rxErr : r.rxErr = 0 ↔ ∀ t < reads, Matches p e t
  noOfWordsRx : r.noOfWordsRx = Int32.ofNat (wordsReceived e reads) + received

section Words

variable {p : Params} {e : Loopback} {received : Int32} {writes reads : Nat} {r : Run}

theorem readWord_cases (p : Params) (e : Loopback) (word : UInt32) (r : Run) :
    e.pollread r.compared.length = none ∧
        readWord p e word r = { r with compared := r.compared ++ [word], rxErr := -2 } ∨
      ∃ temp, e.pollread r.compared.length = some temp ∧
        readWord p e word r = { r with
          compared := r.compared ++ [word]
          rxErr := if expected p.justification word = some temp then r.rxErr else -1
          noOfWordsRx := r.noOfWordsRx + 1 } := by
  rcases hret : e.pollread r.compared.length with _ | temp
  · exact .inl ⟨rfl, by simp only [readWord, hret]⟩
  · refine .inr ⟨temp, rfl, ?_⟩
    simp only [readWord, hret, expected]
    by_cases hz : p.justification = rjustZeromsb
    · by_cases ht : temp = word
      · simp [hz, ht]
      · have ht' : word ≠ temp := fun h => ht h.symm
        simp [hz, ht, ht', rjustZeromsb, ljustZerolsb, rjustSignmsb]
    · by_cases hl : p.justification = ljustZerolsb
      · by_cases ht : temp = word <<< 24
        · simp [hl, ht, rjustZeromsb, ljustZerolsb]
        · have ht' : word <<< 24 ≠ temp := fun h => ht h.symm
          simp [hl, ht, ht', rjustZeromsb, ljustZerolsb, rjustSignmsb]
      · by_cases hs : p.justification = rjustSignmsb
        · by_cases ht : temp = word ||| 0xFFFFFF00
          · simp [hs, ht, rjustZeromsb, ljustZerolsb, rjustSignmsb]
          · have ht' : word ||| 0xFFFFFF00 ≠ temp := fun h => ht h.symm
            simp [hs, ht, ht', rjustZeromsb, ljustZerolsb, rjustSignmsb]
        · simp [hz, hl, hs]

theorem wordsReceived_succ (e : Loopback) (reads : Nat) :
    wordsReceived e (reads + 1) = wordsReceived e reads + if (e.pollread reads).isSome then 1 else 0 := by
  by_cases h : (e.pollread reads).isSome = true <;> simp [wordsReceived, List.range_succ, h]

theorem Progress.write (h : Progress p e received writes reads r) :
    Progress p e received (writes + 1) reads (writeWord e (p.word writes) r) := by
  have hlen : r.written.length = writes := by rw [h.written, List.length_map, List.length_range]
  have hlog : r.written ++ [p.word writes] = (List.range (writes + 1)).map p.word := by
    rw [h.written, List.range_succ, List.map_append, List.map_singleton]
  have hok : (∀ t < writes + 1, e.pollwrite t = 0) ↔ (∀ t < writes, e.pollwrite t = 0) ∧ e.pollwrite writes = 0 :=
    Nat.forall_lt_succ_right
  rw [writeWord, hlen]
  by_cases hret : e.pollwrite writes = 0
  · rw [if_neg (not_not.mpr hret)]
    exact ⟨hlog, h.compared, h.txErr.trans (by rw [hok, and_iff_left hret]), h.rxErr, h.noOfWordsRx⟩
  · rw [if_pos hret]
    have herr : ¬ (-1 : Int) = 0 := by decide
    refine ⟨hlog, h.compared, iff_of_false herr fun hall => ?_, h.rxErr, h.noOfWordsRx⟩
    exact hret (hok.mp hall).2

theorem Progress.read (h : Progress p e received writes reads r) :
    Progress p e received writes (reads + 1) (readWord p e (p.word reads) r) := by
  have hlen : r.compared.length = reads := by rw [h.compared, List.length_map, List.length_range]
  have hlog : r.compared ++ [p.word reads] = (List.range (reads + 1)).map p.word := by
    rw [h.compared, List.range_succ, List.map_append, List.map_singleton]
  have hok : (∀ t < reads + 1, Matches p e t) ↔ (∀ t < reads, Matches p e t) ∧ Matches p e reads :=
    Nat.forall_lt_succ_right
  have hcount := wordsReceived_succ e reads
  rcases readWord_cases p e (p.word reads) r with ⟨hret, heq⟩ | ⟨temp, hret, heq⟩ <;>
    rw [hlen] at hret <;> rw [heq]
  · rw [hret] at hcount
    have herr : ¬ (-2 : Int) = 0 := by decide
    refine ⟨h.written, hlog, h.txErr, iff_of_false herr fun hall => ?_, ?_⟩
    · obtain ⟨temp, hsome, _⟩ := (hok.mp hall).2
      rw [hret] at hsome
      contradiction
    · rw [hcount]
      exact h.noOfWordsRx
  · have hmatch : Matches p e reads ↔ expected p.justification (p.word reads) = some temp := by
      constructor
      · rintro ⟨temp', hsome, hexp⟩
        rw [hret] at hsome
        rw [hexp, Option.some.inj hsome]
      · exact fun hexp => ⟨temp, hret, hexp⟩
    have hone : wordsReceived e (reads + 1) = wordsReceived e reads + 1 := by
      rw [hcount, hret]
      rfl
    refine ⟨h.written, hlog, h.txErr, ?_, ?_⟩
    · rw [hok, hmatch]
      by_cases hexp : expected p.justification (p.word reads) = some temp
      · rw [and_iff_left hexp, ← h.rxErr]
        simp [hexp]
      · simp [hexp]
    · show r.noOfWordsRx + 1 = _
      rw [hone, Int32.ofNat_add, h.noOfWordsRx, Int32.add_assoc, Int32.add_comm received, ← Int32.add_assoc]
      rfl

end Words

section Loops

variable {p : Params} {e : Loopback} {received : Int32}

theorem position_le {n : Int32} {t : Nat} (ht : t < 2 ^ 31) : n ≤ Int32.ofNat t ↔ n.toInt.toNat ≤ t := by
  rw [Int32.le_iff_toInt_le, Int32.toInt_ofNat_of_lt ht]
  omega

/-- The loop over `k` makes its call for the words of the chunk that are still
to come, each in its place. -/
theorem pairLoop_progress (call : UInt32 → Run → Run) (Inv : Nat → Run → Prop)
    (hcall : ∀ t r, Inv t r → Inv (t + 1) (call (p.word t) r)) {c : Nat} (hc : 128 * c + 128 ≤ 2 ^ 31) :
    ∀ (pairs k : Nat), k + 2 * pairs = 128 → 128 * c + k ≤ p.words → ∀ r, Inv (128 * c + k) r →
      Inv (min p.words (128 * c + 128)) (pairLoop p call (Int32.ofNat (128 * c)) pairs k r) := by
  intro pairs
  induction pairs with
  | zero =>
    intro k hk hle r h
    have hend : min p.words (128 * c + 128) = 128 * c + k := by omega
    rw [pairLoop, hend]
    exact h
  | succ pairs ih =>
    intro k hk hle r h
    have hfirst : p.word (128 * c + k) = p.data1 + UInt32.ofNat k := by
      have hparity : (128 * c + k) % 2 = 0 := by omega
      have hmod : (128 * c + k) % 128 = k := by omega
      rw [Params.word, if_pos hparity, hmod]
    have hsecond : p.word (128 * c + (k + 1)) = p.data2 + UInt32.ofNat (k + 1) := by
      have hparity : ¬ (128 * c + (k + 1)) % 2 = 0 := by omega
      have hmod : (128 * c + (k + 1)) % 128 = k + 1 := by omega
      rw [Params.word, if_neg hparity, hmod]
    have hpos : p.noOfTrans ≤ Int32.ofNat (128 * c) + Int32.ofNat k ↔ p.words ≤ 128 * c + k := by
      rw [← Int32.ofNat_add]
      exact position_le (by omega)
    have hpos' : p.noOfTrans ≤ Int32.ofNat (128 * c) + Int32.ofNat (k + 1) ↔ p.words ≤ 128 * c + (k + 1) := by
      rw [← Int32.ofNat_add]
      exact position_le (by omega)
    have hone := hcall _ _ h
    rw [hfirst] at hone
    rw [pairLoop]
    by_cases hend : p.words ≤ 128 * c + k
    · have hmin : min p.words (128 * c + 128) = 128 * c + k := by omega
      rw [if_pos (hpos.mpr hend), hmin]
      exact h
    · rw [if_neg (fun hp => hend (hpos.mp hp))]
      by_cases hend' : p.words ≤ 128 * c + (k + 1)
      · have hmin : min p.words (128 * c + 128) = 128 * c + k + 1 := by omega
        rw [if_pos (hpos'.mpr hend'), hmin]
        exact hone
      · rw [if_neg (fun hp => hend' (hpos'.mp hp))]
        have htwo := hcall _ _ hone
        rw [Nat.add_assoc (128 * c) k 1, hsecond] at htwo
        exact ih (k + 2) (by omega) (by omega) _ htwo

theorem chunk_progress {c : Nat} (hc : 128 * c + 128 ≤ 2 ^ 31) (hlt : 128 * c < p.words) {r : Run}
    (h : Progress p e received (128 * c) (128 * c) r) :
    Progress p e received (min p.words (128 * c + 128)) (min p.words (128 * c + 128))
      (pairLoop p (readWord p e) (Int32.ofNat (128 * c)) 64 0
        (pairLoop p (writeWord e) (Int32.ofNat (128 * c)) 64 0 r)) := by
  have hwrites := pairLoop_progress (p := p) (writeWord e) (fun t r => Progress p e received t (128 * c) r)
    (fun _ _ h => h.write) hc 64 0 rfl hlt.le r h
  exact pairLoop_progress (readWord p e) (fun t r => Progress p e received (min p.words (128 * c + 128)) t r)
    (fun _ _ h => h.read) hc 64 0 rfl hlt.le _ hwrites

theorem next_chunk (c : Nat) : Int32.ofNat (128 * c) + 128 = Int32.ofNat (128 * (c + 1)) := by
  rw [Nat.mul_add, Int32.ofNat_add]
  rfl

/-- With fewer words than the last chunk needs the loop over `j` ends, and all
the words are written and compared then. -/
theorem chunkLoop_progress (hn : p.words ≤ 2 ^ 31 - 128) :
    ∀ (left c : Nat), p.words ≤ 128 * (c + left) → 128 * c ≤ p.words + 127 → ∀ r,
      Progress p e received (min p.words (128 * c)) (min p.words (128 * c)) r →
      ∃ r', chunkLoop p e (left + 1) (Int32.ofNat (128 * c)) r = some r' ∧
        Progress p e received p.words p.words r' := by
  intro left
  induction left with
  | zero =>
    intro c hle hc r h
    have hend : p.noOfTrans ≤ Int32.ofNat (128 * c) := (position_le (by omega)).mpr hle
    have hmin : min p.words (128 * c) = p.words := by omega
    rw [hmin] at h
    exact ⟨r, by rw [chunkLoop, if_pos hend], h⟩
  | succ left ih =>
    intro c hle hc r h
    by_cases hend : p.words ≤ 128 * c
    · have hmin : min p.words (128 * c) = p.words := by omega
      rw [hmin] at h
      exact ⟨r, by rw [chunkLoop, if_pos ((position_le (by omega)).mpr hend)], h⟩
    · have hmin : min p.words (128 * c) = 128 * c := by omega
      rw [hmin] at h
      have hgo : ¬ p.noOfTrans ≤ Int32.ofNat (128 * c) := fun hp => hend ((position_le (by omega)).mp hp)
      have hchunk := chunk_progress (p := p) (e := e) (c := c) (by omega) (by omega) h
      obtain ⟨r', hr', hdone⟩ := ih (c + 1) (by omega) (by omega) _ hchunk
      refine ⟨r', ?_, hdone⟩
      rw [chunkLoop, if_neg hgo, next_chunk]
      exact hr'

/-- With more words `j` wraps around before it reaches them. -/
theorem chunkLoop_wraps (hn : 2 ^ 31 - 128 < p.words) :
    ∀ (fuel c : Nat) (r : Run), chunkLoop p e fuel (Int32.ofNat (128 * c)) r = none := by
  intro fuel
  induction fuel with
  | zero => exact fun c r => rfl
  | succ fuel ih =>
    intro c r
    have hgo : ¬ p.noOfTrans ≤ Int32.ofNat (128 * c) := by
      have hsize : (Int32.size : Int) = 4294967296 := rfl
      rw [Int32.le_iff_toInt_le, Int32.toInt_ofNat', Int.bmod_def, hsize]
      rw [Params.words] at hn
      omega
    rw [chunkLoop, if_neg hgo, next_chunk]
    exact ih (c + 1) _

theorem chunkLoop_fuel {fuel fuel' : Nat} (hle : fuel ≤ fuel') {j : Int32} {r r' : Run}
    (h : chunkLoop p e fuel j r = some r') : chunkLoop p e fuel' j r = some r' := by
  induction fuel generalizing fuel' j r with
  | zero => contradiction
  | succ fuel ih =>
    obtain ⟨more, rfl⟩ : ∃ more, fuel' = more + 1 := ⟨fuel' - 1, by omega⟩
    rw [chunkLoop] at h ⊢
    by_cases hend : p.noOfTrans ≤ j
    · rw [if_pos hend] at h ⊢
      exact h
    · rw [if_neg hend] at h ⊢
      exact ih (by omega) h

end Loops

/-- The run did one start: it wrote its words and compared each read with the
word written for it, its status says whether a call failed or a read differed,
and its counter the words it received. -/
structure Accurate (p : Params) (e : Loopback) (r : Run) : Prop where
  written : r.written = (List.range p.words).map p.word
  compared : r.compared = r.written
  failure : r.statics.transmissionStatus ≠ 0 ↔
    (∃ t < p.words, e.pollwrite t ≠ 0) ∨ ∃ t < p.words, ¬ Matches p e t
  noOfWordsRx : r.noOfWordsRx = Int32.ofNat (wordsReceived e p.words)

def AllAccurate (p : Params) : Statics → List Loopback → Prop
  | _, [] => True
  | s, e :: rest =>
    ∃ fuel r, startMcbspTransmission p e fuel s = some r ∧ Accurate p e r ∧ AllAccurate p r.statics rest

section Starts

variable {p : Params} {e : Loopback} {s : Statics} {r : Run}

theorem start_ends (hn : p.words ≤ 2 ^ 31 - 128) (e : Loopback) (s : Statics) :
    ∃ fuel r, startMcbspTransmission p e fuel s = some r ∧ Progress p e s.noOfWordsRx p.words p.words r := by
  have hbegin : Progress p e s.noOfWordsRx 0 0 s.run := by
    refine ⟨rfl, rfl, by simp [Statics.run], by simp [Statics.run], ?_⟩
    show s.noOfWordsRx = 0 + s.noOfWordsRx
    rw [Int32.zero_add]
  obtain ⟨r, hr, hdone⟩ := chunkLoop_progress hn p.words 0 (by omega) (by omega) s.run (by simpa using hbegin)
  exact ⟨p.words + 1, r, hr, hdone⟩

theorem start_result {fuel : Nat} (h : startMcbspTransmission p e fuel s = some r) :
    p.words ≤ 2 ^ 31 - 128 ∧ Progress p e s.noOfWordsRx p.words p.words r := by
  have hn : p.words ≤ 2 ^ 31 - 128 := by
    by_contra hmany
    have hnone := chunkLoop_wraps (p := p) (e := e) (by omega) fuel 0 s.run
    rw [startMcbspTransmission] at h
    exact absurd (hnone.symm.trans h) (by simp)
  obtain ⟨fuel', r', hr', hdone⟩ := start_ends hn e s
  have hmore := chunkLoop_fuel (Nat.le_max_left fuel fuel') h
  have hmore' := chunkLoop_fuel (Nat.le_max_right fuel fuel') hr'
  rw [Option.some.inj (hmore.symm.trans hmore')]
  exact ⟨hn, hdone⟩

theorem Progress.accurate_iff {received : Int32} (h : Progress p e received p.words p.words r) :
    Accurate p e r ↔ received = 0 := by
  have hfailure : r.statics.transmissionStatus ≠ 0 ↔
      (∃ t < p.words, e.pollwrite t ≠ 0) ∨ ∃ t < p.words, ¬ Matches p e t := by
    have hstatus : r.statics.transmissionStatus ≠ 0 ↔ r.txErr ≠ 0 ∨ r.rxErr ≠ 0 := by
      by_cases herr : r.txErr ≠ 0 ∨ r.rxErr ≠ 0 <;> simp [Run.statics, herr]
    rw [hstatus, Ne, Ne, h.txErr, h.rxErr]
    push Not
    rfl
  have hcount := h.noOfWordsRx
  constructor
  · intro ha
    rw [ha.noOfWordsRx] at hcount
    exact Int32.add_eq_left.mp hcount.symm
  · intro hz
    rw [hz, Int32.add_zero] at hcount
    exact ⟨h.written, h.compared.trans h.written.symm, hfailure, hcount⟩

theorem wordsReceived_le (e : Loopback) (reads : Nat) : wordsReceived e reads ≤ reads := by
  rw [wordsReceived]
  exact (List.length_filter_le _ _).trans_eq List.length_range

theorem ofNat_wordsReceived_eq_zero (hn : p.words ≤ 2 ^ 31 - 128) :
    Int32.ofNat (wordsReceived e p.words) = 0 ↔ wordsReceived e p.words = 0 := by
  have hle := wordsReceived_le e p.words
  rw [← Int32.toInt_inj, Int32.toInt_ofNat_of_lt (by omega)]
  exact Int.natCast_eq_zero

end Starts

/-- Every start is accurate exactly when `j` does not wrap around, the counter
begins at zero and no start but the last receives a word. -/
theorem allAccurate_iff (p : Params) (s : Statics) (starts : List Loopback) :
    AllAccurate p s starts ↔
      starts = [] ∨
        p.words ≤ 2 ^ 31 - 128 ∧ s.noOfWordsRx = 0 ∧ ∀ e ∈ starts.dropLast, wordsReceived e p.words = 0 := by
  induction starts generalizing s with
  | nil => simp [AllAccurate]
  | cons e rest ih =>
    have hfirst : AllAccurate p s (e :: rest) ↔
        p.words ≤ 2 ^ 31 - 128 ∧ s.noOfWordsRx = 0 ∧
          (rest = [] ∨ wordsReceived e p.words = 0 ∧ ∀ e' ∈ rest.dropLast, wordsReceived e' p.words = 0) := by
      constructor
      · rintro ⟨fuel, r, hr, ha, hrest⟩
        obtain ⟨hn, hdone⟩ := start_result hr
        refine ⟨hn, hdone.accurate_iff.mp ha, ?_⟩
        rcases (ih _).mp hrest with hnil | ⟨_, hzero, hall⟩
        · exact .inl hnil
        · rw [Run.statics, ha.noOfWordsRx] at hzero
          exact .inr ⟨(ofNat_wordsReceived_eq_zero hn).mp hzero, hall⟩
      · rintro ⟨hn, hs, hrest⟩
        obtain ⟨fuel, r, hr, hdone⟩ := start_ends hn e s
        have ha := hdone.accurate_iff.mpr hs
        refine ⟨fuel, r, hr, ha, (ih _).mpr ?_⟩
        rcases hrest with hnil | ⟨hzero, hall⟩
        · exact .inl hnil
        · refine .inr ⟨hn, ?_, hall⟩
          rw [Run.statics, ha.noOfWordsRx]
          exact (ofNat_wordsReceived_eq_zero hn).mpr hzero
    rw [hfirst]
    cases rest with
    | nil => simp
    | cons e' rest => simp

def defaultParams : Params where
  noOfTrans := 128
  wordLength1 := word8
  wordLength2 := word8
  justification := rjustZeromsb
  stack1 := 0
  stack2 := 0

def faithfulLoopback : Loopback where
  pollwrite := fun _ => 0
  pollread := fun t => some (defaultParams.word t)

/-- After a second start the counter is at 256, of which that start received 128. -/
theorem second_start_counts_on :
    ¬ AllAccurate defaultParams ⟨0, 0, 0⟩ [faithfulLoopback, faithfulLoopback] := by
  rintro ⟨fuel, r, hr, ha, fuel', r', hr', ha', _⟩
  have hwords : wordsReceived faithfulLoopback defaultParams.words = 128 := by
    have hparams : defaultParams.words = 128 := by decide
    simp [wordsReceived, faithfulLoopback, hparams]
  have hcarried : r.statics.noOfWordsRx = Int32.ofNat (wordsReceived faithfulLoopback defaultParams.words) :=
    ha.noOfWordsRx
  have hcount := (start_result hr').2.noOfWordsRx
  rw [hcarried, ha'.noOfWordsRx, hwords] at hcount
  exact absurd hcount (by decide)

end McbspPoll

end DeviceDriverTest
