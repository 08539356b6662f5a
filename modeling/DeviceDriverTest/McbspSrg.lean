import Mathlib.Data.Nat.Bitwise
import Mathlib.Data.List.Nodup
import Mathlib.Tactic.Tauto

/-! The register words the polled McBSP test computes from its module parameters:
the sample rate generator's divider, and the bits an earlier configuration leaves. -/

namespace DeviceDriverTest
namespace McbspSrg

def master : Int32 := 1
def frameSinglephase : Int32 := 1
def frameDualphase : Int32 := 2
def srgclksrcClks : UInt32 := 1
def srgclksrcFclk : UInt32 := 2
def srgclksrcClkr : UInt32 := 3
def srgclksrcClkx : UInt32 := 4
def polarityRising : UInt8 := 1
def polarityFalling : UInt8 := 2
def srgFreerunning : UInt8 := 1
def srgRunning : UInt8 := 2
def fsyncInternal : UInt8 := 1
def clkExternal : UInt8 := 1
def clkInternal : UInt8 := 2
def msbfirst : UInt8 := 0

def bitsPerSampleTable : List UInt32 := [8, 12, 16, 20, 24, 32]

/-- `none` where the index is outside the array. -/
def bitsPerSample (i : Int32) : Option UInt32 :=
  if 0 ≤ i.toInt then bitsPerSampleTable[i.toInt.toNat]? else none

/-- A `u8` in an expression of type `int`. -/
def promote (b : UInt8) : Int32 := b.toUInt32.toInt32

structure CfgParam where
  fsyncSrc : UInt8
  fsPolarity : UInt8
  clkPolarity : UInt8
  clkMode : UInt8
  frameLength1 : UInt8
  frameLength2 : UInt8
  wordLength1 : UInt8
  wordLength2 : UInt8
  justification : UInt8
  reverseCompand : UInt8
  phase : UInt8
  dataDelay : UInt8

structure SrgFsgCfg where
  period : UInt32
  pulseWidth : UInt32
  fsgm : UInt8
  sampleRate : UInt32
  bitsPerSample : UInt32
  srgSrc : UInt32
  syncMode : UInt8
  polarity : UInt8
  dlb : UInt8

structure RegCfg (w : Nat) where
  spcr2 : BitVec w
  spcr1 : BitVec w
  rcr2 : BitVec w
  rcr1 : BitVec w
  xcr2 : BitVec w
  xcr1 : BitVec w
  srgr2 : BitVec w
  srgr1 : BitVec w
  pcr0 : BitVec w
  xccr : BitVec w
  deriving DecidableEq

/-- The register macros of the platform's header; of the bits of `pcr0` the positions. -/
structure Macros (w : Nat) where
  fsActiveLow : UInt8
  XCOMPAND : UInt8 → BitVec w
  XDATDLY : UInt8 → BitVec w
  XPHASE : BitVec w
  RWDLEN2 : UInt8 → BitVec w
  RFRLEN2 : UInt8 → BitVec w
  XWDLEN1 : UInt8 → BitVec w
  XFRLEN1 : UInt8 → BitVec w
  RJUST : UInt8 → BitVec w
  RCOMPAND : UInt8 → BitVec w
  RDATDLY : UInt8 → BitVec w
  RPHASE : BitVec w
  RWDLEN1 : UInt8 → BitVec w
  RFRLEN1 : UInt8 → BitVec w
  FWID : UInt32 → BitVec w
  CLKGDV : UInt32 → BitVec w
  FPER : UInt32 → BitVec w
  ALB : BitVec w
  FREE : BitVec w
  FSGM : BitVec w
  CLKSM : BitVec w
  CLKSP : BitVec w
  GSYNC : BitVec w
  DILB : BitVec w
  fsxp : Nat
  fsxm : Nat
  clkxm : Nat
  clkxp : Nat
  fsrm : Nat
  clkrm : Nat
  clkrp : Nat
  fsrp : Nat
  sclkme : Nat

section Registers

variable {w : Nat} (m : Macros w)

def orIf (c : Prop) [Decidable c] (word bits : BitVec w) : BitVec w := if c then word ||| bits else word

def bit (w i : Nat) : BitVec w := BitVec.twoPow w i

def setTransParam (tp : CfgParam) (s : RegCfg w) : RegCfg w :=
  let xcr2 := m.XCOMPAND tp.reverseCompand ||| m.XDATDLY tp.dataDelay
  let pcr0 := orIf (tp.fsPolarity = m.fsActiveLow) s.pcr0 (bit w m.fsxp)
  let pcr0 := orIf (tp.fsyncSrc = fsyncInternal) pcr0 (bit w m.fsxm)
  let pcr0 := orIf (tp.clkMode = clkInternal) pcr0 (bit w m.clkxm)
  { s with
    xcr2 :=
      if promote tp.phase = frameSinglephase then xcr2 &&& ~~~m.XPHASE
      else xcr2 ||| m.XPHASE ||| m.RWDLEN2 tp.wordLength2 ||| m.RFRLEN2 tp.frameLength2
    xcr1 := m.XWDLEN1 tp.wordLength1 ||| m.XFRLEN1 tp.frameLength1
    pcr0 := orIf (tp.clkPolarity = polarityFalling) pcr0 (bit w m.clkxp) }

def setRecvParam (rp : CfgParam) (s : RegCfg w) : RegCfg w :=
  let rcr2 := m.RCOMPAND rp.reverseCompand ||| m.RDATDLY rp.dataDelay
  let pcr0 := orIf (rp.fsyncSrc = fsyncInternal) s.pcr0 (bit w m.fsrm)
  let pcr0 := orIf (rp.clkMode = clkInternal) pcr0 (bit w m.clkrm)
  let pcr0 := orIf (rp.clkPolarity = polarityRising) pcr0 (bit w m.clkrp)
  { s with
    spcr1 := m.RJUST rp.justification
    rcr2 :=
      if promote rp.phase = frameSinglephase then rcr2 &&& ~~~m.RPHASE
      else rcr2 ||| m.RPHASE ||| m.RWDLEN2 rp.wordLength2 ||| m.RFRLEN2 rp.frameLength2
    rcr1 := m.RWDLEN1 rp.wordLength1 ||| m.RFRLEN1 rp.frameLength1
    pcr0 := orIf (rp.fsPolarity = m.fsActiveLow) pcr0 (bit w m.fsrp) }

/-- `none` for a division by zero; the product is one of 32 bit words. -/
def clkgdv (param : SrgFsgCfg) : Option UInt32 :=
  let divisor := param.sampleRate * (param.bitsPerSample - 1)
  if divisor = 0 then none else some (96000000 / divisor)

def setSrgr1 (interfaceMode : Int32) (param : SrgFsgCfg) : Option (BitVec w) :=
  let srgr1 := m.FWID param.pulseWidth
  if interfaceMode = master then (clkgdv param).map fun v => srgr1 ||| m.CLKGDV v else some srgr1

def setSrgSrc (interfaceMode : Int32) (param : SrgFsgCfg) (s : RegCfg w) : RegCfg w :=
  let off := s.pcr0 &&& ~~~bit w m.sclkme
  let on := s.pcr0 ||| bit w m.sclkme
  if param.srgSrc = srgclksrcClks then
    { s with
      pcr0 := off
      srgr2 :=
        if param.polarity = polarityRising ∨ interfaceMode = master then s.srgr2 &&& ~~~m.CLKSM &&& ~~~m.CLKSP
        else s.srgr2 &&& ~~~m.CLKSM ||| m.CLKSP }
  else if param.srgSrc = srgclksrcFclk then { s with pcr0 := off, srgr2 := s.srgr2 ||| m.CLKSM }
  else if param.srgSrc = srgclksrcClkr then
    { s with
      pcr0 := if param.polarity = polarityFalling then on &&& ~~~bit w m.clkrp else on ||| bit w m.clkrp
      srgr2 := s.srgr2 &&& ~~~m.CLKSM }
  else if param.srgSrc = srgclksrcClkx then
    { s with
      pcr0 := if param.polarity = polarityRising then on &&& ~~~bit w m.clkxp else on ||| bit w m.clkxp
      srgr2 := s.srgr2 ||| m.CLKSM }
  else s

def setSrgCfgParam (interfaceMode : Int32) (param : SrgFsgCfg) (s : RegCfg w) : Option (RegCfg w) :=
  (setSrgr1 m interfaceMode param).map fun srgr1 =>
    let s := { s with
      srgr1 := srgr1
      spcr1 := if param.dlb ≠ 0 then s.spcr1 &&& ~~~m.ALB else s.spcr1
      spcr2 := orIf (param.syncMode = srgFreerunning) s.spcr2 m.FREE
      srgr2 := m.FPER param.period ||| if param.fsgm ≠ 0 then m.FSGM else 0 }
    let s := setSrgSrc m interfaceMode param s
    { s with
      srgr2 :=
        if param.syncMode = srgFreerunning then s.srgr2 &&& ~~~m.GSYNC
        else orIf (param.syncMode = srgRunning) s.srgr2 m.GSYNC
      xccr := orIf (param.dlb ≠ 0) s.xccr m.DILB }

def paramsCfg (interfaceMode : Int32) (tp rp : Option CfgParam) (param : Option SrgFsgCfg) (s : RegCfg w) :
    Option (RegCfg w) :=
  let s := match rp with
    | some rp => setRecvParam m rp s
    | none => s
  let s := match tp with
    | some tp => setTransParam m tp s
    | none => s
  match param with
  | some param => setSrgCfgParam m interfaceMode param s
  | none => some s

end Registers

structure Params where
  sampleRate : Int32
  phase : Int32
  clkrPolarity : Int32
  fsrPolarity : Int32
  justification : Int32
  wordLength1 : Int32
  wordLength2 : Int32
  wordsPerFrame : Int32

namespace Params

/-- `word_length2` and `words_per_frame` as `configure_mcbsp_interface` leaves them. -/
def secondLength (p : Params) : Int32 := if p.phase = frameSinglephase then p.wordLength1 else p.wordLength2

def framePerWords (p : Params) : Int32 := if p.phase = frameDualphase then 1 else p.wordsPerFrame

def longer (p : Params) : Int32 :=
  if p.secondLength < p.wordLength1 then p.wordLength1 else p.secondLength

def period (p : Params) : Option UInt32 :=
  (bitsPerSample p.wordLength1).bind fun first =>
    if p.phase = frameDualphase then (bitsPerSample p.secondLength).map fun second => first + 8 + (second + 8)
    else some (first + 8)

def cfg (p : Params) : Option SrgFsgCfg := do
  let period ← p.period
  let longest ← bitsPerSample p.longer
  return {
    period := period
    pulseWidth := longest + 1
    fsgm := 1
    sampleRate := p.sampleRate.toUInt32
    bitsPerSample := longest
    srgSrc := srgclksrcFclk
    syncMode := srgFreerunning
    polarity := 0
    dlb := 1 }

def frameLength (p : Params) : UInt8 := ((p.framePerWords - 1) &&& 0x7F).toUInt32.toUInt8

def tp1 (p : Params) : CfgParam where
  fsyncSrc := fsyncInternal
  fsPolarity := p.fsrPolarity.toUInt32.toUInt8
  clkPolarity := p.clkrPolarity.toUInt32.toUInt8
  clkMode := clkInternal
  frameLength1 := p.frameLength
  frameLength2 := p.frameLength
  wordLength1 := p.wordLength1.toUInt32.toUInt8
  wordLength2 := p.secondLength.toUInt32.toUInt8
  justification := p.justification.toUInt32.toUInt8
  reverseCompand := msbfirst
  phase := p.phase.toUInt32.toUInt8
  dataDelay := 1

def rp1 (p : Params) : CfgParam := { p.tp1 with clkMode := clkExternal }

/-- A configuration with these parameters, from the words an earlier one left. -/
def configure {w : Nat} (m : Macros w) (p : Params) (s : RegCfg w) : Option (RegCfg w) :=
  p.cfg.bind fun cfg => paramsCfg m master (some p.tp1) (some p.rp1) (some cfg) s

end Params

def RegCfg.zero (w : Nat) : RegCfg w := ⟨0, 0, 0, 0, 0, 0, 0, 0, 0, 0⟩

section History

variable {w : Nat} {m : Macros w} {p q : Params} {s s' : RegCfg w} {cfg : SrgFsgCfg} {v : UInt32}

theorem cfg_fields (h : p.cfg = some cfg) : cfg.srgSrc = srgclksrcFclk ∧ cfg.syncMode = srgFreerunning ∧
    cfg.dlb = 1 ∧ cfg.sampleRate = p.sampleRate.toUInt32 ∧ bitsPerSample p.longer = some cfg.bitsPerSample ∧
    cfg.pulseWidth = cfg.bitsPerSample + 1 := by
  simp only [Params.cfg, Option.bind_eq_bind, Option.pure_def] at h
  obtain ⟨period, -, h⟩ := Option.bind_eq_some_iff.mp h
  obtain ⟨longest, hlongest, h⟩ := Option.bind_eq_some_iff.mp h
  obtain rfl := Option.some.inj h
  exact ⟨rfl, rfl, rfl, rfl, hlongest, rfl⟩

/-- The words a configuration leaves: three of them keep bits they had. -/
theorem configure_eq (hcfg : p.cfg = some cfg) (hv : clkgdv cfg = some v) : ∃ fresh : RegCfg w, ∀ s,
    p.configure m s = some { fresh with
      spcr2 := s.spcr2 ||| m.FREE
      srgr1 := m.FWID cfg.pulseWidth ||| m.CLKGDV v
      pcr0 := (setTransParam m p.tp1 (setRecvParam m p.rp1 s)).pcr0 &&& ~~~bit w m.sclkme
      xccr := s.xccr ||| m.DILB } := by
  obtain ⟨hsrc, hsync, hdlb, -, -, -⟩ := cfg_fields hcfg
  have hmaster : setSrgr1 m master cfg = some (m.FWID cfg.pulseWidth ||| m.CLKGDV v) := by
    rw [setSrgr1, if_pos rfl, hv]
    rfl
  have hclks : ¬ srgclksrcFclk = srgclksrcClks := by decide
  have hone : (1 : UInt8) ≠ 0 := by decide
  refine ⟨(p.configure m (RegCfg.zero w)).getD (RegCfg.zero w), fun s => ?_⟩
  simp only [Params.configure, hcfg, Option.bind_some, paramsCfg, setSrgCfgParam, hmaster, Option.map_some,
    Option.getD_some, setSrgSrc, hsrc, hsync, hdlb, if_neg hclks, if_pos, orIf, hone, ne_eq, not_false_eq_true]
  rfl

theorem configure_defined : (∃ s', p.configure m s = some s') ↔ ∃ cfg v, p.cfg = some cfg ∧ clkgdv cfg = some v := by
  constructor
  · rintro ⟨s', hs'⟩
    obtain ⟨cfg, hcfg, hs'⟩ := Option.bind_eq_some_iff.mp hs'
    obtain ⟨srgr1, hsrgr1, -⟩ := Option.map_eq_some_iff.mp hs'
    rw [setSrgr1, if_pos rfl] at hsrgr1
    obtain ⟨v, hv, -⟩ := Option.map_eq_some_iff.mp hsrgr1
    exact ⟨cfg, v, hcfg, hv⟩
  · rintro ⟨cfg, v, hcfg, hv⟩
    obtain ⟨fresh, hfresh⟩ := configure_eq (m := m) hcfg hv
    exact ⟨_, hfresh s⟩

theorem configure_words (h : p.configure m s = some s') : ∃ cfg v, p.cfg = some cfg ∧ clkgdv cfg = some v ∧
    s'.spcr2 = s.spcr2 ||| m.FREE ∧ s'.xccr = s.xccr ||| m.DILB ∧
    s'.srgr1 = m.FWID cfg.pulseWidth ||| m.CLKGDV v ∧
    s'.pcr0 = (setTransParam m p.tp1 (setRecvParam m p.rp1 s)).pcr0 &&& ~~~bit w m.sclkme := by
  obtain ⟨cfg, v, hcfg, hv⟩ := configure_defined.mp ⟨s', h⟩
  obtain ⟨fresh, hfresh⟩ := configure_eq (m := m) hcfg hv
  obtain rfl := Option.some.inj ((hfresh s).symm.trans h)
  exact ⟨cfg, v, hcfg, hv, rfl, rfl, rfl, rfl⟩

/-! When a configuration is defined at all. -/

def InTable (i : Int32) : Prop := 0 ≤ i.toInt ∧ i.toInt < 6

def Params.LengthsInTable (p : Params) : Prop :=
  InTable p.wordLength1 ∧ (p.phase = frameDualphase → InTable p.secondLength) ∧ InTable p.longer

def Params.divisor (p : Params) : UInt32 := p.sampleRate.toUInt32 * ((bitsPerSample p.longer).getD 0 - 1)

theorem bitsPerSample_some {i : Int32} : (∃ bits, bitsPerSample i = some bits) ↔ InTable i := by
  unfold bitsPerSample InTable
  split
  · rw [← Option.isSome_iff_exists, isSome_getElem?]
    simp only [bitsPerSampleTable, List.length_cons, List.length_nil]
    omega
  · simp [*]

theorem period_defined : (∃ n, p.period = some n) ↔
    InTable p.wordLength1 ∧ (p.phase = frameDualphase → InTable p.secondLength) := by
  rw [← bitsPerSample_some, ← bitsPerSample_some]
  unfold Params.period
  cases bitsPerSample p.wordLength1 with
  | none => simp
  | some first =>
    by_cases hdual : p.phase = frameDualphase
    · cases bitsPerSample p.secondLength <;> simp [hdual]
    · simp [hdual]

theorem cfg_defined : (∃ cfg, p.cfg = some cfg) ↔ p.LengthsInTable := by
  unfold Params.LengthsInTable
  rw [← and_assoc, ← period_defined, ← bitsPerSample_some]
  unfold Params.cfg
  cases p.period with
  | none => simp
  | some n => cases bitsPerSample p.longer <;> simp

theorem clkgdv_cfg (h : p.cfg = some cfg) :
    clkgdv cfg = if p.divisor = 0 then none else some (96000000 / p.divisor) := by
  obtain ⟨-, -, -, hrate, hbits, -⟩ := cfg_fields h
  rw [clkgdv, hrate, Params.divisor, hbits]
  rfl

theorem configure_defined_iff : (∃ s', p.configure m s = some s') ↔ p.LengthsInTable ∧ p.divisor ≠ 0 := by
  rw [configure_defined, ← cfg_defined]
  constructor
  · rintro ⟨cfg, v, hcfg, hv⟩
    refine ⟨⟨cfg, hcfg⟩, fun hzero => ?_⟩
    rw [clkgdv_cfg hcfg, if_pos hzero] at hv
    exact nomatch hv
  · rintro ⟨⟨cfg, hcfg⟩, hne⟩
    exact ⟨cfg, 96000000 / p.divisor, hcfg, (clkgdv_cfg hcfg).trans (if_neg hne)⟩

/-- What the test relies on of the platform's macros. -/
structure Macros.Placed (m : Macros w) : Prop where
  width : 16 ≤ w
  clkgdv : ∀ v, m.CLKGDV v = BitVec.ofNat w v.toNat
  fwid : ∀ v, m.FWID v = BitVec.ofNat w (v.toNat <<< 8)
  bits : [m.fsxp, m.fsxm, m.clkxm, m.clkxp, m.fsrm, m.clkrm, m.clkrp, m.fsrp, m.sclkme].Nodup
  bits_lt : ∀ i ∈ [m.fsxp, m.fsxm, m.clkxm, m.clkxp, m.fsrm, m.clkrm, m.clkrp, m.fsrp, m.sclkme], i < w

theorem bitsPerSample_le {i : Int32} {bits : UInt32} (h : bitsPerSample i = some bits) : bits.toNat ≤ 32 := by
  unfold bitsPerSample at h
  split at h
  · have hmem := List.mem_of_getElem? h
    simp only [bitsPerSampleTable, List.mem_cons, List.not_mem_nil, or_false] at hmem
    rcases hmem with rfl | rfl | rfl | rfl | rfl | rfl <;> decide
  · exact nomatch h

theorem pulseWidth_lt (h : p.cfg = some cfg) : cfg.pulseWidth.toNat < 256 := by
  obtain ⟨-, -, -, -, hbits, hpulse⟩ := cfg_fields h
  have hle := bitsPerSample_le hbits
  rw [hpulse, UInt32.toNat_add]
  show (cfg.bitsPerSample.toNat + 1) % 2 ^ 32 < 256
  omega

/-- The frame width stays readable beside the divider exactly where the divider has eight bits. -/
theorem srgr1_fields (hm : m.Placed) {width : UInt32} (hwidth : width.toNat < 256) (v : UInt32) :
    ((m.FWID width ||| m.CLKGDV v).toNat % 2 ^ 8 = v.toNat ∧
      (m.FWID width ||| m.CLKGDV v).toNat / 2 ^ 8 = width.toNat) ↔ v.toNat < 256 := by
  constructor
  · rintro ⟨hlow, -⟩
    rw [← hlow]
    exact Nat.mod_lt _ (by decide)
  · intro hv
    have hpow : 2 ^ 16 ≤ 2 ^ w := Nat.pow_le_pow_right (by decide) hm.width
    have hor : (m.FWID width ||| m.CLKGDV v).toNat = 2 ^ 8 * width.toNat + v.toNat := by
      rw [hm.fwid, hm.clkgdv, BitVec.toNat_or, BitVec.toNat_ofNat, BitVec.toNat_ofNat,
        Nat.shiftLeft_eq, Nat.mod_eq_of_lt (by omega), Nat.mod_eq_of_lt (by omega), Nat.mul_comm,
        Nat.two_pow_add_eq_or_of_lt hv]
    omega

theorem clkgdv_lt_iff (hcfg : p.cfg = some cfg) (hv : clkgdv cfg = some v) : v.toNat < 256 ↔ 375000 < p.divisor := by
  rw [clkgdv_cfg hcfg] at hv
  split at hv
  · exact nomatch hv
  · next hne =>
    have hpos : p.divisor.toNat ≠ 0 := fun h => hne (UInt32.toNat_inj.mp h)
    obtain rfl := Option.some.inj hv
    rw [UInt32.toNat_div, UInt32.lt_iff_toNat_lt]
    show 96000000 / p.divisor.toNat < 256 ↔ 375000 < p.divisor.toNat
    rw [Nat.div_lt_iff_lt_mul (Nat.pos_of_ne_zero hpos)]
    omega

theorem srgr1_right_iff (hm : m.Placed) (hcfg : p.cfg = some cfg) (hv : clkgdv cfg = some v)
    (h : p.configure m s = some s') :
    (s'.srgr1.toNat % 2 ^ 8 = v.toNat ∧ s'.srgr1.toNat / 2 ^ 8 = cfg.pulseWidth.toNat) ↔ 375000 < p.divisor := by
  obtain ⟨cfg', v', hcfg', hv', -, -, hsrgr1, -⟩ := configure_words h
  obtain rfl := Option.some.inj (hcfg.symm.trans hcfg')
  obtain rfl := Option.some.inj (hv.symm.trans hv')
  rw [hsrgr1]
  exact (srgr1_fields hm (pulseWidth_lt hcfg) v).trans (clkgdv_lt_iff hcfg hv)

/-! The bits of `pcr0`. -/

def Params.FsLow (m : Macros w) (p : Params) : Prop := p.fsrPolarity.toUInt32.toUInt8 = m.fsActiveLow

def Params.ClkRising (p : Params) : Prop := p.clkrPolarity.toUInt32.toUInt8 = polarityRising

def Params.ClkFalling (p : Params) : Prop := p.clkrPolarity.toUInt32.toUInt8 = polarityFalling

def Params.SetsBit (m : Macros w) (p : Params) (i : Nat) : Prop :=
  i = m.fsrm ∨ (p.ClkRising ∧ i = m.clkrp) ∨ (p.FsLow m ∧ i = m.fsrp) ∨ (p.FsLow m ∧ i = m.fsxp) ∨
    i = m.fsxm ∨ i = m.clkxm ∨ (p.ClkFalling ∧ i = m.clkxp)

theorem getLsbD_orIf {c : Prop} [Decidable c] (word : BitVec w) {i j : Nat} (hi : i < w) :
    (orIf c word (bit w i)).getLsbD j = true ↔ word.getLsbD j = true ∨ c ∧ j = i := by
  unfold orIf bit
  split
  · next hc => simp [BitVec.getLsbD_twoPow, hc, hi, @eq_comm _ i j]
  · next hc => simp [hc]

theorem pcr0_bits (hm : m.Placed) (p : Params) (s : RegCfg w) (i : Nat) :
    (setTransParam m p.tp1 (setRecvParam m p.rp1 s)).pcr0.getLsbD i = true ↔
      s.pcr0.getLsbD i = true ∨ p.SetsBit m i := by
  have hlt := hm.bits_lt
  simp only [List.mem_cons, List.not_mem_nil, or_false, forall_eq_or_imp, forall_eq] at hlt
  obtain ⟨hfsxp, hfsxm, hclkxm, hclkxp, hfsrm, hclkrm, hclkrp, hfsrp, -⟩ := hlt
  simp only [setTransParam, setRecvParam, getLsbD_orIf _ hfsxp, getLsbD_orIf _ hfsxm, getLsbD_orIf _ hclkxm,
    getLsbD_orIf _ hclkxp, getLsbD_orIf _ hfsrm, getLsbD_orIf _ hclkrm, getLsbD_orIf _ hclkrp, getLsbD_orIf _ hfsrp]
  have hrx : ¬ clkExternal = clkInternal := by decide
  simp only [Params.rp1, Params.tp1, hrx, true_and, false_and, or_false, or_assoc]
  rfl

theorem setsBit_polarities (hm : m.Placed) (p : Params) :
    (p.SetsBit m m.fsrp ↔ p.FsLow m) ∧ (p.SetsBit m m.clkrp ↔ p.ClkRising) ∧
      (p.SetsBit m m.clkxp ↔ p.ClkFalling) ∧ ∀ i, p.SetsBit m i → i ≠ m.sclkme := by
  have hbits := hm.bits
  simp only [List.nodup_cons, List.mem_cons, List.not_mem_nil, or_false, not_or, List.nodup_nil, and_true,
    not_false_eq_true] at hbits
  unfold Params.SetsBit
  refine ⟨?_, ?_, ?_, fun i => ?_⟩ <;> grind

/-- The bits an earlier configuration left in `pcr0` are those of the current one exactly where each
polarity it set a bit for is set again. -/
theorem pcr0_history (hm : m.Placed) (p q : Params) : (∀ i, p.SetsBit m i → q.SetsBit m i) ↔
    (p.FsLow m → q.FsLow m) ∧ (p.ClkRising → q.ClkRising) ∧ (p.ClkFalling → q.ClkFalling) := by
  obtain ⟨hfsrp, hclkrp, hclkxp, -⟩ := setsBit_polarities hm p
  obtain ⟨hfsrp', hclkrp', hclkxp', -⟩ := setsBit_polarities hm q
  constructor
  · intro h
    exact ⟨fun hp => hfsrp'.mp (h _ (hfsrp.mpr hp)), fun hp => hclkrp'.mp (h _ (hclkrp.mpr hp)),
      fun hp => hclkxp'.mp (h _ (hclkxp.mpr hp))⟩
  · rintro ⟨hlow, hrising, hfalling⟩ i hset
    exact hset.imp_right (.imp (.imp_left hrising) (.imp (.imp_left hlow) (.imp (.imp_left hlow)
      (.imp_right (.imp_right (.imp_left hfalling))))))

theorem configure_pcr0 (hm : m.Placed) (h : p.configure m s = some s') (i : Nat) :
    s'.pcr0.getLsbD i = true ↔ (s.pcr0.getLsbD i = true ∨ p.SetsBit m i) ∧ i ≠ m.sclkme := by
  obtain ⟨_, _, _, _, _, _, _, hpcr0⟩ := configure_words h
  rw [← pcr0_bits hm p s i, hpcr0, BitVec.getLsbD_and, BitVec.getLsbD_not, Bool.and_eq_true]
  refine and_congr_right fun hset => ?_
  have hi : i < w := BitVec.lt_of_getLsbD hset
  simp [bit, hi]

/-- A second configuration leaves what it leaves alone exactly where the first one's bits of `pcr0` are
also its own. -/
theorem configure_after_iff (hm : m.Placed) {sp sq : RegCfg w} (hp : p.configure m (RegCfg.zero w) = some sp)
    (hq : q.configure m (RegCfg.zero w) = some sq) :
    q.configure m sp = some sq ↔ ∀ i, p.SetsBit m i → q.SetsBit m i := by
  have hzero (i : Nat) : ¬ (RegCfg.zero w).pcr0.getLsbD i = true := by simp [RegCfg.zero]
  obtain ⟨cfg, v, hcfg, hv⟩ := configure_defined.mp ⟨sq, hq⟩
  obtain ⟨fresh, hfresh⟩ := configure_eq (m := m) hcfg hv
  have hsp : sp.spcr2 = m.FREE ∧ sp.xccr = m.DILB := by
    obtain ⟨_, _, _, _, hspcr2, hxccr, _, _⟩ := configure_words hp
    exact ⟨hspcr2.trans BitVec.zero_or, hxccr.trans BitVec.zero_or⟩
  obtain ⟨sq', hsq'⟩ : ∃ sq', q.configure m sp = some sq' := ⟨_, hfresh sp⟩
  have hothers : sq' = { sq with pcr0 := sq'.pcr0 } := by
    obtain rfl := Option.some.inj ((hfresh _).symm.trans hq)
    obtain rfl := Option.some.inj ((hfresh _).symm.trans hsq')
    simp [hsp.1, hsp.2, RegCfg.zero]
  have hiff : sq' = sq ↔ sq'.pcr0 = sq.pcr0 := by
    refine ⟨congrArg _, fun h => ?_⟩
    rw [hothers, h]
  rw [hsq', Option.some.injEq, hiff]
  constructor
  · intro h i hi
    have hspi := (configure_pcr0 hm hp i).mpr ⟨.inr hi, (setsBit_polarities hm p).2.2.2 i hi⟩
    have hsqi := (configure_pcr0 hm hsq' i).mpr ⟨.inl hspi, (setsBit_polarities hm p).2.2.2 i hi⟩
    rw [h] at hsqi
    exact ((configure_pcr0 hm hq i).mp hsqi).1.resolve_left (hzero i)
  · intro h
    refine BitVec.eq_of_getLsbD_eq fun i _ => Bool.eq_iff_iff.mpr ?_
    rw [configure_pcr0 hm hsq', configure_pcr0 hm hq, configure_pcr0 hm hp]
    have hpi := h i
    have hzi := hzero i
    tauto

/-- The divider of `q` is computed, has eight bits beside the frame width, and configuring with `p` before
`q` leaves the words `q` leaves alone. -/
def SrgRight (m : Macros w) (p q : Params) : Prop :=
  ∃ cfg v s, q.cfg = some cfg ∧ clkgdv cfg = some v ∧ q.configure m (RegCfg.zero w) = some s ∧
    s.srgr1.toNat % 2 ^ 8 = v.toNat ∧ s.srgr1.toNat / 2 ^ 8 = cfg.pulseWidth.toNat ∧
    (p.configure m (RegCfg.zero w)).bind (q.configure m) = some s

end History

def omapMacros : Macros 16 where
  fsActiveLow := 1
  XCOMPAND v := BitVec.ofNat 16 (v.toNat <<< 3)
  XDATDLY v := BitVec.ofNat 16 v.toNat
  XPHASE := 0x8000
  RWDLEN2 v := BitVec.ofNat 16 (v.toNat <<< 5)
  RFRLEN2 v := BitVec.ofNat 16 (v.toNat <<< 8)
  XWDLEN1 v := BitVec.ofNat 16 (v.toNat <<< 5)
  XFRLEN1 v := BitVec.ofNat 16 (v.toNat <<< 8)
  RJUST v := BitVec.ofNat 16 (v.toNat <<< 13)
  RCOMPAND v := BitVec.ofNat 16 (v.toNat <<< 3)
  RDATDLY v := BitVec.ofNat 16 v.toNat
  RPHASE := 0x8000
  RWDLEN1 v := BitVec.ofNat 16 (v.toNat <<< 5)
  RFRLEN1 v := BitVec.ofNat 16 (v.toNat <<< 8)
  FWID v := BitVec.ofNat 16 (v.toNat <<< 8)
  CLKGDV v := BitVec.ofNat 16 v.toNat
  FPER v := BitVec.ofNat 16 v.toNat
  ALB := 0x8000
  FREE := 0x0200
  FSGM := 0x1000
  CLKSM := 0x2000
  CLKSP := 0x4000
  GSYNC := 0x8000
  DILB := 0x0020
  fsxp := 3
  fsxm := 11
  clkxm := 9
  clkxp := 1
  fsrm := 10
  clkrm := 8
  clkrp := 0
  fsrp := 2
  sclkme := 7

theorem omapMacros_placed : omapMacros.Placed where
  width := Nat.le_refl _
  clkgdv := fun _ => rfl
  fwid := fun _ => rfl
  bits := by decide
  bits_lt := by decide

/-- The parameters the module is loaded with by default. -/
def defaults : Params where
  sampleRate := 8000
  phase := frameSinglephase
  clkrPolarity := 1
  fsrPolarity := 1
  justification := 0
  wordLength1 := 0
  wordLength2 := 0
  wordsPerFrame := 1

theorem srg_right_iff {w : Nat} {m : Macros w} (hm : m.Placed) (p q : Params) : SrgRight m p q ↔
    p.LengthsInTable ∧ p.divisor ≠ 0 ∧ q.LengthsInTable ∧ 375000 < q.divisor ∧
      (p.FsLow m → q.FsLow m) ∧ (p.ClkRising → q.ClkRising) ∧ (p.ClkFalling → q.ClkFalling) := by
  rw [← pcr0_history hm]
  constructor
  · rintro ⟨cfg, v, s, hcfg, hv, hs, hlow, hhigh, htwice⟩
    obtain ⟨sp, hsp, htwice⟩ := Option.bind_eq_some_iff.mp htwice
    obtain ⟨hlengths, hne⟩ := configure_defined_iff.mp ⟨sp, hsp⟩
    exact ⟨hlengths, hne, cfg_defined.mp ⟨cfg, hcfg⟩, (srgr1_right_iff hm hcfg hv hs).mp ⟨hlow, hhigh⟩,
      (configure_after_iff hm hsp hs).mp htwice⟩
  · rintro ⟨hlengths, hne, hlengths', hbound, hset⟩
    obtain ⟨sp, hsp⟩ : ∃ sp, p.configure m (RegCfg.zero w) = some sp := configure_defined_iff.mpr ⟨hlengths, hne⟩
    have hne' : q.divisor ≠ 0 := fun h => by
      rw [h] at hbound
      exact absurd hbound (by decide)
    obtain ⟨s, hs⟩ : ∃ s, q.configure m (RegCfg.zero w) = some s := configure_defined_iff.mpr ⟨hlengths', hne'⟩
    obtain ⟨cfg, v, hcfg, hv⟩ := configure_defined.mp ⟨s, hs⟩
    obtain ⟨hlow, hhigh⟩ := (srgr1_right_iff hm hcfg hv hs).mpr hbound
    refine ⟨cfg, v, s, hcfg, hv, hs, hlow, hhigh, ?_⟩
    rw [hsp]
    exact (configure_after_iff hm hsp hs).mpr hset

/-- The same 8 bit words at twelve times the default rate. -/
def faster : Params := { defaults with sampleRate := 96000 }

theorem faster_right : SrgRight omapMacros defaults faster := by
  have hlengths : defaults.LengthsInTable :=
    ⟨⟨by decide, by decide⟩, fun h => absurd h (by decide), by decide, by decide⟩
  have hlengths' : faster.LengthsInTable :=
    ⟨⟨by decide, by decide⟩, fun h => absurd h (by decide), by decide, by decide⟩
  have hrising : ¬ defaults.ClkFalling :=
    show ¬ defaults.clkrPolarity.toUInt32.toUInt8 = polarityFalling by decide
  exact (srg_right_iff omapMacros_placed defaults faster).mpr
    ⟨hlengths, by decide, hlengths', by decide, fun _ => rfl, fun _ => rfl, fun h => absurd h hrising⟩

/-- The default parameters: the divider 1714 does not fit. -/
theorem defaults_not_right : ¬ SrgRight omapMacros defaults defaults := by
  rintro ⟨cfg, v, s, hcfg, hv, -, hlow, -, -⟩
  have hdivisor : defaults.divisor = 56000 := by decide
  have hne : ¬ (56000 : UInt32) = 0 := by decide
  rw [clkgdv_cfg hcfg, hdivisor, if_neg hne] at hv
  obtain rfl := Option.some.inj hv
  have hlt := Nat.mod_lt s.srgr1.toNat (show 0 < 2 ^ 8 by decide)
  rw [hlow] at hlt
  exact absurd hlt (by decide)

end McbspSrg
end DeviceDriverTest
