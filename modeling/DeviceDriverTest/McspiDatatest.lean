import DeviceDriverTest.AllocationLedger

/-! The McSPI test module: the coherent buffers its transmissions allocate, and
what the module frees when it is removed. -/

namespace DeviceDriverTest

namespace McspiDatatest

open AllocationLedger

/-- The buffers of a transmission for which the allocator has memory. -/
structure Grants where
  rx2 : Bool
  tx2 : Bool
  rx : Bool
  tx : Bool

/-- The static pointers, `none` for NULL. -/
structure Module where
  rxBuf : Option Nat
  txBuf : Option Nat
  rxBuf2 : Option Nat
  txBuf2 : Option Nat
  buffersAllocated : Bool
  transmitMode : Int
  ledger : Ledger

def Module.loaded : Module where
  rxBuf := none
  txBuf := none
  rxBuf2 := none
  txBuf2 := none
  buffersAllocated := false
  transmitMode := 0
  ledger := .empty

/-- `none` when the kernel stops at a NULL pointer: it fills both buffers of the
first pair and the transmit buffer of the second, and with smp support all four. -/
def spitstTrans (smp : Bool) (mode : Int) (granted : Grants) (m : Module) : Option Module :=
  let (ledger, rx2) := m.ledger.alloc granted.rx2
  let (ledger, tx2) := ledger.alloc granted.tx2
  let allocated := m.buffersAllocated || (rx2.isSome && tx2.isSome)
  let (ledger, rx) := ledger.alloc granted.rx
  let (ledger, tx) := ledger.alloc granted.tx
  let allocated := allocated || (rx.isSome && tx.isSome)
  if tx.isNone || rx.isNone || tx2.isNone || (smp && rx2.isNone) then none
  else
    some { m with
      rxBuf := rx
      txBuf := tx
      rxBuf2 := rx2
      txBuf2 := tx2
      buffersAllocated := allocated
      transmitMode := mode
      ledger := ledger }

/-- A write to the transmission file: what is written, if the buffer is there at
all, and the memory there is for it. -/
structure Write where
  buffer : Option (List Char)
  granted : Grants

def command (buffer : List Char) : List Char := buffer.take 7

/-- `strncmp` with the length of the text. -/
def starts (text : String) (val : List Char) : Bool := text.toList.isPrefixOf val

def writeProcEntry (smp : Bool) (w : Write) (m : Module) : Option (Module × Int) :=
  match w.buffer with
  | none => some (m, 0)
  | some buffer =>
    if buffer.length = 0 then some (m, 0)
    else
      let trans := fun mode => if smp then some m else spitstTrans smp mode w.granted m
      if starts "txrx" (command buffer) then (trans 0).map fun m => (m, buffer.length)
      else if starts "tx" (command buffer) then (trans 2).map fun m => (m, buffer.length)
      else if starts "rx" (command buffer) then (trans 1).map fun m => (m, buffer.length)
      else some (m, -22)

def testMcspiInit (smp : Bool) (granted : Grants) : Option Module :=
  if smp then spitstTrans smp 0 granted .loaded else some .loaded

def testMcspiExit (smp : Bool) (m : Module) : Ledger :=
  if m.buffersAllocated then
    let ledger := if smp then (m.ledger.free m.rxBuf2).free m.txBuf2 else m.ledger
    (ledger.free m.rxBuf2).free m.txBuf2
  else m.ledger

def writes (smp : Bool) : List Write → Module → Option Module
  | [], m => some m
  | w :: rest, m => (writeProcEntry smp w m).bind fun (m, _) => writes smp rest m

def lifetime (smp : Bool) (granted : Grants) (ws : List Write) : Option Ledger :=
  ((testMcspiInit smp granted).bind (writes smp ws)).map (testMcspiExit smp)

def Transmits (w : Write) : Prop :=
  ∃ buffer, w.buffer = some buffer ∧ (starts "tx" (command buffer) = true ∨ starts "rx" (command buffer) = true)

/-- After a transmission: nothing is freed yet, and the receive buffer of the
first pair is none of the two that the removal frees. -/
structure Holding (m : Module) : Prop where
  allocated : m.buffersAllocated = true
  freed : m.ledger.freed = []
  receive : ∃ rx ∈ m.ledger.allocated, m.rxBuf2 ≠ some rx ∧ m.txBuf2 ≠ some rx

/-- A transmission that comes back was granted its buffers, the receive buffer
of the second pair apart. -/
theorem spitstTrans_granted {smp : Bool} {mode : Int} {granted : Grants} {m m' : Module}
    (h : spitstTrans smp mode granted m = some m') :
    granted.tx = true ∧ granted.rx = true ∧ granted.tx2 = true := by
  rcases granted with ⟨rx2, tx2, rx, tx⟩
  cases tx <;> cases rx <;> cases tx2 <;> cases rx2 <;> cases smp <;> simp_all [spitstTrans, Ledger.alloc]

theorem spitstTrans_holding {smp : Bool} {mode : Int} {granted : Grants} {m m' : Module}
    (h : spitstTrans smp mode granted m = some m') (hfreed : m.ledger.freed = []) : Holding m' := by
  obtain ⟨htx, hrx, htx2⟩ := spitstTrans_granted h
  rcases granted with ⟨rx2, tx2, rx, tx⟩
  obtain rfl : tx = true := htx
  obtain rfl : rx = true := hrx
  obtain rfl : tx2 = true := htx2
  cases rx2 with
  | false =>
    simp only [spitstTrans, Ledger.alloc] at h
    obtain ⟨_, rfl⟩ : smp = false ∧ _ := by simpa using h
    exact ⟨by simp, hfreed, m.ledger.allocated.length + 1, by simp, by simp, by simp⟩
  | true =>
    simp only [spitstTrans, Ledger.alloc] at h
    obtain rfl := Option.some.inj (by simpa using h)
    exact ⟨by simp, hfreed, m.ledger.allocated.length + 2, by simp, by simp, by simp⟩

theorem transmits_iff {w : Write} {buffer : List Char} (hbuf : w.buffer = some buffer) :
    Transmits w ↔ starts "tx" (command buffer) = true ∨ starts "rx" (command buffer) = true := by
  constructor
  · rintro ⟨buffer', hbuf', hstarts⟩
    rw [hbuf] at hbuf'
    rwa [Option.some.inj hbuf']
  · exact fun hstarts => ⟨buffer, hbuf, hstarts⟩

theorem starts_tx_of_txrx {val : List Char} (h : starts "txrx" val = true) : starts "tx" val = true := by
  have htx : "tx".toList <+: "txrx".toList := by decide
  exact List.isPrefixOf_iff_prefix.mpr (htx.trans (List.isPrefixOf_iff_prefix.mp h))

/-- A write leaves the module as it was, or without smp support makes a
transmission. -/
theorem writeProcEntry_cases {smp : Bool} {w : Write} {m m' : Module} {rc : Int}
    (h : writeProcEntry smp w m = some (m', rc)) :
    (smp = true ∨ ¬ Transmits w) ∧ m' = m ∨
      smp = false ∧ Transmits w ∧ ∃ mode, spitstTrans false mode w.granted m = some m' := by
  rcases hbuf : w.buffer with _ | buffer
  · have hquiet : ¬ Transmits w := by
      rintro ⟨buffer, hsome, _⟩
      rw [hbuf] at hsome
      contradiction
    simp only [writeProcEntry, hbuf, Option.some.injEq, Prod.mk.injEq] at h
    exact .inl ⟨.inr hquiet, h.1.symm⟩
  · have htrans := transmits_iff hbuf
    simp only [writeProcEntry, hbuf] at h
    by_cases hempty : buffer.length = 0
    · have hnil : buffer = [] := List.length_eq_zero_iff.mp hempty
      have hquiet : ¬ Transmits w := by
        rw [htrans, hnil]
        decide
      rw [if_pos hempty] at h
      exact .inl ⟨.inr hquiet, (Prod.mk.inj (Option.some.inj h)).1.symm⟩
    · rw [if_neg hempty] at h
      by_cases hquiet : starts "tx" (command buffer) = true ∨ starts "rx" (command buffer) = true
      · obtain ⟨mode, hmode⟩ : ∃ mode, ((if smp then some m else spitstTrans smp mode w.granted m).map
            fun m => (m, (buffer.length : Int))) = some (m', rc) := by
          by_cases htxrx : starts "txrx" (command buffer) = true
          · exact ⟨0, by simpa only [htxrx, if_true] using h⟩
          · by_cases htx : starts "tx" (command buffer) = true
            · exact ⟨2, by simpa [htxrx, htx] using h⟩
            · exact ⟨1, by simpa [htxrx, htx, hquiet.resolve_left htx] using h⟩
        obtain ⟨m'', hm'', heq⟩ := Option.map_eq_some_iff.mp hmode
        rw [(Prod.mk.inj heq).1] at hm''
        cases smp with
        | false => exact .inr ⟨rfl, htrans.mpr hquiet, mode, hm''⟩
        | true => exact .inl ⟨.inl rfl, (Option.some.inj hm'').symm⟩
      · have htx : ¬ starts "tx" (command buffer) = true := fun h => hquiet (.inl h)
        have hrx : ¬ starts "rx" (command buffer) = true := fun h => hquiet (.inr h)
        have htxrx : ¬ starts "txrx" (command buffer) = true := fun h => htx (starts_tx_of_txrx h)
        rw [if_neg htxrx, if_neg htx, if_neg hrx] at h
        exact .inl ⟨.inr fun hw => hquiet (htrans.mp hw), (Prod.mk.inj (Option.some.inj h)).1.symm⟩

theorem writes_cons {smp : Bool} {w : Write} {ws : List Write} {m m' : Module}
    (h : writes smp (w :: ws) m = some m') :
    ∃ mid rc, writeProcEntry smp w m = some (mid, rc) ∧ writes smp ws mid = some m' := by
  rw [writes] at h
  obtain ⟨⟨mid, rc⟩, hw, hws⟩ := Option.bind_eq_some_iff.mp h
  exact ⟨mid, rc, hw, hws⟩

theorem writes_holding {smp : Bool} {ws : List Write} {m m' : Module} (hm : Holding m)
    (h : writes smp ws m = some m') : Holding m' := by
  induction ws generalizing m with
  | nil =>
    rw [← Option.some.inj h]
    exact hm
  | cons w ws ih =>
    obtain ⟨mid, rc, hw, hws⟩ := writes_cons h
    rcases writeProcEntry_cases hw with ⟨_, rfl⟩ | ⟨_, _, mode, htrans⟩
    · exact ih hm hws
    · exact ih (spitstTrans_holding htrans hm.freed) hws

theorem writes_cases {ws : List Write} {m m' : Module} (hfreed : m.ledger.freed = [])
    (h : writes false ws m = some m') :
    (∀ w ∈ ws, ¬ Transmits w) ∧ m' = m ∨ (∃ w ∈ ws, Transmits w) ∧ Holding m' := by
  induction ws with
  | nil => exact .inl ⟨fun w hw => absurd hw List.not_mem_nil, (Option.some.inj h).symm⟩
  | cons w ws ih =>
    obtain ⟨mid, rc, hw, hws⟩ := writes_cons h
    rcases writeProcEntry_cases hw with ⟨hquiet, rfl⟩ | ⟨_, htransmits, mode, htrans⟩
    · have hquiet : ¬ Transmits w := hquiet.resolve_left (by decide)
      rcases ih hws with ⟨hall, heq⟩ | ⟨⟨w', hw', htransmits⟩, hheld⟩
      · exact .inl ⟨List.forall_mem_cons.mpr ⟨hquiet, hall⟩, heq⟩
      · exact .inr ⟨⟨w', List.mem_cons_of_mem _ hw', htransmits⟩, hheld⟩
    · have hheld := writes_holding (spitstTrans_holding htrans hfreed) hws
      exact .inr ⟨⟨w, List.mem_cons_self, htransmits⟩, hheld⟩

theorem Holding.exit_not_balanced {m : Module} (h : Holding m) (smp : Bool) :
    ¬ (testMcspiExit smp m).Balanced := by
  obtain ⟨rx, hmem, hrx2, htx2⟩ := h.receive
  have hallocated : (testMcspiExit smp m).allocated = m.ledger.allocated := by
    cases smp <;> simp [testMcspiExit, h.allocated, Ledger.free]
  have hleft : some rx ∉ (testMcspiExit smp m).freed := by
    cases smp <;> simp [testMcspiExit, h.allocated, h.freed, Ledger.free, hrx2.symm, htx2.symm]
  exact not_balanced_of_leak (by rwa [hallocated]) hleft

/-- The buffers are balanced at the removal exactly when none was ever
allocated. -/
theorem balanced_iff {smp : Bool} {granted : Grants} {ws : List Write} {ledger : Ledger}
    (h : lifetime smp granted ws = some ledger) :
    ledger.Balanced ↔ smp = false ∧ ∀ w ∈ ws, ¬ Transmits w := by
  obtain ⟨m', hm', rfl⟩ := Option.map_eq_some_iff.mp h
  obtain ⟨m, hm, hws⟩ := Option.bind_eq_some_iff.mp hm'
  cases smp with
  | true =>
    have hheld := writes_holding (spitstTrans_holding hm rfl) hws
    exact iff_of_false (hheld.exit_not_balanced true) fun hsmp => absurd hsmp.1 (by decide)
  | false =>
    obtain rfl : Module.loaded = m := Option.some.inj hm
    rcases writes_cases rfl hws with ⟨hall, rfl⟩ | ⟨⟨w, hw, htransmits⟩, hheld⟩
    · exact iff_of_true balanced_empty ⟨rfl, hall⟩
    · exact iff_of_false (hheld.exit_not_balanced false) fun hall => hall.2 w hw htransmits

def allGranted : Grants := ⟨true, true, true, true⟩

theorem balanced_unused :
    Ledger.empty.Balanced ↔ false = false ∧ ∀ w ∈ [Write.mk (some ['s']) allGranted], ¬ Transmits w :=
  @balanced_iff false allGranted [⟨some ['s'], allGranted⟩] Ledger.empty rfl

/-- One transmission leaves its first pair allocated; with smp support the second
pair is freed twice. -/
theorem transmission_leaks :
    (∃ ledger, lifetime false allGranted [⟨some ['t', 'x'], allGranted⟩] = some ledger ∧ ¬ ledger.Balanced ∧
      ledger = ⟨[0, 1, 2, 3], [some 0, some 1]⟩) ∧
    ∃ ledger, lifetime true allGranted [] = some ledger ∧ ¬ ledger.Balanced ∧
      ledger = ⟨[0, 1, 2, 3], [some 0, some 1, some 0, some 1]⟩ := by
  refine ⟨⟨_, rfl, not_balanced_of_leak (b := 2) (by decide) (by decide), rfl⟩, ?_⟩
  exact ⟨_, rfl, not_balanced_of_leak (b := 2) (by decide) (by decide), rfl⟩

end McspiDatatest

end DeviceDriverTest
