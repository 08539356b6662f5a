import Mathlib.Data.List.Induction
import Mathlib.Logic.Function.Basic
import Mathlib.Tactic.Common

/-! The McBSP transfer test that runs on DMA. A start hands over the first buffer
of each direction; the callbacks hand over the others and report the completion. -/

namespace DeviceDriverTest

namespace McbspDma

/-- One direction of a transfer: its counter, the buffers handed to the DMA in
this start, those the DMA still holds, and how many had been handed over at each
report of completion. -/
structure Direction where
  count : Int
  handed : Nat
  held : Nat
  reports : List Nat
  deriving DecidableEq

structure Link where
  tx : Direction
  rx : Direction
  sendCnt : Int
  recvCnt : Int
  deriving DecidableEq

inductive Id where
  | id0
  | id1
  deriving DecidableEq

inductive Callback where
  | send (ret : Int)
  | recv (ret : Int)

/-- `omap2_mcbsp_send_data` or `omap2_mcbsp_receive_data` with what it returns. -/
def Direction.hand (d : Direction) (ret : Int) : Direction :=
  if ret ≠ 0 then d else { d with handed := d.handed + 1, held := d.held + 1 }

def Direction.callback (noOfTrans ret : Int) (d : Direction) : Direction :=
  let d := { d with held := d.held - 1 }
  if d.count < noOfTrans then
    if ret ≠ 0 then d.hand ret else { d.hand ret with count := d.count + 1 }
  else { d with reports := d.reports ++ [d.handed] }

def sendCb (id : Id) (noOfTrans ret : Int) (links : Id → Link) : Id → Link :=
  Function.update links id { links id with
    sendCnt := (links id).sendCnt + 1
    tx := (links id).tx.callback noOfTrans ret }

def recvCb (id : Id) (noOfTrans ret : Int) (links : Id → Link) : Id → Link :=
  Function.update links id { links id with
    recvCnt := (links id).recvCnt + 1
    rx := (links id).rx.callback noOfTrans ret }

def omapMcbspSendCb : Int → Int → (Id → Link) → Id → Link := sendCb .id0
def omapMcbspSendCb2 : Int → Int → (Id → Link) → Id → Link := sendCb .id1
def omapMcbspRecvCb : Int → Int → (Id → Link) → Id → Link := recvCb .id0
def omapMcbspRecvCb2 : Int → Int → (Id → Link) → Id → Link := recvCb .id1

def Link.cleared : Link where
  tx := ⟨0, 0, 0, []⟩
  rx := ⟨0, 0, 0, []⟩
  sendCnt := 0
  recvCnt := 0

def Link.started (rxRet txRet : Int) : Link :=
  let l := { Link.cleared with rx := Link.cleared.rx.hand rxRet }
  if rxRet ≠ 0 then l else { l with tx := l.tx.hand txRet }

def startMcbspTransmission (id : Id) (rxRet txRet : Int) (links : Id → Link) : Id → Link :=
  Function.update links id (.started rxRet txRet)

/-- A callback of one of the links; the DMA makes one only for a buffer that it holds. -/
def next (noOfTrans : Int) (links : Id → Link) : Id × Callback → Id → Link
  | (.id0, .send ret) => if (links .id0).tx.held = 0 then links else omapMcbspSendCb noOfTrans ret links
  | (.id1, .send ret) => if (links .id1).tx.held = 0 then links else omapMcbspSendCb2 noOfTrans ret links
  | (.id0, .recv ret) => if (links .id0).rx.held = 0 then links else omapMcbspRecvCb noOfTrans ret links
  | (.id1, .recv ret) => if (links .id1).rx.held = 0 then links else omapMcbspRecvCb2 noOfTrans ret links

def transmission (noOfTrans : Int) (id : Id) (rxRet txRet : Int) (links : Id → Link)
    (callbacks : List (Id × Callback)) : Id → Link :=
  callbacks.foldl (next noOfTrans) (startMcbspTransmission id rxRet txRet links)

/-- As many buffers as transfers in each direction, the completion reported
once, after the last of them. -/
def Accounted (noOfTrans : Int) (l : Link) : Prop :=
  ((l.tx.handed : Int) = noOfTrans ∧ l.tx.reports = [l.tx.handed]) ∧
    (l.rx.handed : Int) = noOfTrans ∧ l.rx.reports = [l.rx.handed]

section Directions

variable {noOfTrans ret : Int} {d : Direction}

theorem callback_cases (noOfTrans ret : Int) (d : Direction) :
    d.count < noOfTrans ∧ ret ≠ 0 ∧ d.callback noOfTrans ret = { d with held := d.held - 1 } ∨
      d.count < noOfTrans ∧ ret = 0 ∧ d.callback noOfTrans ret =
        { d with count := d.count + 1, handed := d.handed + 1, held := d.held - 1 + 1 } ∨
      noOfTrans ≤ d.count ∧ d.callback noOfTrans ret =
        { d with held := d.held - 1, reports := d.reports ++ [d.handed] } := by
  by_cases hlt : d.count < noOfTrans
  · by_cases hret : ret = 0
    · exact .inr (.inl ⟨hlt, hret, by simp [Direction.callback, Direction.hand, hlt, hret]⟩)
    · exact .inl ⟨hlt, hret, by simp [Direction.callback, Direction.hand, hlt, hret]⟩
  · exact .inr (.inr ⟨by omega, by simp [Direction.callback, hlt]⟩)

/-- The counter is one behind the buffers handed over, and no report comes
before the counter has reached the transfers; or nothing was ever handed over. -/
def Behind (noOfTrans : Int) (d : Direction) : Prop :=
  (d.handed : Int) = d.count + 1 ∧ (∀ handed ∈ d.reports, noOfTrans + 1 ≤ (handed : Int)) ∨
    d.held = 0 ∧ d.reports = []

theorem behind_hand (noOfTrans ret : Int) : Behind noOfTrans ((⟨0, 0, 0, []⟩ : Direction).hand ret) := by
  rw [Direction.hand]
  by_cases hret : ret = 0
  · rw [if_neg (not_not.mpr hret)]
    exact .inl ⟨rfl, fun _ hmem => absurd hmem List.not_mem_nil⟩
  · rw [if_pos hret]
    exact .inr ⟨rfl, rfl⟩

theorem Behind.callback (h : Behind noOfTrans d) (hheld : d.held ≠ 0) (ret : Int) :
    Behind noOfTrans (d.callback noOfTrans ret) := by
  rcases h with ⟨hcount, hreports⟩ | ⟨hidle, _⟩
  · left
    rcases callback_cases noOfTrans ret d with ⟨_, _, heq⟩ | ⟨_, _, heq⟩ | ⟨hdone, heq⟩ <;> rw [heq]
    · exact ⟨hcount, hreports⟩
    · refine ⟨?_, hreports⟩
      push_cast
      omega
    · refine ⟨hcount, fun handed hmem => ?_⟩
      rcases List.mem_append.mp hmem with hmem | hmem
      · exact hreports handed hmem
      · rw [List.mem_singleton.mp hmem]
        omega
  · exact absurd hidle hheld

theorem Behind.not_accounted (h : Behind noOfTrans d) :
    ¬ ((d.handed : Int) = noOfTrans ∧ d.reports = [d.handed]) := by
  rintro ⟨hhanded, hone⟩
  rcases h with ⟨_, hreports⟩ | ⟨_, hnone⟩
  · have hlate := hreports d.handed (by simp [hone])
    omega
  · rw [hnone] at hone
    contradiction

/-- With every buffer accepted the DMA holds the last one handed over until the
completion is reported. -/
def Counting (noOfTrans : Int) (d : Direction) : Prop :=
  (d.handed : Int) = d.count + 1 ∧
    (d.held = 1 ∧ d.count ≤ noOfTrans ∧ d.reports = [] ∨
      d.held = 0 ∧ d.count = noOfTrans ∧ d.reports = [d.handed])

theorem Counting.callback (h : Counting noOfTrans d) (hheld : d.held ≠ 0) :
    Counting noOfTrans (d.callback noOfTrans 0) := by
  obtain ⟨hcount, ⟨hone, hle, hnone⟩ | ⟨hidle, _⟩⟩ := h
  · rcases callback_cases noOfTrans 0 d with ⟨_, hret, _⟩ | ⟨hlt, _, heq⟩ | ⟨hdone, heq⟩
    · exact absurd rfl hret
    · rw [heq]
      refine ⟨?_, .inl ⟨by simp [hone], by simp; omega, hnone⟩⟩
      push_cast
      omega
    · rw [heq]
      exact ⟨hcount, .inr ⟨by simp [hone], by simp; omega, by simp [hnone]⟩⟩
  · exact absurd hidle hheld

end Directions

section Links

variable {noOfTrans : Int}

/-- What a callback leaves of a link: another link's callback leaves it alone. -/
theorem next_cases (noOfTrans : Int) (links : Id → Link) (id : Id) (e : Id × Callback) :
    next noOfTrans links e id = links id ∨
      (∃ ret, e.2 = .send ret ∧ (links id).tx.held ≠ 0 ∧ next noOfTrans links e id =
        { links id with sendCnt := (links id).sendCnt + 1, tx := (links id).tx.callback noOfTrans ret }) ∨
      ∃ ret, e.2 = .recv ret ∧ (links id).rx.held ≠ 0 ∧ next noOfTrans links e id =
        { links id with recvCnt := (links id).recvCnt + 1, rx := (links id).rx.callback noOfTrans ret } := by
  have hother : ∀ (i : Id) (l : Link), id ≠ i → Function.update links i l id = links id :=
    fun i l hne => Function.update_of_ne hne l links
  obtain ⟨i, cb⟩ := e
  by_cases hi : id = i
  · subst hi
    cases cb with
    | send ret =>
      by_cases hheld : (links id).tx.held = 0
      · left
        cases id <;> simp [next, hheld]
      · refine .inr (.inl ⟨ret, rfl, hheld, ?_⟩)
        cases id <;> simp [next, hheld, omapMcbspSendCb, omapMcbspSendCb2, sendCb]
    | recv ret =>
      by_cases hheld : (links id).rx.held = 0
      · left
        cases id <;> simp [next, hheld]
      · refine .inr (.inr ⟨ret, rfl, hheld, ?_⟩)
        cases id <;> simp [next, hheld, omapMcbspRecvCb, omapMcbspRecvCb2, recvCb]
  · left
    cases cb with
    | send ret => cases i <;> rw [next] <;> split <;> first | rfl | exact hother _ _ hi
    | recv ret => cases i <;> rw [next] <;> split <;> first | rfl | exact hother _ _ hi

theorem started_behind (noOfTrans rxRet txRet : Int) :
    Behind noOfTrans (Link.started rxRet txRet).tx ∧ Behind noOfTrans (Link.started rxRet txRet).rx := by
  rw [Link.started]
  by_cases hrx : rxRet = 0
  · rw [if_neg (not_not.mpr hrx)]
    exact ⟨behind_hand noOfTrans txRet, behind_hand noOfTrans rxRet⟩
  · rw [if_pos hrx]
    exact ⟨.inr ⟨rfl, rfl⟩, behind_hand noOfTrans rxRet⟩

theorem transmission_behind (noOfTrans : Int) (id : Id) (rxRet txRet : Int) (links : Id → Link)
    (callbacks : List (Id × Callback)) :
    Behind noOfTrans (transmission noOfTrans id rxRet txRet links callbacks id).tx ∧
      Behind noOfTrans (transmission noOfTrans id rxRet txRet links callbacks id).rx := by
  induction callbacks using List.reverseRecOn with
  | nil =>
    have hstart : transmission noOfTrans id rxRet txRet links [] id = .started rxRet txRet :=
      Function.update_self id _ links
    rw [hstart]
    exact started_behind noOfTrans rxRet txRet
  | append_singleton callbacks e ih =>
    rw [transmission, List.foldl_append, List.foldl_cons, List.foldl_nil, ← transmission]
    rcases next_cases noOfTrans (transmission noOfTrans id rxRet txRet links callbacks) id e with
      heq | ⟨ret, _, hheld, heq⟩ | ⟨ret, _, hheld, heq⟩ <;> rw [heq]
    · exact ih
    · exact ⟨ih.1.callback hheld ret, ih.2⟩
    · exact ⟨ih.1, ih.2.callback hheld ret⟩

/-- A start whose buffers are all accepted hands over one buffer more than there
are transfers in each direction before it reports their completion. -/
theorem idle_after_one_more (hn : 0 ≤ noOfTrans) (id : Id) (links : Id → Link) (callbacks : List (Id × Callback))
    (hok : ∀ e ∈ callbacks, e.2 = .send 0 ∨ e.2 = .recv 0)
    (htx : (transmission noOfTrans id 0 0 links callbacks id).tx.held = 0)
    (hrx : (transmission noOfTrans id 0 0 links callbacks id).rx.held = 0) :
    ((transmission noOfTrans id 0 0 links callbacks id).tx.handed : Int) = noOfTrans + 1 ∧
      ((transmission noOfTrans id 0 0 links callbacks id).rx.handed : Int) = noOfTrans + 1 := by
  have hcounting : Counting noOfTrans (transmission noOfTrans id 0 0 links callbacks id).tx ∧
      Counting noOfTrans (transmission noOfTrans id 0 0 links callbacks id).rx := by
    clear htx hrx
    induction callbacks using List.reverseRecOn with
    | nil =>
      have hstart : transmission noOfTrans id 0 0 links [] id = .started 0 0 := Function.update_self id _ links
      rw [hstart]
      exact ⟨⟨rfl, .inl ⟨rfl, hn, rfl⟩⟩, rfl, .inl ⟨rfl, hn, rfl⟩⟩
    | append_singleton callbacks e ih =>
      have hrest := ih fun e' he' => hok e' (List.mem_append_left _ he')
      have hlast := hok e (by simp)
      rw [transmission, List.foldl_append, List.foldl_cons, List.foldl_nil, ← transmission]
      rcases next_cases noOfTrans (transmission noOfTrans id 0 0 links callbacks) id e with
        heq | ⟨ret, hcb, hheld, heq⟩ | ⟨ret, hcb, hheld, heq⟩
      · rw [heq]
        exact hrest
      · have hret : ret = 0 := by simpa [hcb] using hlast
        rw [heq, hret]
        exact ⟨hrest.1.callback hheld, hrest.2⟩
      · have hret : ret = 0 := by simpa [hcb] using hlast
        rw [heq, hret]
        exact ⟨hrest.1, hrest.2.callback hheld⟩
  obtain ⟨⟨htxHanded, htxCase⟩, hrxHanded, hrxCase⟩ := hcounting
  omega

end Links

/-- No start ends with as many buffers handed over as there are transfers. -/
theorem never_accounted (noOfTrans : Int) (id : Id) (rxRet txRet : Int) (links : Id → Link)
    (callbacks : List (Id × Callback)) :
    ¬ Accounted noOfTrans (transmission noOfTrans id rxRet txRet links callbacks id) := by
  have hbehind := transmission_behind noOfTrans id rxRet txRet links callbacks
  exact fun haccounted => hbehind.1.not_accounted haccounted.1

def idleLinks : Id → Link := fun _ => .cleared

def oneTransfer : List (Id × Callback) :=
  [(.id0, .recv 0), (.id0, .send 0), (.id0, .recv 0), (.id0, .send 0)]

theorem one_transfer_hands_two :
    ¬ Accounted 1 (transmission 1 .id0 0 0 idleLinks oneTransfer .id0) ∧
      (transmission 1 .id0 0 0 idleLinks oneTransfer .id0).tx = ⟨1, 2, 0, [2]⟩ ∧
      (transmission 1 .id0 0 0 idleLinks oneTransfer .id0).rx = ⟨1, 2, 0, [2]⟩ := by
  have htx : (transmission 1 .id0 0 0 idleLinks oneTransfer .id0).tx = ⟨1, 2, 0, [2]⟩ := by decide
  refine ⟨fun haccounted => ?_, htx, by decide⟩
  have hhanded := haccounted.1.1
  rw [htx] at hhanded
  contradiction

end McbspDma

end DeviceDriverTest
