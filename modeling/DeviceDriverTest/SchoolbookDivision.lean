import DeviceDriverTest.DigitRows
import Mathlib.Tactic.Positivity

/-! Long division, one digit of the quotient after the other: the guess from the leading digits, the
multiple that is taken off, and the divisor that is added back where the guess was too large. -/

namespace SchoolbookDivision

open DigitRows

open Nat (ofDigits)

/-- The guess is too large for the first two digits of the divisor and the first three of the dividend. -/
def tooLarge (b u0 u1 u2 v0 v1 q : Nat) : Prop := v1 * q > (u0 * b + u1 - v0 * q) * b + u2

instance (b u0 u1 u2 v0 v1 q : Nat) : Decidable (tooLarge b u0 u1 u2 v0 v1 q) :=
  inferInstanceAs (Decidable (_ > _))

def firstGuess (b u0 u1 v0 : Nat) : Nat := if v0 = u0 then b - 1 else (u0 * b + u1) / v0

/-- The guess is tested twice. -/
def guess (b u0 u1 u2 v0 v1 : Nat) : Nat :=
  let q := firstGuess b u0 u1 v0
  if tooLarge b u0 u1 u2 v0 v1 q then
    if tooLarge b u0 u1 u2 v0 v1 (q - 1) then q - 1 - 1 else q - 1
  else q

variable {b u0 u1 u2 v0 v1 : Nat}

theorem mul_firstGuess_le (b u0 u1 v0 : Nat) : v0 * firstGuess b u0 u1 v0 ≤ u0 * b + u1 := by
  unfold firstGuess
  split
  case isTrue heq =>
    rw [heq, Nat.mul_sub_one]
    omega
  case isFalse => exact Nat.mul_div_le _ _

/-! The guess. The dividend starts with the digits `u0`, `u1` and `u2`, the divisor with `v0` and `v1`, and
`p` is the place value of what follows. -/

structure Leading (b u0 u1 u2 v0 v1 p dividend divisor : Nat) : Prop where
  dividend_ge : ((u0 * b + u1) * b + u2) * p ≤ dividend
  dividend_lt : dividend < ((u0 * b + u1) * b + u2 + 1) * p
  divisor_ge : (v0 * b + v1) * p ≤ divisor
  divisor_lt : divisor < (v0 * b + v1 + 1) * p
  u1_lt : u1 < b
  u2_lt : u2 < b
  v1_lt : v1 < b
  half : b ≤ 2 * v0 + 1
  base : 1 < b
  below : dividend < b * divisor

namespace Leading

variable {p dividend divisor q : Nat}

theorem v0_pos (h : Leading b u0 u1 u2 v0 v1 p dividend divisor) : 0 < v0 := by
  have hhalf := h.half
  have hbase := h.base
  omega

theorem p_pos (h : Leading b u0 u1 u2 v0 v1 p dividend divisor) : 0 < p := by
  by_contra hp
  have hlt := h.dividend_lt
  rw [Nat.eq_zero_of_not_pos hp, Nat.mul_zero] at hlt
  exact Nat.not_lt_zero _ hlt

theorem divisor_pos (h : Leading b u0 u1 u2 v0 v1 p dividend divisor) : 0 < divisor := by
  by_contra hzero
  have hbelow := h.below
  rw [Nat.eq_zero_of_not_pos hzero, Nat.mul_zero] at hbelow
  exact Nat.not_lt_zero _ hbelow

/-- The first digit of the dividend is not above that of the divisor. -/
theorem u0_le (h : Leading b u0 u1 u2 v0 v1 p dividend divisor) : u0 ≤ v0 := by
  by_contra hlt
  have hge := h.dividend_ge
  have hdivisor := h.divisor_lt
  have hbelow := h.below
  have hp := h.p_pos
  have hv1 := h.v1_lt
  have hstep : (v0 * b + v1 + 1) * p ≤ (v0 + 1) * b * p := Nat.mul_le_mul_right p (by rw [add_mul, one_mul]; omega)
  have hdividend : (v0 + 1) * b * b * p ≤ ((u0 * b + u1) * b + u2) * p := by
    refine Nat.mul_le_mul_right p (le_trans ?_ (Nat.le_add_right _ _))
    exact Nat.mul_le_mul_right b ((Nat.mul_le_mul_right b (not_le.mp hlt)).trans (Nat.le_add_right _ _))
  have hscaled : b * divisor ≤ b * ((v0 + 1) * b * p) := Nat.mul_le_mul_left b (hdivisor.le.trans hstep)
  have hcomm : b * ((v0 + 1) * b * p) = (v0 + 1) * b * b * p := by ring
  omega

theorem firstGuess_lt (h : Leading b u0 u1 u2 v0 v1 p dividend divisor) : firstGuess b u0 u1 v0 < b := by
  have hbase := h.base
  unfold firstGuess
  split
  case isTrue => omega
  case isFalse hne =>
    have hlt : u0 + 1 ≤ v0 := lt_of_le_of_ne h.u0_le (Ne.symm hne)
    have hu1 := h.u1_lt
    rw [Nat.div_lt_iff_lt_mul h.v0_pos, Nat.mul_comm b]
    calc u0 * b + u1 < (u0 + 1) * b := by rw [add_mul, one_mul]; omega
      _ ≤ v0 * b := Nat.mul_le_mul_right b hlt

/-- The first guess is never too small. -/
theorem le_firstGuess (h : Leading b u0 u1 u2 v0 v1 p dividend divisor) (hq : q * divisor ≤ dividend) :
    q ≤ firstGuess b u0 u1 v0 := by
  have hqb : q < b := by
    by_contra hge
    have hbelow := h.below
    have hscaled := Nat.mul_le_mul_right divisor (not_lt.mp hge)
    omega
  unfold firstGuess
  split
  case isTrue => omega
  case isFalse =>
    rw [Nat.le_div_iff_mul_le h.v0_pos]
    apply Nat.le_of_lt_succ
    have hp := h.p_pos
    have hu2 := h.u2_lt
    apply lt_of_mul_lt_mul_right (a := b * p) _ (Nat.zero_le _)
    calc q * v0 * (b * p) = q * (v0 * b * p) := by ring
      _ ≤ q * divisor := Nat.mul_le_mul_left q (le_trans (Nat.mul_le_mul_right p (Nat.le_add_right _ _)) h.divisor_ge)
      _ ≤ dividend := hq
      _ < ((u0 * b + u1) * b + u2 + 1) * p := h.dividend_lt
      _ ≤ (u0 * b + u1 + 1) * b * p := Nat.mul_le_mul_right p (by rw [add_mul (u0 * b + u1) 1 b, one_mul]; omega)
      _ = (u0 * b + u1 + 1) * (b * p) := by ring

/-- A guess that fails the test is too large. -/
theorem lt_of_tooLarge (h : Leading b u0 u1 u2 v0 v1 p dividend divisor) (hfit : v0 * q ≤ u0 * b + u1)
    (htest : tooLarge b u0 u1 u2 v0 v1 q) : dividend < q * divisor := by
  have htest' : (u0 * b + u1) * b + u2 + 1 ≤ q * (v0 * b + v1) := by
    have hmul : (u0 * b + u1 - v0 * q) * b + v0 * q * b = (u0 * b + u1) * b := by
      rw [← add_mul, Nat.sub_add_cancel hfit]
    have hexpand : q * (v0 * b + v1) = v0 * q * b + v1 * q := by ring
    unfold tooLarge at htest
    omega
  calc dividend < ((u0 * b + u1) * b + u2 + 1) * p := h.dividend_lt
    _ ≤ q * (v0 * b + v1) * p := Nat.mul_le_mul_right p htest'
    _ = q * ((v0 * b + v1) * p) := Nat.mul_assoc _ _ _
    _ ≤ q * divisor := Nat.mul_le_mul_left q h.divisor_ge

/-- A guess that passes the test is too large by one at most. -/
theorem le_of_not_tooLarge (h : Leading b u0 u1 u2 v0 v1 p dividend divisor) (hfit : v0 * q ≤ u0 * b + u1) (hq : q < b)
    (htest : ¬tooLarge b u0 u1 u2 v0 v1 q) : q * divisor < dividend + divisor := by
  have htest' : q * (v0 * b + v1) ≤ (u0 * b + u1) * b + u2 := by
    have hmul : (u0 * b + u1 - v0 * q) * b + v0 * q * b = (u0 * b + u1) * b := by
      rw [← add_mul, Nat.sub_add_cancel hfit]
    have hexpand : q * (v0 * b + v1) = v0 * q * b + v1 * q := by ring
    unfold tooLarge at htest
    omega
  have hlow : b * p ≤ divisor := by
    refine le_trans (Nat.mul_le_mul_right p ?_) h.divisor_ge
    exact (Nat.le_mul_of_pos_left b h.v0_pos).trans (Nat.le_add_right _ _)
  have hp := h.p_pos
  obtain hzero | hpos := Nat.eq_zero_or_pos q
  · rw [hzero, zero_mul]
    exact h.divisor_pos.trans_le (Nat.le_add_left _ _)
  calc q * divisor < q * ((v0 * b + v1 + 1) * p) := Nat.mul_lt_mul_of_pos_left h.divisor_lt hpos
    _ = q * (v0 * b + v1) * p + q * p := by ring
    _ ≤ ((u0 * b + u1) * b + u2) * p + b * p := Nat.add_le_add (Nat.mul_le_mul_right p htest') (Nat.mul_le_mul_right p hq.le)
    _ ≤ dividend + divisor := Nat.add_le_add h.dividend_ge hlow

/-- The first guess is too large by two at most. -/
theorem firstGuess_le (h : Leading b u0 u1 u2 v0 v1 p dividend divisor) :
    (firstGuess b u0 u1 v0 - 2) * divisor ≤ dividend := by
  have hfit := mul_firstGuess_le b u0 u1 v0
  have hlt := h.firstGuess_lt
  generalize firstGuess b u0 u1 v0 = q at hfit hlt ⊢
  by_contra hgt
  have hp := h.p_pos
  have hv1 := h.v1_lt
  have hhalf := h.half
  -- with a divisor below `(v0 + 1) * b * p` the guess would be larger than every digit
  have hstrict : q * v0 * (b * p) < (q - 2) * (v0 + 1) * (b * p) := by
    calc q * v0 * (b * p) = v0 * q * b * p := by ring
      _ ≤ ((u0 * b + u1) * b + u2) * p :=
        Nat.mul_le_mul_right p ((Nat.mul_le_mul_right b hfit).trans (Nat.le_add_right _ _))
      _ ≤ dividend := h.dividend_ge
      _ < (q - 2) * divisor := not_le.mp hgt
      _ ≤ (q - 2) * ((v0 * b + v1 + 1) * p) := Nat.mul_le_mul_left _ h.divisor_lt.le
      _ ≤ (q - 2) * ((v0 + 1) * b * p) :=
        Nat.mul_le_mul_left _ (Nat.mul_le_mul_right p (by rw [add_mul, one_mul]; omega))
      _ = (q - 2) * (v0 + 1) * (b * p) := by ring
  have hcore := lt_of_mul_lt_mul_right hstrict (Nat.zero_le _)
  obtain hsmall | hlarge := Nat.lt_or_ge q 2
  · rw [Nat.sub_eq_zero_of_le hsmall.le, zero_mul] at hcore
    exact Nat.not_lt_zero _ hcore
  · obtain ⟨k, rfl⟩ := Nat.exists_eq_add_of_le' hlarge
    rw [Nat.add_sub_cancel] at hcore
    have hexpand : (k + 2) * v0 = k * v0 + 2 * v0 := by ring
    have hexpand' : k * (v0 + 1) = k * v0 + k := by ring
    omega

/-- After the two tests the guess is the digit of the quotient, or the digit after it. -/
theorem guess_spec (h : Leading b u0 u1 u2 v0 v1 p dividend divisor) :
    dividend / divisor ≤ guess b u0 u1 u2 v0 v1 ∧ guess b u0 u1 u2 v0 v1 ≤ dividend / divisor + 1 ∧
      guess b u0 u1 u2 v0 v1 < b := by
  have hpos := h.divisor_pos
  have hfit := mul_firstGuess_le b u0 u1 v0
  have hlt := h.firstGuess_lt
  have hlow := h.le_firstGuess (Nat.div_mul_le_self dividend divisor)
  have hhigh := (Nat.le_div_iff_mul_le hpos).mpr h.firstGuess_le
  unfold guess
  generalize firstGuess b u0 u1 v0 = q at hfit hlt hlow hhigh ⊢
  have hless : ∀ {q}, dividend < q * divisor → dividend / divisor < q := fun hq => (Nat.div_lt_iff_lt_mul hpos).mpr hq
  have hmore : ∀ {q}, q * divisor < dividend + divisor → q ≤ dividend / divisor + 1 := by
    intro q hq
    rw [← Nat.add_div_right _ hpos, Nat.le_div_iff_mul_le hpos]
    exact hq.le
  dsimp only
  split
  case isTrue htest =>
    have hfirst := hless (h.lt_of_tooLarge hfit htest)
    have hfit' : v0 * (q - 1) ≤ u0 * b + u1 := (Nat.mul_le_mul_left v0 (Nat.sub_le q 1)).trans hfit
    split
    case isTrue hagain =>
      have hsecond := hless (h.lt_of_tooLarge hfit' hagain)
      omega
    case isFalse hagain =>
      have hsecond := hmore (h.le_of_not_tooLarge hfit' (by omega) hagain)
      omega
  case isFalse htest =>
    have hfirst := hmore (h.le_of_not_tooLarge hfit hlt htest)
    omega

end Leading

/-! The digits of the dividend and of the divisor, the first one first. -/

/-- The divisor is added back to the lower digits, and the carry to the digit before them. -/
def addBack (b : Nat) (window v : List Nat) : List Nat :=
  let sum := addRow b 0 (window.take v.length) v
  let top := window.getD v.length 0
  sum.take v.length ++ [if sum.getD v.length 0 = 1 then (top + 1) % b else top]

/-- One digit of the quotient, and the dividend after the multiple is taken off its first digits. -/
def divideStep (b : Nat) (v rest : List Nat) : Nat × List Nat :=
  let q := guess b (rest.getD 0 0) (rest.getD 1 0) (rest.getD 2 0) (v.getD 0 0) (v.getD 1 0)
  let window := (rest.take (v.length + 1)).reverse
  let taken := if q ≠ 0 then subRow b 0 window (carryColumns b 0 (v.reverse.map (· * q))) else (window, 0)
  if taken.2 = 1 then (q - 1, (addBack b taken.1 v.reverse).reverse ++ rest.drop (v.length + 1))
  else (q, taken.1.reverse ++ rest.drop (v.length + 1))

def divideLoop (b : Nat) (v : List Nat) : Nat → List Nat → List Nat
  | 0, _ => []
  | k + 1, rest => (divideStep b v rest).1 :: divideLoop b v k (divideStep b v rest).2.tail

/-- The number that digits stand for, the first one first. -/
def value (b : Nat) (ds : List Nat) : Nat := ofDigits b ds.reverse

variable {v rest window ds es : List Nat}

@[simp] theorem value_nil : value b [] = 0 := rfl

@[simp] theorem value_cons (d : Nat) (ds : List Nat) : value b (d :: ds) = d * b ^ ds.length + value b ds := by
  rw [value, Nat.ofDigits_reverse_cons, value, Nat.mul_comm, Nat.add_comm]

theorem value_append (ds es : List Nat) : value b (ds ++ es) = value b ds * b ^ es.length + value b es := by
  rw [value, List.reverse_append, Nat.ofDigits_append, List.length_reverse, Nat.mul_comm, Nat.add_comm]
  rfl

theorem value_lt (hb : 1 < b) (h : IsRow b ds) : value b ds < b ^ ds.length := by
  have hlt := ofDigits_lt hb (isRow_reverse.mpr h)
  rwa [List.length_reverse] at hlt

/-- The leading digits of the two numbers give the conditions on the guess. -/
theorem leading_of_digits (hb : 1 < b) (hrest : IsRow b rest) (hv : IsRow b v) (hne : v ≠ [])
    (hhalf : b ≤ 2 * v.getD 0 0 + 1) (hlen : v.length + 1 ≤ rest.length)
    (hbelow : value b (rest.take (v.length + 1)) < b * value b v) :
    value b (rest.take (v.length + 1)) / value b v ≤
        guess b (rest.getD 0 0) (rest.getD 1 0) (rest.getD 2 0) (v.getD 0 0) (v.getD 1 0) ∧
      guess b (rest.getD 0 0) (rest.getD 1 0) (rest.getD 2 0) (v.getD 0 0) (v.getD 1 0) ≤
        value b (rest.take (v.length + 1)) / value b v + 1 ∧
      guess b (rest.getD 0 0) (rest.getD 1 0) (rest.getD 2 0) (v.getD 0 0) (v.getD 1 0) < b := by
  match v, rest, hlen with
  | [], _, _ => exact absurd rfl hne
  | [v0], [_], hlen => exact absurd hlen (by simp)
  | [v0], u0 :: u1 :: rest, _ =>
    -- a divisor of one digit, with a zero behind it
    have hu2 : (u0 :: u1 :: rest).getD 2 0 < b := by
      cases rest with
      | nil => exact Nat.zero_lt_of_lt hb
      | cons u2 rest => exact hrest u2 (by simp)
    generalize (u0 :: u1 :: rest).getD 2 0 = u2 at hu2 ⊢
    have hu1 : u1 < b := hrest u1 (by simp)
    simp only [value, List.length_singleton, List.take_succ_cons, List.take_zero, List.reverse_cons, List.reverse_nil,
      List.nil_append, List.cons_append, Nat.ofDigits_cons, Nat.ofDigits_nil, mul_zero, add_zero, List.getD_cons_zero,
      List.getD_cons_succ] at hbelow hhalf ⊢
    have hpos : 0 < v0 := by omega
    have hquotient : (u1 + b * u0) / v0 = ((u0 * b + u1) * b + u2) / (v0 * b) := by
      rw [Nat.mul_comm v0, ← Nat.div_div_eq_div_mul, Nat.mul_comm (u0 * b + u1), Nat.mul_add_div (by omega),
        Nat.div_eq_of_lt hu2, add_zero, Nat.mul_comm u0, Nat.add_comm]
    have hspec := @Leading.guess_spec b u0 u1 u2 v0 0 1 ((u0 * b + u1) * b + u2) (v0 * b)
      ⟨by omega, by omega, by omega, by omega, hu1, hu2, by omega, hhalf, hb, by nlinarith⟩
    rw [hquotient]
    exact hspec
  | _ :: _ :: _, [_], hlen => exact absurd hlen (by simp)
  | _ :: _ :: _, [_, _], hlen => exact absurd hlen (by simp)
  | v0 :: v1 :: v, u0 :: u1 :: u2 :: rest, hlen =>
    simp only [List.length_cons, Nat.add_le_add_iff_right] at hlen
    simp only [isRow_cons] at hrest hv
    have htake := value_lt hb (hrest.2.2.2.take v.length)
    have hlow := value_lt hb hv.2.2
    rw [List.length_take, min_eq_left hlen] at htake
    refine @Leading.guess_spec b u0 u1 u2 v0 v1 (b ^ v.length) _ _ ?_
    have hdividend : value b ((u0 :: u1 :: u2 :: rest).take ((v0 :: v1 :: v).length + 1)) =
        ((u0 * b + u1) * b + u2) * b ^ v.length + value b (rest.take v.length) := by
      simp only [List.length_cons, List.take_succ_cons, value_cons, List.length_take, min_eq_left hlen]
      ring
    have hdivisor : value b (v0 :: v1 :: v) = (v0 * b + v1) * b ^ v.length + value b v := by
      simp only [List.length_cons, value_cons]
      ring
    exact ⟨by rw [hdividend]; exact Nat.le_add_right _ _, by rw [hdividend, add_mul _ 1, one_mul]; omega,
      by rw [hdivisor]; exact Nat.le_add_right _ _, by rw [hdivisor, add_mul _ 1, one_mul]; omega,
      hrest.2.1, hrest.2.2.1, hv.2.1, hhalf, hb, hbelow⟩

theorem ofDigits_succ {n : Nat} (hlen : ds.length = n + 1) :
    ofDigits b ds = ofDigits b (ds.take n) + b ^ n * ds.getD n 0 := by
  have hsplit := @ofDigits_take_drop b n ds
  rw [List.length_take, min_eq_left (by omega), List.drop_eq_getElem_cons (by omega), List.drop_eq_nil_of_le (by omega),
    Nat.ofDigits_singleton] at hsplit
  rw [List.getD_eq_getElem _ _ (by omega), hsplit]

theorem isRow_getD (hb : 0 < b) (h : IsRow b ds) (n : Nat) : ds.getD n 0 < b := by
  obtain hlt | hge := Nat.lt_or_ge n ds.length
  · rw [List.getD_eq_getElem _ _ hlt]
    exact h _ (List.getElem_mem hlt)
  · rw [List.getD_eq_default _ _ hge]
    exact hb

/-- The carry out of the last digit is dropped. -/
theorem addBack_spec (hb : 1 < b) (hwindow : IsRow b window) (hv : IsRow b v) (hlen : window.length = v.length + 1) :
    (addBack b window v).length = v.length + 1 ∧ IsRow b (addBack b window v) ∧
      ofDigits b (addBack b window v) = (ofDigits b window + ofDigits b v) % b ^ (v.length + 1) := by
  have hsum := @ofDigits_addRow b 0 (window.take v.length) v
  have hsumlen := @length_addRow b 0 (window.take v.length) v
  have hdigits := isRow_addRow hb (Nat.zero_le 1) (hwindow.take v.length) hv
  rw [List.length_take, min_eq_left (by omega), max_self] at hsumlen
  generalize hadd : addRow b 0 (window.take v.length) v = sum at hsum hsumlen hdigits
  have hcarry := @ofDigits_succ b _ _ hsumlen
  have hlow := ofDigits_lt hb (hdigits.take v.length)
  have htop := isRow_getD (by omega) hwindow v.length
  have htaken := ofDigits_lt hb (hwindow.take v.length)
  have hvlt := ofDigits_lt hb hv
  rw [List.length_take, min_eq_left (by omega)] at hlow htaken
  -- what the lower digits carry is one at most
  have hone : sum.getD v.length 0 ≤ 1 := by
    by_contra hgt
    have hscaled := Nat.mul_le_mul_left (b ^ v.length) (not_le.mp hgt)
    omega
  have hdigit : (if sum.getD v.length 0 = 1 then (window.getD v.length 0 + 1) % b else window.getD v.length 0) =
      (window.getD v.length 0 + sum.getD v.length 0) % b := by
    split
    case isTrue hcase => rw [hcase]
    case isFalse hcase =>
      rw [show sum.getD v.length 0 = 0 by omega, Nat.add_zero, Nat.mod_eq_of_lt htop]
  simp only [addBack, hadd, hdigit]
  have hwidth : (sum.take v.length).length = v.length := by rw [List.length_take, min_eq_left (by omega)]
  refine ⟨by rw [List.length_append, hwidth, List.length_singleton], ?_, ?_⟩
  · exact isRow_append.mpr ⟨hdigits.take _, isRow_cons.mpr ⟨Nat.mod_lt _ (by omega), isRow_nil⟩⟩
  · have hpos : 0 < b ^ v.length := Nat.pow_pos (by omega)
    have htotal : ofDigits b window + ofDigits b v =
        ofDigits b (sum.take v.length) + b ^ v.length * (window.getD v.length 0 + sum.getD v.length 0) := by
      rw [ofDigits_succ hlen, mul_add]
      omega
    rw [Nat.ofDigits_append, hwidth, Nat.ofDigits_singleton, htotal, pow_succ, Nat.mod_mul, Nat.add_mul_mod_self_left,
      Nat.mod_eq_of_lt hlow, Nat.add_mul_div_left _ _ hpos, Nat.div_eq_of_lt hlow, Nat.zero_add]

/-- A step divides: it yields a digit of the quotient, and leaves the remainder in the place of the dividend. -/
theorem divideStep_spec (hb : 1 < b) (hrest : IsRow b rest) (hv : IsRow b v) (hne : v ≠ [])
    (hhalf : b ≤ 2 * v.getD 0 0 + 1) (hlen : v.length + 1 ≤ rest.length)
    (hbelow : value b (rest.take (v.length + 1)) < b * value b v) :
    (divideStep b v rest).1 = value b (rest.take (v.length + 1)) / value b v ∧
      ∃ left, (divideStep b v rest).2 = left ++ rest.drop (v.length + 1) ∧ left.length = v.length + 1 ∧ IsRow b left ∧
        value b left = value b (rest.take (v.length + 1)) % value b v := by
  obtain ⟨hge, hle, hlt⟩ := leading_of_digits hb hrest hv hne hhalf hlen hbelow
  have hwindow : IsRow b (rest.take (v.length + 1)).reverse := isRow_reverse.mpr (hrest.take _)
  have hwlen : (rest.take (v.length + 1)).reverse.length = v.length + 1 := by
    rw [List.length_reverse, List.length_take, min_eq_left hlen]
  have hvalue : ofDigits b (rest.take (v.length + 1)).reverse = value b (rest.take (v.length + 1)) := rfl
  have hvpos : 0 < value b v := by
    by_contra hzero
    rw [Nat.eq_zero_of_not_pos hzero, Nat.mul_zero] at hbelow
    exact Nat.not_lt_zero _ hbelow
  unfold divideStep
  generalize guess b (rest.getD 0 0) (rest.getD 1 0) (rest.getD 2 0) (v.getD 0 0) (v.getD 1 0) = q at hge hle hlt ⊢
  generalize (rest.take (v.length + 1)).reverse = window at hwindow hwlen hvalue ⊢
  generalize value b (rest.take (v.length + 1)) = dividend at hge hle hvalue hbelow ⊢
  have hdiv := Nat.div_add_mod dividend (value b v)
  have hmod := Nat.mod_lt dividend hvpos
  have hreverse : ∀ ds : List Nat, value b ds.reverse = ofDigits b ds := fun ds => by rw [value, List.reverse_reverse]
  have hmult : ofDigits b (carryColumns b 0 (v.reverse.map (· * q))) = value b v * q := by
    rw [ofDigits_carryColumns, ofDigits_map_mul, add_zero]
    rfl
  have hmultrow : IsRow b (carryColumns b 0 (v.reverse.map (· * q))) := by
    apply isRow_carryColumns (by omega)
    rw [ofDigits_map_mul, add_zero, List.length_map, List.length_reverse, pow_succ]
    exact Nat.mul_lt_mul'' (value_lt hb hv) hlt
  have hmultlen : (carryColumns b 0 (v.reverse.map (· * q))).length ≤ window.length := by
    rw [length_carryColumns, List.length_map, List.length_reverse, hwlen]
  have hreturn : ∀ left : List Nat, left.length = v.length + 1 → IsRow b left → ofDigits b left = dividend % value b v →
      ∃ ds, left.reverse ++ rest.drop (v.length + 1) = ds ++ rest.drop (v.length + 1) ∧ ds.length = v.length + 1 ∧
        IsRow b ds ∧ value b ds = dividend % value b v := fun left hlength hrow heq =>
    ⟨left.reverse, rfl, by rw [List.length_reverse, hlength], isRow_reverse.mpr hrow, (hreverse left).trans heq⟩
  dsimp only
  by_cases hzero : q = 0
  · have hquotient : dividend / value b v = 0 := Nat.le_zero.mp (hge.trans hzero.le)
    rw [hquotient, Nat.mul_zero, Nat.zero_add] at hdiv
    rw [if_neg (not_not.mpr hzero), if_neg Nat.zero_ne_one, hquotient]
    exact ⟨hzero, hreturn window hwlen hwindow (hvalue.trans hdiv.symm)⟩
  rw [if_pos hzero]
  obtain hfits | hover := Nat.lt_or_ge dividend (value b v * q) |>.symm
  · have hquotient : q = dividend / value b v :=
      Nat.le_antisymm ((Nat.le_div_iff_mul_le hvpos).mpr (by rw [Nat.mul_comm]; exact hfits)) hge
    obtain ⟨hborrow, hleft⟩ := ofDigits_subRow_of_le hb (Nat.zero_le 1) hwindow hmultrow hmultlen
      (by rw [hmult, hvalue, add_zero]; exact hfits)
    rw [hmult, hvalue, add_zero, hquotient] at hleft
    rw [hborrow, if_neg Nat.zero_ne_one]
    refine ⟨hquotient, hreturn _ (by rw [length_subRow, hwlen]) (isRow_subRow 0 _ hwindow) ?_⟩
    rw [hquotient, hleft]
    omega
  · have hquotient : dividend / value b v = q - 1 := by
      have hless : dividend / value b v < q := (Nat.div_lt_iff_lt_mul hvpos).mpr (by rw [Nat.mul_comm]; exact hover)
      omega
    have hborrow := subRow_of_lt hb (Nat.zero_le 1) hmultrow hmultlen (by rw [hmult, hvalue, add_zero]; exact hover)
    have hleft := ofDigits_subRow (Nat.zero_lt_of_lt hb) (Nat.zero_le 1) hmultrow hmultlen
    rw [hborrow, hmult, hvalue, add_zero, mul_one, hwlen] at hleft
    obtain ⟨hlength, hrow, hback⟩ := addBack_spec hb (isRow_subRow 0 (carryColumns b 0 (v.reverse.map (· * q))) hwindow)
      (isRow_reverse.mpr hv) (by rw [length_subRow, hwlen, List.length_reverse])
    rw [List.length_reverse] at hlength hback
    rw [if_pos hborrow, hquotient]
    refine ⟨rfl, hreturn _ hlength hrow ?_⟩
    -- what is added back makes up for the one that the guess was too large by
    have hmul : value b v * q = value b v * (q - 1) + value b v := by
      rw [← Nat.mul_succ, Nat.succ_eq_add_one, Nat.sub_add_cancel (Nat.pos_of_ne_zero hzero)]
    have hwidth : dividend % value b v < b ^ (v.length + 1) :=
      hmod.trans ((value_lt hb hv).trans_le (Nat.pow_le_pow_right (by omega) (Nat.le_succ _)))
    have hsum : ofDigits b (subRow b 0 window (carryColumns b 0 (v.reverse.map (· * q)))).1 + ofDigits b v.reverse =
        dividend % value b v + b ^ (v.length + 1) := by
      rw [hquotient] at hdiv
      change _ + value b v = _
      omega
    rw [hback, hsum, Nat.add_mod_right, Nat.mod_eq_of_lt hwidth]

@[simp] theorem length_divideLoop (v : List Nat) (k : Nat) (rest : List Nat) : (divideLoop b v k rest).length = k := by
  induction k generalizing rest with
  | zero => rfl
  | succ k ih => rw [divideLoop, List.length_cons, ih]

/-- The digits that the loop yields are those of the quotient. -/
theorem divideLoop_spec (hb : 1 < b) (hv : IsRow b v) (hne : v ≠ []) (hhalf : b ≤ 2 * v.getD 0 0 + 1) (k : Nat)
    (hrest : IsRow b rest) (hlen : v.length + k ≤ rest.length) (hbelow : value b (rest.take v.length) < value b v) :
    IsRow b (divideLoop b v k rest) ∧
      value b (divideLoop b v k rest) = value b (rest.take (v.length + k)) / value b v := by
  induction k generalizing rest with
  | zero => exact ⟨isRow_nil, (Nat.div_eq_of_lt hbelow).symm⟩
  | succ k ih =>
    have hvpos : 0 < value b v := Nat.zero_lt_of_lt hbelow
    -- the next digit of the dividend keeps it below the divisor times the base
    have hnext : value b (rest.take (v.length + 1)) < b * value b v := by
      have hdigit := isRow_getD (by omega) hrest v.length
      rw [List.take_add_one, List.getElem?_eq_getElem (by omega), value_append]
      rw [List.getD_eq_getElem _ _ (by omega)] at hdigit
      simp only [Option.toList_some, List.length_singleton, pow_one, value_cons, List.length_nil, pow_zero, mul_one,
        value_nil, add_zero]
      nlinarith
    obtain ⟨hquotient, left, hleft, hlength, hrow, hvalue⟩ := divideStep_spec hb hrest hv hne hhalf (by omega) hnext
    have hmod := Nat.mod_lt (value b (rest.take (v.length + 1))) hvpos
    obtain ⟨d, left, rfl⟩ := List.exists_cons_of_length_eq_add_one hlength
    rw [List.length_cons, Nat.add_right_cancel_iff] at hlength
    rw [isRow_cons] at hrow
    -- the remainder has a zero in front, so that the loop may go on behind it
    have hzero : d = 0 := by
      by_contra hd
      have hscaled := Nat.le_mul_of_pos_left (b ^ v.length) (Nat.pos_of_ne_zero hd)
      have hlt := value_lt hb hv
      rw [value_cons, hlength] at hvalue
      omega
    rw [value_cons, hzero, zero_mul, zero_add] at hvalue
    have htake : (left ++ rest.drop (v.length + 1)).take v.length = left := by rw [List.take_left' hlength]
    have htail : (divideStep b v rest).2.tail = left ++ rest.drop (v.length + 1) := by rw [hleft]; rfl
    have hrow' : IsRow b (left ++ rest.drop (v.length + 1)) := isRow_append.mpr ⟨hrow.2, hrest.drop _⟩
    obtain ⟨hdigits, hloop⟩ := ih hrow' (by rw [List.length_append, List.length_drop, hlength]; omega)
      (by rw [htake, hvalue]; exact hmod)
    rw [divideLoop, htail]
    refine ⟨isRow_cons.mpr ⟨?_, hdigits⟩, ?_⟩
    · rw [hquotient, Nat.div_lt_iff_lt_mul hvpos]
      exact hnext
    · have hwide : value b ((left ++ rest.drop (v.length + 1)).take (v.length + k)) =
          value b left * b ^ k + value b ((rest.drop (v.length + 1)).take k) := by
        rw [List.take_append, List.take_of_length_le (by omega), hlength, Nat.add_sub_cancel_left, value_append,
          List.length_take, List.length_drop, min_eq_left (by omega)]
      have hall : value b (rest.take (v.length + (k + 1))) =
          value b (rest.take (v.length + 1)) * b ^ k + value b ((rest.drop (v.length + 1)).take k) := by
        rw [show v.length + (k + 1) = v.length + 1 + k by omega, List.take_add, value_append, List.length_take,
          List.length_drop, min_eq_left (by omega)]
      have hdiv := Nat.div_add_mod (value b (rest.take (v.length + 1))) (value b v)
      rw [value_cons, length_divideLoop, hloop, hwide, hvalue, hquotient, hall]
      generalize value b (rest.take (v.length + 1)) = dividend at hdiv ⊢
      rw [Nat.add_comm, ← Nat.add_mul_div_left _ _ hvpos]
      congr 1
      calc dividend % value b v * b ^ k + value b ((rest.drop (v.length + 1)).take k) +
            value b v * (dividend / value b v * b ^ k)
          = (value b v * (dividend / value b v) + dividend % value b v) * b ^ k +
            value b ((rest.drop (v.length + 1)).take k) := by ring
        _ = dividend * b ^ k + value b ((rest.drop (v.length + 1)).take k) := by rw [hdiv]

end SchoolbookDivision
