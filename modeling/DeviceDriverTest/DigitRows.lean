import Mathlib.Data.List.GetD
import Mathlib.Data.Nat.Digits.Defs
import Mathlib.Tactic.Linarith
import Mathlib.Tactic.Ring

/-! Arithmetic on rows of digits, the last digit first: the sum with its carries, the difference with
what is borrowed, the multiple and the product, and the order of two rows. -/

namespace DigitRows

open Nat (ofDigits)

/-- Every entry is a digit. -/
def IsRow (b : Nat) (ds : List Nat) : Prop := ∀ d ∈ ds, d < b

def digit (b s : Nat) : Nat := if s > b - 1 then s - b else s

def carry (b s : Nat) : Nat := if s > b - 1 then 1 else 0

/-- A row with a carry, which is the last of the digits that are left. -/
def carryRow (b : Nat) : Nat → List Nat → List Nat
  | c, [] => [c]
  | c, x :: xs => digit b (x + c) :: carryRow b (carry b (x + c)) xs

def addRow (b : Nat) : Nat → List Nat → List Nat → List Nat
  | c, [], ys => carryRow b c ys
  | c, x :: xs, [] => carryRow b c (x :: xs)
  | c, x :: xs, y :: ys => digit b (x + y + c) :: addRow b (carry b (x + y + c)) xs ys

def lack (b x s : Nat) : Nat := if x < s then x + b - s else x - s

def lent (x s : Nat) : Nat := if x < s then 1 else 0

/-- The difference, and what the digit before it has to lend. -/
def subRow (b : Nat) : Nat → List Nat → List Nat → List Nat × Nat
  | w, [], _ => ([], w)
  | w, x :: xs, [] =>
    let rest := subRow b (lent x w) xs []
    (lack b x w :: rest.1, rest.2)
  | w, x :: xs, y :: ys =>
    let rest := subRow b (lent x (y + w)) xs ys
    (lack b x (y + w) :: rest.1, rest.2)

/-- The sums of the columns, written as digits; the last of them is what is left over. -/
def carryColumns (b : Nat) : Nat → List Nat → List Nat
  | s, [] => [s]
  | s, c :: cs => (s + c) % b :: carryColumns b ((s + c) / b) cs

/-- One column of the product of two rows: from the first pair of digits that meet in it on. -/
def column (xs ys : List Nat) (k : Nat) : Nat :=
  (List.zipWith (· * ·) (xs.drop (k + 1 - ys.length)) (ys.take (k + 1)).reverse).foldr (· + ·) 0

def columns (xs ys : List Nat) : List Nat := (List.range (xs.length + ys.length)).map (column xs ys)

variable {b : Nat} {xs ys ds : List Nat}

@[simp] theorem isRow_nil : IsRow b [] := nofun

@[simp] theorem isRow_cons {d : Nat} : IsRow b (d :: ds) ↔ d < b ∧ IsRow b ds := List.forall_mem_cons

@[simp] theorem isRow_append : IsRow b (xs ++ ys) ↔ IsRow b xs ∧ IsRow b ys := List.forall_mem_append

@[simp] theorem isRow_reverse : IsRow b ds.reverse ↔ IsRow b ds := by simp [IsRow]

theorem isRow_replicate (hb : 0 < b) (n : Nat) : IsRow b (List.replicate n 0) := by
  intro d hd
  rw [List.eq_of_mem_replicate hd]
  exact hb

theorem IsRow.take (h : IsRow b ds) (n : Nat) : IsRow b (ds.take n) := fun d hd => h d (List.mem_of_mem_take hd)

theorem IsRow.drop (h : IsRow b ds) (n : Nat) : IsRow b (ds.drop n) := fun d hd => h d (List.mem_of_mem_drop hd)

theorem ofDigits_lt (hb : 1 < b) (h : IsRow b ds) : ofDigits b ds < b ^ ds.length :=
  Nat.ofDigits_lt_base_pow_length hb h

theorem ofDigits_take_drop (n : Nat) (ds : List Nat) :
    ofDigits b (ds.take n) + b ^ (ds.take n).length * ofDigits b (ds.drop n) = ofDigits b ds := by
  rw [← Nat.ofDigits_append, List.take_append_drop]

/-! Sums. -/

theorem digit_add_carry (s : Nat) : digit b s + b * carry b s = s := by
  unfold digit carry
  split
  · omega
  · rw [mul_zero, add_zero]

theorem digit_lt {s : Nat} (hb : 0 < b) (h : s < 2 * b) : digit b s < b := by
  unfold digit
  split <;> omega

theorem carry_le_one (s : Nat) : carry b s ≤ 1 := by
  unfold carry
  split <;> omega

@[simp] theorem length_carryRow (c : Nat) (xs : List Nat) : (carryRow b c xs).length = xs.length + 1 := by
  induction xs generalizing c with
  | nil => rfl
  | cons x xs ih => rw [carryRow, List.length_cons, ih, List.length_cons]

theorem ofDigits_carryRow (c : Nat) (xs : List Nat) : ofDigits b (carryRow b c xs) = ofDigits b xs + c := by
  induction xs generalizing c with
  | nil => simp [carryRow]
  | cons x xs ih =>
    have hdigit := @digit_add_carry b (x + c)
    rw [carryRow, Nat.ofDigits_cons, ih, Nat.ofDigits_cons, mul_add]
    omega

theorem isRow_carryRow (hb : 1 < b) {c : Nat} (hc : c ≤ 1) (h : IsRow b xs) : IsRow b (carryRow b c xs) := by
  induction xs generalizing c with
  | nil => simpa [carryRow] using hc.trans_lt hb
  | cons x xs ih =>
    rw [isRow_cons] at h
    rw [carryRow, isRow_cons]
    exact ⟨digit_lt (by omega) (by omega), ih (carry_le_one _) h.2⟩

@[simp] theorem length_addRow (c : Nat) (xs ys : List Nat) :
    (addRow b c xs ys).length = max xs.length ys.length + 1 := by
  induction xs generalizing c ys with
  | nil => simp [addRow]
  | cons x xs ih =>
    cases ys with
    | nil => simp [addRow]
    | cons y ys => simp [addRow, ih, Nat.succ_max_succ]

theorem ofDigits_addRow (c : Nat) (xs ys : List Nat) :
    ofDigits b (addRow b c xs ys) = ofDigits b xs + ofDigits b ys + c := by
  induction xs generalizing c ys with
  | nil => simp [addRow, ofDigits_carryRow]
  | cons x xs ih =>
    cases ys with
    | nil => simp [addRow, ofDigits_carryRow]
    | cons y ys =>
      have hdigit := @digit_add_carry b (x + y + c)
      rw [addRow, Nat.ofDigits_cons, ih, Nat.ofDigits_cons, Nat.ofDigits_cons, mul_add, mul_add]
      omega

theorem isRow_addRow (hb : 1 < b) {c : Nat} (hc : c ≤ 1) (hx : IsRow b xs) (hy : IsRow b ys) :
    IsRow b (addRow b c xs ys) := by
  induction xs generalizing c ys with
  | nil => exact isRow_carryRow hb hc hy
  | cons x xs ih =>
    cases ys with
    | nil => exact isRow_carryRow hb hc hx
    | cons y ys =>
      rw [isRow_cons] at hx hy
      rw [addRow, isRow_cons]
      exact ⟨digit_lt (by omega) (by omega), ih (carry_le_one _) hx.2 hy.2⟩

/-! Differences. -/

theorem lack_add {x s : Nat} (h : s ≤ b) : lack b x s + s = x + b * lent x s := by
  unfold lack lent
  split
  · omega
  · omega

theorem lack_lt {x s : Nat} (hx : x < b) : lack b x s < b := by
  unfold lack
  split <;> omega

theorem lent_le_one (x s : Nat) : lent x s ≤ 1 := by
  unfold lent
  split <;> omega

@[simp] theorem length_subRow (w : Nat) (xs ys : List Nat) : (subRow b w xs ys).1.length = xs.length := by
  induction xs generalizing w ys with
  | nil => rfl
  | cons x xs ih => cases ys <;> simp [subRow, ih]

theorem isRow_subRow (w : Nat) (ys : List Nat) (hx : IsRow b xs) : IsRow b (subRow b w xs ys).1 := by
  induction xs generalizing w ys with
  | nil => exact isRow_nil
  | cons x xs ih =>
    rw [isRow_cons] at hx
    cases ys <;> exact isRow_cons.mpr ⟨lack_lt hx.1, ih _ _ hx.2⟩

theorem subRow_le_one {w : Nat} (hw : w ≤ 1) (xs ys : List Nat) : (subRow b w xs ys).2 ≤ 1 := by
  induction xs generalizing w ys with
  | nil => exact hw
  | cons x xs ih => cases ys <;> exact ih (lent_le_one _ _) _

theorem ofDigits_subRow (hb : 0 < b) {w : Nat} (hw : w ≤ 1) (hy : IsRow b ys) (hle : ys.length ≤ xs.length) :
    ofDigits b (subRow b w xs ys).1 + ofDigits b ys + w =
      ofDigits b xs + b ^ xs.length * (subRow b w xs ys).2 := by
  induction xs generalizing w ys with
  | nil => simp [List.length_eq_zero_iff.mp (Nat.le_zero.mp hle), subRow]
  | cons x xs ih =>
    cases ys with
    | nil =>
      have hlack := @lack_add b x w (by omega)
      have hrest := congrArg (b * ·) (ih (lent_le_one x w) isRow_nil (Nat.zero_le _))
      simp only [subRow, Nat.ofDigits_cons, Nat.ofDigits_nil, List.length_cons, pow_succ'] at hrest ⊢
      linarith
    | cons y ys =>
      rw [isRow_cons] at hy
      have hlack := @lack_add b x (y + w) (by omega)
      have hrest := congrArg (b * ·) (ih (lent_le_one x (y + w)) hy.2 (Nat.le_of_succ_le_succ hle))
      simp only [subRow, Nat.ofDigits_cons, List.length_cons, pow_succ'] at hrest ⊢
      linarith

/-- What is lent in the end says which of the two rows is the larger. -/
theorem ofDigits_subRow_of_le (hb : 1 < b) {w : Nat} (hw : w ≤ 1) (hx : IsRow b xs) (hy : IsRow b ys)
    (hle : ys.length ≤ xs.length) (h : ofDigits b ys + w ≤ ofDigits b xs) :
    (subRow b w xs ys).2 = 0 ∧ ofDigits b (subRow b w xs ys).1 = ofDigits b xs - (ofDigits b ys + w) := by
  have heq := ofDigits_subRow (by omega) hw hy hle
  have hlt := ofDigits_lt hb (isRow_subRow w ys hx)
  rw [length_subRow] at hlt
  obtain hzero | hone := Nat.le_one_iff_eq_zero_or_eq_one.mp (subRow_le_one hw xs ys)
  · rw [hzero, mul_zero] at heq
    exact ⟨hzero, by omega⟩
  · rw [hone, mul_one] at heq
    omega

theorem subRow_of_lt (hb : 1 < b) {w : Nat} (hw : w ≤ 1) (hy : IsRow b ys) (hle : ys.length ≤ xs.length)
    (h : ofDigits b xs < ofDigits b ys + w) : (subRow b w xs ys).2 = 1 := by
  have heq := ofDigits_subRow (by omega) hw hy hle
  obtain hzero | hone := Nat.le_one_iff_eq_zero_or_eq_one.mp (subRow_le_one hw xs ys)
  · rw [hzero, mul_zero] at heq
    omega
  · exact hone

/-! Columns. -/

@[simp] theorem length_carryColumns (s : Nat) (cs : List Nat) : (carryColumns b s cs).length = cs.length + 1 := by
  induction cs generalizing s with
  | nil => rfl
  | cons c cs ih => rw [carryColumns, List.length_cons, ih, List.length_cons]

theorem ofDigits_carryColumns (s : Nat) (cs : List Nat) :
    ofDigits b (carryColumns b s cs) = ofDigits b cs + s := by
  induction cs generalizing s with
  | nil => simp [carryColumns]
  | cons c cs ih =>
    have hmod := Nat.mod_add_div (s + c) b
    rw [carryColumns, Nat.ofDigits_cons, ih, Nat.ofDigits_cons, mul_add]
    omega

theorem isRow_carryColumns (hb : 0 < b) {s : Nat} {cs : List Nat} (h : ofDigits b cs + s < b ^ (cs.length + 1)) :
    IsRow b (carryColumns b s cs) := by
  induction cs generalizing s with
  | nil => simpa [carryColumns] using h
  | cons c cs ih =>
    rw [carryColumns, isRow_cons]
    refine ⟨Nat.mod_lt _ hb, ih ?_⟩
    have hmod := Nat.mod_add_div (s + c) b
    rw [Nat.ofDigits_cons, List.length_cons, pow_succ'] at h
    apply lt_of_mul_lt_mul_left (a := b) _ (Nat.zero_le b)
    rw [mul_add]
    omega

theorem ofDigits_map_mul (k : Nat) (ds : List Nat) : ofDigits b (ds.map (· * k)) = ofDigits b ds * k := by
  induction ds with
  | nil => simp
  | cons d ds ih =>
    rw [List.map_cons, Nat.ofDigits_cons, ih, Nat.ofDigits_cons, add_mul, mul_assoc]

theorem ofDigits_map_add (f g : Nat → Nat) (ks : List Nat) :
    ofDigits b (ks.map fun k => f k + g k) = ofDigits b (ks.map f) + ofDigits b (ks.map g) := by
  induction ks with
  | nil => rfl
  | cons k ks ih =>
    simp only [List.map_cons, Nat.ofDigits_cons, ih]
    ring

theorem ofDigits_map_range_succ (f : Nat → Nat) (n : Nat) :
    ofDigits b ((List.range (n + 1)).map f) = f 0 + b * ofDigits b ((List.range n).map fun k => f (k + 1)) := by
  rw [List.range_succ_eq_map, List.map_cons, List.map_map, Nat.ofDigits_cons]
  rfl

theorem ofDigits_map_getD {n : Nat} (h : ys.length ≤ n) :
    ofDigits b ((List.range n).map fun k => ys.getD k 0) = ofDigits b ys := by
  induction ys generalizing n with
  | nil => simp [List.map_const']
  | cons y ys ih =>
    obtain ⟨n, rfl⟩ := Nat.exists_eq_succ_of_ne_zero (Nat.ne_zero_of_lt h)
    rw [Nat.succ_eq_add_one, ofDigits_map_range_succ, Nat.ofDigits_cons]
    exact congrArg (y + b * ·) (ih (Nat.le_of_succ_le_succ h))

/-! The product. -/

@[simp] theorem column_nil (ys : List Nat) (k : Nat) : column [] ys k = 0 := by simp [column]

theorem reverse_take_succ (ys : List Nat) {k : Nat} (h : k < ys.length) :
    (ys.take (k + 1)).reverse = ys.getD k 0 :: (ys.take k).reverse := by
  rw [List.take_add_one, List.getElem?_eq_getElem h, List.reverse_append, List.getD_eq_getElem _ _ h]
  rfl

theorem column_cons_zero (x : Nat) (xs ys : List Nat) : column (x :: xs) ys 0 = x * ys.getD 0 0 := by
  cases ys <;> simp [column]

theorem column_cons_succ (x : Nat) (xs ys : List Nat) (k : Nat) :
    column (x :: xs) ys (k + 1) = x * ys.getD (k + 1) 0 + column xs ys k := by
  by_cases h : k + 1 < ys.length
  · rw [column, column, reverse_take_succ ys h, Nat.sub_eq_zero_of_le (by omega), Nat.sub_eq_zero_of_le (by omega)]
    rfl
  · have hdrop : k + 1 + 1 - ys.length = (k + 1 - ys.length) + 1 := by omega
    rw [column, column, hdrop, List.drop_succ_cons, List.take_of_length_le (by omega), List.take_of_length_le (by omega),
      List.getD_eq_default _ _ (by omega), mul_zero, zero_add]

@[simp] theorem length_columns (xs ys : List Nat) : (columns xs ys).length = xs.length + ys.length := by
  simp [columns]

theorem ofDigits_columns (xs ys : List Nat) : ofDigits b (columns xs ys) = ofDigits b xs * ofDigits b ys := by
  unfold columns
  induction xs with
  | nil =>
    have hzero : column [] ys = fun _ => 0 := funext (column_nil ys)
    rw [hzero, List.map_const', Nat.ofDigits_replicate_zero, Nat.ofDigits_nil, zero_mul]
  | cons x xs ih =>
    have hrow := @ofDigits_map_getD b ys (xs.length + ys.length + 1) (by omega)
    rw [ofDigits_map_range_succ] at hrow
    rw [List.length_cons, Nat.add_right_comm, ofDigits_map_range_succ, column_cons_zero]
    simp only [column_cons_succ]
    rw [ofDigits_map_add (fun k => x * ys.getD (k + 1) 0), ih, Nat.ofDigits_cons, ← hrow]
    have hscaled := ofDigits_map_mul (b := b) x ((List.range (xs.length + ys.length)).map fun k => ys.getD (k + 1) 0)
    rw [List.map_map] at hscaled
    simp only [Function.comp_def, mul_comm _ x] at hscaled
    rw [hscaled]
    ring

/-! The order. -/

/-- Where the first digits differ, they decide. -/
theorem ofDigits_reverse_lt {d e : Nat} (hb : 1 < b) (hx : IsRow b xs) (hlen : xs.length = ys.length) (h : d < e) :
    ofDigits b (d :: xs).reverse < ofDigits b (e :: ys).reverse := by
  have hlt := ofDigits_lt hb (isRow_reverse.mpr hx)
  have hpow : b ^ ys.length * (d + 1) ≤ b ^ ys.length * e := Nat.mul_le_mul_left _ h
  rw [List.length_reverse, hlen] at hlt
  rw [Nat.ofDigits_reverse_cons, Nat.ofDigits_reverse_cons, hlen]
  rw [mul_add] at hpow
  omega

end DigitRows
