import DeviceDriverTest.BcNumber

/-! The comparison of the numbers of `bc`, their sum and difference with the signs, and the decimals that
they stand for. -/

namespace DeviceDriverTest

namespace BcNumber

open DigitRows PositionalArithmetic

open Nat (ofDigits)

variable {n1 n2 num : BcStruct} {scaleMin : Nat}

/-! The comparison. -/

/-- The digits that agree lead both rows, and where some are left, the next two differ. -/
theorem equalRun_spec (count : Nat) (ds es : List Nat) (hd : count ≤ ds.length) (he : count ≤ es.length) :
    ∃ agreed, ds = agreed ++ (equalRun count ds es).2.1 ∧ es = agreed ++ (equalRun count ds es).2.2 ∧
      agreed.length + (equalRun count ds es).1 = count ∧
      ((equalRun count ds es).1 ≠ 0 → ∃ d ds' e es', d ≠ e ∧ (equalRun count ds es).2 = (d :: ds', e :: es')) := by
  fun_induction equalRun count ds es with
  | case1 count ds d es ih =>
    obtain ⟨agreed, hds, hes, hcount, hdiff⟩ := ih (Nat.le_of_succ_le_succ hd) (Nat.le_of_succ_le_succ he)
    exact ⟨d :: agreed, congrArg (d :: ·) hds, congrArg (d :: ·) hes, by rw [List.length_cons]; omega, hdiff⟩
  | case2 count d ds e es hne => exact ⟨[], rfl, rfl, Nat.zero_add _, fun _ => ⟨d, ds, e, es, hne, rfl⟩⟩
  | case3 count ds es hcase =>
    match count, ds, es, hcase with
    | 0, _, _, _ => exact ⟨[], rfl, rfl, rfl, fun h => absurd rfl h⟩
    | count + 1, [], _, _ => exact absurd hd (Nat.not_succ_le_zero count)
    | count + 1, _ :: _, [], _ => exact absurd he (Nat.not_succ_le_zero count)
    | count + 1, d :: ds, e :: es, hcase => exact absurd rfl (hcase count d ds e es rfl rfl)

theorem ofDigits_reverse_append (agreed ds : List Nat) :
    ofDigits BASE (agreed ++ ds).reverse = ofDigits BASE ds.reverse + BASE ^ ds.length * ofDigits BASE agreed.reverse := by
  rw [List.reverse_append, Nat.ofDigits_append, List.length_reverse]

theorem ofDigits_reverse_append_zeros (ds : List Nat) (k : Nat) :
    ofDigits BASE (ds ++ List.replicate k 0).reverse = ofDigits BASE ds.reverse * BASE ^ k := by
  rw [ofDigits_reverse_append, List.reverse_replicate, Nat.ofDigits_replicate_zero, zero_add, List.length_replicate,
    Nat.mul_comm]

theorem ofDigits_eq_zero_iff (ds : List Nat) : ofDigits BASE ds.reverse = 0 ↔ ds.any (· ≠ 0) = false := by
  rw [List.any_eq_false]
  simp only [decide_eq_true_eq, not_not]
  constructor
  · intro h d hd
    exact Nat.digits_zero_of_eq_zero base_pos.ne' h d (List.mem_reverse.mpr hd)
  · intro h
    rw [List.eq_replicate_of_mem h, List.reverse_replicate, Nat.ofDigits_replicate_zero]

/-- The first two digits that differ decide on the numbers, whatever the scales. -/
theorem scaled_lt_of_digit_lt {agreed ds es : List Nat} {d e k l : Nat} (hds : IsRow BASE ds)
    (hlen : ds.length + k = es.length + l) (h : d < e) :
    ofDigits BASE (agreed ++ d :: ds).reverse * BASE ^ k < ofDigits BASE (agreed ++ e :: es).reverse * BASE ^ l := by
  rw [← ofDigits_reverse_append_zeros, ← ofDigits_reverse_append_zeros, List.append_assoc, List.append_assoc,
    ofDigits_reverse_append, ofDigits_reverse_append agreed]
  have hlength : (d :: ds ++ List.replicate k 0).length = (e :: es ++ List.replicate l 0).length := by
    simp only [List.length_append, List.length_cons, List.length_replicate]
    omega
  rw [hlength]
  refine Nat.add_lt_add_right (ofDigits_reverse_lt one_lt_base ?_ ?_ h) _
  · exact isRow_append.mpr ⟨hds, isRow_replicate base_pos k⟩
  · simpa using hlength

/-- The larger number has a digit that is not zero where the other has none any more. -/
theorem scaled_add_of_agreed (agreed ds : List Nat) :
    ofDigits BASE (agreed ++ ds).reverse = ofDigits BASE agreed.reverse * BASE ^ ds.length + ofDigits BASE ds.reverse := by
  rw [ofDigits_reverse_append]
  ring

theorem le_total (n1 n2 : BcStruct) : n1.Le n2 ∨ n2.Le n1 := Nat.le_total _ _

theorem magnitude_of_nLen_eq_zero (h : num.Wf) (hzero : num.nLen = 0) : num.magnitude = 0 := by
  have hmag := h.magnitude_lt
  rwa [hzero, h.slice hzero, pow_zero, Nat.lt_one_iff] at hmag

theorem le_of_nLen_eq_zero (h1 : n1.Wf) (hzero : n1.nLen = 0) : n1.Le n2 := by
  rw [BcStruct.Le, magnitude_of_nLen_eq_zero h1 hzero, zero_mul]
  exact Nat.zero_le _

theorem le_of_nLen_lt (h1 : n1.Wf) (h2 : n2.Wf) (hlt : n2.nLen < n1.nLen) : n2.Le n1 ∧ (0 < n2.nLen → ¬n1.Le n2) := by
  have hnot : 0 < n2.nLen → ¬n1.Le n2 := fun hpos hle => hlt.not_ge (nLen_le h2 h1 hpos hle)
  refine ⟨?_, hnot⟩
  obtain hzero | hpos := Nat.eq_zero_or_pos n2.nLen
  · exact le_of_nLen_eq_zero h2 hzero
  · exact (le_total n1 n2).resolve_left (hnot hpos)

/-- Between numbers with as many digits before the point the run of the digits that agree decides. -/
theorem run_decides (h1 : n1.Wf) (h2 : n2.Wf) (hlen : n1.nLen = n2.nLen) :
    let run := equalRun (n1.nLen + min n1.nScale n2.nScale) n1.nValue n2.nValue
    (run.1 ≠ 0 → run.2.1.headD 0 > run.2.2.headD 0 ∧ ¬n1.Le n2 ∨ ¬run.2.1.headD 0 > run.2.2.headD 0 ∧ ¬n2.Le n1) ∧
      (run.1 = 0 → n2.nScale < n1.nScale →
        n2.Le n1 ∧ ((run.2.1.take (n1.nScale - n2.nScale)).any (· ≠ 0) = false ↔ n1.Le n2)) ∧
      (run.1 = 0 → n1.nScale ≤ n2.nScale →
        n1.Le n2 ∧ ((run.2.2.take (n2.nScale - n1.nScale)).any (· ≠ 0) = false ↔ n2.Le n1)) := by
  intro run
  have hsize1 := h1.size
  have hsize2 := h2.size
  obtain ⟨agreed, hds, hes, hcount, hdiff⟩ := equalRun_spec (n1.nLen + min n1.nScale n2.nScale) n1.nValue n2.nValue
    (by omega) (by omega)
  change n1.nValue = agreed ++ run.2.1 at hds
  change n2.nValue = agreed ++ run.2.2 at hes
  change agreed.length + run.1 = _ at hcount
  change run.1 ≠ 0 → ∃ d ds' e es', d ≠ e ∧ run.2 = _ at hdiff
  have hlen1 := congrArg List.length hds
  have hlen2 := congrArg List.length hes
  have hrow1 := h1.digits
  have hrow2 := h2.digits
  rw [List.length_append] at hlen1 hlen2
  refine ⟨?_, ?_, ?_⟩
  · intro hcount
    obtain ⟨d, ds', e, es', hne, hrun⟩ := hdiff hcount
    rw [hrun] at hds hes
    rw [hds, isRow_append, isRow_cons] at hrow1
    rw [hes, isRow_append, isRow_cons] at hrow2
    rw [hrun, List.length_cons] at hlen1 hlen2
    simp only [hrun, List.headD_cons, BcStruct.Le, BcStruct.magnitude, BcStruct.row, hds, hes, not_le]
    obtain hlt | hgt := Nat.lt_or_gt_of_ne hne
    · exact Or.inr ⟨hlt.not_gt, scaled_lt_of_digit_lt hrow1.2.2 (by omega) hlt⟩
    · exact Or.inl ⟨hgt, scaled_lt_of_digit_lt hrow2.2.2 (by omega) hgt⟩
  · intro hcount hscale
    have hnil : run.2.2 = [] := List.eq_nil_of_length_eq_zero (by omega)
    have hrest : run.2.1.length = n1.nScale - n2.nScale := by omega
    rw [hnil, List.append_nil] at hes
    rw [List.take_of_length_le hrest.le, ← ofDigits_eq_zero_iff]
    simp only [BcStruct.Le, BcStruct.magnitude, BcStruct.row]
    rw [Nat.sub_eq_zero_of_le hscale.le, pow_zero, mul_one, hds, scaled_add_of_agreed, hrest, hes]
    omega
  · intro hcount hscale
    have hnil : run.2.1 = [] := List.eq_nil_of_length_eq_zero (by omega)
    have hrest : run.2.2.length = n2.nScale - n1.nScale := by omega
    rw [hnil, List.append_nil] at hds
    rw [List.take_of_length_le hrest.le, ← ofDigits_eq_zero_iff]
    simp only [BcStruct.Le, BcStruct.magnitude, BcStruct.row]
    rw [Nat.sub_eq_zero_of_le hscale, pow_zero, mul_one, hes, scaled_add_of_agreed, hrest, hds]
    omega

/-- How the magnitudes compare at the larger of the two scales. -/
theorem doCompare_cases (h1 : n1.Wf) (h2 : n2.Wf) :
    doCompare n1 n2 false false = .lt ∧ n1.Le n2 ∧ 0 < n2.nLen ∧ (0 < n1.nLen → ¬n2.Le n1) ∨
      doCompare n1 n2 false false = .eq ∧ n1.Le n2 ∧ n2.Le n1 ∨
      doCompare n1 n2 false false = .gt ∧ n2.Le n1 ∧ 0 < n1.nLen ∧ (0 < n2.nLen → ¬n1.Le n2) := by
  simp only [doCompare, Bool.false_and, Bool.not_false, Bool.true_or, if_true, Bool.false_eq_true, if_false]
  split
  case isTrue hne =>
    split
    case isTrue hgt =>
      have hle := le_of_nLen_lt h1 h2 hgt
      exact Or.inr (Or.inr ⟨rfl, hle.1, Nat.zero_lt_of_lt hgt, hle.2⟩)
    case isFalse hngt =>
      have hlt : n1.nLen < n2.nLen := by omega
      have hle := le_of_nLen_lt h2 h1 hlt
      exact Or.inl ⟨rfl, hle.1, Nat.zero_lt_of_lt hlt, hle.2⟩
  case isFalse heq =>
    have hlen : n1.nLen = n2.nLen := not_not.mp heq
    obtain ⟨hdiffer, hfirst, hsecond⟩ := run_decides h1 h2 hlen
    have hpos1 : ¬n1.Le n2 → 0 < n1.nLen := fun hle =>
      Nat.pos_of_ne_zero fun hzero => hle (le_of_nLen_eq_zero h1 hzero)
    have hpos2 : ¬n2.Le n1 → 0 < n2.nLen := fun hle =>
      Nat.pos_of_ne_zero fun hzero => hle (le_of_nLen_eq_zero h2 hzero)
    generalize equalRun (n1.nLen + min n1.nScale n2.nScale) n1.nValue n2.nValue = run at hdiffer hfirst hsecond ⊢
    split
    case isTrue hcount =>
      obtain ⟨hgt, hle⟩ | ⟨hngt, hle⟩ := hdiffer hcount
      · rw [if_pos hgt]
        exact Or.inr (Or.inr ⟨rfl, (le_total n1 n2).resolve_left hle, hpos1 hle, fun _ => hle⟩)
      · rw [if_neg hngt]
        exact Or.inl ⟨rfl, (le_total n1 n2).resolve_right hle, hpos2 hle, fun _ => hle⟩
    case isFalse hcount =>
      rw [not_not] at hcount
      split
      case isTrue hscale =>
        obtain ⟨hle, hany⟩ := hfirst hcount hscale
        split
        case isTrue hdigit =>
          have hnot : ¬n1.Le n2 := fun h => Bool.false_ne_true ((hany.mpr h).symm.trans hdigit)
          exact Or.inr (Or.inr ⟨rfl, hle, hpos1 hnot, fun _ => hnot⟩)
        case isFalse hdigit => exact Or.inr (Or.inl ⟨rfl, hany.mp (Bool.eq_false_iff.mpr hdigit), hle⟩)
      case isFalse hscale =>
        obtain ⟨hle, hany⟩ := hsecond hcount (not_lt.mp hscale)
        split
        case isTrue hdigit =>
          have hnot : ¬n2.Le n1 := fun h => Bool.false_ne_true ((hany.mpr h).symm.trans hdigit)
          exact Or.inl ⟨rfl, hle, hpos2 hnot, fun _ => hnot⟩
        case isFalse hdigit => exact Or.inr (Or.inl ⟨rfl, hle, hany.mp (Bool.eq_false_iff.mpr hdigit)⟩)

/-! Sums and differences with their signs. -/

theorem signed_of_pos (h : num.nSign = .PLUS) : num.signed = num.magnitude := if_pos h

theorem signed_of_neg (h : num.nSign = .MINUS) : num.signed = -num.magnitude := by
  rw [BcStruct.signed, if_neg (by rw [h]; exact nofun)]

theorem magnitude_bcNewNum (length scale : Nat) : (bcNewNum length scale).magnitude = 0 := by
  rw [BcStruct.magnitude, BcStruct.row, bcNewNum, List.reverse_replicate, Nat.ofDigits_replicate_zero]

theorem wf_bcNewNum (scale : Nat) : (bcNewNum 1 scale).Wf :=
  ⟨List.length_replicate, isRow_replicate base_pos _, Or.inl (le_refl 1), nofun⟩

/-- The sign is no part of what a number keeps to. -/
theorem BcStruct.Wf.withSign (h : num.Wf) (sign : Sign) : { num with nSign := sign }.Wf := ⟨h.size, h.digits, h.trimmed, h.slice⟩

/-- A number with `scale` digits behind the point, and its digits with their sign. -/
structure Stands (num : BcStruct) (scale : Nat) (value : Int) : Prop where
  wf : num.Wf
  len_pos : 0 < num.nLen
  scale : num.nScale = scale
  signed : num.signed = value

theorem Stands.toDecimal {scale : Nat} {value : Int} (h : Stands num scale value) : num.toDecimal = ⟨value, scale⟩ := by
  rw [BcStruct.toDecimal, h.signed, h.scale]

theorem signed_withSign (num : BcStruct) (sign : Sign) :
    { num with nSign := sign }.signed = if sign = .PLUS then (num.magnitude : Int) else -num.magnitude := rfl

theorem signed_eq (num : BcStruct) : num.signed = if num.nSign = .PLUS then (num.magnitude : Int) else -num.magnitude := rfl

theorem stands_doAdd (h1 : n1.Wf) (h2 : n2.Wf) (scaleMin : Nat) (sign : Sign) :
    Stands { doAdd n1 n2 scaleMin with nSign := sign } (max (max n1.nScale n2.nScale) scaleMin)
      (if sign = .PLUS then (doAdd n1 n2 scaleMin).magnitude else -((doAdd n1 n2 scaleMin).magnitude : Int)) :=
  ⟨(wf_doAdd h1 h2).withSign sign, nLen_rmLeadingZeros_pos (Nat.succ_pos _), rfl, rfl⟩

theorem stands_doSub (h1 : n1.Wf) (h2 : n2.Wf) (hpos : 0 < n1.nLen) (h : n2.Le n1) (scaleMin : Nat) (sign : Sign) :
    Stands { doSub n1 n2 scaleMin with nSign := sign } (max (max n1.nScale n2.nScale) scaleMin)
      (if sign = .PLUS then (doSub n1 n2 scaleMin).magnitude else -((doSub n1 n2 scaleMin).magnitude : Int)) :=
  ⟨(wf_doSub h1 h2 hpos (nLen_le h1 h2 hpos h)).withSign sign,
    nLen_rmLeadingZeros_pos (hpos.trans_le (Nat.le_max_left _ _)), rfl, rfl⟩

theorem coe_magnitude_doSub (h1 : n1.Wf) (h2 : n2.Wf) (hpos : 0 < n1.nLen) (h : n2.Le n1) :
    ((doSub n1 n2 scaleMin).magnitude : Int) =
      (n1.magnitude * BASE ^ (n2.nScale - n1.nScale) - n2.magnitude * BASE ^ (n1.nScale - n2.nScale)) *
        BASE ^ (scaleMin - max n1.nScale n2.nScale) := by
  rw [magnitude_doSub h1 h2 (nLen_le h1 h2 hpos h) h, Nat.cast_mul, Nat.cast_sub h]
  push_cast
  rfl

/-- Of two numbers with opposite signs the second one gives the sign, and the first is what is taken off. -/
theorem opposite_signs {s1 s2 : Sign} (h : s1 ≠ s2) (a b p q c : Int) :
    ((if s1 = .PLUS then a else -a) * p + (if s2 = .PLUS then b else -b) * q) * c =
      if s2 = .PLUS then (b * q - a * p) * c else -((b * q - a * p) * c) := by
  match s1, s2, h with
  | .PLUS, .PLUS, h => exact absurd rfl h
  | .MINUS, .MINUS, h => exact absurd rfl h
  | .PLUS, .MINUS, _ =>
    rw [if_pos rfl, if_neg nofun, if_neg nofun]
    ring
  | .MINUS, .PLUS, _ =>
    rw [if_neg nofun, if_pos rfl, if_pos rfl]
    ring

/-- The sum is exact, and keeps the digits of both. -/
theorem stands_bcAdd (h1 : n1.Wf) (h2 : n2.Wf) (scaleMin : Nat) :
    Stands (bcAdd n1 n2 scaleMin) (max (max n1.nScale n2.nScale) scaleMin)
      ((n1.signed * BASE ^ (n2.nScale - n1.nScale) + n2.signed * BASE ^ (n1.nScale - n2.nScale)) *
        BASE ^ (scaleMin - max n1.nScale n2.nScale)) := by
  unfold bcAdd
  split
  case isTrue hsign =>
    have hadd := stands_doAdd h1 h2 scaleMin n1.nSign
    rw [magnitude_doAdd h1 h2] at hadd
    rw [signed_eq, signed_eq, ← hsign]
    convert! hadd using 1
    push_cast
    split <;> ring
  case isFalse hsign =>
    obtain ⟨hcmp, hle, hpos, -⟩ | ⟨hcmp, hle, hge⟩ | ⟨hcmp, hle, hpos, -⟩ := doCompare_cases h1 h2
    · rw [hcmp]
      have hsub := stands_doSub h2 h1 hpos hle scaleMin n2.nSign
      rw [coe_magnitude_doSub h2 h1 hpos hle, max_comm n2.nScale] at hsub
      rw [signed_eq, signed_eq, opposite_signs hsign]
      exact hsub
    · rw [hcmp, max_comm scaleMin]
      refine ⟨wf_bcNewNum _, Nat.one_pos, rfl, ?_⟩
      have heq : (n1.magnitude * BASE ^ (n2.nScale - n1.nScale) : Int) = n2.magnitude * BASE ^ (n1.nScale - n2.nScale) := by
        exact_mod_cast hle.antisymm hge
      rw [signed_of_pos rfl, magnitude_bcNewNum, signed_eq, signed_eq, opposite_signs hsign, heq]
      simp
    · rw [hcmp]
      have hsub := stands_doSub h1 h2 hpos hle scaleMin n1.nSign
      rw [coe_magnitude_doSub h1 h2 hpos hle] at hsub
      rw [signed_eq, signed_eq, add_comm, opposite_signs (Ne.symm hsign)]
      exact hsub

def Sign.opposite : Sign → Sign
  | .PLUS => .MINUS
  | .MINUS => .PLUS

/-- The two routines differ in the sign of the second number only. -/
theorem bcSub_eq_bcAdd (n1 n2 : BcStruct) (scaleMin : Nat) :
    bcSub n1 n2 scaleMin = bcAdd n1 { n2 with nSign := n2.nSign.opposite } scaleMin := by
  unfold bcSub bcAdd
  cases hs1 : n1.nSign <;> cases hs2 : n2.nSign <;> rfl

theorem stands_bcSub (h1 : n1.Wf) (h2 : n2.Wf) (scaleMin : Nat) :
    Stands (bcSub n1 n2 scaleMin) (max (max n1.nScale n2.nScale) scaleMin)
      ((n1.signed * BASE ^ (n2.nScale - n1.nScale) - n2.signed * BASE ^ (n1.nScale - n2.nScale)) *
        BASE ^ (scaleMin - max n1.nScale n2.nScale)) := by
  have hopposite : { n2 with nSign := n2.nSign.opposite }.signed = -n2.signed := by
    rw [signed_withSign, signed_eq]
    cases n2.nSign <;> simp [Sign.opposite]
  have hadd := stands_bcAdd h1 (h2.withSign n2.nSign.opposite) scaleMin
  rw [hopposite, neg_mul, ← sub_eq_add_neg] at hadd
  rw [bcSub_eq_bcAdd]
  exact hadd

/-! The comparison with the signs. -/

theorem doCompare_signs (n1 n2 : BcStruct) : doCompare n1 n2 true false =
    if n1.nSign ≠ n2.nSign then if n1.nSign = .PLUS then .gt else .lt
    else if n1.nSign = .PLUS then doCompare n1 n2 false false else (doCompare n1 n2 false false).swap := by
  have hswap : ∀ (c : Prop) [Decidable c] (o p : Ordering), (if c then o else p).swap = if c then o.swap else p.swap := by
    intro c _ o p
    split <;> rfl
  unfold doCompare
  cases n1.nSign <;> cases n2.nSign <;> simp [hswap]

theorem doCompare_magnitudes (h1 : n1.Wf) (h2 : n2.Wf) (hlen1 : 0 < n1.nLen) (hlen2 : 0 < n2.nLen) :
    doCompare n1 n2 false false =
      compare (n1.magnitude * BASE ^ (n2.nScale - n1.nScale)) (n2.magnitude * BASE ^ (n1.nScale - n2.nScale)) := by
  obtain ⟨hcmp, -, -, hlt⟩ | ⟨hcmp, hle, hge⟩ | ⟨hcmp, -, -, hgt⟩ := doCompare_cases h1 h2
  · exact hcmp.trans (compare_lt_iff_lt.mpr (not_le.mp (hlt hlen1))).symm
  · exact hcmp.trans (compare_eq_iff_eq.mpr (hle.antisymm hge)).symm
  · exact hcmp.trans (compare_gt_iff_gt.mpr (not_le.mp (hgt hlen2))).symm

theorem compare_neg_neg (a b : Int) : compare (-a) (-b) = (compare a b).swap := by
  obtain h | h | h := lt_trichotomy a b
  · rw [compare_lt_iff_lt.mpr h, compare_gt_iff_gt.mpr (neg_lt_neg h)]
    rfl
  · rw [compare_eq_iff_eq.mpr h, compare_eq_iff_eq.mpr (congrArg _ h)]
    rfl
  · rw [compare_gt_iff_gt.mpr h, compare_lt_iff_lt.mpr (neg_lt_neg h)]
    rfl

theorem compare_natCast (a b : Nat) : compare (a : Int) b = compare a b := by
  obtain h | h | h := lt_trichotomy a b
  · rw [compare_lt_iff_lt.mpr h, compare_lt_iff_lt.mpr (Int.ofNat_lt.mpr h)]
  · rw [compare_eq_iff_eq.mpr h, compare_eq_iff_eq.mpr (congrArg _ h)]
  · rw [compare_gt_iff_gt.mpr h, compare_gt_iff_gt.mpr (Int.ofNat_lt.mpr h)]

theorem base_pow_pos (k : Nat) : (0 : Int) < BASE ^ k := pow_pos (by decide) k

theorem scaled_add_pos_iff {a b : Nat} {p q : Int} (hp : 0 < p) (hq : 0 < q) :
    0 < (a : Int) * p + b * q ↔ a ≠ 0 ∨ b ≠ 0 := by
  constructor
  · intro h
    by_contra hzero
    obtain ⟨rfl, rfl⟩ := not_or.mp hzero |>.imp not_not.mp not_not.mp
    simp at h
  · rintro (ha | hb)
    · have hleft := mul_pos (Int.natCast_pos.mpr (Nat.pos_of_ne_zero ha)) hp
      have hright := mul_nonneg (Int.natCast_nonneg b) hq.le
      omega
    · have hleft := mul_nonneg (Int.natCast_nonneg a) hp.le
      have hright := mul_pos (Int.natCast_pos.mpr (Nat.pos_of_ne_zero hb)) hq
      omega

/-- The comparison is right, but for a zero with a sign and one without. -/
theorem bcCompare_signed_iff (h1 : n1.Wf) (h2 : n2.Wf) (hlen1 : 0 < n1.nLen) (hlen2 : 0 < n2.nLen) :
    bcCompare n1 n2 = compare (n1.signed * BASE ^ (n2.nScale - n1.nScale)) (n2.signed * BASE ^ (n1.nScale - n2.nScale)) ↔
      n1.nSign = n2.nSign ∨ n1.magnitude ≠ 0 ∨ n2.magnitude ≠ 0 := by
  have hmagnitudes := doCompare_magnitudes h1 h2 hlen1 hlen2
  rw [← compare_natCast] at hmagnitudes
  push_cast at hmagnitudes
  have hpow1 := base_pow_pos (n2.nScale - n1.nScale)
  have hpow2 := base_pow_pos (n1.nScale - n2.nScale)
  rw [bcCompare, doCompare_signs, hmagnitudes, signed_eq, signed_eq]
  cases n1.nSign <;> cases n2.nSign
  · simp
  · rw [if_pos nofun, if_pos rfl, if_pos rfl, if_neg nofun, eq_comm, compare_gt_iff_gt, neg_mul,
      ← sub_pos, sub_neg_eq_add, scaled_add_pos_iff hpow1 hpow2]
    exact (or_iff_right nofun).symm
  · rw [if_pos nofun, if_neg nofun, if_neg nofun, if_pos rfl, eq_comm, compare_lt_iff_lt, neg_mul,
      ← sub_pos, sub_neg_eq_add, add_comm, scaled_add_pos_iff hpow1 hpow2]
    exact (or_iff_right nofun).symm
  · simp [compare_neg_neg]

/-! The routines on numbers, and the decimals they stand for. -/

namespace BcNum

def ofStands {num : BcStruct} {scale : Nat} {value : Int} (h : Stands num scale value) : BcNum := ⟨num, h.wf, h.len_pos⟩

def add (x y : BcNum) (scaleMin : Nat) : BcNum := ofStands (stands_bcAdd x.wf y.wf scaleMin)

def sub (x y : BcNum) (scaleMin : Nat) : BcNum := ofStands (stands_bcSub x.wf y.wf scaleMin)

variable (x y : BcNum)

theorem max_sub_left (m n : Nat) : max m n - m = n - m := by omega

theorem max_sub_right (m n : Nat) : max m n - n = m - n := by omega

theorem rescaled_left : x.toDecimal.rescaled (max x.toDecimal.scale y.toDecimal.scale) = x.signed * BASE ^ (y.nScale - x.nScale) := by
  rw [Number.rescaled, BcStruct.toDecimal, BcStruct.toDecimal, max_sub_left]
  rfl

theorem rescaled_right : y.toDecimal.rescaled (max x.toDecimal.scale y.toDecimal.scale) = y.signed * BASE ^ (x.nScale - y.nScale) := by
  rw [Number.rescaled, BcStruct.toDecimal, BcStruct.toDecimal, max_sub_right]
  rfl

theorem value_ofStands {scale : Nat} {value : Int} (h : Stands num scale value) (n : Int)
    (hvalue : value = n * BASE ^ (scaleMin - max x.nScale y.nScale))
    (hscale : scale = max (max x.nScale y.nScale) scaleMin) :
    num.toDecimal.value = n / 10 ^ max x.nScale y.nScale := by
  have hpow : (10 : ℚ) ^ scale = 10 ^ max x.nScale y.nScale * 10 ^ (scaleMin - max x.nScale y.nScale) := by
    rw [← pow_add]
    congr 1
    omega
  rw [h.toDecimal, Number.value, hvalue]
  push_cast
  rw [hpow]
  exact mul_div_mul_right _ _ (pow_ne_zero _ (by simp [BASE]))

theorem value_eq_rescaled {scale : Nat} (h : x.nScale ≤ scale) :
    x.toDecimal.value = x.toDecimal.rescaled scale / 10 ^ scale := by
  have hpow := @Number.base_pow_pos 10 _ scale
  rw [Number.rescaled_eq x.toDecimal h, mul_div_assoc]
  exact (mul_right_eq_self₀.mpr (Or.inl (div_self hpow.ne'))).symm

/-- Sums and differences keep all of the digits of both numbers, and get as many as are asked for. -/
theorem value_add_sub (scaleMin : Nat) :
    ((x.add y scaleMin).toDecimal.value = x.toDecimal.value + y.toDecimal.value ∧
      (x.add y scaleMin).nScale = max (max x.nScale y.nScale) scaleMin) ∧
      (x.sub y scaleMin).toDecimal.value = x.toDecimal.value - y.toDecimal.value ∧
      (x.sub y scaleMin).nScale = max (max x.nScale y.nScale) scaleMin := by
  have hadd := stands_bcAdd x.wf y.wf scaleMin
  have hsub := stands_bcSub x.wf y.wf scaleMin
  refine ⟨⟨(value_ofStands x y hadd _ rfl rfl).trans ?_, hadd.scale⟩, (value_ofStands x y hsub _ rfl rfl).trans ?_, hsub.scale⟩
  · rw [← rescaled_left, ← rescaled_right, value_eq_rescaled x (Nat.le_max_left _ y.nScale),
      value_eq_rescaled y (Nat.le_max_right x.nScale _), Int.cast_add, add_div]
    rfl
  · rw [← rescaled_left, ← rescaled_right, value_eq_rescaled x (Nat.le_max_left _ y.nScale),
      value_eq_rescaled y (Nat.le_max_right x.nScale _), Int.cast_sub, sub_div]
    rfl

theorem value_eq_zero_iff : x.toDecimal.value = 0 ↔ x.magnitude = 0 := by
  have hpow := @Number.base_pow_pos 10 _ x.nScale
  rw [Number.value, BcStruct.toDecimal, div_eq_zero_iff, or_iff_left hpow.ne', Int.cast_eq_zero, signed_eq]
  split <;> simp

/-- The order of the rationals, taken at the larger of the two scales. -/
theorem compare_value : compare x.toDecimal.value y.toDecimal.value =
    compare (x.signed * BASE ^ (y.nScale - x.nScale)) (y.signed * BASE ^ (x.nScale - y.nScale)) := by
  have hmono : StrictMono fun n : Int => (n : ℚ) / 10 ^ max x.nScale y.nScale := fun m n h =>
    div_lt_div_of_pos_right (Int.cast_lt.mpr h) (by positivity)
  rw [← rescaled_left, ← rescaled_right, value_eq_rescaled x (Nat.le_max_left _ y.nScale),
    value_eq_rescaled y (Nat.le_max_right x.nScale _)]
  have hcmp := hmono.cmp_map_eq (x.toDecimal.rescaled (max x.nScale y.nScale)) (y.toDecimal.rescaled (max x.nScale y.nScale))
  rw [cmp_eq_compare, cmp_eq_compare] at hcmp
  exact hcmp

/-- Numbers compare as the rationals do, but for a zero with the sign of a negative number. -/
theorem bcCompare_eq_iff : bcCompare x.toBcStruct y.toBcStruct = compare x.toDecimal.value y.toDecimal.value ↔
    x.nSign = y.nSign ∨ x.toDecimal.value ≠ 0 ∨ y.toDecimal.value ≠ 0 := by
  rw [compare_value, bcCompare_signed_iff x.wf y.wf x.len_pos y.len_pos]
  simp only [ne_eq, value_eq_zero_iff]

end BcNum

end BcNumber

end DeviceDriverTest
