import DeviceDriverTest.BcSemantics

/-! The code that is generated: every operand is in the range of its encoding, and no label is defined twice. -/

namespace DeviceDriverTest

namespace Bc

open BcNumber

/-! The programs that the parser passes on: the names are those of the symbol table, a constant has a digit, and
strings end with their quote. -/

/-- The digits of a constant, where no zero leads a longer number. -/
structure Digits (whole fraction : List Nat) : Prop where
  whole_lt : ∀ d ∈ whole, d < 16
  fraction_lt : ∀ d ∈ fraction, d < 16
  ne_nil : whole ≠ [] ∨ fraction ≠ []
  lead : whole.head? = some 0 → whole.length = 1

mutual

def Expr.Ok : Expr → Prop
  | .assign target _ value => target.Ok ∧ value.Ok
  | .and left right => left.Ok ∧ right.Ok
  | .or left right => left.Ok ∧ right.Ok
  | .not e => e.Ok
  | .rel _ left right => left.Ok ∧ right.Ok
  | .arith _ left right => left.Ok ∧ right.Ok
  | .neg e => e.Ok
  | .named name => name.Ok
  | .number whole fraction => Digits whole fraction
  | .paren e => e.Ok
  | .call function args => 0 < function ∧ function < 32768 ∧ args.Ok
  | .preIncr _ name => name.Ok
  | .postIncr name _ => name.Ok
  | .special _ e => e.Ok
  | .read => True

def Named.Ok : Named → Prop
  | .simple varName => varName < 32768
  | .element array index => array < 32768 ∧ index.Ok

def Args.Ok : Args → Prop
  | .nil => True
  | .value e rest => e.Ok ∧ rest.Ok
  | .array _ rest => rest.Ok

end

def PrintItem.Ok : PrintItem → Prop
  | .string text => '"' ∉ text
  | .expression e => e.Ok

mutual

/-- A loop with `for` has its first two expressions: where one of them is missing, what the parser passes on for it
is not what the tests behind it look for. -/
def Stmt.Ok : Stmt → Prop
  | .expression e => e.Ok
  | .string text => '"' ∉ text
  | .break => True
  | .continue => True
  | .halt => True
  | .return e => ∀ value ∈ e, value.Ok
  | .for init cond update body =>
    (init ≠ none ∧ ∀ e ∈ init, e.Ok) ∧ (cond ≠ none ∧ ∀ e ∈ cond, e.Ok) ∧ (∀ e ∈ update, e.Ok) ∧ body.Ok
  | .if cond body => cond.Ok ∧ body.Ok
  | .ifElse cond body other => cond.Ok ∧ body.Ok ∧ other.Ok
  | .while cond body => cond.Ok ∧ body.Ok
  | .block body => body.Ok
  | .print items => ∀ item ∈ items, item.Ok

def Stmts.Ok : Stmts → Prop
  | .nil => True
  | .cons first rest => first.Ok ∧ rest.Ok

end

/-! Labels. -/

@[simp] theorem labelsOf_nil : labelsOf [] = [] := rfl

@[simp] theorem labelsOf_append (code1 code2 : List Instr) : labelsOf (code1 ++ code2) = labelsOf code1 ++ labelsOf code2 :=
  List.filterMap_append

@[simp] theorem labelsOf_label (n : Nat) (code : List Instr) : labelsOf (.label n :: code) = n :: labelsOf code := rfl

@[simp] theorem labelsOf_cons {i : Instr} (h : ∀ n, i ≠ .label n) (code : List Instr) : labelsOf (i :: code) = labelsOf code := by
  cases i <;> first | rfl | exact absurd rfl (h _)

/-- What holds of the code of a part of a program, where `a` is the next label before it and `b` behind it. -/
structure Generated (a : Nat) (code : List Instr) (b : Nat) : Prop where
  le : a ≤ b
  nodup : (labelsOf code).Nodup
  range : ∀ n ∈ labelsOf code, a ≤ n ∧ n < b
  ok : b ≤ 65536 → ∀ i ∈ code, i.Ok

variable {a b c : Nat} {code code1 code2 : List Instr}

namespace Generated

theorem nil : Generated a [] a := ⟨le_refl a, List.nodup_nil, nofun, fun _ => nofun⟩

theorem instr {i : Instr} (hi : i.Ok) (hlabel : ∀ n, i ≠ .label n) : Generated a [i] a := by
  refine ⟨le_refl a, by simp [hlabel], by simp [hlabel], fun _ => ?_⟩
  simpa using hi

theorem op {o : Op} : Generated a [.op o] a := instr trivial nofun

theorem append (h1 : Generated a code1 b) (h2 : Generated b code2 c) : Generated a (code1 ++ code2) c := by
  obtain ⟨hle1, hnodup1, hrange1, hok1⟩ := h1
  obtain ⟨hle2, hnodup2, hrange2, hok2⟩ := h2
  refine ⟨hle1.trans hle2, ?_, ?_, fun hfit => ?_⟩
  · rw [labelsOf_append, List.nodup_append]
    grind
  · rw [labelsOf_append]
    grind
  · exact List.forall_mem_append.mpr ⟨hok1 (hle2.trans hfit), hok2 hfit⟩

end Generated

theorem generated_numberCode {whole fraction : List Nat} (h : Digits whole fraction) :
    Generated a (numberCode whole fraction) a := by
  unfold numberCode
  split
  · exact .instr trivial nofun
  · split
    · exact .instr trivial nofun
    · exact .instr ⟨h.whole_lt, h.fraction_lt, h.ne_nil⟩ nofun

theorem arrayDigits_lt (array : Nat) : ∀ d ∈ arrayDigits array, d < 10 := by
  unfold arrayDigits
  split
  · decide
  · exact fun d hd => Nat.digits_lt_base (by decide) (List.mem_reverse.mp hd)

theorem arrayDigits_ne_nil (array : Nat) : arrayDigits array ≠ [] := by
  unfold arrayDigits
  split
  · exact nofun
  · exact List.reverse_ne_nil_iff.mpr (Nat.digits_ne_nil_iff_ne_zero.mpr ‹_›)

theorem types_cases (args : Args) : ∀ ch ∈ args.types, ch = '0' ∨ ch = '1' := by
  induction args using Args.types.induct with
  | case1 => exact nofun
  | case2 e rest ih => exact List.forall_mem_append.mpr ⟨ih, by simp⟩
  | case3 array rest ih => exact List.forall_mem_append.mpr ⟨ih, by simp⟩

theorem generated_var {name : Named} {simple element : VarOp} (h : name.Ok) :
    Generated a [VarOp.forNamed simple element name] a := by
  cases name with
  | simple varName => exact .instr h nofun
  | element array index => exact .instr h.1 nofun

theorem generated_dupIndex (name : Named) : Generated a (dupIndex name) a := by
  cases name with
  | simple varName => exact .nil
  | element array index => exact .instr trivial nofun

mutual

theorem Expr.generated : ∀ (e : Expr) (label : Nat), e.Ok → Generated label (e.generate label).1 (e.generate label).2
  | .assign target none value, label, h =>
    ((target.generated label h.1).append (value.generated _ h.2)).append (generated_var h.1)
  | .assign target (some _) value, label, h =>
    (((((target.generated label h.1).append (generated_dupIndex target)).append (generated_var h.1)).append
      (value.generated _ h.2)).append .op).append (generated_var h.1)
  | .and left right, label, h => by
    obtain ⟨hle1, hnodup1, hrange1, hok1⟩ := left.generated label h.1
    obtain ⟨hle2, hnodup2, hrange2, hok2⟩ := right.generated ((left.generate label).2 + 1) h.2
    constructor
    · simp only [Expr.generate]
      omega
    · simp [Expr.generate, List.nodup_append]
      grind
    · simp [Expr.generate]
      grind
    · simp [Expr.generate]
      grind [Instr.Ok]
  | .or left right, label, h => by
    obtain ⟨hle1, hnodup1, hrange1, hok1⟩ := left.generated label h.1
    obtain ⟨hle2, hnodup2, hrange2, hok2⟩ := right.generated ((left.generate label).2 + 1) h.2
    constructor
    · simp only [Expr.generate]
      omega
    · simp [Expr.generate, List.nodup_append]
      grind
    · simp [Expr.generate]
      grind
    · simp [Expr.generate]
      grind [Instr.Ok]
  | .not e, label, h => (e.generated label h).append .op
  | .rel _ left right, label, h => ((left.generated label h.1).append (right.generated _ h.2)).append .op
  | .arith _ left right, label, h => ((left.generated label h.1).append (right.generated _ h.2)).append .op
  | .neg e, label, h => (e.generated label h).append .op
  | .named name, label, h => (name.generated label h).append (generated_var h)
  | .number _ _, _, h => generated_numberCode h
  | .paren e, label, h => e.generated label h
  | .call _ args, label, h => (args.generated label h.2.2).append (.instr ⟨h.2.1, types_cases args⟩ nofun)
  | .preIncr true name, label, h =>
    ((name.generated label h).append (generated_dupIndex name)).append
      (@Generated.append _ _ _ [_] [_] (generated_var h) (generated_var h))
  | .preIncr false name, label, h =>
    ((name.generated label h).append (generated_dupIndex name)).append
      (@Generated.append _ _ _ [_] [_] (generated_var h) (generated_var h))
  | .postIncr (.simple _) _, _, h => @Generated.append _ _ _ [_] [_] (.instr h nofun) (.instr h nofun)
  | .postIncr (.element _ index) _, label, h =>
    (index.generated label h.2).append (@Generated.append _ _ _ [_] [_, _, _] .op
      (@Generated.append _ _ _ [_] [_, _] (.instr h.1 nofun) (@Generated.append _ _ _ [_] [_] .op (.instr h.1 nofun))))
  | .special _ e, label, h => (e.generated label h).append (.instr trivial nofun)
  | .read, _, _ => .instr trivial nofun

theorem Named.generated : ∀ (name : Named) (label : Nat), name.Ok →
    Generated label (name.generate label).1 (name.generate label).2
  | .simple _, _, _ => .nil
  | .element _ index, label, h => index.generated label h.2

theorem Args.generated : ∀ (args : Args) (label : Nat), args.Ok →
    Generated label (args.generate label).1 (args.generate label).2
  | .nil, _, _ => .nil
  | .value e rest, label, h => (e.generated label h.1).append (rest.generated _ h.2)
  | .array array rest, label, h => by
    have hdigits := arrayDigits_lt array
    exact @Generated.append _ _ _ [_] _ (.instr ⟨fun d hd => (hdigits d hd).trans (by decide), nofun,
      Or.inl (arrayDigits_ne_nil array)⟩ nofun) (rest.generated label h)

end

theorem generated_printCode (items : List PrintItem) (label : Nat) (h : ∀ item ∈ items, item.Ok) :
    Generated label (printCode items label).1 (printCode items label).2 := by
  induction items generalizing label with
  | nil => exact .nil
  | cons item items ih =>
    have hitem := h item List.mem_cons_self
    have hitems := fun label => ih label fun item hmem => h item (List.mem_cons_of_mem _ hmem)
    cases item with
    | string text => exact @Generated.append _ _ _ [_] _ (.instr hitem nofun) (hitems label)
    | expression e => exact ((e.generated label hitem).append .op).append (hitems _)

theorem generated_optionalCode (e : Option Expr) (label : Nat) (h : ∀ value ∈ e, value.Ok) :
    Generated label (optionalCode e label).1.1 (optionalCode e label).1.2 := by
  cases e with
  | none => exact .nil
  | some e => exact e.generated label (h e rfl)

/-- The labels of the loops around a statement are taken before it. -/
structure Loop.Below (loop : Loop) (label : Nat) : Prop where
  break_lt : loop.breakLabel < label
  continue_lt : loop.continueLabel < label

theorem Loop.Below.mono {loop : Loop} (h : loop.Below a) (hle : a ≤ b) : loop.Below b :=
  ⟨h.break_lt.trans_le hle, h.continue_lt.trans_le hle⟩

theorem generated_for {code3 code4 popped : List Instr} {label label1 label2 label3 next : Nat}
    (h1 : Generated (label + 1) code1 label1) (h2 : Generated (label1 + 1) code2 label2)
    (h3 : Generated (label2 + 2) code3 label3) (h4 : Generated label3 code4 next)
    (hpopped : popped = [] ∨ popped = [.op .pop]) :
    Generated label (code1 ++ [.op .pop, .label label1] ++ code2 ++
      [.jump .branch label2, .jump .jump label, .label (label2 + 1)] ++ code3 ++ popped ++
      [.jump .jump label1, .label label2] ++ code4 ++ [.jump .jump (label2 + 1), .label label]) next := by
  obtain ⟨hle1, hnodup1, hrange1, hok1⟩ := h1
  obtain ⟨hle2, hnodup2, hrange2, hok2⟩ := h2
  obtain ⟨hle3, hnodup3, hrange3, hok3⟩ := h3
  obtain ⟨hle4, hnodup4, hrange4, hok4⟩ := h4
  have hlabels : labelsOf popped = [] := by
    obtain rfl | rfl := hpopped <;> rfl
  have hok : ∀ i ∈ popped, i.Ok := by
    obtain rfl | rfl := hpopped <;> simp [Instr.Ok]
  constructor
  · omega
  · simp [List.nodup_append, hlabels]
    and_intros <;> grind
  · simp [hlabels]
    grind
  · simp
    grind [Instr.Ok]

theorem generated_if {label next : Nat} (h1 : Generated label code1 a) (h2 : Generated (a + 1) code2 next) :
    Generated label (code1 ++ [.jump .branchZero a] ++ code2 ++ [.label a]) next := by
  obtain ⟨hle1, hnodup1, hrange1, hok1⟩ := h1
  obtain ⟨hle2, hnodup2, hrange2, hok2⟩ := h2
  constructor
  · omega
  · simp [List.nodup_append]
    grind
  · simp
    grind
  · simp
    grind [Instr.Ok]

theorem generated_ifElse {code3 : List Instr} {label next : Nat} (h1 : Generated label code1 a)
    (h2 : Generated (a + 1) code2 b) (h3 : Generated (b + 1) code3 next) :
    Generated label (code1 ++ [.jump .branchZero a] ++ code2 ++ [.jump .jump b, .label a] ++ code3 ++ [.label b]) next := by
  obtain ⟨hle1, hnodup1, hrange1, hok1⟩ := h1
  obtain ⟨hle2, hnodup2, hrange2, hok2⟩ := h2
  obtain ⟨hle3, hnodup3, hrange3, hok3⟩ := h3
  constructor
  · omega
  · simp [List.nodup_append]
    grind
  · simp
    grind
  · simp
    grind [Instr.Ok]

theorem generated_while {label next : Nat} (h1 : Generated (label + 1) code1 a) (h2 : Generated (a + 1) code2 next) :
    Generated label ([.label label] ++ code1 ++ [.jump .branchZero a] ++ code2 ++ [.jump .jump label, .label a]) next := by
  obtain ⟨hle1, hnodup1, hrange1, hok1⟩ := h1
  obtain ⟨hle2, hnodup2, hrange2, hok2⟩ := h2
  constructor
  · omega
  · simp [List.nodup_append]
    grind
  · simp
    grind
  · simp
    grind [Instr.Ok]

theorem generated_loopJump {n : Nat} (h : n < a) : Generated a [.jump .jump n] a := by
  refine ⟨le_refl a, by simp, by simp, fun hfit => ?_⟩
  simp only [List.mem_singleton, forall_eq, Instr.Ok]
  omega

mutual

theorem Stmt.generated : ∀ (t : Stmt) {loop : Loop} {label next : Nat} {code : List Instr}, t.Ok → loop.Below label →
    t.generate loop label = some (code, next) → Generated label code next
  | .expression e, loop, label, next, code, h, _, hgen => by
    cases hgen
    exact (e.generated label h).append .op
  | .string text, loop, label, next, code, h, _, hgen => by
    cases hgen
    exact .instr h nofun
  | .break, loop, label, next, code, _, hloop, hgen => by
    obtain ⟨-, hcode⟩ := Option.ite_none_left_eq_some.mp hgen
    cases hcode
    exact generated_loopJump hloop.break_lt
  | .continue, loop, label, next, code, _, hloop, hgen => by
    obtain ⟨-, hcode⟩ := Option.ite_none_left_eq_some.mp hgen
    cases hcode
    exact generated_loopJump hloop.continue_lt
  | .halt, _, _, _, _, _, _, hgen => by
    cases hgen
    exact .op
  | .return none, _, _, _, _, _, _, hgen => by
    cases hgen
    exact @Generated.append _ _ _ [_] [_] .op .op
  | .return (some e), _, label, _, _, h, _, hgen => by
    cases hgen
    exact (e.generated label (h e rfl)).append .op
  | .for init cond update body, loop, label, next, code, h, hloop, hgen => by
    obtain ⟨⟨-, hinit⟩, ⟨-, hcond⟩, hupdate, hbody⟩ := h
    obtain ⟨⟨code4, label4⟩, hgen4, hcode⟩ := Option.map_eq_some_iff.mp hgen
    cases hcode
    have h1 := generated_optionalCode init (label + 1) hinit
    have h2 := generated_optionalCode cond ((optionalCode init (label + 1)).1.2 + 1) hcond
    have h3 := generated_optionalCode update ((optionalCode cond ((optionalCode init (label + 1)).1.2 + 1)).1.2 + 2) hupdate
    have hle1 := h1.le
    have hle2 := h2.le
    have hle3 := h3.le
    refine generated_for h1 h2 h3 (body.generated hbody ⟨?_, ?_⟩ hgen4) ?_
    · exact Nat.lt_of_lt_of_le (Nat.lt_of_lt_of_le (Nat.lt_of_lt_of_le (Nat.lt_succ_self label) hle1) (by omega)) hle3
    · exact Nat.lt_of_lt_of_le (Nat.lt_succ_self _) hle3
    · by_cases hflags : (optionalCode update ((optionalCode cond ((optionalCode init (label + 1)).1.2 + 1)).1.2 + 2)).2 &&& 16 ≠ 0
      · exact Or.inl (if_pos hflags)
      · exact Or.inr (if_neg hflags)
  | .if cond body, loop, label, next, code, h, hloop, hgen => by
    obtain ⟨⟨code2, label2⟩, hgen2, hcode⟩ := Option.map_eq_some_iff.mp hgen
    cases hcode
    have hcond := cond.generated label h.1
    exact generated_if hcond (body.generated h.2 (hloop.mono (Nat.le_succ_of_le hcond.le)) hgen2)
  | .ifElse cond body other, loop, label, next, code, h, hloop, hgen => by
    obtain ⟨⟨code2, label2⟩, hgen2, hgen⟩ := Option.bind_eq_some_iff.mp hgen
    obtain ⟨⟨code3, label3⟩, hgen3, hcode⟩ := Option.map_eq_some_iff.mp hgen
    cases hcode
    have hcond := cond.generated label h.1
    have hbelow := hloop.mono (Nat.le_succ_of_le hcond.le)
    have hbody := body.generated h.2.1 hbelow hgen2
    exact generated_ifElse hcond hbody (other.generated h.2.2 (hbelow.mono (Nat.le_succ_of_le hbody.le)) hgen3)
  | .while cond body, loop, label, next, code, h, hloop, hgen => by
    obtain ⟨⟨code2, label2⟩, hgen2, hcode⟩ := Option.map_eq_some_iff.mp hgen
    cases hcode
    have hcond := cond.generated (label + 1) h.1
    have hbelow : Loop.Below ⟨(cond.generate (label + 1)).2, loop.continueLabel⟩ ((cond.generate (label + 1)).2 + 1) :=
      ⟨Nat.lt_succ_self _, (hloop.mono (Nat.le_of_succ_le hcond.le)).continue_lt.trans (Nat.lt_succ_self _)⟩
    exact generated_while hcond (body.generated h.2 hbelow hgen2)
  | .block body, _, _, _, _, h, hloop, hgen => body.generated h hloop hgen
  | .print items, _, label, next, code, h, _, hgen => by
    have hcode : printCode items label = (code, next) := Option.some.inj hgen
    have hitems := generated_printCode items label h
    rwa [hcode] at hitems

theorem Stmts.generated : ∀ (t : Stmts) {loop : Loop} {label next : Nat} {code : List Instr}, t.Ok → loop.Below label →
    t.generate loop label = some (code, next) → Generated label code next
  | .nil, _, _, _, _, _, _, hgen => by
    cases hgen
    exact .nil
  | .cons first rest, loop, label, next, code, h, hloop, hgen => by
    obtain ⟨⟨code1, label1⟩, hgen1, hgen⟩ := Option.bind_eq_some_iff.mp hgen
    obtain ⟨⟨code2, label2⟩, hgen2, hcode⟩ := Option.map_eq_some_iff.mp hgen
    cases hcode
    have hfirst := first.generated h.1 hloop hgen1
    exact hfirst.append (rest.generated h.2 (hloop.mono hfirst.le) hgen2)

end

end Bc

end DeviceDriverTest
