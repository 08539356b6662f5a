import DeviceDriverTest.BcCode
import DeviceDriverTest.BcInstruction

/-! The machine does what the programs mean: where the code of an expression or of a statement stands, its run comes to
the value, or to the end of the statement, or stops for the same reason and leaves the same storage. -/

namespace DeviceDriverTest

namespace Bc

open BcNumber Realization

/-- What is left when the functions above the one with the frames are left. -/
inductive Unwinds (functions : Nat → Function) (g : Nat) (frames : List Frame) : Nat → List Frame → Storage → Storage → Prop
  | here (s : Storage) : Unwinds functions g frames g frames s s
  | pop {func : Nat} {frame : Frame} {rest : List Frame} {s s' : Storage} (hfunc : func ≠ 0)
      (h : Unwinds functions g frames frame.func rest ((functions func).leave s) s') :
      Unwinds functions g frames func (frame :: rest) s s'

section Runs

variable {α β : Type} {env : Env} {functions : Nat → Function} {g a b fuel : Nat} {frames : List Frame}
  {stack stack' : List BcStruct} {s s' : Storage} {num : BcStruct} {c : Context}

theorem Unwinds.return {func : Nat} {frame : Frame} {rest : List Frame} (hg : g ≠ 0)
    (h : Unwinds functions g (frame :: frames) func rest s s') :
    Unwinds functions frame.func frames func rest s ((functions g).leave s') := by
  induction h with
  | here => exact .pop hg (.here _)
  | pop hfunc _ ih => exact .pop hfunc ih

theorem Unwinds.unwind {func : Nat} {rest : List Frame} (h : Unwinds functions 0 [] func rest s s') :
    unwind functions func rest s = s' := by
  induction h with
  | here => rfl
  | @pop func frame rest s s' hfunc _ ih =>
    obtain ⟨func, rfl⟩ := Nat.exists_eq_succ_of_ne_zero hfunc
    exact ih

/-- The machine has stopped for the reason, and this is what is left then for the function with the frames. -/
def Failed (functions : Nat → Function) (g : Nat) (frames : List Frame) (why : Stop) (s : Storage) (m : Machine) : Prop :=
  m.status = some why ∧ Unwinds functions g frames m.func m.fnStack m.storage s

/-- From the address on the machine does what the program means, and comes to an address with a stack. -/
def Goes (env : Env) (functions : Nat → Function) (g : Nat) (frames : List Frame) (fuel a : Nat) (stack : List BcStruct)
    (x : Computation α) (Post : α → Nat → List BcStruct → Prop) : Prop :=
  ∀ s, Realizes (Step env functions) (Failed functions g frames)
    (fun v s m => ∃ b stack, Post v b stack ∧ m = ⟨g, b, stack, frames, s, none⟩) fuel ⟨g, a, stack, frames, s, none⟩ (x s)

/-- The address that the machine comes to, and the stack. -/
def ends (b : Nat) (push : α → List BcStruct) (v : α) (b' : Nat) (stack : List BcStruct) : Prop := b' = b ∧ stack = push v

namespace Goes

variable {x : Computation α} {f : α → Computation β} {Post Post' : α → Nat → List BcStruct → Prop}
  {After : β → Nat → List BcStruct → Prop} {push : α → List BcStruct}

theorem pure {v : α} (h : Post v a stack) : Goes env functions g frames fuel a stack (pure v) Post :=
  fun _ => Realizes.pure ⟨a, stack, h, rfl⟩

theorem imp (hx : Goes env functions g frames fuel a stack x Post) (h : ∀ v b stack, Post v b stack → Post' v b stack) :
    Goes env functions g frames fuel a stack x Post' :=
  fun s => (hx s).imp fun v _ _ ⟨b, stack, hpost, hm⟩ => ⟨b, stack, h v b stack hpost, hm⟩

theorem bind' (hx : Goes env functions g frames fuel a stack x Post)
    (hf : ∀ v b stack, Post v b stack → Goes env functions g frames fuel b stack (f v) After) :
    Goes env functions g frames fuel a stack (x >>= f) After := fun s =>
  (hx s).bind fun v s _ ⟨b, stack, hpost, hm⟩ => hm ▸ hf v b stack hpost s

theorem bind (hx : Goes env functions g frames fuel a stack x (ends b push))
    (hf : ∀ v, Goes env functions g frames fuel b (push v) (f v) After) :
    Goes env functions g frames fuel a stack (x >>= f) After :=
  hx.bind' fun v _ _ ⟨hb, hstack⟩ => hb ▸ hstack ▸ hf v

theorem reach {b' : Nat} (hx : Goes env functions g frames fuel a stack x (ends b push)) (hb : b = b') :
    Goes env functions g frames fuel a stack x (ends b' push) := hb ▸ hx

theorem step (hstep : ∀ s, Step env functions ⟨g, a, stack, frames, s, none⟩ ⟨g, b, stack', frames, s, none⟩)
    (hx : Goes env functions g frames fuel b stack' x Post) : Goes env functions g frames fuel a stack x Post :=
  fun s => (hx s).step (hstep s)

/-- An instruction that only changes the stack. -/
theorem done {op : List BcStruct → Action (List BcStruct)}
    (hstep : ∀ s, Step env functions ⟨g, a, stack, frames, s, none⟩ ((⟨g, b, stack, frames, s, none⟩ : Machine).act op))
    (hop : op stack = Bc.done stack') (hx : Goes env functions g frames fuel b stack' x Post) :
    Goes env functions g frames fuel a stack x Post := by
  refine step (fun s => ?_) hx
  have hact := hstep s
  rwa [Machine.act, hop] at hact

/-- An instruction that does what the action does. -/
theorem act {op : List BcStruct → Action (List BcStruct)} {action : Action α}
    (hstep : ∀ s, Step env functions ⟨g, a, stack, frames, s, none⟩ ((⟨g, b, stack, frames, s, none⟩ : Machine).act op))
    (hop : op stack = andThen action fun v => Bc.done (push v)) :
    Goes env functions g frames fuel a stack (Eval.lift action) (ends b push) := by
  intro s
  refine Realizes.step (hstep s) ?_
  rw [Eval.lift, Machine.act, hop, andThen]
  obtain ⟨why | v, s⟩ := action s
  · exact ⟨0, _, .refl _, rfl, .here s⟩
  · exact ⟨0, _, .refl _, b, push v, ⟨rfl, rfl⟩, rfl⟩

/-- Where it ends the machine may take one more step. -/
theorem follow (hx : Goes env functions g frames fuel a stack x Post)
    (h : ∀ v b stack, Post v b stack → ∃ b' stack', Post' v b' stack' ∧
      ((b = b' ∧ stack = stack') ∨
        ∀ s, Step env functions ⟨g, b, stack, frames, s, none⟩ ⟨g, b', stack', frames, s, none⟩)) :
    Goes env functions g frames fuel a stack x Post' := by
  have hbind : (x >>= Pure.pure) = x := by
    funext s
    rw [Eval.bind_eq, Eval.bind]
    obtain _ | ⟨_ | _, _⟩ := x s <;> rfl
  rw [← hbind]
  refine hx.bind' fun v b stack hpost => ?_
  obtain ⟨b', stack', hpost', ⟨rfl, rfl⟩ | hstep⟩ := h v b stack hpost
  · exact pure hpost'
  · exact step hstep (pure hpost')

/-- The rule for loops: from where a round ends there is a step back to where the next one starts. -/
theorem rounds {round : Computation (Option α)}
    (hround : Goes env functions g frames fuel a stack round fun v b stack' =>
      match v with
      | some v => Post v b stack'
      | none => ∀ s, Step env functions ⟨g, b, stack', frames, s, none⟩ ⟨g, a, stack, frames, s, none⟩) :
    Goes env functions g frames fuel a stack (Eval.rounds round fuel) Post := by
  intro s
  refine Realizes.rounds (fun s m => m = ⟨g, a, stack, frames, s, none⟩) ?_ (le_refl fuel) rfl
  rintro s m rfl
  refine (hround s).imp fun v s m hv => ?_
  obtain ⟨b, stack', hpost, rfl⟩ := hv
  match v, hpost with
  | some v, hpost => exact ⟨b, stack', hpost, rfl⟩
  | none, hback => exact ⟨_, hback s, rfl⟩

/-- A branch that is taken, and one that is not. -/
theorem taken {o : Jump} {n : Nat} (h : InstrAt (functions g) a (.jump o n)) (ho : o ≠ .jump)
    (hl : (functions g).labels n = some b) (htaken : o.taken num = true)
    (hx : Goes env functions g frames fuel b stack x Post) : Goes env functions g frames fuel a (num :: stack) x Post :=
  step (fun _ => by simpa [htaken] using @step_branch env functions g a b n stack frames _ num o h ho hl) hx

theorem passed {o : Jump} {n : Nat} (h : InstrAt (functions g) a (.jump o n)) (ho : o ≠ .jump)
    (hl : (functions g).labels n = some b) (hpassed : o.taken num = false)
    (hx : Goes env functions g frames fuel (a + 3) stack x Post) : Goes env functions g frames fuel a (num :: stack) x Post :=
  step (fun _ => by simpa [hpassed] using @step_branch env functions g a b n stack frames _ num o h ho hl) hx

end Goes

/-- The context is the one of the function with the frames: the constants are read in the same base, and the calls are
those that the machine does. -/
structure Context.Fits (c : Context) (env : Env) (functions : Nat → Function) (g : Nat) (frames : List Frame) : Prop where
  env_eq : c.env = env
  base : ∀ s, baseIn g frames s = some (c.constBase.getD s.iBase)
  call : ∀ (function : Nat) (types : List Char) (nums stack : List BcStruct) (a : Nat) (s : Storage) (m : Machine),
    function ≠ 0 → types.length = nums.length →
    Step env functions m ((⟨g, a, nums ++ stack, frames, s, none⟩ : Machine).call env functions function types) →
    Realizes (Step env functions) (Failed functions g frames) (fun num s m => m = ⟨g, a, num :: stack, frames, s, none⟩)
      c.fuel m (c.call function types nums s)

@[simp] theorem length_bytes_op (o : Op) : (Instr.op o).bytes.length = 1 := rfl

@[simp] theorem length_bytes_jump (o : Jump) (n : Nat) : (Instr.jump o n).bytes.length = 3 := rfl

@[simp] theorem length_bytes_label (n : Nat) : (Instr.label n).bytes.length = 0 := rfl

@[simp] theorem length_bytes_special (function : Special) : (Instr.special function).bytes.length = 2 := rfl

@[simp] theorem length_bytes_read : Instr.read.bytes.length = 2 := rfl

@[simp] theorem length_bytes_var (o : VarOp) (name : Nat) : (Instr.var o name).bytes.length = 1 + (nameBytes name).length :=
  Nat.add_comm _ _

/-! Values. -/

theorem goes_const (hc : c.Fits env functions g frames) {whole fraction : List Nat} (hi : (Instr.const whole fraction).Ok)
    (h : InstrAt (functions g) a (.const whole fraction)) :
    Goes env functions g frames c.fuel a stack (Eval.lift (readValue c.constBase (token whole fraction)))
      (ends (a + (Instr.const whole fraction).bytes.length) (· :: stack)) := by
  intro s
  rw [Eval.lift, readValue]
  cases hnum : (readConst (c.constBase.getD s.iBase) (token whole fraction ++ [COLON])).map Prod.fst with
  | some num => exact ⟨1, _, .single (step_const h hi (hc.base s) hnum), _, _, ⟨rfl, rfl⟩, rfl⟩
  | none => exact ⟨1, _, .single (step_const_undefined h hi (hc.base s) hnum), rfl, .here s⟩

theorem goes_number (hc : c.Fits env functions g frames) {whole fraction : List Nat} (h : Digits whole fraction)
    (hcode : CodeAt (functions g) a (numberCode whole fraction)) :
    Goes env functions g frames c.fuel a stack (Eval.lift (constantValue c.constBase whole fraction))
      (ends (a + codeSize (numberCode whole fraction)) (· :: stack)) := by
  unfold numberCode at hcode ⊢
  unfold constantValue
  split at hcode
  case isTrue hzero =>
    rw [if_pos hzero, if_pos hzero]
    exact Goes.done (fun s => step_op hcode.1 nofun) rfl (Goes.pure ⟨rfl, rfl⟩)
  case isFalse hzero =>
    rw [if_neg hzero, if_neg hzero]
    split at hcode
    case isTrue hone =>
      rw [if_pos hone, if_pos hone]
      exact Goes.done (fun s => step_op hcode.1 nofun) rfl (Goes.pure ⟨rfl, rfl⟩)
    case isFalse hone =>
      rw [if_neg hone, if_neg hone, codeSize_cons, codeSize_nil, Nat.add_zero]
      exact goes_const hc ⟨h.whole_lt, h.fraction_lt, h.ne_nil⟩ hcode.1

/-- The place is one that the name can stand for. -/
def Place.Of : Place → Named → Prop
  | .variable varName, .simple varName' => varName = varName'
  | .element array _, .element array' _ => array = array'
  | _, _ => False

def Place.onStack : Place → List BcStruct
  | .variable _ => []
  | .element _ index => [index]

section Places

variable {place : Place} {name : Named}

theorem goes_load (hplace : place.Of name) (hname : name.Ok)
    (h : InstrAt (functions g) a (VarOp.forNamed .load .loadArray name)) :
    Goes env functions g frames fuel a (place.onStack ++ stack) (Eval.lift (place.load env))
      (ends (a + (VarOp.forNamed .load .loadArray name).bytes.length) (· :: stack)) := by
  match place, name, hplace with
  | .variable varName, .simple _, rfl => exact (Goes.act (fun s => step_var h hname) rfl).reach (by simp [VarOp.forNamed])
  | .element array index, .element _ _, rfl =>
    exact (Goes.act (fun s => step_var h hname.1) rfl).reach (by simp [VarOp.forNamed])

theorem goes_store (hplace : place.Of name) (hname : name.Ok)
    (h : InstrAt (functions g) a (VarOp.forNamed .store .storeArray name)) :
    Goes env functions g frames fuel a (num :: (place.onStack ++ stack)) (Eval.lift (place.store env num))
      (ends (a + (VarOp.forNamed .store .storeArray name).bytes.length) (· :: stack)) := by
  match place, name, hplace with
  | .variable varName, .simple _, rfl => exact (Goes.act (fun s => step_var h hname) rfl).reach (by simp [VarOp.forNamed])
  | .element array index, .element _ _, rfl =>
    exact (Goes.act (fun s => step_var h hname.1) rfl).reach (by simp [VarOp.forNamed])

theorem goes_change (hplace : place.Of name) (hname : name.Ok) (plus : Bool)
    (h : InstrAt (functions g) a (if plus then VarOp.forNamed .incr .incrArray name else VarOp.forNamed .decr .decrArray name)) :
    Goes env functions g frames fuel a (place.onStack ++ stack) (Eval.lift (place.change env plus))
      (ends (a + (if plus then VarOp.forNamed .incr .incrArray name else VarOp.forNamed .decr .decrArray name).bytes.length)
        fun _ => stack) := by
  cases place with
  | «variable» varName =>
    cases name with
    | simple varName' =>
      obtain rfl : varName = varName' := hplace
      cases plus with
      | true => exact (Goes.act (fun s => step_var h hname) rfl).reach (by simp [VarOp.forNamed])
      | false => exact (Goes.act (fun s => step_var h hname) rfl).reach (by simp [VarOp.forNamed])
    | element array e => exact absurd hplace id
  | element array index =>
    cases name with
    | simple varName => exact absurd hplace id
    | element array' e =>
      obtain rfl : array = array' := hplace
      cases plus with
      | true =>
        refine (Goes.act (fun s => step_var h hname.1) ?_).reach (by simp [VarOp.forNamed])
        funext s
        simp only [access, Place.onStack, List.singleton_append, andThen, Place.change, if_true]
        obtain ⟨_ | _, _⟩ := incrArray env array index s <;> rfl
      | false =>
        refine (Goes.act (fun s => step_var h hname.1) ?_).reach (by simp [VarOp.forNamed])
        funext s
        simp only [access, Place.onStack, List.singleton_append, andThen, Place.change, Bool.false_eq_true, if_false]
        obtain ⟨_ | _, _⟩ := decrArray env array index s <;> rfl

/-- The index of an element is kept for another access. -/
theorem goes_dupIndex {α : Type} {x : Computation α} {Post : α → Nat → List BcStruct → Prop} (hplace : place.Of name)
    (h : CodeAt (functions g) a (dupIndex name))
    (hx : Goes env functions g frames fuel (a + codeSize (dupIndex name)) (place.onStack ++ (place.onStack ++ stack)) x Post) :
    Goes env functions g frames fuel a (place.onStack ++ stack) x Post := by
  match place, name, hplace with
  | .variable varName, .simple _, rfl => exact hx
  | .element array index, .element _ _, rfl => exact Goes.done (fun s => step_op h.1 nofun) rfl hx

end Places

mutual

theorem Expr.goes (hc : c.Fits env functions g frames) : ∀ (e : Expr) (label a : Nat) (stack : List BcStruct), e.Ok →
    CodeAt (functions g) a (e.generate label).1 →
    Goes env functions g frames c.fuel a stack (e.eval c) (ends (a + codeSize (e.generate label).1) (· :: stack))
  | .assign target none value, label, a, stack, h, hcode => by
    simp [Expr.generate, ← Nat.add_assoc] at hcode ⊢
    obtain ⟨htarget, hvalue, hstore⟩ := hcode
    refine (target.goes hc label a stack h.1 htarget).bind' fun place b st ⟨hplace, hb, hst⟩ => ?_
    subst hb hst
    refine (value.goes hc _ _ _ h.2 hvalue).bind fun num => ?_
    rw [hc.env_eq]
    exact goes_store hplace h.1 hstore
  | .assign target (some op) value, label, a, stack, h, hcode => by
    simp [Expr.generate, ← Nat.add_assoc] at hcode ⊢
    obtain ⟨htarget, hdup, hload, hvalue, hop, hstore⟩ := hcode
    refine (target.goes hc label a stack h.1 htarget).bind' fun place b st ⟨hplace, hb, hst⟩ => ?_
    subst hb hst
    rw [hc.env_eq]
    refine goes_dupIndex hplace hdup ((goes_load hplace h.1 hload).bind fun old => ?_)
    refine (value.goes hc _ _ _ h.2 hvalue).bind fun num => ?_
    exact (Goes.act (fun s => step_op hop nofun) rfl).bind fun num => goes_store hplace h.1 hstore
  | .and left right, label, a, stack, h, hcode => by
    simp [Expr.generate, ← Nat.add_assoc] at hcode ⊢
    obtain ⟨hleft, hdup1, hbranch1, hpop1, hright, hdup2, hbranch2, hpop2, hone, hlabel⟩ := hcode
    refine (left.goes hc label a stack h.1 hleft).bind fun num1 => ?_
    refine Goes.done (fun s => step_op hdup1 nofun) rfl ?_
    by_cases hzero1 : bcIsZero num1
    · rw [if_pos hzero1]
      exact Goes.taken hbranch1 nofun (hlabel.2 _ rfl) hzero1 (Goes.pure ⟨rfl, rfl⟩)
    · rw [if_neg hzero1]
      refine Goes.passed hbranch1 nofun (hlabel.2 _ rfl) (by simpa [Jump.taken] using hzero1) ?_
      refine Goes.done (fun s => step_op hpop1 nofun) rfl ?_
      refine (right.goes hc _ _ _ h.2 hright).bind fun num2 => ?_
      refine Goes.done (fun s => step_op hdup2 nofun) rfl ?_
      by_cases hzero2 : bcIsZero num2
      · rw [if_pos hzero2]
        exact Goes.taken hbranch2 nofun (hlabel.2 _ rfl) hzero2 (Goes.pure ⟨rfl, rfl⟩)
      · rw [if_neg hzero2]
        refine Goes.passed hbranch2 nofun (hlabel.2 _ rfl) (by simpa [Jump.taken] using hzero2) ?_
        refine Goes.done (fun s => step_op hpop2 nofun) rfl ?_
        exact Goes.done (fun s => step_op hone nofun) rfl (Goes.pure ⟨rfl, rfl⟩)
  | .or left right, label, a, stack, h, hcode => by
    simp [Expr.generate, ← Nat.add_assoc] at hcode ⊢
    obtain ⟨hleft, hbranch1, hright, hbranch2, hzero, hjump, hlabel, hone, hend⟩ := hcode
    refine (left.goes hc label a stack h.1 hleft).bind fun num1 => ?_
    by_cases hzero1 : bcIsZero num1
    · rw [if_pos hzero1]
      refine Goes.passed hbranch1 nofun (hlabel.2 _ rfl) (by simpa [Jump.taken] using hzero1) ?_
      refine (right.goes hc _ _ _ h.2 hright).bind fun num2 => ?_
      by_cases hzero2 : bcIsZero num2
      · refine Goes.passed hbranch2 nofun (hlabel.2 _ rfl) (by simpa [Jump.taken] using hzero2) ?_
        refine Goes.done (fun s => step_op hzero nofun) rfl ?_
        refine Goes.step (fun s => step_jump hjump (hend.2 _ rfl)) (Goes.pure ⟨rfl, ?_⟩)
        simp [ofCode, hzero2]
      · refine Goes.taken hbranch2 nofun (hlabel.2 _ rfl) (by simpa [Jump.taken] using hzero2) ?_
        refine Goes.done (fun s => step_op hone nofun) rfl (Goes.pure ⟨rfl, ?_⟩)
        simp [ofCode, hzero2]
    · rw [if_neg hzero1]
      refine Goes.taken hbranch1 nofun (hlabel.2 _ rfl) (by simpa [Jump.taken] using hzero1) ?_
      exact Goes.done (fun s => step_op hone nofun) rfl (Goes.pure ⟨rfl, rfl⟩)
  | .not e, label, a, stack, h, hcode => by
    simp [Expr.generate, ← Nat.add_assoc] at hcode ⊢
    obtain ⟨he, hop⟩ := hcode
    refine (e.goes hc label a stack h he).bind fun num => ?_
    exact Goes.done (fun s => step_op hop nofun) rfl (Goes.pure ⟨rfl, rfl⟩)
  | .rel op left right, label, a, stack, h, hcode => by
    simp [Expr.generate, ← Nat.add_assoc] at hcode ⊢
    obtain ⟨hleft, hright, hop⟩ := hcode
    refine (left.goes hc label a stack h.1 hleft).bind fun num1 => ?_
    refine (right.goes hc _ _ _ h.2 hright).bind fun num2 => ?_
    exact Goes.done (fun s => step_op hop nofun) rfl (Goes.pure ⟨rfl, rfl⟩)
  | .arith op left right, label, a, stack, h, hcode => by
    simp [Expr.generate, ← Nat.add_assoc] at hcode ⊢
    obtain ⟨hleft, hright, hop⟩ := hcode
    refine (left.goes hc label a stack h.1 hleft).bind fun num1 => ?_
    refine (right.goes hc _ _ _ h.2 hright).bind fun num2 => ?_
    rw [hc.env_eq]
    exact Goes.act (fun s => step_op hop nofun) rfl
  | .neg e, label, a, stack, h, hcode => by
    simp [Expr.generate, ← Nat.add_assoc] at hcode ⊢
    obtain ⟨he, hop⟩ := hcode
    refine (e.goes hc label a stack h he).bind fun num => ?_
    exact Goes.done (fun s => step_op hop nofun) rfl (Goes.pure ⟨rfl, rfl⟩)
  | .named name, label, a, stack, h, hcode => by
    simp [Expr.generate, ← Nat.add_assoc] at hcode ⊢
    obtain ⟨hname, hload⟩ := hcode
    refine (name.goes hc label a stack h hname).bind' fun place b st ⟨hplace, hb, hst⟩ => ?_
    subst hb hst
    rw [hc.env_eq]
    exact goes_load hplace h hload
  | .number whole fraction, label, a, stack, h, hcode => goes_number hc h hcode
  | .paren e, label, a, stack, h, hcode => e.goes hc label a stack h hcode
  | .call function args, label, a, stack, h, hcode => by
    simp [Expr.generate, ← Nat.add_assoc] at hcode ⊢
    obtain ⟨hargs, hcall⟩ := hcode
    refine (args.goes hc label a stack h.2.2 hargs).bind' fun nums b st ⟨hb, hst, hlen⟩ => ?_
    subst hb hst
    intro s
    have hstep := @step_call env functions g _ (nums.reverse ++ stack) frames s function args.types hcall ⟨h.2.1, types_cases args⟩
    refine (hc.call function args.types nums.reverse stack _ s _ h.1.ne' ?_ hstep).imp fun num s m hm => ?_
    · rw [List.length_reverse, hlen]
    · exact ⟨_, _, ⟨rfl, rfl⟩, hm⟩
  | .preIncr plus name, label, a, stack, h, hcode => by
    simp [Expr.generate, ← Nat.add_assoc] at hcode ⊢
    obtain ⟨hname, hdup, hchange, hload⟩ := hcode
    refine (name.goes hc label a stack h hname).bind' fun place b st ⟨hplace, hb, hst⟩ => ?_
    subst hb hst
    rw [hc.env_eq]
    exact goes_dupIndex hplace hdup ((goes_change hplace h plus hchange).bind fun _ => goes_load hplace h hload)
  | .postIncr (.simple varName) plus, label, a, stack, h, hcode => by
    simp only [Expr.generate, codeAt_cons, codeSize_cons, codeSize_nil, Nat.add_zero, ← Nat.add_assoc] at hcode ⊢
    obtain ⟨hload, hchange, -⟩ := hcode
    refine ((Named.simple varName).goes hc label a stack h trivial).bind' fun place b st ⟨hplace, hb, hst⟩ => ?_
    subst hb hst
    rw [hc.env_eq]
    refine (goes_load hplace h hload).bind fun num => ?_
    match place, plus, hplace with
    | .variable _, true, hplace => exact (goes_change hplace h true hchange).bind fun _ => Goes.pure ⟨rfl, rfl⟩
    | .variable _, false, hplace => exact (goes_change hplace h false hchange).bind fun _ => Goes.pure ⟨rfl, rfl⟩
  | .postIncr (.element array index) plus, label, a, stack, h, hcode => by
    simp only [Expr.generate, codeAt_append, codeAt_cons, codeSize_append, codeSize_cons, codeSize_nil, Nat.add_zero,
      ← Nat.add_assoc] at hcode ⊢
    obtain ⟨hindex, hdup, hload, hexchange, hchange, -⟩ := hcode
    refine ((Named.element array index).goes hc label a stack h hindex).bind' fun place b st ⟨hplace, hb, hst⟩ => ?_
    subst hb hst
    rw [hc.env_eq]
    refine goes_dupIndex hplace ⟨hdup, trivial⟩ ((goes_load hplace h hload).bind fun num => ?_)
    match place, plus, hplace with
    | .element _ _, true, hplace =>
      refine Goes.done (fun s => step_op hexchange nofun) rfl ?_
      exact (goes_change hplace h true hchange).bind fun _ => Goes.pure ⟨rfl, rfl⟩
    | .element _ _, false, hplace =>
      refine Goes.done (fun s => step_op hexchange nofun) rfl ?_
      exact (goes_change hplace h false hchange).bind fun _ => Goes.pure ⟨rfl, rfl⟩
  | .special function e, label, a, stack, h, hcode => by
    simp [Expr.generate, ← Nat.add_assoc] at hcode ⊢
    obtain ⟨he, hspecial⟩ := hcode
    refine (e.goes hc label a stack h he).bind fun num => ?_
    rw [hc.env_eq]
    exact Goes.act (fun s => step_special hspecial) rfl
  | .read, label, a, stack, h, hcode => Goes.act (fun s => step_read hcode.1) rfl

theorem Named.goes (hc : c.Fits env functions g frames) : ∀ (name : Named) (label a : Nat) (stack : List BcStruct), name.Ok →
    CodeAt (functions g) a (name.generate label).1 →
    Goes env functions g frames c.fuel a stack (name.eval c) fun place b st =>
      place.Of name ∧ b = a + codeSize (name.generate label).1 ∧ st = place.onStack ++ stack
  | .simple _, _, _, _, _, _ => Goes.pure ⟨rfl, rfl, rfl⟩
  | .element _ index, label, a, stack, h, hcode =>
    (index.goes hc label a stack h.2 hcode).bind fun _ => Goes.pure ⟨rfl, rfl, rfl⟩

/-- The values of the arguments are on the stack, the last one on the top. -/
theorem Args.goes (hc : c.Fits env functions g frames) : ∀ (args : Args) (label a : Nat) (stack : List BcStruct), args.Ok →
    CodeAt (functions g) a (args.generate label).1 →
    Goes env functions g frames c.fuel a stack (args.eval c) fun nums b st =>
      b = a + codeSize (args.generate label).1 ∧ st = nums.reverse ++ stack ∧ nums.length = args.types.length
  | .nil, _, _, _, _, _ => Goes.pure ⟨rfl, rfl, rfl⟩
  | .value e rest, label, a, stack, h, hcode => by
    simp [Args.generate, ← Nat.add_assoc] at hcode ⊢
    obtain ⟨he, hrest⟩ := hcode
    refine (e.goes hc label a stack h.1 he).bind fun num => ?_
    refine (rest.goes hc _ _ _ h.2 hrest).bind' fun nums b st ⟨hb, hst, hlen⟩ => ?_
    exact Goes.pure ⟨hb, by simp [hst], by simp [Args.types, hlen]⟩
  | .array array rest, label, a, stack, h, hcode => by
    simp [Args.generate, ← Nat.add_assoc] at hcode ⊢
    obtain ⟨hconst, hrest⟩ := hcode
    have hi : (Instr.const (arrayDigits array) []).Ok :=
      ⟨fun d hd => (arrayDigits_lt array d hd).trans (by decide), nofun, Or.inl (arrayDigits_ne_nil array)⟩
    refine (goes_const hc hi hconst).bind fun num => ?_
    refine (rest.goes hc _ _ _ h hrest).bind' fun nums b st ⟨hb, hst, hlen⟩ => ?_
    exact Goes.pure ⟨hb, by simp [hst], by simp [Args.types, hlen]⟩

end

/-! Statements. -/

/-- Where the machine is at the end of a statement, which may go to the labels of the loop around it or to an
instruction that leaves the function. -/
def StmtEnds (f : Function) (loop : Loop) (b : Nat) (stack : List BcStruct) : Outcome → Nat → List BcStruct → Prop
  | .normal, b', stack' => b' = b ∧ stack' = stack
  | .break, b', stack' => loop.breakLabel ≠ 0 ∧ f.labels loop.breakLabel = some b' ∧ stack' = stack
  | .continue, b', stack' => loop.continueLabel ≠ 0 ∧ f.labels loop.continueLabel = some b' ∧ stack' = stack
  | .return num, b', stack' => InstrAt f b' (.op .return) ∧ stack' = num :: stack

/-- The labels of the loop are where there is code. -/
structure Loop.At (loop : Loop) (f : Function) : Prop where
  break_at : loop.breakLabel ≠ 0 → ∃ b, f.labels loop.breakLabel = some b
  continue_at : loop.continueLabel ≠ 0 → ∃ b, f.labels loop.continueLabel = some b

theorem flags_lt (e : Expr) : e.flags < 8 := by
  induction e using Expr.flags.induct <;> simp only [Expr.flags]
  all_goals first
    | decide
    | exact Nat.lt_of_le_of_lt Nat.and_le_right (by decide)
    | exact Nat.or_lt_two_pow (n := 3) ‹_› (by decide)

theorem goes_optional (hc : c.Fits env functions g frames) {e : Option Expr} {label : Nat} (h : ∀ value ∈ e, value.Ok)
    {popped : List Instr} (hpopped : popped = if e = none then [] else [.op .pop])
    (hcode : CodeAt (functions g) a ((optionalCode e label).1.1 ++ popped)) :
    Goes env functions g frames c.fuel a stack (optionalEval c e)
      (ends (a + codeSize ((optionalCode e label).1.1 ++ popped)) fun _ => stack) := by
  subst hpopped
  cases e with
  | none => exact Goes.pure ⟨rfl, rfl⟩
  | some e =>
    simp [optionalCode, ← Nat.add_assoc] at hcode ⊢
    refine (e.goes hc label a stack (h e rfl) hcode.1).bind fun num => ?_
    exact Goes.done (fun s => step_op hcode.2 nofun) rfl (Goes.pure ⟨rfl, rfl⟩)

theorem goes_printItems (hc : c.Fits env functions g frames) (items : List PrintItem) (label : Nat) (h : ∀ item ∈ items, item.Ok)
    (hcode : CodeAt (functions g) a (printCode items label).1) :
    Goes env functions g frames c.fuel a stack (printItems c items)
      (ends (a + codeSize (printCode items label).1) fun _ => stack) := by
  induction items generalizing label a with
  | nil => exact Goes.pure ⟨rfl, rfl⟩
  | cons item items ih =>
    have hitem := h item List.mem_cons_self
    have hitems := fun other hmem => h other (List.mem_cons_of_mem _ hmem)
    cases item with
    | string text =>
      simp [printCode, ← Nat.add_assoc] at hcode ⊢
      rw [printItems, hc.env_eq]
      exact (Goes.act (fun s => step_string hcode.1 hitem) rfl).bind fun _ => ih label hitems hcode.2
    | expression e =>
      simp [printCode, ← Nat.add_assoc] at hcode ⊢
      obtain ⟨he, hwrite, hrest⟩ := hcode
      rw [printItems, hc.env_eq]
      refine (e.goes hc label a stack hitem he).bind fun num => ?_
      exact (Goes.act (fun s => step_op hwrite nofun) rfl).bind fun _ => ih _ hitems hrest

theorem popped_eq (e : Option Expr) (label : Nat) :
    (if (optionalCode e label).2 &&& 16 ≠ 0 then [] else [Instr.op .pop]) = if e = none then [] else [.op .pop] := by
  cases e with
  | none => simp [optionalCode]
  | some e =>
    have hbit : ∀ flags < 8, flags &&& 16 = 0 := by decide
    have hflags : e.flags &&& 16 = 0 := hbit _ (flags_lt e)
    simp [optionalCode, hflags]

/-- The loop with `for`, from the condition on: the labels are those of the condition, of the body, of the update and
of what is behind the loop. -/
theorem goes_forRounds {loop : Loop} {cond : Expr} {update : Option Expr} {body : Computation Outcome}
    {l1 l2 l3 l4 a1 a2 a3 a4 a5 a6 : Nat}
    (hcond : Goes env functions g frames c.fuel a1 stack (cond.eval c) (ends a2 (· :: stack)))
    (hbranch : InstrAt (functions g) a2 (.jump .branch l2)) (hexit : InstrAt (functions g) (a2 + 3) (.jump .jump l4))
    (hupdate : Goes env functions g frames c.fuel a3 stack (optionalEval c update) (ends a4 fun _ => stack))
    (hback : InstrAt (functions g) a4 (.jump .jump l1))
    (hbody : Goes env functions g frames c.fuel a5 stack body (StmtEnds (functions g) ⟨l4, l3⟩ a6 stack))
    (hagain : InstrAt (functions g) a6 (.jump .jump l3)) (h1 : (functions g).labels l1 = some a1)
    (h2 : (functions g).labels l2 = some a5) (h3 : (functions g).labels l3 = some a3)
    (h4 : (functions g).labels l4 = some b) :
    Goes env functions g frames c.fuel a1 stack (Eval.rounds (forRound c (some cond) update body) c.fuel)
      (StmtEnds (functions g) loop b stack) := by
  refine Goes.rounds ?_
  have htest : Goes env functions g frames c.fuel a1 stack (holds c (some cond))
      fun more b' st => b' = (if more then a5 else b) ∧ st = stack := by
    refine hcond.bind fun num => ?_
    by_cases hzero : bcIsZero num
    · refine Goes.passed hbranch nofun h2 (by simpa [Jump.taken] using hzero) ?_
      exact Goes.step (fun s => step_jump hexit h4) (Goes.pure ⟨by simp [hzero], rfl⟩)
    · exact Goes.taken hbranch nofun h2 (by simpa [Jump.taken] using hzero) (Goes.pure ⟨by simp [hzero], rfl⟩)
  refine htest.bind' fun more b' st ⟨hb, hst⟩ => ?_
  subst hb hst
  cases more with
  | false => exact Goes.pure ⟨rfl, rfl⟩
  | true =>
    refine hbody.bind' fun outcome b' st' hpost => ?_
    match outcome, hpost with
    | .normal, ⟨hb, hst⟩ =>
      subst hb hst
      refine Goes.step (fun s => step_jump hagain h3) ?_
      exact hupdate.bind fun _ => Goes.pure fun s => step_jump hback h1
    | .continue, ⟨_, hb, hst⟩ =>
      obtain rfl := Option.some.inj (hb.symm.trans h3)
      subst hst
      exact hupdate.bind fun _ => Goes.pure fun s => step_jump hback h1
    | .break, ⟨_, hb, hst⟩ => exact Goes.pure ⟨Option.some.inj (hb.symm.trans h4), hst⟩
    | .return num, hpost => exact Goes.pure hpost

mutual

theorem Stmt.goes (hc : c.Fits env functions g frames) : ∀ (t : Stmt) {loop : Loop} {label next a : Nat} {code : List Instr}
    (stack : List BcStruct), t.Ok → t.generate loop label = some (code, next) → loop.At (functions g) →
    CodeAt (functions g) a code →
    Goes env functions g frames c.fuel a stack (t.eval c) (StmtEnds (functions g) loop (a + codeSize code) stack)
  | .expression e, loop, label, next, a, code, stack, h, hgen, _, hcode => by
    cases hgen
    simp only [codeAt_append, codeAt_cons, codeSize_append, codeSize_cons, codeSize_nil, Nat.add_zero, length_bytes_op,
      ← Nat.add_assoc] at hcode ⊢
    obtain ⟨he, hop, -⟩ := hcode
    rw [Stmt.eval, hc.env_eq]
    refine (e.goes hc label a stack h he).bind fun num => ?_
    by_cases hflags : e.flags &&& 1 ≠ 0
    · rw [if_pos hflags] at hop ⊢
      exact (Goes.act (fun s => step_op hop nofun) rfl).bind fun _ => Goes.pure ⟨rfl, rfl⟩
    · rw [if_neg hflags] at hop ⊢
      exact (Goes.act (fun s => step_op hop nofun) rfl).bind fun _ => Goes.pure ⟨rfl, rfl⟩
  | .string text, loop, label, next, a, code, stack, h, hgen, _, hcode => by
    cases hgen
    simp at hcode ⊢
    rw [Stmt.eval, hc.env_eq]
    exact (Goes.act (fun s => step_string hcode h) rfl).bind fun _ => Goes.pure ⟨rfl, rfl⟩
  | .break, loop, label, next, a, code, stack, _, hgen, hloop, hcode => by
    obtain ⟨hne, hsome⟩ := Option.ite_none_left_eq_some.mp hgen
    cases hsome
    obtain ⟨b, hb⟩ := hloop.break_at hne
    exact Goes.step (fun s => step_jump hcode.1 hb) (Goes.pure ⟨hne, hb, rfl⟩)
  | .continue, loop, label, next, a, code, stack, _, hgen, hloop, hcode => by
    obtain ⟨hne, hsome⟩ := Option.ite_none_left_eq_some.mp hgen
    cases hsome
    obtain ⟨b, hb⟩ := hloop.continue_at hne
    exact Goes.step (fun s => step_jump hcode.1 hb) (Goes.pure ⟨hne, hb, rfl⟩)
  | .halt, loop, label, next, a, code, stack, _, hgen, _, hcode => by
    cases hgen
    exact fun s => ⟨1, _, .single (step_op hcode.1 nofun), rfl, .here s⟩
  | .return none, loop, label, next, a, code, stack, _, hgen, _, hcode => by
    cases hgen
    exact Goes.done (fun s => step_op hcode.1 nofun) rfl (Goes.pure ⟨hcode.2.1, rfl⟩)
  | .return (some e), loop, label, next, a, code, stack, h, hgen, _, hcode => by
    cases hgen
    simp at hcode
    exact (e.goes hc label a stack (h e rfl) hcode.1).bind fun num => Goes.pure ⟨hcode.2, rfl⟩
  | .for (some init) (some cond) update body, loop, label, next, a, code, stack, h, hgen, hloop, hcode => by
    obtain ⟨⟨-, hinit⟩, ⟨-, hcond⟩, hupdate, hbody⟩ := h
    simp only [Stmt.generate, Option.map_eq_some_iff, Prod.mk.injEq] at hgen
    obtain ⟨⟨code4, label4⟩, hgen4, rfl, rfl⟩ := hgen
    rw [popped_eq] at hcode ⊢
    simp only [codeAt_append, codeAt_cons, codeSize_append, codeSize_cons, codeSize_nil, Nat.add_zero, length_bytes_op,
      length_bytes_jump, length_bytes_label, ← Nat.add_assoc] at hcode ⊢
    obtain ⟨⟨⟨⟨⟨⟨⟨⟨hcode1, hpop, hstart, -⟩, hcode2⟩, hbranch, hexit, hcont, -⟩, hcode3⟩, hpopped⟩, hback, henter, -⟩, hcode4⟩,
      hagain, hend, -⟩ := hcode
    have hinner : Loop.At ⟨label, (optionalCode (some cond) ((optionalCode (some init) (label + 1)).1.2 + 1)).1.2 + 1⟩
        (functions g) := ⟨fun _ => ⟨_, hend.2 _ rfl⟩, fun _ => ⟨_, hcont.2 _ rfl⟩⟩
    have hfirst := @goes_optional env functions g a frames stack c hc (some init) (label + 1) hinit [.op .pop] (if_neg nofun).symm
      (codeAt_append.mpr ⟨hcode1, hpop, trivial⟩)
    have hthird := @goes_optional env functions g _ frames stack c hc update _ hupdate _ rfl (codeAt_append.mpr ⟨hcode3, hpopped⟩)
    simp only [codeSize_append, codeSize_cons, codeSize_nil, Nat.add_zero, length_bytes_op, ← Nat.add_assoc] at hfirst hthird
    refine hfirst.bind fun _ => ?_
    exact goes_forRounds (cond.goes hc _ _ stack (hcond cond rfl) hcode2) hbranch hexit hthird hback
      (body.goes hc stack hbody hgen4 hinner hcode4) hagain (hstart.2 _ rfl) (henter.2 _ rfl) (hcont.2 _ rfl) (hend.2 _ rfl)
  | .for none _ _ _, _, _, _, _, _, _, h, _, _, _ => absurd rfl h.1.1
  | .for (some _) none _ _, _, _, _, _, _, _, h, _, _, _ => absurd rfl h.2.1.1
  | .if cond body, loop, label, next, a, code, stack, h, hgen, hloop, hcode => by
    obtain ⟨⟨code2, label2⟩, hgen2, hsome⟩ := Option.map_eq_some_iff.mp hgen
    cases hsome
    simp [← Nat.add_assoc] at hcode ⊢
    obtain ⟨hcond, hbranch, hbody, hend⟩ := hcode
    refine (cond.goes hc label a stack h.1 hcond).bind fun num => ?_
    by_cases hzero : bcIsZero num
    · rw [if_pos hzero]
      exact Goes.taken hbranch nofun (hend.2 _ rfl) hzero (Goes.pure ⟨rfl, rfl⟩)
    · rw [if_neg hzero]
      refine Goes.passed hbranch nofun (hend.2 _ rfl) (by simpa [Jump.taken] using hzero) ?_
      exact body.goes hc stack h.2 hgen2 hloop hbody
  | .ifElse cond body other, loop, label, next, a, code, stack, h, hgen, hloop, hcode => by
    obtain ⟨⟨code2, label2⟩, hgen2, hgen⟩ := Option.bind_eq_some_iff.mp hgen
    obtain ⟨⟨code3, label3⟩, hgen3, hsome⟩ := Option.map_eq_some_iff.mp hgen
    cases hsome
    simp [← Nat.add_assoc] at hcode ⊢
    obtain ⟨hcond, hbranch, hbody, hjump, helse, hother, hend⟩ := hcode
    refine (cond.goes hc label a stack h.1 hcond).bind fun num => ?_
    by_cases hzero : bcIsZero num
    · rw [if_pos hzero]
      exact Goes.taken hbranch nofun (helse.2 _ rfl) hzero (other.goes hc stack h.2.2 hgen3 hloop hother)
    · rw [if_neg hzero]
      refine Goes.passed hbranch nofun (helse.2 _ rfl) (by simpa [Jump.taken] using hzero) ?_
      refine (body.goes hc stack h.2.1 hgen2 hloop hbody).follow fun outcome b st hpost => ?_
      match outcome, hpost with
      | .normal, ⟨hb, hst⟩ =>
        subst hb hst
        exact ⟨_, st, ⟨rfl, rfl⟩, Or.inr fun s => step_jump hjump (hend.2 _ rfl)⟩
      | .break, hpost => exact ⟨b, st, hpost, Or.inl ⟨rfl, rfl⟩⟩
      | .continue, hpost => exact ⟨b, st, hpost, Or.inl ⟨rfl, rfl⟩⟩
      | .return num, hpost => exact ⟨b, st, hpost, Or.inl ⟨rfl, rfl⟩⟩
  | .while cond body, loop, label, next, a, code, stack, h, hgen, hloop, hcode => by
    obtain ⟨⟨code2, label2⟩, hgen2, hsome⟩ := Option.map_eq_some_iff.mp hgen
    cases hsome
    simp [← Nat.add_assoc] at hcode ⊢
    obtain ⟨hstart, hcond, hbranch, hbody, hjump, hend⟩ := hcode
    refine Goes.rounds ?_
    refine (cond.goes hc _ a stack h.1 hcond).bind fun num => ?_
    by_cases hzero : bcIsZero num
    · rw [if_pos hzero]
      exact Goes.taken hbranch nofun (hend.2 _ rfl) hzero (Goes.pure ⟨rfl, rfl⟩)
    · rw [if_neg hzero]
      refine Goes.passed hbranch nofun (hend.2 _ rfl) (by simpa [Jump.taken] using hzero) ?_
      have hinner : Loop.At ⟨(cond.generate (label + 1)).2, loop.continueLabel⟩ (functions g) :=
        ⟨fun _ => ⟨_, hend.2 _ rfl⟩, hloop.continue_at⟩
      refine (body.goes hc stack h.2 hgen2 hinner hbody).bind' fun outcome b st hpost => Goes.pure ?_
      match outcome, hpost with
      | .normal, ⟨hb, hst⟩ => exact fun s => hb ▸ hst ▸ step_jump hjump (hstart.2 _ rfl)
      | .break, ⟨_, hb, hst⟩ => exact ⟨Option.some.inj (hb.symm.trans (hend.2 _ rfl)), hst⟩
      | .continue, hpost => exact hpost
      | .return num, hpost => exact hpost
  | .block body, loop, label, next, a, code, stack, h, hgen, hloop, hcode => body.goes hc stack h hgen hloop hcode
  | .print items, loop, label, next, a, code, stack, h, hgen, _, hcode => by
    have hsome : printCode items label = (code, next) := Option.some.inj hgen
    have hitems := @goes_printItems env functions g a frames stack c hc items label h (hsome ▸ hcode)
    rw [hsome] at hitems
    exact hitems.bind fun _ => Goes.pure ⟨rfl, rfl⟩

theorem Stmts.goes (hc : c.Fits env functions g frames) : ∀ (t : Stmts) {loop : Loop} {label next a : Nat} {code : List Instr}
    (stack : List BcStruct), t.Ok → t.generate loop label = some (code, next) → loop.At (functions g) →
    CodeAt (functions g) a code →
    Goes env functions g frames c.fuel a stack (t.eval c) (StmtEnds (functions g) loop (a + codeSize code) stack)
  | .nil, loop, label, next, a, code, stack, _, hgen, _, _ => by
    cases hgen
    exact Goes.pure ⟨rfl, rfl⟩
  | .cons first rest, loop, label, next, a, code, stack, h, hgen, hloop, hcode => by
    obtain ⟨⟨code1, label1⟩, hgen1, hgen⟩ := Option.bind_eq_some_iff.mp hgen
    obtain ⟨⟨code2, label2⟩, hgen2, hsome⟩ := Option.map_eq_some_iff.mp hgen
    cases hsome
    simp [← Nat.add_assoc] at hcode ⊢
    refine (first.goes hc stack h.1 hgen1 hloop hcode.1).bind' fun outcome b st hpost => ?_
    match outcome, hpost with
    | .normal, ⟨hb, hst⟩ =>
      subst hb hst
      exact rest.goes hc _ h.2 hgen2 hloop hcode.2
    | .break, hpost => exact Goes.pure hpost
    | .continue, hpost => exact Goes.pure hpost
    | .return num, hpost => exact Goes.pure hpost

end

end Runs

end Bc

end DeviceDriverTest
