import DeviceDriverTest.BcExecute

/-! What the two bases and the scale can be: whatever code the machine runs, an assignment or a step of one
that leaves the range of the language is corrected, so that every state that is reached has them in their range. -/

namespace DeviceDriverTest

namespace Bc

open BcNumber Realization

structure Storage.InRange (s : Storage) : Prop where
  iBase : 2 ≤ s.iBase ∧ s.iBase ≤ 16
  oBase : 2 ≤ s.oBase ∧ s.oBase ≤ BC_BASE_MAX
  scale : s.scale ≤ BC_SCALE_MAX

/-- The action leaves the settings in their range, whether it yields a value or not. -/
def Keeps {α : Type} (x : Action α) : Prop := ∀ s, s.InRange → (x s).2.InRange

section Variables

variable {env : Env} {s : Storage}

theorem inRange_init (stdin : List Char) : (Storage.init stdin).InRange where
  iBase := ⟨by simp [Storage.init], by simp [Storage.init]⟩
  oBase := ⟨by simp [Storage.init], by simp [Storage.init, BC_BASE_MAX]⟩
  scale := by simp [Storage.init]

theorem Storage.InRange.say (h : s.InRange) (message : String) : (s.say message).InRange :=
  ⟨h.iBase, h.oBase, h.scale⟩

theorem Storage.InRange.sayIf (h : s.InRange) (c : Prop) [Decidable c] (message : String) :
    (if c then s.say message else s).InRange := by
  split_ifs
  · exact h.say message
  · exact h

/-- A negative value is taken for the least one, with a message. -/
theorem Storage.InRange.sayLeast (h : s.InRange) (c : Prop) [Decidable c] (least temp : Int) (message : String) :
    (if c then (least, s.say message) else (temp, s)).2.InRange := by
  split_ifs
  · exact h.say message
  · exact h

/-- What is left where a value is neither too small nor too large. -/
theorem toNat_between {temp : Int} {toobig : Bool} {most : Nat} (hlow : ¬(temp < 2 ∧ (!toobig) = true))
    (hhigh : ¬(temp > most ∨ toobig = true)) : 2 ≤ temp.toNat ∧ temp.toNat ≤ most := by
  obtain ⟨hle, hfit⟩ := not_or.mp hhigh
  have hlarge : ¬temp < 2 := fun hsmall => hlow ⟨hsmall, by simpa using hfit⟩
  omega

theorem inRange_storeVar (varName : Nat) (num : BcStruct) (h : s.InRange) : (storeVar env varName num s).InRange := by
  rcases hvalue : specialValue env.limits num with ⟨temp, toobig⟩
  rcases varName with _ | _ | _ | _ | n
  · simp only [storeVar, hvalue]
    have hpair := h.sayLeast (bcIsNeg num = true) 2 temp "negative ibase, set to 2"
    generalize (if bcIsNeg num = true then (2, s.say "negative ibase, set to 2") else (temp, s)) = pair at hpair ⊢
    split_ifs with hlow hhigh
    · exact ⟨(by decide : 2 ≤ 2 ∧ 2 ≤ 16), hpair.oBase, hpair.scale⟩
    · exact ⟨(by decide : 2 ≤ 16 ∧ 16 ≤ 16), hpair.oBase, hpair.scale⟩
    · exact ⟨toNat_between hlow hhigh, hpair.oBase, hpair.scale⟩
  · simp only [storeVar, hvalue]
    have hpair := h.sayLeast (bcIsNeg num = true) 2 temp "negative obase, set to 2"
    generalize (if bcIsNeg num = true then (2, s.say "negative obase, set to 2") else (temp, s)) = pair at hpair ⊢
    split_ifs with hlow hhigh
    · exact ⟨hpair.iBase, (by decide : 2 ≤ 2 ∧ 2 ≤ BC_BASE_MAX), hpair.scale⟩
    · exact ⟨hpair.iBase, (by decide : 2 ≤ BC_BASE_MAX ∧ BC_BASE_MAX ≤ BC_BASE_MAX), hpair.scale⟩
    · exact ⟨hpair.iBase, toNat_between hlow hhigh, hpair.scale⟩
  · simp only [storeVar, hvalue]
    have hsaid := h.sayIf (bcIsNeg num = true) "negative scale, set to 0"
    generalize (if bcIsNeg num = true then s.say "negative scale, set to 0" else s) = said at hsaid ⊢
    split_ifs with hhigh
    · exact ⟨hsaid.iBase, hsaid.oBase, le_refl BC_SCALE_MAX⟩
    · have hle := (not_or.mp hhigh).1
      exact ⟨hsaid.iBase, hsaid.oBase, by dsimp only; omega⟩
  · simpa only [storeVar] using h
  · simp only [storeVar]
    exact ⟨h.iBase, h.oBase, h.scale⟩

theorem inRange_decrVar (varName : Nat) (h : s.InRange) : (decrVar varName s).InRange := by
  obtain ⟨hi, ho, hs⟩ := h
  rcases varName with _ | _ | _ | n
  · simp only [decrVar]
    split_ifs
    · exact ⟨by dsimp only; omega, ho, hs⟩
    · exact ⟨hi, ho, hs⟩
  · simp only [decrVar]
    split_ifs
    · exact ⟨hi, by dsimp only; omega, hs⟩
    · exact ⟨hi, ho, hs⟩
  · simp only [decrVar]
    split_ifs
    · exact ⟨hi, ho, by dsimp only; omega⟩
    · exact ⟨hi, ho, hs⟩
  · exact ⟨hi, ho, hs⟩

theorem inRange_incrVar (varName : Nat) (h : s.InRange) : (incrVar varName s).InRange := by
  obtain ⟨hi, ho, hs⟩ := h
  rcases varName with _ | _ | _ | n
  · simp only [incrVar]
    split_ifs
    · exact ⟨by dsimp only; omega, ho, hs⟩
    · exact ⟨hi, ho, hs⟩
  · simp only [incrVar]
    split_ifs
    · exact ⟨hi, by dsimp only; omega, hs⟩
    · exact ⟨hi, ho, hs⟩
  · simp only [incrVar]
    split_ifs
    · exact ⟨hi, ho, by dsimp only; omega⟩
    · exact ⟨hi, ho, hs⟩
  · exact ⟨hi, ho, hs⟩

theorem inRange_autoVar (name : Int) (h : s.InRange) : (autoVar s name).InRange := by
  rw [autoVar]
  split_ifs
  · exact ⟨h.iBase, h.oBase, h.scale⟩
  · exact ⟨h.iBase, h.oBase, h.scale⟩

theorem inRange_autos (autos : List ArgList) (h : s.InRange) :
    (autos.foldl (fun s auto => autoVar s auto.avName) s).InRange := by
  induction autos generalizing s with
  | nil => exact h
  | cons auto autos ih => exact ih (inRange_autoVar auto.avName h)

theorem inRange_popVars (list : List ArgList) (h : s.InRange) : (popVars list s).InRange := by
  induction list generalizing s with
  | nil => exact h
  | cons arg list ih =>
    refine ih ?_
    rw [popVar]
    split_ifs
    · exact ⟨h.iBase, h.oBase, h.scale⟩
    · exact ⟨h.iBase, h.oBase, h.scale⟩

theorem inRange_leave (f : Function) (h : s.InRange) : (f.leave s).InRange :=
  inRange_popVars f.params (inRange_popVars f.autos h)

theorem inRange_getArray (name : Nat) (h : s.InRange) : (getArray name s).InRange := by
  rw [getArray]
  split_ifs
  · exact ⟨h.iBase, h.oBase, h.scale⟩
  · exact h

theorem inRange_putChars {put : Storage → Char → Storage} {lineSize : Nat} {fold : Bool}
    (hput : ∀ s ch, put s ch = putChar lineSize fold s ch) (text : List Char) (h : s.InRange) :
    (text.foldl put s).InRange := by
  induction text generalizing s with
  | nil => exact h
  | cons ch text ih =>
    refine ih ?_
    rw [hput, putChar]
    split_ifs <;> exact ⟨h.iBase, h.oBase, h.scale⟩

end Variables

section Actions

variable {α β : Type} {env : Env}

theorem keeps_done (a : α) : Keeps (done a) := fun _ h => h

theorem keeps_undefined : Keeps (undefined : Action α) := fun _ h => h

theorem keeps_rtError (message : String) : Keeps (rtError message : Action α) := fun _ h => h.say message

theorem keeps_defined (value : Option α) : Keeps (defined value) := by
  intro s h
  cases value <;> exact h

theorem keeps_andThen {action : Action α} {f : α → Action β} (haction : Keeps action) (hf : ∀ a, Keeps (f a)) :
    Keeps (andThen action f) := by
  intro s h
  have hs := haction s h
  rw [andThen]
  rcases hresult : action s with ⟨_ | a, s'⟩
  · simpa only [hresult] using hs
  · exact hf a s' (by simpa only [hresult] using hs)

theorem keeps_pushed (stack : List BcStruct) {action : Action BcStruct} (h : Keeps action) :
    Keeps (pushed stack action) :=
  keeps_andThen h fun _ => keeps_done _

theorem keeps_arith (op : Arith) (left right : BcStruct) : Keeps (op.apply env left right) := by
  intro s h
  cases op with
  | add => exact h
  | sub => exact h
  | mul => exact keeps_defined _ s h
  | div =>
    rw [Arith.apply]
    cases bcDivide left right s.scale with
    | some quot => exact h
    | none => exact h.say _
  | mod =>
    rw [Arith.apply]
    split_ifs
    · exact h.say _
    · exact keeps_defined _ s h
  | raise =>
    rw [Arith.apply]
    generalize bcRaise env.limits left right s.scale = raise
    have hs := (h.sayIf (raise.fraction = true) "non-zero scale in exponent").sayIf (raise.tooLarge = true)
      "exponent too large in raise"
    generalize (if raise.tooLarge = true then _ else _) = said at hs ⊢
    split_ifs
    · exact hs.say _
    · exact hs
    · exact keeps_defined _ said hs

theorem keeps_special (function : Special) (num : BcStruct) : Keeps (function.apply env num) := by
  intro s h
  cases function with
  | length => exact h
  | scale => exact h
  | sqrt =>
    rw [Special.apply]
    cases env.bcSqrt num s.scale with
    | some root => exact h
    | none => exact h.say _

theorem keeps_readInput : Keeps readInput := by
  intro s h
  rw [readInput]
  rcases pushConstant s.iBase s.input with _ | ⟨num, rest⟩
  · exact h
  · exact ⟨h.iBase, h.oBase, h.scale⟩

theorem keeps_writeNum (newline : Bool) (num : BcStruct) : Keeps (writeNum env newline num) := by
  intro s h
  rw [writeNum]
  cases bcOutNum env.limits num s.oBase with
  | none => exact h
  | some text =>
    have hs := @inRange_putChars s (outChar env) _ _ (fun _ _ => rfl) (text ++ if newline then ['\n'] else []) h
    exact ⟨hs.iBase, hs.oBase, hs.scale⟩

theorem keeps_writeString (text : List Char) : Keeps (writeString env text) :=
  fun s h => @inRange_putChars s (outSchar env) _ _ (fun _ _ => rfl) text h

theorem keeps_accessArray (name : Nat) (index : BcStruct) (change : BcStruct → BcStruct) :
    Keeps (accessArray env name index change) := by
  intro s h
  rw [accessArray]
  cases subscript env.limits index with
  | none => exact h.say _
  | some place =>
    have hs := inRange_getArray name h
    exact ⟨hs.iBase, hs.oBase, hs.scale⟩

theorem keeps_operate (o : Op) (stack : List BcStruct) : Keeps (operate env o stack) := by
  cases o with
  | writeLine =>
    cases stack with
    | nil => exact keeps_undefined
    | cons num stack => exact keeps_andThen (keeps_writeNum true num) fun _ => keeps_done stack
  | write =>
    cases stack with
    | nil => exact keeps_undefined
    | cons num stack => exact keeps_andThen (keeps_writeNum false num) fun _ => keeps_done stack
  | arith op =>
    rcases stack with _ | ⟨right, _ | ⟨left, stack⟩⟩
    · exact keeps_rtError _
    · exact keeps_rtError _
    · exact keeps_pushed stack (keeps_arith op left right)
  | exchange =>
    rcases stack with _ | ⟨num1, _ | ⟨num2, stack⟩⟩
    · exact keeps_rtError _
    · exact keeps_rtError _
    · exact keeps_done _
  | rel op =>
    rcases stack with _ | ⟨right, _ | ⟨left, stack⟩⟩
    · exact keeps_rtError _
    · exact keeps_rtError _
    · exact keeps_done _
  | _ => cases stack <;> exact fun s h => ⟨h.iBase, h.oBase, h.scale⟩

theorem keeps_test (both : Bool → Bool → Bool) (stack : List BcStruct) : Keeps (test both stack) := by
  rcases stack with _ | ⟨right, _ | ⟨left, stack⟩⟩
  · exact keeps_rtError _
  · exact keeps_rtError _
  · exact keeps_done _

theorem keeps_access (name : Nat) (o : VarOp) (stack : List BcStruct) : Keeps (access env name o stack) := by
  cases o with
  | load => exact fun s h => h
  | store =>
    cases stack with
    | nil => exact keeps_undefined
    | cons num stack => exact fun s h => inRange_storeVar name num h
  | incr => exact fun s h => inRange_incrVar name h
  | decr => exact fun s h => inRange_decrVar name h
  | loadArray =>
    cases stack with
    | nil => exact keeps_rtError _
    | cons index stack => exact keeps_pushed stack (keeps_accessArray name index id)
  | storeArray =>
    rcases stack with _ | ⟨num, _ | ⟨index, stack⟩⟩
    · exact keeps_rtError _
    · exact keeps_rtError _
    · exact keeps_pushed stack (keeps_accessArray name index fun _ => num)
  | incrArray =>
    cases stack with
    | nil => exact keeps_rtError _
    | cons index stack => exact keeps_andThen (keeps_accessArray name index _) fun _ => keeps_done stack
  | decrArray =>
    cases stack with
    | nil => exact keeps_rtError _
    | cons index stack => exact keeps_andThen (keeps_accessArray name index _) fun _ => keeps_done stack

theorem keeps_bindParam (ch : Char) (param : ArgList) (num : BcStruct) : Keeps (bindParam env ch param num) := by
  intro s h
  have hs := inRange_getArray (bcNum2long env.limits num).toNat h
  rw [bindParam]
  split_ifs
  · exact ⟨h.iBase, h.oBase, h.scale⟩
  · exact ⟨hs.iBase, hs.oBase, hs.scale⟩
  · exact ⟨hs.iBase, hs.oBase, hs.scale⟩
  · exact h

theorem keeps_processParams (types : List Char) (params : List ArgList) (stack : List BcStruct) :
    Keeps (processParams env types params stack) := by
  induction types generalizing params stack with
  | nil =>
    cases params with
    | nil => exact fun s h => h
    | cons param params => exact keeps_rtError _
  | cons ch types ih =>
    cases params with
    | nil => exact keeps_rtError _
    | cons param params =>
      cases stack with
      | nil => exact fun s h => h
      | cons num stack =>
        intro s h
        have hs := @keeps_bindParam env ch param num s h
        simp only [processParams]
        rcases hresult : bindParam env ch param num s with ⟨_ | ⟨⟩, s'⟩
        · simpa only [hresult] using hs
        · exact ih params stack s' (by simpa only [hresult] using hs)

end Actions

namespace Machine

variable {env : Env} {functions : Nat → Function} {m : Machine}

/-- The settings are in their range, and so is the input base that each call has kept. -/
structure Held (m : Machine) : Prop where
  storage : m.storage.InRange
  frames : ∀ frame ∈ m.fnStack, 2 ≤ frame.iBase ∧ frame.iBase ≤ 16

theorem Held.stop (h : m.Held) (why : Stop) : (m.stop why).Held := ⟨h.storage, h.frames⟩

theorem Held.readTo (h : m.Held) (code rest : List Nat) : (m.readTo code rest).Held := ⟨h.storage, h.frames⟩

theorem Held.act (h : m.Held) {action : List BcStruct → Action (List BcStruct)}
    (hkeeps : ∀ stack, Keeps (action stack)) : (m.act action).Held := by
  have hs := hkeeps m.exStack m.storage h.storage
  rw [Machine.act]
  rcases hresult : action m.exStack m.storage with ⟨_ | stack, s⟩
  · exact ⟨by simpa only [hresult] using hs, h.frames⟩
  · exact ⟨by simpa only [hresult] using hs, h.frames⟩

theorem Held.rtError (h : m.Held) (message : String) : (m.act fun _ => Bc.rtError message).Held :=
  h.act fun _ => keeps_rtError message

theorem Held.named (h : m.Held) (code : List Nat) (o : VarOp) : (m.named code fun name => access env name o).Held := by
  rw [Machine.named]
  cases readName code with
  | some next => exact (h.readTo code next.2).act (keeps_access next.1 o)
  | none => exact h.stop _

theorem Held.write (h : m.Held) (code : List Nat) {action : List Char → Action Unit}
    (hkeeps : ∀ text, Keeps (action text)) : (m.write code action).Held := by
  rw [Machine.write]
  cases code.dropWhile (· ≠ '"'.toNat) with
  | cons quote rest => exact (h.readTo code rest).act fun stack => keeps_andThen (hkeeps _) fun _ => keeps_done stack
  | nil => exact h.stop _

theorem Held.branch (h : m.Held) (f : Function) (code : List Nat) (cCode : Bool) : (m.branch f code cCode).Held := by
  rcases code with _ | ⟨low, _ | ⟨high, code⟩⟩
  · exact h.stop _
  · exact h.stop _
  · rw [Machine.branch]
    split_ifs
    · cases f.labels (low + high * 256) with
      | some addr => exact ⟨h.storage, h.frames⟩
      | none => exact h.stop _
    · exact ⟨h.storage, h.frames⟩

theorem Held.branchOn (h : m.Held) (f : Function) (code : List Nat) (cCode : BcStruct → Bool) :
    (m.branchOn f code cCode).Held := by
  rw [Machine.branchOn]
  cases m.exStack with
  | cons num stack => exact @Held.branch { m with exStack := stack } ⟨h.storage, h.frames⟩ f code (cCode num)
  | nil => exact h.stop _

/-- A call keeps the input base behind the parameters and the autos, which does not change it. -/
theorem Held.call (h : m.Held) (newFunc : Nat) (types : List Char) : (m.call env functions newFunc types).Held := by
  rw [Machine.call]
  split_ifs
  · exact h.rtError _
  · have hs := inRange_autos (functions newFunc).autos
      (@keeps_processParams env types (functions newFunc).params m.exStack m.storage h.storage)
    refine ⟨hs, fun frame hframe => ?_⟩
    obtain rfl | hrest := List.mem_cons.mp hframe
    · exact hs.iBase
    · exact h.frames frame hrest

theorem Held.callCode (h : m.Held) (code : List Nat) : (m.callCode env functions code).Held := by
  rw [Machine.callCode]
  rcases readName code with _ | ⟨newFunc, text⟩
  · exact h.stop _
  · dsimp only
    cases text.dropWhile (· ≠ COLON) with
    | cons colon rest => exact (h.readTo code rest).call newFunc _
    | nil => exact h.stop _

theorem Held.returnFrom (h : m.Held) : (m.returnFrom functions).Held := by
  rw [Machine.returnFrom]
  split_ifs
  · exact h.rtError _
  · cases hframes : m.fnStack with
    | cons frame frames =>
      refine ⟨inRange_leave _ h.storage, fun other hother => h.frames other ?_⟩
      rw [hframes]
      exact List.mem_cons_of_mem frame hother
    | nil => exact h.rtError _

theorem Held.constant (h : m.Held) (code : List Nat) : (m.constant code).Held := by
  rw [Machine.constant]
  cases if m.func = 0 then some m.storage.iBase else m.fnStack.head?.map Frame.iBase with
  | some constBase =>
    dsimp only
    rcases readConst constBase code with _ | ⟨num, rest⟩
    · exact h.stop _
    · exact (h.readTo code rest).act fun _ => keeps_done _
  | none => exact h.stop _

theorem Held.onTop (h : m.Held) (function : Special) : (m.onTop (function.apply env)).Held := by
  refine h.act fun stack => ?_
  cases stack with
  | cons num stack => exact keeps_pushed stack (keeps_special function num)
  | nil => exact keeps_undefined

theorem Held.special (h : m.Held) (code : List Nat) : (m.special env code).Held := by
  cases code with
  | nil => exact h.stop _
  | cons byte rest =>
    have hread := h.readTo (byte :: rest) rest
    rw [Machine.special]
    split
    · exact hread.onTop .length
    · exact hread.onTop .scale
    · exact hread.onTop .sqrt
    · exact hread.act fun stack => keeps_pushed stack keeps_readInput
    · exact hread

/-- Whatever byte stands in the code. -/
theorem Held.instruction (h : m.Held) (inst : Char) (code : List Nat) :
    (m.instruction env functions inst code).Held := by
  unfold Machine.instruction
  split
  all_goals first
    | exact h.act (keeps_operate _)
    | exact h.named code _
    | exact h.rtError _
    | exact h.act (keeps_test _)
    | exact h.branch _ code _
    | exact h.branchOn _ code _
    | exact h.write code keeps_writeString
    | exact h.write code fun text => keeps_writeString (processed text)
    | exact h.callCode code
    | exact h.constant code
    | exact h.returnFrom
    | exact h.special code

theorem Held.step (h : m.Held) : (m.step env functions).Held := by
  rw [Machine.step]
  cases (functions m.func).body.drop m.addr with
  | cons inst code =>
    exact @Held.instruction env functions { m with addr := m.addr + 1 } ⟨h.storage, h.frames⟩ _ code
  | nil => exact h

theorem Held.steps {m' : Machine} {n : Nat} (h : m.Held) (hsteps : Steps (Step env functions) n m m') : m'.Held := by
  induction hsteps with
  | refl m => exact h
  | head first rest ih =>
    rw [first.2] at ih
    exact ih h.step

theorem inRange_unwind {func : Nat} {frames : List Frame} {s : Storage} (h : s.InRange) :
    (unwind functions func frames s).InRange := by
  induction frames generalizing func s with
  | nil =>
    cases func <;> exact h
  | cons frame frames ih =>
    cases func with
    | zero => exact h
    | succ func => exact ih (inRange_leave _ h)

theorem Held.finish (h : m.Held) : (m.finish functions).InRange := by
  rw [Machine.finish]
  split
  · exact inRange_unwind h.storage
  · exact inRange_unwind h.storage
  · exact h.storage

/-- Whatever the code of the functions is, in every state that a run reaches the settings are in their range, and so
are the input bases that calls have kept and what the run leaves where it ends there. -/
theorem steps_start_inRange {s : Storage} {n : Nat} (hs : s.InRange)
    (hsteps : Steps (Step env functions) n (start s) m) : m.Held ∧ (m.finish functions).InRange := by
  have hstart : (start s).Held := ⟨hs, by simp [start]⟩
  have hheld := hstart.steps hsteps
  exact ⟨hheld, hheld.finish⟩

theorem steps_start_inRange_one :
    ∃ (env : Env) (functions : Nat → Function), (start (.init [])).running functions ∧
      ((start (.init [])).step env functions).Held ∧
      (((start (.init [])).step env functions).finish functions).InRange :=
  ⟨⟨⟨9223372036854775807, 2147483647, by decide⟩, fun _ _ => none, 70, false, fun _ => "", fun _ => ""⟩,
    fun _ => ⟨true, ['1'.toNat], fun _ => none, [], []⟩, by decide,
    steps_start_inRange (inRange_init []) (Steps.single ⟨by decide, rfl⟩)⟩

end Machine

end Bc

end DeviceDriverTest
