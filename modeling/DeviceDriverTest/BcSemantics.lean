import DeviceDriverTest.BcExecute

/-! What the programs of `bc` mean: the values of the expressions, and where a statement goes on. Nothing here is
taken from the code that is generated; the loops and the calls have fuel. -/

namespace DeviceDriverTest

namespace Bc

open BcNumber Realization

abbrev Computation (α : Type) := Eval Storage Stop α

/-- Where an expression or a statement stands: the base that a function reads its constants in, how many rounds a
loop may take, and what a call does with the values of its arguments, the last one first. -/
structure Context where
  env : Env
  constBase : Option Nat
  fuel : Nat
  call : Nat → List Char → List BcStruct → Computation BcStruct

/-- What the machine reads where the text stands in the code. -/
def readValue (constBase : Option Nat) (text : List Nat) : Action BcStruct := fun s =>
  defined ((readConst (constBase.getD s.iBase) (text ++ [COLON])).map Prod.fst) s

def constantValue (constBase : Option Nat) (whole fraction : List Nat) : Action BcStruct :=
  if whole = [0] ∧ fraction = [] then done zero
  else if whole = [1] ∧ fraction = [] then done one
  else readValue constBase (token whole fraction)

/-- The array of an argument is named by its number, which is read like the constants of the program. -/
def arrayValue (constBase : Option Nat) (array : Nat) : Action BcStruct := readValue constBase (token (arrayDigits array) [])

/-- What a name stands for, where the index of an element is known. -/
inductive Place where
  | variable (varName : Nat)
  | element (array : Nat) (index : BcStruct)

namespace Place

variable (env : Env)

def load : Place → Action BcStruct
  | .variable varName => fun s => (.ok (loadVar varName s), s)
  | .element array index => loadArray env array index

def store (num : BcStruct) : Place → Action BcStruct
  | .variable varName => fun s => (.ok num, storeVar env varName num s)
  | .element array index => storeArray env array index num

def change (plus : Bool) : Place → Action Unit
  | .variable varName => fun s => (.ok (), if plus then incrVar varName s else decrVar varName s)
  | .element array index =>
    andThen (if plus then incrArray env array index else decrArray env array index) fun _ => done ()

end Place

mutual

def Expr.eval (c : Context) : Expr → Computation BcStruct
  | .assign target none value => do
    let place ← target.eval c
    let num ← value.eval c
    Eval.lift (place.store c.env num)
  | .assign target (some op) value => do
    let place ← target.eval c
    let old ← Eval.lift (place.load c.env)
    let num ← value.eval c
    let num ← Eval.lift (op.apply c.env old num)
    Eval.lift (place.store c.env num)
  | .and left right => do
    let num ← left.eval c
    if bcIsZero num then pure num
    else
      let num ← right.eval c
      pure (if bcIsZero num then num else one)
  | .or left right => do
    let num ← left.eval c
    if bcIsZero num then
      let num ← right.eval c
      pure (ofCode (!bcIsZero num))
    else pure one
  | .not e => do
    let num ← e.eval c
    pure (ofCode (bcIsZero num))
  | .rel op left right => do
    let num1 ← left.eval c
    let num2 ← right.eval c
    pure (op.apply num1 num2)
  | .arith op left right => do
    let num1 ← left.eval c
    let num2 ← right.eval c
    Eval.lift (op.apply c.env num1 num2)
  | .neg e => do
    let num ← e.eval c
    pure (bcSub zero num 0)
  | .named name => do
    let place ← name.eval c
    Eval.lift (place.load c.env)
  | .number whole fraction => Eval.lift (constantValue c.constBase whole fraction)
  | .paren e => e.eval c
  | .call function args => do
    let nums ← args.eval c
    c.call function args.types nums.reverse
  | .preIncr plus name => do
    let place ← name.eval c
    Eval.lift (place.change c.env plus)
    Eval.lift (place.load c.env)
  | .postIncr name plus => do
    let place ← name.eval c
    let num ← Eval.lift (place.load c.env)
    Eval.lift (place.change c.env plus)
    pure num
  | .special function e => do
    let num ← e.eval c
    Eval.lift (function.apply c.env num)
  | .read => Eval.lift readInput

def Named.eval (c : Context) : Named → Computation Place
  | .simple varName => pure (.variable varName)
  | .element array index => do
    let num ← index.eval c
    pure (.element array num)

/-- The values of the arguments, from the first one on. -/
def Args.eval (c : Context) : Args → Computation (List BcStruct)
  | .nil => pure []
  | .value e rest => do
    let num ← e.eval c
    let nums ← rest.eval c
    pure (num :: nums)
  | .array array rest => do
    let num ← Eval.lift (arrayValue c.constBase array)
    let nums ← rest.eval c
    pure (num :: nums)

end

/-- How a statement ends. -/
inductive Outcome where
  | normal
  | break
  | continue
  | return (num : BcStruct)

/-- How a round of a loop ends the loop, if it does. A `continue` is for the loops with `for`, and one in a loop
with `while` is for the loop around that. -/
def Outcome.endsWhile : Outcome → Option Outcome
  | .normal => none
  | .break => some .normal
  | outcome => some outcome

def Outcome.endsFor : Outcome → Option Outcome
  | .normal => none
  | .continue => none
  | .break => some .normal
  | .return num => some (.return num)

def printItems (c : Context) : List PrintItem → Computation Unit
  | [] => pure ()
  | .string text :: items => do
    Eval.lift (writeString c.env (processed text))
    printItems c items
  | .expression e :: items => do
    let num ← e.eval c
    Eval.lift (writeNum c.env false num)
    printItems c items

/-- The value of an expression that may be missing is not used. -/
def optionalEval (c : Context) : Option Expr → Computation Unit
  | none => pure ()
  | some e => do
    let _ ← e.eval c
    pure ()

def holds (c : Context) : Option Expr → Computation Bool
  | none => pure true
  | some cond => do
    let num ← cond.eval c
    pure (!bcIsZero num)

/-- A round of a loop; without a value the loop goes on. -/
def forRound (c : Context) (cond update : Option Expr) (body : Computation Outcome) : Computation (Option Outcome) := do
  if ← holds c cond then
    let outcome ← body
    match outcome.endsFor with
    | some outcome => pure (some outcome)
    | none => do
      optionalEval c update
      pure none
  else pure (some .normal)

def whileRound (c : Context) (cond : Expr) (body : Computation Outcome) : Computation (Option Outcome) := do
  let num ← cond.eval c
  if bcIsZero num then pure (some .normal)
  else
    let outcome ← body
    pure outcome.endsWhile

mutual

def Stmt.eval (c : Context) : Stmt → Computation Outcome
  | .expression e => do
    let num ← e.eval c
    Eval.lift (if e.flags &&& 1 ≠ 0 then writeNum c.env true num else done ())
    pure .normal
  | .string text => do
    Eval.lift (writeString c.env text)
    pure .normal
  | .break => pure .break
  | .continue => pure .continue
  | .halt => Eval.lift fun s => (.error .exited, s)
  | .return none => pure (.return zero)
  | .return (some e) => do
    let num ← e.eval c
    pure (.return num)
  | .for init cond update body => do
    optionalEval c init
    Eval.rounds (forRound c cond update (body.eval c)) c.fuel
  | .if cond body => do
    let num ← cond.eval c
    if bcIsZero num then pure .normal else body.eval c
  | .ifElse cond body other => do
    let num ← cond.eval c
    if bcIsZero num then other.eval c else body.eval c
  | .while cond body => Eval.rounds (whileRound c cond (body.eval c)) c.fuel
  | .block body => body.eval c
  | .print items => do
    printItems c items
    pure .normal

def Stmts.eval (c : Context) : Stmts → Computation Outcome
  | .nil => pure .normal
  | .cons first rest => do
    match ← first.eval c with
    | .normal => rest.eval c
    | outcome => pure outcome

end

/-! Functions. -/

/-- The functions of a program by their numbers. -/
abbrev Definitions := Nat → Option Definition

namespace Definition

variable (d : Definition)

/-- The variables that the function has of its own get their values. -/
def enter (env : Env) (types : List Char) (nums : List BcStruct) : Action Unit := fun s =>
  let (params, s) := processParams env types d.params.reverse nums s
  (params.map fun _ => (), d.autos.reverse.foldl (fun s auto => autoVar s auto.avName) s)

/-- Those that were there before are seen again. -/
def leave (s : Storage) : Storage := popVars d.params.reverse (popVars d.autos.reverse s)

end Definition

/-- The end of a function yields zero. -/
def Outcome.value : Outcome → BcStruct
  | .return num => num
  | _ => zero

/-- A call of a function. The constants in it are read in the base that there is at the call; however the
body ends, the variables of the function are gone then. -/
def callFunction (env : Env) (defs : Definitions) : Nat → Nat → List Char → List BcStruct → Computation BcStruct
  | 0, _, _, _ => fun _ => none
  | fuel + 1, function, types, nums => fun s =>
    match defs function with
    | none => some (rtError ("Function " ++ env.fNames function ++ " not defined.") s)
    | some d =>
      match d.enter env types nums s with
      | (.error why, s) => some (.error why, d.leave s)
      | (.ok (), s) =>
        (d.body.eval ⟨env, some s.iBase, fuel, callFunction env defs fuel⟩ s).map fun (outcome, s) =>
          (outcome.map Outcome.value, d.leave s)

/-- A line of the program, which has no value to return. -/
def runLine (env : Env) (defs : Definitions) (fuel : Nat) (line : Stmts) : Computation Unit := do
  match ← line.eval ⟨env, none, fuel, callFunction env defs fuel⟩ with
  | .return _ => Eval.lift (rtError "Return from main program.")
  | _ => pure ()

end Bc

end DeviceDriverTest
