import DeviceDriverTest.BcOutput
import Mathlib.Logic.Function.Basic

/-! What a program of `bc` works on: its variables and arrays with those that calls have put in front of them,
the two bases and the scale, and the output. -/

namespace DeviceDriverTest

namespace Bc

open BcNumber

def BC_BASE_MAX : Nat := 0x7FFFFFFF

def BC_SCALE_MAX : Nat := 0x7FFFFFFF

def BC_DIM_MAX : Nat := 65535

/-- Why a run ends: a runtime error, the statement that halts the machine, or something that C leaves undefined. -/
inductive Stop where
  | error
  | exited
  | undefined
  deriving DecidableEq

/-- What a run has from outside: the limits of the machine, the square root, how the output is folded, and
the names in the messages. -/
structure Env where
  limits : Limits
  bcSqrt : BcStruct → Nat → Option BcStruct
  lineSize : Nat
  stdOnly : Bool
  aNames : Nat → String
  fNames : Nat → String

/-- A variable is the stack of its values, where the one in front is seen; an array is the stack of the places
that hold its elements. An array that is not there yet, or a variable, is an empty stack. The input is what
`input_char` is going to return. -/
structure Storage where
  bcVars : Nat → List BcStruct
  arrays : Nat → List Nat
  heap : Nat → Nat → BcStruct
  nextArray : Nat
  iBase : Nat
  oBase : Nat
  scale : Nat
  outCol : Nat
  output : List Char
  messages : List String
  input : List Nat

/-- What an instruction does: the value it yields, or why it stops the run. -/
abbrev Action (α : Type) := Storage → Except Stop α × Storage

/-- The parameter of a function, or an auto variable; the name of an array is negative. -/
structure ArgList where
  avName : Int
  argIsVar : Bool
  deriving DecidableEq

/-- The digits of a number that is read, and what stands for the other characters. -/
def inputCode (inCh : Char) : Nat :=
  if isdigit inCh then CH_VAL inCh
  else if 'A' ≤ inCh ∧ inCh ≤ 'F' then inCh.toNat + 10 - 'A'.toNat
  else if 'a' ≤ inCh ∧ inCh ≤ 'f' then inCh.toNat + 10 - 'a'.toNat
  else if inCh = '.' ∨ inCh = '+' ∨ inCh = '-' then inCh.toNat
  else if inCh ≤ ' ' then ' '.toNat
  else ':'.toNat

/-- What `input_char` returns, one call after the other. -/
def inputChar : List Char → List Nat
  | '\\' :: '\n' :: inCh :: stdin => inputCode inCh :: inputChar stdin
  | '\\' :: inCh :: stdin => inputCode inCh :: inputChar stdin
  | inCh :: stdin => inputCode inCh :: inputChar stdin
  | [] => []

namespace Storage

def init (stdin : List Char) : Storage where
  bcVars _ := []
  arrays _ := []
  heap _ _ := zero
  nextArray := 0
  iBase := 10
  oBase := 10
  scale := 0
  outCol := 0
  output := []
  messages := []
  input := inputChar stdin

def say (s : Storage) (message : String) : Storage := { s with messages := s.messages ++ [message] }

end Storage

def rtError {α : Type} (message : String) : Action α := fun s => (.error .error, s.say message)

/-- The value, where what computes it has not run into undefined behaviour. -/
def defined {α : Type} (value : Option α) : Action α := fun s =>
  match value with
  | some a => (.ok a, s)
  | none => (.error .undefined, s)

def ofCode (cCode : Bool) : BcStruct := if cCode then one else zero

/-! Output. -/

def putChar (lineSize : Nat) (fold : Bool) (s : Storage) (ch : Char) : Storage :=
  if ch = '\n' then { s with outCol := 0, output := s.output ++ ['\n'] }
  else if fold then
    if s.outCol + 1 = lineSize - 1 then { s with outCol := 1, output := s.output ++ ['\\', '\n', ch] }
    else { s with outCol := s.outCol + 1, output := s.output ++ [ch] }
  else { s with output := s.output ++ [ch] }

def outChar (env : Env) : Storage → Char → Storage := putChar env.lineSize true

def outSchar (env : Env) : Storage → Char → Storage := putChar env.lineSize (!env.stdOnly)

/-- The instruction that writes a number, with a newline or without one; the number is the last one then. -/
def writeNum (env : Env) (newline : Bool) (num : BcStruct) : Action Unit := fun s =>
  match bcOutNum env.limits num s.oBase with
  | none => (.error .undefined, s)
  | some text =>
    let s := (text ++ if newline then ['\n'] else []).foldl (outChar env) s
    (.ok (), { s with bcVars := Function.update s.bcVars 4 (num :: (s.bcVars 4).tail) })

def writeString (env : Env) (text : List Char) : Action Unit := fun s => (.ok (), text.foldl (outSchar env) s)

/-- The characters of a string that is printed, with its escapes; the second of two backslashes may be the last one. -/
def processed : List Char → List Char
  | '\\' :: ch :: text =>
    (match ch with
      | 'a' => [Char.ofNat 7]
      | 'b' => [Char.ofNat 8]
      | 'f' => [Char.ofNat 12]
      | 'n' => ['\n']
      | 'q' => ['"']
      | 'r' => ['\r']
      | 't' => ['\t']
      | '\\' => ['\\']
      | _ => []) ++ processed text
  | ['\\'] => []
  | ch :: text => ch :: processed text
  | [] => []

/-! Variables. -/

/-- The value on the stack, as a machine integer, for a variable that is special: one that is too large to fit is told
by its zero, which a fraction below one has as well. -/
def specialValue (limits : Limits) (num : BcStruct) : Int × Bool :=
  if bcIsNeg num then (0, false)
  else
    let temp := bcNum2long limits num
    (temp, !bcIsZero num && temp = 0)

def storeVar (env : Env) (varName : Nat) (num : BcStruct) (s : Storage) : Storage :=
  let (temp, toobig) := specialValue env.limits num
  match varName with
  | 0 =>
    let (temp, s) := if bcIsNeg num then (2, s.say "negative ibase, set to 2") else (temp, s)
    if temp < 2 ∧ !toobig then { s.say "ibase too small, set to 2" with iBase := 2 }
    else if temp > 16 ∨ toobig then { s.say "ibase too large, set to 16" with iBase := 16 }
    else { s with iBase := temp.toNat }
  | 1 =>
    let (temp, s) := if bcIsNeg num then (2, s.say "negative obase, set to 2") else (temp, s)
    if temp < 2 ∧ !toobig then { s.say "obase too small, set to 2" with oBase := 2 }
    else if temp > BC_BASE_MAX ∨ toobig then
      { s.say ("obase too large, set to " ++ toString BC_BASE_MAX) with oBase := BC_BASE_MAX }
    else { s with oBase := temp.toNat }
  | 2 =>
    let s := if bcIsNeg num then s.say "negative scale, set to 0" else s
    if temp > BC_SCALE_MAX ∨ toobig then
      { s.say ("scale too large, set to " ++ toString BC_SCALE_MAX) with scale := BC_SCALE_MAX }
    else { s with scale := temp.toNat }
  | 3 => s
  | _ => { s with bcVars := Function.update s.bcVars varName (num :: (s.bcVars varName).tail) }

def loadVar (varName : Nat) (s : Storage) : BcStruct :=
  match varName with
  | 0 => bcInt2num s.iBase
  | 1 => bcInt2num s.oBase
  | 2 => bcInt2num s.scale
  | _ => (s.bcVars varName).headD zero

def changeVar (change : BcStruct → BcStruct) (varName : Nat) (s : Storage) : Storage :=
  { s with bcVars := Function.update s.bcVars varName (change ((s.bcVars varName).headD zero) :: (s.bcVars varName).tail) }

def decrVar (varName : Nat) (s : Storage) : Storage :=
  match varName with
  | 0 => if s.iBase > 2 then { s with iBase := s.iBase - 1 } else s.say "ibase too small in --"
  | 1 => if s.oBase > 2 then { s with oBase := s.oBase - 1 } else s.say "obase too small in --"
  | 2 => if s.scale > 0 then { s with scale := s.scale - 1 } else s.say "scale can not be negative in -- "
  | _ => changeVar (bcSub · one 0) varName s

def incrVar (varName : Nat) (s : Storage) : Storage :=
  match varName with
  | 0 => if s.iBase < 16 then { s with iBase := s.iBase + 1 } else s.say "ibase too big in ++"
  | 1 => if s.oBase < BC_BASE_MAX then { s with oBase := s.oBase + 1 } else s.say "obase too big in ++"
  | 2 => if s.scale < BC_SCALE_MAX then { s with scale := s.scale + 1 } else s.say "Scale too big in ++"
  | _ => changeVar (bcAdd · one 0) varName s

/-! Arrays. -/

/-- A new array in front of those that the name has. -/
def pushArray (name : Nat) (elements : Nat → BcStruct) (s : Storage) : Storage :=
  { s with
    arrays := Function.update s.arrays name (s.nextArray :: s.arrays name)
    heap := Function.update s.heap s.nextArray elements
    nextArray := s.nextArray + 1 }

/-- The array of the name, which is made where there is none. -/
def getArray (name : Nat) (s : Storage) : Storage := if s.arrays name = [] then pushArray name (fun _ => zero) s else s

def arrayNum (name index : Nat) (s : Storage) : BcStruct := s.heap ((s.arrays name).headD 0) index

def storeArrayNum (name index : Nat) (num : BcStruct) (s : Storage) : Storage :=
  let place := (s.arrays name).headD 0
  { s with heap := Function.update s.heap place (Function.update (s.heap place) index num) }

/-- The index of an element, from the number on the stack. -/
def subscript (limits : Limits) (num : BcStruct) : Option Nat :=
  let index := bcNum2long limits num
  if index < 0 ∨ index > BC_DIM_MAX ∨ index = 0 ∧ !bcIsZero num then none else some index.toNat

/-- Every access to an element, which yields the value that it has then. -/
def accessArray (env : Env) (name : Nat) (index : BcStruct) (change : BcStruct → BcStruct) : Action BcStruct := fun s =>
  match subscript env.limits index with
  | none => rtError ("Array " ++ env.aNames name ++ " subscript out of bounds.") s
  | some index =>
    let s := getArray name s
    let num := change (arrayNum name index s)
    (.ok num, storeArrayNum name index num s)

def storeArray (env : Env) (name : Nat) (index num : BcStruct) : Action BcStruct := accessArray env name index fun _ => num

def loadArray (env : Env) (name : Nat) (index : BcStruct) : Action BcStruct := accessArray env name index id

def decrArray (env : Env) (name : Nat) (index : BcStruct) : Action BcStruct := accessArray env name index (bcSub · one 0)

def incrArray (env : Env) (name : Nat) (index : BcStruct) : Action BcStruct := accessArray env name index (bcAdd · one 0)

/-! Calls. -/

def autoVar (s : Storage) (name : Int) : Storage :=
  if name > 0 then { s with bcVars := Function.update s.bcVars name.toNat (zero :: s.bcVars name.toNat) }
  else pushArray (-name).toNat (fun _ => zero) s

def popVar (s : Storage) (arg : ArgList) : Storage :=
  if arg.avName > 0 then
    { s with bcVars := Function.update s.bcVars arg.avName.toNat (s.bcVars arg.avName.toNat).tail }
  else { s with arrays := Function.update s.arrays (-arg.avName).toNat (s.arrays (-arg.avName).toNat).tail }

def popVars (list : List ArgList) (s : Storage) : Storage := list.foldl popVar s

/-- A parameter gets the value from the stack, or the array that it names, or a copy of that array. Where the
kinds do not match, the code goes on behind the end of the parameter. -/
def bindParam (env : Env) (ch : Char) (param : ArgList) (num : BcStruct) : Action Unit := fun s =>
  if ch = '0' ∧ param.avName > 0 then
    (.ok (), { s with bcVars := Function.update s.bcVars param.avName.toNat (num :: s.bcVars param.avName.toNat) })
  else if ch = '1' ∧ param.avName < 0 then
    let ix := (bcNum2long env.limits num).toNat
    let s := getArray ix s
    let source := (s.arrays ix).headD 0
    if param.argIsVar then
      (.ok (), { s with arrays := Function.update s.arrays (-param.avName).toNat (source :: s.arrays (-param.avName).toNat) })
    else (.ok (), pushArray (-param.avName).toNat (s.heap source) s)
  else (.error .undefined, s)

/-- The parameters from the last one on, each with the value that is on the top of the stack then. -/
def processParams (env : Env) : List Char → List ArgList → List BcStruct → Action (List BcStruct)
  | [], [], stack => fun s => (.ok stack, s)
  | ch :: types, param :: params, num :: stack => fun s =>
    match bindParam env ch param num s with
    | (.ok (), s) => processParams env types params stack s
    | (.error why, s) => (.error why, s)
  | _ :: _, _ :: _, [] => fun s => (.error .undefined, s)
  | _, _, _ => rtError "Parameter number mismatch"

end Bc

end DeviceDriverTest
