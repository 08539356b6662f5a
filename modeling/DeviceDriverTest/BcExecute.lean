import DeviceDriverTest.BcLoad
import DeviceDriverTest.Realization

/-! The machine of `bc`: what each instruction does, the calls of functions, and the run of the code from
the first byte of the main program on. -/

namespace DeviceDriverTest

namespace Bc

open BcNumber Realization

variable {α β : Type}

def done (a : α) : Action α := fun s => (.ok a, s)

def andThen (action : Action α) (f : α → Action β) : Action β := fun s =>
  match action s with
  | (.ok a, s) => f a s
  | (.error why, s) => (.error why, s)

def undefined : Action α := fun s => (.error .undefined, s)

/-! What the operators do with their operands. -/

def Arith.apply (env : Env) (op : Arith) (left right : BcStruct) : Action BcStruct := fun s =>
  match op with
  | .add => (.ok (bcAdd left right 0), s)
  | .sub => (.ok (bcSub left right 0), s)
  | .mul => defined (bcMultiply left right s.scale) s
  | .div =>
    match bcDivide left right s.scale with
    | some quot => (.ok quot, s)
    | none => rtError "Divide by zero" s
  | .mod => if bcIsZero right then rtError "Modulo by zero" s else defined (bcModulo left right s.scale) s
  | .raise =>
    let raise := bcRaise env.limits left right s.scale
    let s := if raise.fraction then s.say "non-zero scale in exponent" else s
    let s := if raise.tooLarge then s.say "exponent too large in raise" else s
    if bcIsZero left && bcIsNeg right then rtError "divide by zero" s
    else if raise.tooLarge then (.error .error, s)
    else defined raise.result s

def Rel.holds : Rel → Ordering → Bool
  | .equal, order => order = .eq
  | .notEqual, order => order ≠ .eq
  | .less, order => order = .lt
  | .lessEqual, order => order ≠ .gt
  | .greater, order => order = .gt
  | .greaterEqual, order => order ≠ .lt

def Rel.apply (op : Rel) (left right : BcStruct) : BcStruct := ofCode (op.holds (bcCompare left right))

/-- The zero before the point of a number below one is not counted. -/
def numLength (num : BcStruct) : BcStruct :=
  if num.nLen = 1 ∧ num.nScale ≠ 0 ∧ num.nValue.headD 0 = 0 then bcInt2num num.nScale
  else bcInt2num (num.nLen + num.nScale)

def Special.apply (env : Env) (function : Special) (num : BcStruct) : Action BcStruct := fun s =>
  match function with
  | .length => (.ok (numLength num), s)
  | .scale => (.ok (bcInt2num num.nScale), s)
  | .sqrt =>
    match env.bcSqrt num s.scale with
    | some root => (.ok root, s)
    | none => rtError "Square root of a negative number" s

def readConst (base : Nat) (input : List Nat) : Option (BcStruct × List Nat) :=
  if base = 10 then pushB10Const input else pushConstant base input

/-- A number from the input, in the input base. Nothing ends a wait for input that has come to its end. -/
def readInput : Action BcStruct := fun s =>
  match pushConstant s.iBase s.input with
  | some (num, rest) => (.ok num, { s with input := rest })
  | none => (.error .undefined, s)

/-! The instructions on the stack of the values. -/

/-- The value that the action yields goes on the stack. -/
def pushed (stack : List BcStruct) (action : Action BcStruct) : Action (List BcStruct) :=
  andThen action fun num => done (num :: stack)

def operate (env : Env) : Op → List BcStruct → Action (List BcStruct)
  | .dup, num :: stack => done (num :: num :: stack)
  | .pop, stack => done stack.tail
  | .negate, num :: stack => done (bcSub zero num 0 :: stack)
  | .writeLine, num :: stack => andThen (writeNum env true num) fun _ => done stack
  | .write, num :: stack => andThen (writeNum env false num) fun _ => done stack
  | .halt, _ => fun s => (.error .exited, s)
  | .exchange, num1 :: num2 :: stack => done (num2 :: num1 :: stack)
  | .zero, stack => done (zero :: stack)
  | .one, stack => done (one :: stack)
  | .not, num :: stack => done (ofCode (bcIsZero num) :: stack)
  | .arith op, right :: left :: stack => pushed stack (op.apply env left right)
  | .rel op, right :: left :: stack => done (op.apply left right :: stack)
  | .exchange, _ => rtError "Stack error."
  | .arith _, _ => rtError "Stack error."
  | .rel _, _ => rtError "Stack error."
  | _, _ => undefined

/-- Two tests that the parser does not generate. -/
def test (both : Bool → Bool → Bool) : List BcStruct → Action (List BcStruct)
  | right :: left :: stack => done (ofCode (both (!bcIsZero left) (!bcIsZero right)) :: stack)
  | _ => rtError "Stack error."

def access (env : Env) (name : Nat) : VarOp → List BcStruct → Action (List BcStruct)
  | .load, stack => fun s => (.ok (loadVar name s :: stack), s)
  | .store, num :: stack => fun s => (.ok (num :: stack), storeVar env name num s)
  | .store, [] => undefined
  | .incr, stack => fun s => (.ok stack, incrVar name s)
  | .decr, stack => fun s => (.ok stack, decrVar name s)
  | .loadArray, index :: stack => pushed stack (loadArray env name index)
  | .storeArray, num :: index :: stack => pushed stack (storeArray env name index num)
  | .incrArray, index :: stack => andThen (incrArray env name index) fun _ => done stack
  | .decrArray, index :: stack => andThen (decrArray env name index) fun _ => done stack
  | _, _ => rtError "Stack error."

/-! The machine. -/

/-- The three numbers that a call puts on the stack of the functions. -/
structure Frame where
  func : Nat
  addr : Nat
  iBase : Nat

structure Machine where
  func : Nat
  addr : Nat
  exStack : List BcStruct
  fnStack : List Frame
  storage : Storage
  status : Option Stop

/-- The variables that a call has pushed are popped. -/
def Function.leave (f : Function) (s : Storage) : Storage := popVars f.params (popVars f.autos s)

/-- The number of a variable, an array or a function, from one byte or two. -/
def readName : List Nat → Option (Nat × List Nat)
  | byte :: rest =>
    if byte &&& 0x80 = 0 then some (byte, rest)
    else
      match rest with
      | low :: rest => some ((byte &&& 0x7f) * 256 + low, rest)
      | [] => none
  | [] => none

namespace Machine

variable (m : Machine)

def stop (why : Stop) : Machine := { m with status := some why }

def act (action : List BcStruct → Action (List BcStruct)) : Machine :=
  match action m.exStack m.storage with
  | (.ok stack, s) => { m with exStack := stack, storage := s }
  | (.error why, s) => { m with storage := s, status := some why }

/-- The machine goes on behind what has been read of the code. -/
def readTo (code rest : List Nat) : Machine := { m with addr := m.addr + (code.length - rest.length) }

/-- An instruction with a name. -/
def named (code : List Nat) (action : Nat → List BcStruct → Action (List BcStruct)) : Machine :=
  match readName code with
  | some (name, rest) => (m.readTo code rest).act (action name)
  | none => m.stop .undefined

/-- A string, up to the quote that ends it. -/
def write (code : List Nat) (action : List Char → Action Unit) : Machine :=
  match code.dropWhile (· ≠ '"'.toNat) with
  | _ :: rest =>
    (m.readTo code rest).act fun stack =>
      andThen (action ((code.takeWhile (· ≠ '"'.toNat)).map Char.ofNat)) fun _ => done stack
  | [] => m.stop .undefined

/-- A jump, where the test of the value holds; the value is gone then in any case. -/
def branch (f : Function) (code : List Nat) (cCode : Bool) : Machine :=
  match code with
  | low :: high :: _ =>
    if cCode then
      match f.labels (low + high * 256) with
      | some addr => { m with addr := addr }
      | none => m.stop .undefined
    else { m with addr := m.addr + 2 }
  | _ => m.stop .undefined

def branchOn (f : Function) (code : List Nat) (cCode : BcStruct → Bool) : Machine :=
  match m.exStack with
  | num :: stack => { m with exStack := stack }.branch f code (cCode num)
  | [] => m.stop .undefined

/-- The call of a function. Where the arguments do not fit the parameters the rest of the call is done all the same. -/
def call (env : Env) (functions : Nat → Function) (newFunc : Nat) (types : List Char) : Machine :=
  let f := functions newFunc
  if !f.defined then m.act fun _ => rtError ("Function " ++ env.fNames newFunc ++ " not defined.")
  else
    let (params, s) := processParams env types f.params m.exStack m.storage
    let s := f.autos.foldl (fun s auto => autoVar s auto.avName) s
    { func := newFunc
      addr := 0
      exStack := match params with
        | .ok stack => stack
        | .error _ => m.exStack
      fnStack := ⟨m.func, m.addr, s.iBase⟩ :: m.fnStack
      storage := s
      status := match params with
        | .ok _ => none
        | .error why => some why }

def callCode (env : Env) (functions : Nat → Function) (code : List Nat) : Machine :=
  match readName code with
  | some (newFunc, text) =>
    match text.dropWhile (· ≠ COLON) with
    | _ :: rest => (m.readTo code rest).call env functions newFunc ((text.takeWhile (· ≠ COLON)).map Char.ofNat)
    | [] => m.stop .undefined
  | none => m.stop .undefined

/-- The way back from a function; the main program has none. -/
def returnFrom (functions : Nat → Function) : Machine :=
  if m.func = 0 then m.act fun _ => rtError "Return from main program."
  else
    match m.fnStack with
    | frame :: frames =>
      { m with
        func := frame.func
        addr := frame.addr
        fnStack := frames
        storage := (functions m.func).leave m.storage }
    | [] => m.act fun _ => rtError "function stack underflow, contact maintainer."

/-- A constant is read in the input base, which for a function is the one at its call. -/
def constant (code : List Nat) : Machine :=
  match if m.func = 0 then some m.storage.iBase else m.fnStack.head?.map Frame.iBase with
  | some constBase =>
    match readConst constBase code with
    | some (num, rest) => (m.readTo code rest).act fun stack => done (num :: stack)
    | none => m.stop .undefined
  | none => m.stop .undefined

def onTop (action : BcStruct → Action BcStruct) : Machine :=
  m.act fun
    | num :: stack => pushed stack (action num)
    | [] => undefined

def special (env : Env) (code : List Nat) : Machine :=
  match code with
  | byte :: rest =>
    let m := m.readTo code rest
    match Char.ofNat byte with
    | 'L' => m.onTop (Special.length.apply env)
    | 'S' => m.onTop (Special.scale.apply env)
    | 'R' => m.onTop (Special.sqrt.apply env)
    | 'I' => m.act fun stack => pushed stack readInput
    | _ => m
  | [] => m.stop .undefined

/-- One instruction; the machine stands behind its first byte, and `code` is what comes then. -/
def instruction (env : Env) (functions : Nat → Function) (inst : Char) (code : List Nat) : Machine :=
  match inst with
  | 'A' => m.named code fun name => access env name .incrArray
  | 'B' => m.branchOn (functions m.func) code fun num => !bcIsZero num
  | 'Z' => m.branchOn (functions m.func) code bcIsZero
  | 'J' => m.branch (functions m.func) code true
  | 'C' => m.callCode env functions code
  | 'D' => m.act (operate env .dup)
  | 'K' => m.constant code
  | 'L' => m.named code fun name => access env name .loadArray
  | 'M' => m.named code fun name => access env name .decrArray
  | 'O' => m.write code fun text => writeString env (processed text)
  | 'R' => m.returnFrom functions
  | 'S' => m.named code fun name => access env name .storeArray
  | 'T' => m.act (operate env .not)
  | 'W' => m.act (operate env .writeLine)
  | 'P' => m.act (operate env .write)
  | 'c' => m.special env code
  | 'd' => m.named code fun name => access env name .decr
  | 'h' => m.act (operate env .halt)
  | 'i' => m.named code fun name => access env name .incr
  | 'l' => m.named code fun name => access env name .load
  | 'n' => m.act (operate env .negate)
  | 'p' => m.act (operate env .pop)
  | 's' => m.named code fun name => access env name .store
  | 'w' => m.write code (writeString env)
  | 'x' => m.act (operate env .exchange)
  | '0' => m.act (operate env .zero)
  | '1' => m.act (operate env .one)
  | '!' => m.act (operate env .not)
  | '&' => m.act (test and)
  | '|' => m.act (test or)
  | '+' => m.act (operate env (.arith .add))
  | '-' => m.act (operate env (.arith .sub))
  | '*' => m.act (operate env (.arith .mul))
  | '/' => m.act (operate env (.arith .div))
  | '%' => m.act (operate env (.arith .mod))
  | '^' => m.act (operate env (.arith .raise))
  | '=' => m.act (operate env (.rel .equal))
  | '#' => m.act (operate env (.rel .notEqual))
  | '<' => m.act (operate env (.rel .less))
  | '{' => m.act (operate env (.rel .lessEqual))
  | '>' => m.act (operate env (.rel .greater))
  | '}' => m.act (operate env (.rel .greaterEqual))
  | _ => m.act fun _ => rtError ("bad instruction: inst=" ++ inst.toString)

def running (functions : Nat → Function) : Prop := m.status = none ∧ m.addr < (functions m.func).body.length

instance (functions : Nat → Function) : Decidable (m.running functions) := inferInstanceAs (Decidable (_ ∧ _))

def step (env : Env) (functions : Nat → Function) : Machine :=
  match (functions m.func).body.drop m.addr with
  | inst :: code => { m with addr := m.addr + 1 }.instruction env functions (Char.ofNat inst) code
  | [] => m

/-- Where a run starts. -/
def start (s : Storage) : Machine := ⟨0, 0, [], [], s, none⟩

end Machine

/-- The autos and the parameters of all functions that have not returned are popped. -/
def unwind (functions : Nat → Function) : Nat → List Frame → Storage → Storage
  | 0, _, s => s
  | _, [], s => s
  | func, frame :: frames, s => unwind functions frame.func frames ((functions func).leave s)

/-- What a run leaves: the machine cleans up at the end of the code and behind an error. -/
def Machine.finish (functions : Nat → Function) (m : Machine) : Storage :=
  match m.status with
  | none => unwind functions m.func m.fnStack m.storage
  | some .error => unwind functions m.func m.fnStack m.storage
  | some _ => m.storage

/-- The step of the machine while it runs. -/
def Step (env : Env) (functions : Nat → Function) (m m' : Machine) : Prop := m.running functions ∧ m' = m.step env functions

end Bc

end DeviceDriverTest
