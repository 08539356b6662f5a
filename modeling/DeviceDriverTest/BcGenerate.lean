import DeviceDriverTest.BcStorage

/-! The programs of `bc`, and the code that the parser generates for them. -/

namespace DeviceDriverTest

namespace Bc

open BcNumber

inductive Arith where
  | add
  | sub
  | mul
  | div
  | mod
  | raise
  deriving DecidableEq

inductive Rel where
  | equal
  | notEqual
  | less
  | lessEqual
  | greater
  | greaterEqual
  deriving DecidableEq

inductive Special where
  | length
  | scale
  | sqrt
  deriving DecidableEq

mutual

/-- Names stand for their numbers in the symbol table. A constant is given by its digits, before the point and
behind it. -/
inductive Expr where
  | assign (target : Named) (op : Option Arith) (value : Expr)
  | and (left right : Expr)
  | or (left right : Expr)
  | not (e : Expr)
  | rel (op : Rel) (left right : Expr)
  | arith (op : Arith) (left right : Expr)
  | neg (e : Expr)
  | named (name : Named)
  | number (whole fraction : List Nat)
  | paren (e : Expr)
  | call (function : Nat) (args : Args)
  | preIncr (plus : Bool) (name : Named)
  | postIncr (name : Named) (plus : Bool)
  | special (function : Special) (e : Expr)
  | read

inductive Named where
  | simple (varName : Nat)
  | element (array : Nat) (index : Expr)

/-- The arguments of a call, from the first one on: values, and the names of arrays. -/
inductive Args where
  | nil
  | value (e : Expr) (rest : Args)
  | array (array : Nat) (rest : Args)

end

inductive PrintItem where
  | string (text : List Char)
  | expression (e : Expr)

mutual

inductive Stmt where
  | expression (e : Expr)
  | string (text : List Char)
  | break
  | continue
  | halt
  | return (e : Option Expr)
  | for (init cond update : Option Expr) (body : Stmt)
  | if (cond : Expr) (body : Stmt)
  | ifElse (cond : Expr) (body other : Stmt)
  | while (cond : Expr) (body : Stmt)
  | block (body : Stmts)
  | print (items : List PrintItem)

inductive Stmts where
  | nil
  | cons (first : Stmt) (rest : Stmts)

end

/-- The instructions without an operand, each one character. -/
inductive Op where
  | dup
  | pop
  | negate
  | writeLine
  | write
  | return
  | halt
  | exchange
  | zero
  | one
  | not
  | arith (op : Arith)
  | rel (op : Rel)
  deriving DecidableEq

/-- The instructions with the number of a variable or of an array. -/
inductive VarOp where
  | load
  | store
  | incr
  | decr
  | loadArray
  | storeArray
  | incrArray
  | decrArray
  deriving DecidableEq

inductive Jump where
  | jump
  | branch
  | branchZero
  deriving DecidableEq

inductive Instr where
  | op (op : Op)
  | var (op : VarOp) (name : Nat)
  | label (label : Nat)
  | jump (op : Jump) (label : Nat)
  | const (whole fraction : List Nat)
  | call (function : Nat) (types : List Char)
  | special (function : Special)
  | read
  | string (print : Bool) (text : List Char)
  deriving DecidableEq

def Arith.char : Arith → Char
  | .add => '+'
  | .sub => '-'
  | .mul => '*'
  | .div => '/'
  | .mod => '%'
  | .raise => '^'

def Rel.char : Rel → Char
  | .equal => '='
  | .notEqual => '#'
  | .less => '<'
  | .lessEqual => '{'
  | .greater => '>'
  | .greaterEqual => '}'

def Op.char : Op → Char
  | .dup => 'D'
  | .pop => 'p'
  | .negate => 'n'
  | .writeLine => 'W'
  | .write => 'P'
  | .return => 'R'
  | .halt => 'h'
  | .exchange => 'x'
  | .zero => '0'
  | .one => '1'
  | .not => '!'
  | .arith op => op.char
  | .rel op => op.char

def VarOp.char : VarOp → Char
  | .load => 'l'
  | .store => 's'
  | .incr => 'i'
  | .decr => 'd'
  | .loadArray => 'L'
  | .storeArray => 'S'
  | .incrArray => 'A'
  | .decrArray => 'M'

def Jump.char : Jump → Char
  | .jump => 'J'
  | .branch => 'B'
  | .branchZero => 'Z'

def Special.char : Special → Char
  | .length => 'L'
  | .scale => 'S'
  | .sqrt => 'R'

/-- A number that is not negative, as it is written into the code. -/
def decimalText (n : Nat) : List Char := if n = 0 then ['0'] else ((Nat.digits 10 n).reverse).map BCD_CHAR

/-- A digit of a constant, which may be a letter. -/
def digitChar (d : Nat) : Char := if d < 10 then BCD_CHAR d else Char.ofNat (d - 10 + 'A'.toNat)

def constText (whole fraction : List Nat) : List Char :=
  whole.map digitChar ++ if fraction = [] then [] else '.' :: fraction.map digitChar

/-- The code as text, as it is generated. -/
def Instr.text : Instr → List Char
  | .op o => [o.char]
  | .var o name => o.char :: decimalText name ++ [':']
  | .label n => 'N' :: decimalText n ++ [':']
  | .jump o n => o.char :: decimalText n ++ [':']
  | .const whole fraction => 'K' :: constText whole fraction ++ [':']
  | .call function types => 'C' :: decimalText function ++ (if types = [] then [] else ',' :: types) ++ [':']
  | .special function => ['c', function.char]
  | .read => ['c', 'I']
  | .string print text => (if print then 'O' else 'w') :: '"' :: text ++ ['"']

/-! The values of expressions that the parser passes on. -/

/-- One where the top operator is not an assignment, two for a comparison somewhere in it, and four for parentheses. -/
def Expr.flags : Expr → Nat
  | .assign _ _ _ => 0
  | .and left right => (left.flags ||| right.flags) &&& 3
  | .or left right => (left.flags ||| right.flags) &&& 3
  | .not e => e.flags &&& 3
  | .rel _ _ _ => 3
  | .arith _ left right => (left.flags ||| right.flags) &&& 3
  | .neg e => e.flags &&& 3
  | .named _ => 1
  | .number _ _ => 1
  | .paren e => e.flags ||| 5
  | .call _ _ => 1
  | .preIncr _ _ => 1
  | .postIncr _ _ => 1
  | .special _ _ => 1
  | .read => 1

/-! The code of expressions: the instructions, and the next label. -/

def VarOp.forNamed (simple element : VarOp) : Named → Instr
  | .simple varName => .var simple varName
  | .element array _ => .var element array

/-- What comes behind the code of an index, if there is one, to keep that for another access. -/
def dupIndex : Named → List Instr
  | .simple _ => []
  | .element _ _ => [.op .dup]

def numberCode (whole fraction : List Nat) : List Instr :=
  if whole = [0] ∧ fraction = [] then [.op .zero]
  else if whole = [1] ∧ fraction = [] then [.op .one]
  else [.const whole fraction]

/-- The kinds of the arguments, from the last one on. -/
def Args.types : Args → List Char
  | .nil => []
  | .value _ rest => rest.types ++ ['0']
  | .array _ rest => rest.types ++ ['1']

/-- The number of an array, written as a constant. -/
def arrayDigits (array : Nat) : List Nat := if array = 0 then [0] else (Nat.digits 10 array).reverse

mutual

def Expr.generate : Expr → Nat → List Instr × Nat
  | .assign target none value, label =>
    let (index, label) := target.generate label
    let (code, label) := value.generate label
    (index ++ code ++ [VarOp.forNamed .store .storeArray target], label)
  | .assign target (some op) value, label =>
    let (index, label) := target.generate label
    let (code, label) := value.generate label
    (index ++ dupIndex target ++ [VarOp.forNamed .load .loadArray target] ++ code ++ [.op (.arith op)] ++
      [VarOp.forNamed .store .storeArray target], label)
  | .and left right, label =>
    let (code1, label) := left.generate label
    let (code2, label') := right.generate (label + 1)
    (code1 ++ [.op .dup, .jump .branchZero label, .op .pop] ++ code2 ++
      [.op .dup, .jump .branchZero label, .op .pop, .op .one, .label label], label')
  | .or left right, label =>
    let (code1, label) := left.generate label
    let (code2, label') := right.generate (label + 1)
    (code1 ++ [.jump .branch label] ++ code2 ++
      [.jump .branch label, .op .zero, .jump .jump label', .label label, .op .one, .label label'], label' + 1)
  | .not e, label =>
    let (code, label) := e.generate label
    (code ++ [.op .not], label)
  | .rel op left right, label =>
    let (code1, label) := left.generate label
    let (code2, label) := right.generate label
    (code1 ++ code2 ++ [.op (.rel op)], label)
  | .arith op left right, label =>
    let (code1, label) := left.generate label
    let (code2, label) := right.generate label
    (code1 ++ code2 ++ [.op (.arith op)], label)
  | .neg e, label =>
    let (code, label) := e.generate label
    (code ++ [.op .negate], label)
  | .named name, label =>
    let (index, label) := name.generate label
    (index ++ [VarOp.forNamed .load .loadArray name], label)
  | .number whole fraction, label => (numberCode whole fraction, label)
  | .paren e, label => e.generate label
  | .call function args, label =>
    let (code, label) := args.generate label
    (code ++ [.call function args.types], label)
  | .preIncr plus name, label =>
    let (index, label) := name.generate label
    (index ++ dupIndex name ++
      [if plus then VarOp.forNamed .incr .incrArray name else VarOp.forNamed .decr .decrArray name,
        VarOp.forNamed .load .loadArray name], label)
  | .postIncr (.simple varName) plus, label =>
    ([.var .load varName, .var (if plus then .incr else .decr) varName], label)
  | .postIncr (.element array index) plus, label =>
    let (index, label) := index.generate label
    (index ++ [.op .dup, .var .loadArray array, .op .exchange, .var (if plus then .incrArray else .decrArray) array], label)
  | .special function e, label =>
    let (code, label) := e.generate label
    (code ++ [.special function], label)
  | .read, label => ([.read], label)

def Named.generate : Named → Nat → List Instr × Nat
  | .simple _, label => ([], label)
  | .element _ index, label => index.generate label

def Args.generate : Args → Nat → List Instr × Nat
  | .nil, label => ([], label)
  | .value e rest, label =>
    let (code1, label) := e.generate label
    let (code2, label) := rest.generate label
    (code1 ++ code2, label)
  | .array array rest, label =>
    let (code, label) := rest.generate label
    (.const (arrayDigits array) [] :: code, label)

end

/-! The code of statements. -/

/-- The labels that a break and a continue go to; zero stands for none. -/
structure Loop where
  breakLabel : Nat
  continueLabel : Nat

def printCode : List PrintItem → Nat → List Instr × Nat
  | [], label => ([], label)
  | .string text :: items, label =>
    let (code, label) := printCode items label
    (.string true text :: code, label)
  | .expression e :: items, label =>
    let (code1, label) := e.generate label
    let (code2, label) := printCode items label
    (code1 ++ [.op .write] ++ code2, label)

/-- An expression that may be missing, and what the parser passes on for it. -/
def optionalCode : Option Expr → Nat → (List Instr × Nat) × Nat
  | none, label => (([], label), 16)
  | some e, label => (e.generate label, e.flags)

mutual

/-- There is no code where the parser finds an error: for a break outside of the loops, or a continue outside of
those with `for`. -/
def Stmt.generate (loop : Loop) : Stmt → Nat → Option (List Instr × Nat)
  | .expression e, label =>
    let (code, label) := e.generate label
    some (code ++ [.op (if e.flags &&& 1 ≠ 0 then .writeLine else .pop)], label)
  | .string text, label => some ([.string false text], label)
  | .break, label => if loop.breakLabel = 0 then none else some ([.jump .jump loop.breakLabel], label)
  | .continue, label => if loop.continueLabel = 0 then none else some ([.jump .jump loop.continueLabel], label)
  | .halt, label => some ([.op .halt], label)
  | .return none, label => some ([.op .zero, .op .return], label)
  | .return (some e), label =>
    let (code, label) := e.generate label
    some (code ++ [.op .return], label)
  | .for init cond update body, label =>
    let breakLabel := label
    let ((code1, label), _) := optionalCode init (label + 1)
    let condLabel := label
    let ((code2, label), _) := optionalCode cond (label + 1)
    let bodyLabel := label
    let continueLabel := label + 1
    let ((code3, label), flags) := optionalCode update (label + 2)
    -- the value of the first expression is popped even where that is missing; a missing condition leaves no value
    (body.generate ⟨breakLabel, continueLabel⟩ label).map fun (code4, label) =>
      (code1 ++ [.op .pop, .label condLabel] ++ code2 ++
        [.jump .branch bodyLabel, .jump .jump breakLabel, .label continueLabel] ++ code3 ++
        (if flags &&& 16 ≠ 0 then [] else [.op .pop]) ++ [.jump .jump condLabel, .label bodyLabel] ++ code4 ++
        [.jump .jump continueLabel, .label breakLabel], label)
  | .if cond body, label =>
    let (code1, label) := cond.generate label
    let ifLabel := label
    (body.generate loop (label + 1)).map fun (code2, label) =>
      (code1 ++ [.jump .branchZero ifLabel] ++ code2 ++ [.label ifLabel], label)
  | .ifElse cond body other, label =>
    let (code1, label) := cond.generate label
    let ifLabel := label
    (body.generate loop (label + 1)).bind fun (code2, label) =>
      let endLabel := label
      (other.generate loop (label + 1)).map fun (code3, label) =>
        (code1 ++ [.jump .branchZero ifLabel] ++ code2 ++ [.jump .jump endLabel, .label ifLabel] ++ code3 ++
          [.label endLabel], label)
  | .while cond body, label =>
    let condLabel := label
    let (code1, label) := cond.generate (label + 1)
    let breakLabel := label
    (body.generate ⟨breakLabel, loop.continueLabel⟩ (label + 1)).map fun (code2, label) =>
      ([.label condLabel] ++ code1 ++ [.jump .branchZero breakLabel] ++ code2 ++
        [.jump .jump condLabel, .label breakLabel], label)
  | .block body, label => body.generate loop label
  | .print items, label => some (printCode items label)

def Stmts.generate (loop : Loop) : Stmts → Nat → Option (List Instr × Nat)
  | .nil, label => some ([], label)
  | .cons first rest, label =>
    (first.generate loop label).bind fun (code1, label) =>
      (rest.generate loop label).map fun (code2, label) => (code1 ++ code2, label)

end

/-- Outside of every loop. -/
def Loop.none : Loop := ⟨0, 0⟩

/-- The definition of a function. -/
structure Definition where
  params : List ArgList
  autos : List ArgList
  body : Stmts

/-- No two of the parameters and autos have one name, and only a parameter can be an array of the caller. -/
def checkParams (params autos : List ArgList) : Bool :=
  (params.map ArgList.avName).Nodup && (autos.map ArgList.avName).Nodup && autos.all (!·.argIsVar) &&
    params.all fun param => autos.all (·.avName ≠ param.avName)

/-- The code of a function ends with the instructions that return zero. -/
def Definition.generate (d : Definition) : Option (List Instr) :=
  if checkParams d.params d.autos then (d.body.generate .none 1).map fun (code, _) => code ++ [.op .zero, .op .return]
  else none

end Bc

end DeviceDriverTest
