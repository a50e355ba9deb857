/-!
# Shell arithmetic

Integer expressions of a script. An expression is cut into tokens, read as a tree (`Expr.parse`) and
evaluated in words of 64 bits (`Expr.evaluate`). Operands are constants and variables; an operator
binds more tightly than those of the levels before its own (`levels`). Only what is needed of a
choice, an `&&` or an `||` is evaluated, and an assignment shows in what is evaluated after it. A
truth value is 1 or 0. Of an expression with several faults the first one from the left shows, so
what stands before a place that cannot be read is evaluated too.
-/

namespace Pagewright.Shell.Arithmetic

/-- Why an expression has no value. -/
inductive Fault where
  /-- Something else stands where an operand has to. -/
  | noOperand
  /-- Something follows the expression. -/
  | noEnd
  | missing (sign : String)
  | divisionByZero
  | badNumber (text : String)
  deriving DecidableEq, Repr

def Fault.message (expression : String) : Fault → String
  | .noOperand => "arithmetic expression: expecting primary: \"" ++ expression ++ "\""
  | .noEnd => "arithmetic expression: expecting EOF: \"" ++ expression ++ "\""
  | .missing sign => "arithmetic expression: expecting '" ++ sign ++ "': \"" ++ expression ++ "\""
  | .divisionByZero => "arithmetic expression: division by zero: \"" ++ expression ++ "\""
  | .badNumber text => "Illegal number: " ++ text

/-! ## Numbers -/

/-- The value of a digit of any base up to 36; other characters have a greater one. -/
def digitValue (c : Char) : Nat :=
  if c.isDigit then c.toNat - '0'.toNat
  else if c.isAlpha then c.toLower.toNat - 'a'.toNat + 10
  else 36

/-- The number that the digits of a base in front of a text write, and what follows them. -/
def leadingDigits (base : Nat) (cs : List Char) : Nat × List Char :=
  let isDigit (c : Char) : Bool := digitValue c < base
  ((cs.takeWhile isDigit).foldl (fun n d => n * base + digitValue d) 0, cs.dropWhile isDigit)

/-- The constant in front of a text that starts with a digit: decimal, octal after a zero,
hexadecimal after `0x`. -/
def leadingConstant (cs : List Char) : Nat × List Char :=
  let hexadecimal (ds other : List Char) : Nat × List Char :=
    if ds.head?.any fun c => digitValue c < 16 then leadingDigits 16 ds else (0, other)
  match cs with
  | '0' :: 'x' :: ds => hexadecimal ds ('x' :: ds)
  | '0' :: 'X' :: ds => hexadecimal ds ('X' :: ds)
  | '0' :: ds => leadingDigits 8 ds
  | ds => leadingDigits 10 ds

def isBlank (c : Char) : Bool :=
  c == ' ' || c == '\t' || c == '\n'

/-- The integer that a text writes with an optional sign, given how its digits are read. -/
def integerBy (read : List Char → Nat × List Char) (s : String) : Option Int :=
  let whole (cs : List Char) : Option Nat :=
    if cs.head?.any Char.isDigit then
      let (n, rest) := read cs
      if rest.all isBlank then some n else none
    else none
  match s.toList.dropWhile isBlank with
  | '-' :: cs => (whole cs).map fun n => -n
  | '+' :: cs => (whole cs).map Int.ofNat
  | cs => (whole cs).map Int.ofNat

def integer? : String → Option Int :=
  integerBy leadingConstant

def decimal? (s : String) : Option Int :=
  (integerBy (leadingDigits 10) s).filter fun n =>
    Int64.minValue.toInt ≤ n ∧ n ≤ Int64.maxValue.toInt

/-- The nearest word to an integer. -/
def word (n : Int) : Int64 :=
  if n < Int64.minValue.toInt then Int64.minValue
  else if Int64.maxValue.toInt < n then Int64.maxValue
  else .ofInt n

/-! ## Tokens -/

inductive Token where
  | number (n : Nat)
  | name (s : String)
  | sign (s : String)
  | other (c : Char)
  deriving DecidableEq, Repr

/-- All signs; a longer one stands before its own beginning. -/
def signs : List String :=
  ["<<=", ">>=", "<<", ">>", "<=", ">=", "==", "!=", "&&", "||", "*=", "/=", "%=", "+=", "-=", "&=",
    "^=", "|=", "(", ")", "*", "/", "%", "+", "-", "<", ">", "&", "^", "|", "!", "~", "?", ":", "="]

def tokens : (fuel : Nat) → List Char → List Token
  | 0, _ => []
  | _, [] => []
  | fuel + 1, c :: cs =>
    if isBlank c then tokens fuel cs
    else if c.isDigit then
      let (n, rest) := leadingConstant (c :: cs)
      .number n :: tokens fuel rest
    else if c.isAlpha || c == '_' then
      let isPart (c : Char) : Bool := c.isAlphanum || c == '_'
      .name (String.ofList (c :: cs.takeWhile isPart)) :: tokens fuel (cs.dropWhile isPart)
    else
      match signs.find? fun s => s.toList.isPrefixOf (c :: cs) with
      | some s => .sign s :: tokens fuel ((c :: cs).drop s.length)
      | none => .other c :: tokens fuel cs

/-! ## Trees -/

inductive Binary where
  | multiply | divide | remainder
  | add | subtract
  | shiftLeft | shiftRight
  | less | lessOrEqual | greater | greaterOrEqual
  | equal | different
  | bitAnd | bitXor | bitOr
  deriving DecidableEq, Repr

inductive Unary where
  | keep | negate | not | complement
  deriving DecidableEq, Repr

inductive Expr where
  | constant (n : Nat)
  | parameter (name : String)
  | unary (op : Unary) (e : Expr)
  | binary (op : Binary) (a b : Expr)
  | both (a b : Expr)
  | either (a b : Expr)
  | choose (test yes no : Expr)
  /-- Two expressions one after the other, of which the second one counts. -/
  | after (a b : Expr)
  /-- Gives a variable a value, which an operator may make of its old one. -/
  | assign (name : String) (op : Option Binary) (e : Expr)
  deriving DecidableEq, Repr

/-- The operators by their levels, the one that binds least first. -/
def levels : List (List (String × Binary)) :=
  [[("|", .bitOr)], [("^", .bitXor)], [("&", .bitAnd)], [("==", .equal), ("!=", .different)],
    [("<", .less), ("<=", .lessOrEqual), (">", .greater), (">=", .greaterOrEqual)],
    [("<<", .shiftLeft), (">>", .shiftRight)], [("+", .add), ("-", .subtract)],
    [("*", .multiply), ("/", .divide), ("%", .remainder)]]

/-- The operator that a sign of assignment applies first. -/
def assignments : List (String × Option Binary) :=
  [("=", none), ("*=", some .multiply), ("/=", some .divide), ("%=", some .remainder),
    ("+=", some .add), ("-=", some .subtract), ("<<=", some .shiftLeft), (">>=", some .shiftRight),
    ("&=", some .bitAnd), ("^=", some .bitXor), ("|=", some .bitOr)]

def unaries : List (String × Unary) :=
  [("+", .keep), ("-", .negate), ("!", .not), ("~", .complement)]

def entry? {α : Type} (table : List (String × α)) (s : String) : Option α :=
  (table.find? (·.1 == s)).map Prod.snd

namespace Expr

/-- An expression with the tokens after it, or what can be read before a fault and the fault. -/
abbrev Outcome := Except (Expr × Fault) (Expr × List Token)

/-- A fault behind an expression that makes no difference. -/
def refuse (fault : Fault) : Outcome :=
  .error (.constant 0, fault)

/-- Changes what can be read before a fault, if there is one. -/
def Outcome.before (o : Outcome) (f : Expr → Expr) : Outcome :=
  o.mapError fun (e, fault) => (f e, fault)

mutual

def readOperand : (fuel : Nat) → List Token → Outcome
  | 0, _ => refuse .noOperand
  | fuel + 1, ts =>
    match ts with
    | .number n :: ts => .ok (.constant n, ts)
    | .name s :: ts => .ok (.parameter s, ts)
    | .sign "(" :: ts => do
      let (e, ts) ← readAssignment fuel ts
      match ts with
      | .sign ")" :: ts => return (e, ts)
      | _ => throw (e, .missing ")")
    | .sign s :: ts =>
      match entry? unaries s with
      | some op => do
        let (e, ts) ← readOperand fuel ts
        return (.unary op e, ts)
      | none => refuse .noOperand
    | _ => refuse .noOperand

/-- Reads operands joined by operators of some levels. -/
def readLevel : (fuel : Nat) → List (List (String × Binary)) → List Token → Outcome
  | 0, _, _ => refuse .noOperand
  | fuel + 1, [], ts => readOperand fuel ts
  | fuel + 1, here :: deeper, ts => do
    let (e, ts) ← readLevel fuel deeper ts
    readChain fuel here deeper e ts

/-- Goes on with the operators of one level after a first operand. -/
def readChain : (fuel : Nat) → List (String × Binary) → List (List (String × Binary)) → Expr →
    List Token → Outcome
  | 0, _, _, e, ts => .ok (e, ts)
  | fuel + 1, here, deeper, e, ts =>
    match ts with
    | .sign s :: rest =>
      match entry? here s with
      | some op => do
        let (f, rest) ← (readLevel fuel deeper rest).before (.after e)
        readChain fuel here deeper (.binary op e f) rest
      | none => .ok (e, ts)
    | _ => .ok (e, ts)

def readBoth : (fuel : Nat) → List Token → Outcome
  | 0, _ => refuse .noOperand
  | fuel + 1, ts => do
    let (e, ts) ← readLevel fuel levels ts
    match ts with
    | .sign "&&" :: ts =>
      let (f, ts) ← (readBoth fuel ts).before (.both e)
      return (.both e f, ts)
    | ts => return (e, ts)

def readEither : (fuel : Nat) → List Token → Outcome
  | 0, _ => refuse .noOperand
  | fuel + 1, ts => do
    let (e, ts) ← readBoth fuel ts
    match ts with
    | .sign "||" :: ts =>
      let (f, ts) ← (readEither fuel ts).before (.either e)
      return (.either e f, ts)
    | ts => return (e, ts)

def readChoice : (fuel : Nat) → List Token → Outcome
  | 0, _ => refuse .noOperand
  | fuel + 1, ts => do
    let (test, ts) ← readEither fuel ts
    match ts with
    | .sign "?" :: ts =>
      let (yes, ts) ← (readAssignment fuel ts).before fun yes => .choose test yes (.constant 0)
      match ts with
      | .sign ":" :: ts =>
        let (no, ts) ← (readChoice fuel ts).before (.choose test yes)
        return (.choose test yes no, ts)
      | _ => throw (.choose test yes (.constant 0), .missing ":")
    | ts => return (test, ts)

def readAssignment : (fuel : Nat) → List Token → Outcome
  | 0, _ => refuse .noOperand
  | fuel + 1, ts =>
    match ts with
    | .name n :: .sign s :: rest =>
      match entry? assignments s with
      | some op => do
        let (e, rest) ← readAssignment fuel rest
        return (.assign n op e, rest)
      | none => readChoice fuel ts
    | ts => readChoice fuel ts

end

/-- The tree of an expression, and the fault behind it if not all can be read. -/
def parse (s : String) : Expr × Option Fault :=
  let ts := tokens s.length s.toList
  match readAssignment (20 * ts.length + 20) ts with
  | .ok (e, []) => (e, none)
  | .ok (e, _) => (e, some .noEnd)
  | .error (e, fault) => (e, some fault)

end Expr

/-! ## Values -/

def truth (b : Bool) : Int64 :=
  if b then 1 else 0

def Binary.apply (op : Binary) (a b : Int64) : Except Fault Int64 :=
  match op with
  | .multiply => .ok (a * b)
  | .divide => if b = 0 then .error .divisionByZero else .ok (a / b)
  | .remainder => if b = 0 then .error .divisionByZero else .ok (a % b)
  | .add => .ok (a + b)
  | .subtract => .ok (a - b)
  | .shiftLeft => .ok (a <<< b)
  | .shiftRight => .ok (a >>> b)
  | .less => .ok (truth (a < b))
  | .lessOrEqual => .ok (truth (a ≤ b))
  | .greater => .ok (truth (b < a))
  | .greaterOrEqual => .ok (truth (b ≤ a))
  | .equal => .ok (truth (a == b))
  | .different => .ok (truth (a != b))
  | .bitAnd => .ok (a &&& b)
  | .bitXor => .ok (a ^^^ b)
  | .bitOr => .ok (a ||| b)

def Unary.apply (op : Unary) (a : Int64) : Int64 :=
  match op with
  | .keep => a
  | .negate => -a
  | .not => truth (a == 0)
  | .complement => ~~~a

/-- Values with the variables assigned so far, the last one first. -/
abbrev Evaluating := StateT (List (String × Int64)) (Except Fault)

/-- The value of an expression; `value` gives the variables that it does not assign itself. -/
def Expr.evaluate (value : String → Except Fault Int64) : Expr → Evaluating Int64
  | .constant n => return word n
  | .parameter name => do
    match entry? (← get) name with
    | some n => return n
    | none => value name
  | .unary op e => return op.apply (← e.evaluate value)
  | .binary op a b => do
    let x ← a.evaluate value
    let y ← b.evaluate value
    op.apply x y
  | .both a b => do
    if (← a.evaluate value) = 0 then return 0
    return truth ((← b.evaluate value) != 0)
  | .either a b => do
    if (← a.evaluate value) != 0 then return 1
    return truth ((← b.evaluate value) != 0)
  | .choose test yes no => do
    if (← test.evaluate value) != 0 then yes.evaluate value else no.evaluate value
  | .after a b => do
    let _ ← a.evaluate value
    b.evaluate value
  | .assign name op e => do
    let new ← e.evaluate value
    let result ← match op with
      | none => pure new
      | some op =>
        let old ← match entry? (← get) name with
          | some n => pure n
          | none => value name
        op.apply old new
    modify fun assigned => (name, result) :: assigned
    return result

/-- The value of an expression and the variables that it assigns, the last one first. -/
def evaluate (value : String → Except Fault Int64) (s : String) :
    Except Fault (Int64 × List (String × Int64)) := do
  let (e, fault?) := Expr.parse s
  let result ← (e.evaluate value).run []
  match fault? with
  | none => return result
  | some fault => throw fault

end Pagewright.Shell.Arithmetic
