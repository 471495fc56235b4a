import CompositionGen.Script.Variables
import CompositionGen.Script.Word

/-!
# Arithmetic expressions

The integer expressions of the shell: the operators of the usual kinds with their precedences, a
choice between two values, and assignments to variables. Numbers have 64 bits and wrap around. An
operand that does not count for the value changes no variable.
-/

namespace CompositionGen.Script.Arithmetic

inductive Fault where
  | expecting (what : String)
  | divisionByZero
  /-- A variable holds a text that is no number. -/
  | illegalNumber (text : String)
  deriving DecidableEq, Inhabited, Repr

def Fault.message (expression : String) : Fault → String
  | expecting what =>
    "arithmetic expression: expecting " ++ what ++ ": \"" ++ expression ++ "\""
  | divisionByZero => "arithmetic expression: division by zero: \"" ++ expression ++ "\""
  | illegalNumber text => "Illegal number: " ++ text

def modulus : Nat := 18446744073709551616

def wrap (n : Int) : Int := n.bmod modulus

/-! ## Numbers -/

def digit? (base : Nat) (c : Char) : Option Nat :=
  let value :=
    if Decimal.isDigit c then some (Decimal.digit c)
    else if c.isAlpha then some (c.toLower.toNat - 'a'.toNat + 10)
    else none
  value.filter (· < base)

/-- The value of a non-empty run of digits. -/
def natural? (base : Nat) (cs : List Char) : Option Nat :=
  if cs.isEmpty then none
  else cs.foldlM (fun value c => (digit? base c).map (value * base + ·)) 0

/-- The value of a number without sign: decimal, or with the mark of another base. -/
def magnitude? (cs : List Char) : Option Nat :=
  match cs with
  | '0' :: 'x' :: rest | '0' :: 'X' :: rest => natural? 16 rest
  | ['0'] => some 0
  | '0' :: rest => natural? 8 rest
  | _ => natural? 10 cs

/-- The value of a text; one without any is zero, and one that is too large is refused. -/
def number? (text : String) : Option Int :=
  let cs := text.toList.dropWhile fun c => isSpace c || c = '\n'
  let cs := (cs.reverse.dropWhile fun c => isSpace c || c = '\n').reverse
  let below (bound : Nat) (cs : List Char) := (magnitude? cs).filter (· < bound)
  match cs with
  | [] => some 0
  | '-' :: rest => (below (Decimal.signBound + 1) rest).map fun n => -(n : Int)
  | '+' :: rest => (below Decimal.signBound rest).map fun n => (n : Int)
  | cs => (below Decimal.signBound cs).map fun n => (n : Int)

/-- The number that a text begins with, and what follows it; one that is too large is the largest
there is. -/
def numeral? (cs : List Char) : Option (Nat × List Char) :=
  let read (base : Nat) (cs : List Char) : Option (Nat × List Char) :=
    let digits := cs.takeWhile fun c => (digit? base c).isSome
    (natural? base digits).map fun n => (min n (Decimal.signBound - 1), cs.drop digits.length)
  match cs with
  | '0' :: x :: rest =>
    if x.toLower = 'x' then (read 16 rest).or (some (0, x :: rest)) else read 8 cs
  | _ => if cs.head? = some '0' then read 8 cs else read 10 cs

/-! ## Operators -/

def ofBool (b : Bool) : Int := if b then 1 else 0

def bitwise (f : Nat → Nat → Nat) (a b : Int) : Int :=
  wrap (f (a % modulus).toNat (b % modulus).toNat)

/-- The operators between two operands, longer ones first, with their precedences. -/
def operators : List (String × Nat) := [
  ("||", 1), ("&&", 2), ("<<", 8), (">>", 8), ("<=", 7), (">=", 7), ("==", 6), ("!=", 6), ("|", 3),
  ("^", 4), ("&", 5), ("<", 7), (">", 7), ("+", 9), ("-", 9), ("*", 10), ("/", 10), ("%", 10)]

def apply (operator : String) (a b : Int) : Except Fault Int :=
  match operator with
  | "||" => .ok (ofBool (a ≠ 0 || b ≠ 0))
  | "&&" => .ok (ofBool (a ≠ 0 && b ≠ 0))
  | "<<" => .ok (wrap (a * Int.ofNat (Nat.pow 2 (b % 64).toNat)))
  | ">>" => .ok (Int.fdiv a (Int.ofNat (Nat.pow 2 (b % 64).toNat)))
  | "<=" => .ok (ofBool (a ≤ b))
  | ">=" => .ok (ofBool (b ≤ a))
  | "==" => .ok (ofBool (a = b))
  | "!=" => .ok (ofBool (a ≠ b))
  | "|" => .ok (bitwise Nat.lor a b)
  | "^" => .ok (bitwise Nat.xor a b)
  | "&" => .ok (bitwise Nat.land a b)
  | "<" => .ok (ofBool (a < b))
  | ">" => .ok (ofBool (b < a))
  | "+" => .ok (wrap (a + b))
  | "-" => .ok (wrap (a - b))
  | "*" => .ok (wrap (a * b))
  | "/" => if b = 0 then .error .divisionByZero else .ok (wrap (Int.tdiv a b))
  | _ => if b = 0 then .error .divisionByZero else .ok (Int.tmod a b)

/-- The text after the white space at its start. -/
def skip (cs : List Char) : List Char := cs.dropWhile fun c => isSpace c || c = '\n'

/-- The operator of at least a precedence at the start of a text, with its own. An operator that
is followed by an equals sign assigns, unless it compares. -/
def operatorAt? (least : Nat) (cs : List Char) : Option (String × Nat × List Char) :=
  let cs := skip cs
  match operators.find? fun (name, _) => name.toList.isPrefixOf cs with
  | none => none
  | some (name, precedence) =>
    if precedence < least then none else some (name, precedence, cs.drop name.length)

/-- The operator that an assignment at the start of a text applies first, if it is one. -/
def assignmentAt? (cs : List Char) : Option (Option String × List Char) :=
  match skip cs with
  | '=' :: rest => if rest.head? = some '=' then none else some (none, rest)
  | cs =>
    let names := ["<<", ">>", "+", "-", "*", "/", "%", "&", "^", "|"]
    match names.find? fun name => (name ++ "=").toList.isPrefixOf cs with
    | some name => some (some name, cs.drop (name.length + 1))
    | none => none

/-! ## Values -/

/-- A value, the variables after it and the text that follows. -/
structure Reading where
  value : Int
  vars : Variables
  rest : List Char

def valueOf (vars : Variables) (name : String) : Except Fault Int :=
  let text := (vars.valueOf? name).getD ""
  match number? text with
  | some n => .ok (wrap n)
  | none => .error (.illegalNumber text)

mutual

/-- Reads an expression; only where it is `live` does it change variables, and divide. -/
def expression : (limit : Nat) → (live : Bool) → Variables → List Char → Except Fault Reading
  | 0, _, _, _ => .error (.expecting "primary")
  | limit + 1, live, vars, cs => do
    let text := skip cs
    let name := text.takeWhile continuesName
    match if isName name then assignmentAt? (text.drop name.length) else none with
    | some (operator, rest) =>
      let right ← expression limit live vars rest
      let value ← match operator with
        | none => pure right.value
        | some operator =>
          if live then apply operator (← valueOf right.vars (String.ofList name)) right.value
          else pure 0
      let vars := if live then right.vars.assign (String.ofList name) (toString value)
        else right.vars
      pure { right with value, vars }
    | none =>
      let condition ← binary limit live 1 vars text
      match skip condition.rest with
      | '?' :: rest =>
        let yes ← expression limit (live && condition.value ≠ 0) condition.vars rest
        match skip yes.rest with
        | ':' :: rest =>
          let no ← expression limit (live && condition.value = 0) yes.vars rest
          pure { no with value := if condition.value ≠ 0 then yes.value else no.value }
        | _ => .error (.expecting "':'")
      | _ => pure condition

/-- Reads operands joined by operators of at least a precedence. -/
def binary : (limit : Nat) → (live : Bool) → (least : Nat) → Variables → List Char →
    Except Fault Reading
  | 0, _, _, _, _ => .error (.expecting "primary")
  | limit + 1, live, least, vars, cs => do
    let left ← operand limit live vars cs
    joined limit live least left

def joined : (limit : Nat) → (live : Bool) → (least : Nat) → Reading → Except Fault Reading
  | 0, _, _, left => pure left
  | limit + 1, live, least, left => do
    match operatorAt? least left.rest with
    | none => pure left
    | some (operator, precedence, rest) =>
      let counts := live && !(operator = "&&" && left.value = 0)
        && !(operator = "||" && left.value ≠ 0)
      let right ← binary limit counts (precedence + 1) left.vars rest
      let value ← if live then apply operator left.value right.value else pure 0
      joined limit live least { right with value }

/-- Reads a number, a variable, an expression in parentheses, or one of these with a sign. -/
def operand : (limit : Nat) → (live : Bool) → Variables → List Char → Except Fault Reading
  | 0, _, _, _ => .error (.expecting "primary")
  | limit + 1, live, vars, cs => do
    match skip cs with
    | '(' :: rest =>
      let inner ← expression limit live vars rest
      match skip inner.rest with
      | ')' :: rest => pure { inner with rest }
      | _ => .error (.expecting "')'")
    | '-' :: rest => do
      let inner ← operand limit live vars rest
      pure { inner with value := wrap (-inner.value) }
    | '+' :: rest => operand limit live vars rest
    | '!' :: rest => do
      let inner ← operand limit live vars rest
      pure { inner with value := ofBool (inner.value = 0) }
    | '~' :: rest => do
      let inner ← operand limit live vars rest
      pure { inner with value := wrap (-inner.value - 1) }
    | text =>
      let word := text.takeWhile continuesName
      let rest := text.drop word.length
      if isName word then
        let value ← valueOf vars (String.ofList word)
        pure ⟨value, vars, rest⟩
      else match numeral? text with
        | some (n, rest) => pure ⟨n, vars, rest⟩
        | none => .error (.expecting "primary")

end

def evaluate (vars : Variables) (text : String) : Except Fault (Int × Variables) := do
  let cs := text.toList
  if (skip cs).isEmpty then return (0, vars)
  let r ← expression (8 * cs.length + 8) true vars cs
  if (skip r.rest).isEmpty then pure (r.value, r.vars) else .error (.expecting "EOF")

end CompositionGen.Script.Arithmetic
