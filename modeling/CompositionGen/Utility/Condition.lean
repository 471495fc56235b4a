import CompositionGen.Utility.Effect
import CompositionGen.Utility.Format

/-!
# Conditions

The conditions that `test` checks: of texts, numbers and files, joined by `-a`, `-o` and `!`, with
parentheses. Three arguments with an operator in the middle are always a comparison.
-/

namespace CompositionGen.Utility.Condition

def unaryOperators : List String :=
  ["-b", "-c", "-d", "-e", "-f", "-g", "-h", "-k", "-L", "-n", "-O", "-G", "-p", "-r", "-s", "-S",
    "-t", "-u", "-w", "-x", "-z"]

def binaryOperators : List String :=
  ["=", "!=", "<", ">", "-eq", "-ne", "-gt", "-ge", "-lt", "-le", "-nt", "-ot", "-ef"]

def number (text : String) : Except String Int :=
  let n := readNumber text.toList
  let isDecimal := n.found && n.rest.all (fun c => Script.isSpace c || c = '\n')
  let digits := text.toList.filter Decimal.isDigit
  if !isDecimal then .error ("Illegal number: " ++ text)
  else .ok (if n.value < 0 then -(Decimal.value digits : Int) else Decimal.value digits)

def unary (files : FileSystem) (operator operand : String) : Bool :=
  let p : Path := ⟨operand⟩
  let node := (files.stat p).toOption
  match operator with
  | "-n" => !operand.isEmpty
  | "-z" => operand.isEmpty
  | "-d" => node.any FileNode.isDirectory
  | "-f" => node.any FileNode.isFile
  | "-h" | "-L" => ((files.entryStat p).toOption).any fun
    | .link _ => true
    | _ => false
  | "-c" => node.any fun
    | .device _ => true
    | _ => false
  | "-s" => node.any fun
    | .file content _ => !content.isEmpty
    | _ => true
  | "-x" => node.any fun
    | .file _ executable => executable
    | _ => true
  | "-e" | "-r" | "-w" | "-O" | "-G" => node.isSome
  | _ => false

def binary (files : FileSystem) (left operator right : String) : Except String Bool := do
  match operator with
  | "=" => pure (left = right)
  | "!=" => pure (left ≠ right)
  | "<" => pure (left < right)
  | ">" => pure (right < left)
  | "-ef" => pure (match files.locate ⟨left⟩, files.locate ⟨right⟩ with
    | .ok a, .ok b => a == b
    | _, _ => false)
  | "-nt" => pure (files.hasNode ⟨left⟩ && !files.hasNode ⟨right⟩)
  | "-ot" => pure (files.hasNode ⟨right⟩ && !files.hasNode ⟨left⟩)
  | _ =>
    let a ← number left
    let b ← number right
    pure (match operator with
      | "-eq" => a == b
      | "-ne" => a != b
      | "-gt" => b < a
      | "-ge" => b ≤ a
      | "-lt" => a < b
      | _ => a ≤ b)

/-- Whether the first argument is an operator where it stands. -/
def isOperator : List String → Bool
  | [] => false
  | [arg] => arg = "!" || arg = ")" || arg = "-a" || arg = "-o" || binaryOperators.contains arg
  | arg :: next :: rest =>
    if unaryOperators.contains arg then !(binaryOperators.contains next && !rest.isEmpty)
    else arg = "!" || arg = "(" || arg = ")" || arg = "-a" || arg = "-o"
      || binaryOperators.contains arg

/-- What checking gives, and the arguments from the last one that was looked at on. -/
abbrev Checked := Except String (Bool × List String)

mutual

/-- Checks conditions joined by `-o`; `limit` bounds the depth. -/
def either (files : FileSystem) : (limit : Nat) → List String → Checked
  | 0, _ => .error "unexpected operator"
  | limit + 1, args => do
    let (left, rest) ← both files limit args
    match rest.tail with
    | "-o" :: after => do
      let (right, rest) ← either files limit after
      pure (left || right, rest)
    | _ => pure (left, rest)

/-- Checks conditions joined by `-a`. -/
def both (files : FileSystem) : (limit : Nat) → List String → Checked
  | 0, _ => .error "unexpected operator"
  | limit + 1, args => do
    let (left, rest) ← negated files limit args
    match rest.tail with
    | "-a" :: after => do
      let (right, rest) ← both files limit after
      pure (left && right, rest)
    | _ => pure (left, rest)

/-- Checks a condition after any number of `!`. -/
def negated (files : FileSystem) : (limit : Nat) → List String → Checked
  | 0, _ => .error "unexpected operator"
  | limit + 1, args =>
    if args.head? = some "!" then do
      let rest := if args.tail.isEmpty then args else args.tail
      let (value, rest) ←
        if args.tail.isEmpty then pure (false, rest) else negated files limit rest
      pure (!value, rest)
    else simple files limit args

def simple (files : FileSystem) : (limit : Nat) → List String → Checked
  | 0, _ => .error "unexpected operator"
  | limit + 1, args =>
    match args with
    | [] => pure (false, [])
    | arg :: rest =>
      if arg = "(" && isOperator args then
        if rest.head? = some ")" then pure (false, rest)
        else do
          let (value, rest) ← either files limit rest
          if rest.tail.head? = some ")" then pure (value, rest.tail)
          else .error "closing paren expected"
      else if unaryOperators.contains arg && isOperator args then
        match rest with
        | [] => .error (arg ++ ": argument expected")
        | operand :: _ => pure (unary files arg operand, rest)
      else match rest with
        | operator :: after =>
          if binaryOperators.contains operator then
            match after with
            | [] => .error (operator ++ ": argument expected")
            | right :: _ => do pure (← binary files arg operator right, after)
          else pure (!arg.isEmpty, args)
        | [] => pure (!arg.isEmpty, args)

end

def joined (files : FileSystem) (args : List String) : Except String Bool := do
  let (value, rest) ← either files (4 * args.length + 4) args
  match rest with
  | last :: _ :: _ => .error (last ++ ": unexpected operator")
  | _ => pure value

def threeHold (files : FileSystem) (left operator right : String) : Except String Bool :=
  if binaryOperators.contains operator then binary files left operator right
  else if left = "(" && right = ")" then joined files [operator]
  else if left = "!" then (joined files [operator, right]).map (!·)
  else joined files [left, operator, right]

/-- Whether the arguments hold as a condition; none does not. -/
def holds (files : FileSystem) : List String → Except String Bool
  | [] => .ok false
  | [left, operator, right] => threeHold files left operator right
  | ["!", left, operator, right] => (threeHold files left operator right).map (!·)
  | ["(", left, right, ")"] => joined files [left, right]
  | args => joined files args

end CompositionGen.Utility.Condition
