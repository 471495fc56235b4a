import CompositionGen.Utility.Effect
import CompositionGen.Utility.Name
import CompositionGen.Utility.Options

/-!
# Making files and directories

The utilities that make what their operands name: `touch` makes empty files, `mkdir` makes
directories. What cannot be made is said, and the other operands are still done.
-/

namespace CompositionGen.Utility

/-! ## Files -/

def touchOptions : List OptionRule := [
  { key := 't', takesArgument := true }, { key := 'a' }, { key := 'f' }, { key := 'm' },
  { key := '3', isLetter := false, word := "time", takesArgument := true },
  { key := 'c', word := "no-create" }, { key := 'd', word := "date", takesArgument := true },
  { key := 'r', word := "reference", takesArgument := true },
  { key := 'h', word := "no-dereference" }] ++ commonOptions

/-- Whether a name asks for a directory by a slash at its end. -/
def endsInSlash (name : String) : Bool := name.toList.getLast? = some '/'

/-- Why a file that has a name cannot be touched: it cannot be made, or it cannot be changed. -/
def touchProblem (isMade : Bool) (name : String) (cause : FileError) : String :=
  (if isMade then "cannot touch " else "setting times of ") ++ markedName name ++ ": "
    ++ cause.reason

def touchOne (c : Call) (g : Given) (files : FileSystem) (name : String) :
    FileSystem × List Saying × Bool :=
  let fail (isMade : Bool) (cause : FileError) :=
    (files, [.complaint (c.message (touchProblem isMade name cause))], false)
  let p : Path := ⟨name⟩
  let done := (files, [], true)
  if name = "-" then done
  else if g.has 'h' || g.has 'c' then
    match if g.has 'h' then files.entryStat p else files.stat p with
    | .ok _ => done
    | .error .notFound => if g.has 'c' then done else fail false .notFound
    | .error cause => fail false cause
  else match files.stat p with
    | .ok _ => done
    | .error cause =>
      let above := p.parent?.getD ⟨""⟩
      if endsInSlash name && (above.text.isEmpty || files.hasDirectory above) then fail false cause
      else match files.write p [] false with
        | .ok files => (files, [], true)
        | .error cause => fail true cause

/-- Whether a text is a time as `touch` takes it: month, day, hour and minute of two digits each,
perhaps after a year of two or four digits, and perhaps with seconds after a point. -/
def isStamp (text : String) : Bool :=
  let cs := text.toList
  let main := cs.takeWhile (· ≠ '.')
  let seconds := cs.drop main.length
  let field (n : Nat) : Nat := Decimal.value ((main.drop (main.length - 8 + 2 * n)).take 2)
  let isWithin (low n high : Nat) : Bool := low ≤ n && n ≤ high
  main.all Decimal.isDigit && [8, 10, 12].contains main.length
    && isWithin 1 (field 0) 12 && isWithin 1 (field 1) 31 && isWithin 0 (field 2) 23
    && isWithin 0 (field 3) 59
    && (seconds.isEmpty || (seconds.length = 3 && seconds.tail.all Decimal.isDigit
      && Decimal.value seconds.tail ≤ 60))

/-- The words for the times of a file that `touch` knows, those of one time together. -/
def timeWords : List (List String) := [["atime", "access", "use"], ["mtime", "modify"]]

/-- What is wrong with a word that is to be one of some, or the start of words that all mean the
same, with the lines that list them. -/
def wordProblem? (option : String) (groups : List (List String)) (word : String) :
    Option (String × List String) :=
  let problem (kind : String) :=
    some (kind ++ " argument " ++ quotedValue word ++ " for " ++ quotedValue option,
      "Valid arguments are:"
        :: groups.map fun g => "  - " ++ Text.joinTexts ", " (g.map quotedValue))
  if groups.any (·.contains word) then none
  else match groups.filter (·.any fun w => word.toList.isPrefixOf w.toList) with
    | [_] => none
    | [] => problem "invalid"
    | _ => problem "ambiguous"

def touchOptionProblem? (c : Call) : Char × Option String → Option (List String)
  | ('t', some stamp) =>
    if isStamp stamp then none else some [c.message ("invalid date format " ++ quotedValue stamp)]
  | ('3', some word) =>
    (wordProblem? "--time" timeWords word).map fun (problem, list) =>
      c.message problem :: list ++ [c.hint]
  | _ => none

/-- Makes files that are not there. -/
def touch (c : Call) : Effect :=
  match readArguments touchOptions false c.args with
  | .error problem => c.refuses [problem]
  | .ok g =>
    if g.asksAbout then c.ends 0
    else match g.options.findSome? (touchOptionProblem? c) with
    | some lines => c.complains lines 1
    | none => match g.argument? 'r' with
    | some name =>
      match c.files.stat ⟨name⟩ with
      | .ok _ => run g
      | .error cause => c.complains [c.message ("failed to get attributes of " ++ markedName name
          ++ ": " ++ cause.reason)] 1
    | none => run g
where
  run (g : Given) : Effect :=
    if g.operands.isEmpty then c.refuses ["missing file operand"]
    else forEach (c.ends 0) g.operands (touchOne c g)

/-! ## Directories -/

def mkdirOptions : List OptionRule := [
  { key := 'Z' }, { key := 'm', word := "mode", takesArgument := true },
  { key := 'p', word := "parents" }, { key := 'v', word := "verbose" }] ++ commonOptions

def isModeClause (cs : List Char) : Bool :=
  let rest := cs.dropWhile "ugoa".toList.contains
  match rest with
  | sign :: rest =>
    "+-=".toList.contains sign && rest.all "rwxXst+-=ugo".toList.contains
  | [] => false

/-- Whether a text is a mode: octal digits, or clauses that change one. -/
def isMode (text : String) : Bool :=
  let cs := text.toList
  if cs.head?.any Decimal.isDigit then
    cs.all (fun c => '0' ≤ c && c ≤ '7')
      && cs.foldl (fun n c => n * 8 + Decimal.digit c) 0 < 4096
  else (Text.split ',' cs).all isModeClause

/-- The names of the directories above a named one, from the top, as they are written. -/
def namesAbove (name : String) : List String :=
  let cs := name.toList
  let trimmed := (cs.reverse.dropWhile (· = '/')).reverse
  (List.range trimmed.length).filterMap fun n =>
    if 0 < n && trimmed[n]? = some '/' && trimmed[n - 1]? ≠ some '/' then
      some (String.ofList (trimmed.take n))
    else none

def madeText (c : Call) (verbose : Bool) (name : String) : List Saying :=
  if verbose then
    [.output (c.message ("created directory " ++ markedName name ++ "\n")).toList]
  else []

/-- Makes the directories above a named one as far as they are missing. -/
def makeAbove (c : Call) (verbose : Bool) (files : FileSystem) :
    List String → FileSystem × List Saying × Option (String × FileError)
  | [] => (files, [], none)
  | name :: rest =>
    match files.createDirectory ⟨name⟩ with
    | .ok made =>
      let (files, sayings, problem) := makeAbove c verbose made rest
      (files, madeText c verbose name ++ sayings, problem)
    | .error .alreadyExists =>
      match files.stat ⟨name⟩ with
      | .ok (.directory _) => makeAbove c verbose files rest
      | .ok _ => (files, [], some (name, .notDirectory))
      | .error _ => (files, [], some (name, .alreadyExists))
    | .error cause => (files, [], some (name, cause))

def mkdirOne (c : Call) (g : Given) (files : FileSystem) (name : String) :
    FileSystem × List Saying × Bool :=
  let complaint (name : String) (cause : FileError) : Saying :=
    .complaint (c.message ("cannot create directory " ++ markedName name ++ ": " ++ cause.reason))
  let above := if g.has 'p' then namesAbove name else []
  let (files, sayings, problem) := makeAbove c (g.has 'v') files above
  match problem with
  | some (place, cause) => (files, sayings ++ [complaint place cause], false)
  | none =>
    match files.createDirectory ⟨name⟩ with
    | .ok files => (files, sayings ++ madeText c (g.has 'v') name, true)
    | .error cause =>
      if g.has 'p' && files.hasDirectory ⟨name⟩ then (files, sayings, true)
      else (files, sayings ++ [complaint name cause], false)

def mkdir (c : Call) : Effect :=
  match readArguments mkdirOptions false c.args with
  | .error problem => c.refuses [problem]
  | .ok g =>
    if g.asksAbout then c.ends 0
    else if g.operands.isEmpty then c.refuses ["missing operand"]
    else match (g.argument? 'm').filter (!isMode ·) with
      | some mode => c.complains [c.message ("invalid mode " ++ quotedValue mode)] 1
      | none => forEach (c.ends 0) g.operands (mkdirOne c g)

end CompositionGen.Utility
