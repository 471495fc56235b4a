import CompositionGen.Files.Content
import CompositionGen.Utility.Entries

/-!
# Concatenation

How `cat` shows what it copies: as it is, or with line numbers, ends of lines and tabs made
visible, bytes that are not printable spelled out, and empty lines left out that follow another
one. What is shown of a text depends on what was shown before it.
-/

namespace CompositionGen.Utility

def catOptions : List OptionRule := [
  { key := 'b', word := "number-nonblank" }, { key := 'n', word := "number" },
  { key := 's', word := "squeeze-blank" }, { key := 'v', word := "show-nonprinting" },
  { key := 'E', word := "show-ends" }, { key := 'T', word := "show-tabs" },
  { key := 'A', word := "show-all" }, { key := 'e' }, { key := 't' }, { key := 'u' }]
  ++ commonOptions

structure Display where
  numbers : Bool := false
  /-- Whether lines without text have no number. -/
  skipsBlank : Bool := false
  squeezes : Bool := false
  ends : Bool := false
  tabs : Bool := false
  nonprinting : Bool := false
  deriving DecidableEq, Inhabited, Repr

namespace Display

def ofGiven (g : Given) : Display where
  numbers := g.has 'n' || g.has 'b'
  skipsBlank := g.has 'b'
  squeezes := g.has 's'
  ends := g.has 'E' || g.has 'A' || g.has 'e'
  tabs := g.has 'T' || g.has 'A' || g.has 't'
  nonprinting := g.has 'v' || g.has 'A' || g.has 'e' || g.has 't'

def isPlain (d : Display) : Bool := d = {}

end Display

structure DisplayState where
  line : Nat := 0
  inLine : Bool := false
  /-- How many empty lines came last. -/
  blanks : Nat := 0
  deriving DecidableEq, Inhabited, Repr

namespace Display

/-- The number before a line. -/
def numberText (n : Nat) : List Char :=
  let digits := Nat.toDigits 10 n
  List.replicate (6 - digits.length) ' ' ++ digits ++ ['\t']

/-- A byte of the lower half as it is shown where such bytes are spelled out. -/
def lowText (c : Char) : List Char :=
  if c.toNat < 32 then ['^', Char.ofNat (c.toNat + 64)]
  else if c.toNat = 127 then ['^', '?']
  else [c]

def charText (d : Display) (c : Char) : List Char :=
  if c = '\t' then (if d.tabs then ['^', 'I'] else [c])
  else if !d.nonprinting then [c]
  else if c.toNat < 128 then lowText c
  else 'M' :: '-' :: lowText (Char.ofNat (c.toNat - 128))

def showText (d : Display) (state : DisplayState) : List Char → List Char × DisplayState
  | [] => ([], state)
  | '\n' :: rest =>
    let blank := !state.inLine
    if d.squeezes && blank && 0 < state.blanks then showText d state rest
    else
      let numbered := blank && d.numbers && !d.skipsBlank
      let line := if numbered then state.line + 1 else state.line
      let (later, after) := showText d ⟨line, false, if blank then state.blanks + 1 else 0⟩ rest
      ((if numbered then numberText line else []) ++ (if d.ends then ['$'] else [])
        ++ '\n' :: later, after)
  | c :: rest =>
    let numbered := d.numbers && !state.inLine
    let line := if numbered then state.line + 1 else state.line
    let text := if c = '\r' && d.ends && rest.head? = some '\n' then ['^', 'M'] else d.charText c
    let (later, after) := showText d ⟨line, true, 0⟩ rest
    ((if numbered then numberText line else []) ++ text ++ later, after)

/-- Shows a content; what is shown as it is keeps its cells. -/
def showContent (d : Display) (state : DisplayState) (content : Content) :
    Content × DisplayState :=
  if d.isPlain then (content, state)
  else
    let (shown, state) := d.showText state (ByteString.ofBytes content.toBytes).toList
    (.ofBytes (ByteString.bytes (String.ofList shown)), state)

end Display

end CompositionGen.Utility
