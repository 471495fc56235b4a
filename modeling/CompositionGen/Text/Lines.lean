import CompositionGen.Text.Utf8

/-!
# Streams of lines

A stream of bytes is read line by line. A line ends at a line feed, and a carriage return before
that is dropped; what follows the last line feed is a line only once the stream has ended. The
first line that is not UTF-8 ends the reading.
-/

namespace CompositionGen

structure Flow where
  bytes : List UInt8 := []
  closed : Bool := false
  deriving DecidableEq, Inhabited, Repr

structure Reading where
  lines : List String := []
  /-- What is wrong with the line after those. -/
  fault : Option Utf8.Fault := none
  deriving DecidableEq, Inhabited, Repr

namespace Flow

def lineFeed : UInt8 := 0x0A

/-- The lines that have ended, each with its line feed, and the bytes after them. -/
def cut : List UInt8 → List (List UInt8) × List UInt8
  | [] => ([], [])
  | b :: rest =>
    let (lines, tail) := cut rest
    if b = lineFeed then ([b] :: lines, tail)
    else match lines with
      | [] => ([], b :: tail)
      | line :: others => ((b :: line) :: others, tail)

def rawLines (f : Flow) : List (List UInt8) :=
  let (lines, tail) := cut f.bytes
  if f.closed && !tail.isEmpty then lines ++ [tail] else lines

/-- A line without the characters that end it. -/
def withoutEnd (line : List Char) : List Char :=
  match line.reverse with
  | '\n' :: '\r' :: kept => kept.reverse
  | '\n' :: kept => kept.reverse
  | _ => line

/-- Reads lines up to the first that is not UTF-8. -/
def readLines : List (List UInt8) → Reading
  | [] => {}
  | line :: rest =>
    match Utf8.decode line with
    | .error fault => { fault := some fault }
    | .ok text =>
      let later := readLines rest
      { later with lines := String.ofList (withoutEnd text.toList) :: later.lines }

def read (f : Flow) : Reading := readLines f.rawLines

/-- Whether nothing more will be read from a stream. -/
def isOver (f : Flow) : Bool := f.closed || f.read.fault.isSome

end Flow

end CompositionGen
