import CompositionGen.Files
import CompositionGen.Text.Lines

/-!
# Channels

What processes read from and write to: open files with a position, pipes, and devices. A process
knows its channels by the numbers of its descriptors, and several descriptors may share a channel.
-/

namespace CompositionGen

inductive Channel where
  | device (kind : Device)
  | file (number : Nat)
  /-- One of the two ends of a pipe. -/
  | pipe (number : Nat) (writes : Bool)
  deriving DecidableEq, Inhabited, Repr

structure OpenFile where
  location : Location
  position : Nat := 0
  reads : Bool
  writes : Bool
  /-- Whether writing always goes on at the end. -/
  appends : Bool := false
  deriving DecidableEq, Inhabited, Repr

structure Pipe where
  /-- What has been written and not been read, piece by piece, the last one first; the host leaves
  what it reads. -/
  pieces : List Content := []
  /-- The bytes of the line under way, where the host is at the other end. -/
  line : List UInt8 := []
  /-- Whether the host is at the other end. -/
  watched : Bool := false
  /-- When the host has stopped to listen. -/
  unheardFrom : Option Nat := none
  deriving DecidableEq, Inhabited, Repr

namespace Pipe

def content (p : Pipe) : Content := p.pieces.reverse.flatten

/-- How many bytes a pipe has room for. -/
def capacity : Nat := 65536

/-- Whether more has been written to a pipe than it has room for. -/
def isOverfull (p : Pipe) : Bool :=
  !p.watched && capacity < p.pieces.foldl (fun n piece => n + piece.length) 0

/-- How long it takes until the host stops to listen where it cannot read on, in nanoseconds. -/
def reactionTime : Nat := 100000

/-- The pipe after some more was written at a time. A line that the host cannot read makes it stop
to listen. -/
def write (p : Pipe) (clock : Nat) (content : Content) : Pipe :=
  let longer := { p with pieces := content :: p.pieces }
  if p.watched then
    let (lines, tail) := Flow.cut (p.line ++ content.toBytes)
    let unread := p.unheardFrom.isNone && (Flow.readLines lines).fault.isSome
    { longer with
      line := tail
      unheardFrom := if unread then some (clock + reactionTime) else p.unheardFrom }
  else longer

end Pipe

abbrev Descriptors := List (Nat × Channel)

namespace Descriptors

def get? (ds : Descriptors) (n : Nat) : Option Channel := (ds.find? (·.1 == n)).map (·.2)

def close (ds : Descriptors) (n : Nat) : Descriptors := ds.filter (·.1 != n)

def set (ds : Descriptors) (n : Nat) (c : Channel) : Descriptors := (n, c) :: ds.close n

def restore (ds : Descriptors) (saved : Nat × Option Channel) : Descriptors :=
  saved.2.elim (ds.close saved.1) (ds.set saved.1)

end Descriptors

end CompositionGen
