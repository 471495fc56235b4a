import CompositionGen.Compile.Result
import CompositionGen.Text.Decimal

/-!
# Rosters of background work

A shell keeps a roster of what it has put into the background. Each entry has a number, the first
that is free when it is made, and the processes that it consists of; how they have ended is noted
once the shell has seen it. The number of an entry that is over and was waited for is free again,
and the entry is forgotten when another one, or a command in the foreground, takes the number.
-/

namespace CompositionGen

/-- A piece of work that a shell has put into the background. -/
structure RosterEntry where
  number : Nat
  /-- Its processes in order, each with how it has ended, once that was seen. -/
  processes : List (Nat × Option ExitStatus)
  waited : Bool := false
  deriving DecidableEq, Inhabited, Repr

namespace RosterEntry

/-- Whether the end of every process was seen. -/
def isOver (e : RosterEntry) : Bool := e.processes.all (·.2.isSome)

/-- The process whose status is that of the entry: its last one. -/
def leader? (e : RosterEntry) : Option Nat := e.processes.getLast?.map (·.1)

def status (e : RosterEntry) : Nat :=
  ((e.processes.getLast?.bind (·.2)).map ExitStatus.number).getD 0

def note (endOf? : Nat → Option ExitStatus) (e : RosterEntry) : RosterEntry :=
  { e with processes := e.processes.map fun (id, seen) => (id, seen.or (endOf? id)) }

end RosterEntry

/-- What a shell has put into the background, the last first. -/
abbrev Roster := List RosterEntry

namespace Roster

def freeNumber (r : Roster) : Nat :=
  let isTaken (n : Nat) : Bool := r.any fun e => e.number == n && !(e.isOver && e.waited)
  ((List.range (r.length + 1)).map (· + 1)).find? (!isTaken ·) |>.getD (r.length + 1)

/-- The roster after the next number was taken. -/
def claim (r : Roster) : Roster := r.filter (·.number != r.freeNumber)

def add (r : Roster) (processes : List Nat) : Roster :=
  { number := r.freeNumber, processes := processes.map (·, none) } :: r.claim

/-- The entry that a text beginning with a percent sign names. -/
def named (r : Roster) (text : String) : Except String RosterEntry :=
  let pick (problem : String) (e : Option RosterEntry) := e.elim (.error problem) .ok
  match text.toList.drop 1 with
  | [] | ['+'] | ['%'] => pick "No current job" r.head?
  | ['-'] => pick "No previous job" r.tail.head?
  | cs =>
    let number? := if Decimal.isNumeral cs then some (Decimal.value cs) else none
    pick ("No such job: " ++ text) (number?.bind fun n => r.find? (·.number == n))

/-- The entry that a text names: by a percent sign, or by the process that leads it. -/
def search (r : Roster) (text : String) : Except String (Option RosterEntry) :=
  if ['%'].isPrefixOf text.toList then (r.named text).map some
  else if Decimal.isNumeral text.toList then
    .ok (r.find? (·.leader? == some (Decimal.value text.toList)))
  else .error ("Illegal number: " ++ text)

def markWaited (r : Roster) (number : Nat) : Roster :=
  r.map fun e => if e.number = number then { e with waited := true } else e

end Roster

end CompositionGen
