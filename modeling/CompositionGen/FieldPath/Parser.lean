import CompositionGen.FieldPath

/-!
# Reading field paths

A path is a name or a bracket, followed by dotted names and brackets. Reading stops at the first
offending place and reports it as an offset in bytes. Only `.`, `[` and `]` are special, so
every place where the text is cut lies between two characters.
-/

namespace CompositionGen

/-- Why a text is not a field path; offsets count bytes. -/
inductive ParseError where
  | empty
  | emptyField (offset : Nat)
  | emptyBracket (offset : Nat)
  | unterminated (offset : Nat)
  /-- A byte that cannot stand here, as the character of its code. -/
  | unexpected (byte : Char) (offset : Nat)
  deriving DecidableEq, Repr

def ParseError.message : ParseError → String
  | .empty => "field path is empty"
  | .emptyField offset => s!"empty field name at offset {offset}"
  | .emptyBracket offset => s!"empty brackets at offset {offset}"
  | .unterminated offset => s!"unterminated '[' at offset {offset}"
  | .unexpected byte offset => s!"unexpected '{byte}' at offset {offset}"

namespace FieldPath

def byteLength : List Char → Nat
  | [] => 0
  | c :: rest => c.utf8Size + byteLength rest

/-- The first byte of a character in UTF-8, as the character of its code. -/
def leadByte (c : Char) : Char :=
  match String.utf8EncodeChar c with
  | [] => c
  | b :: _ => Char.ofNat b.toNat

/-- The step between two brackets, the first of which stands at `offset`. -/
def bracketSegment (offset : Nat) (inner : List Char) : Except ParseError Segment :=
  if inner.isEmpty then .error (.emptyBracket offset)
  else if inner.all Decimal.isDigit then
    if Decimal.value inner < Decimal.wordBound then .ok (.index (Decimal.value inner))
    else .error (.unexpected '[' offset)
  else .ok (.key (String.ofList inner))

/-- Everything up to the closing bracket, and what follows it. -/
def splitBracket : List Char → Option (List Char × List Char)
  | [] => none
  | ']' :: rest => some ([], rest)
  | c :: rest => (splitBracket rest).map fun (inner, after) => (c :: inner, after)

/-- The leading characters of a dotted name, and what follows them. -/
def splitName : List Char → List Char × List Char
  | [] => ([], [])
  | c :: rest =>
    if Segment.isNameChar c then
      let (name, after) := splitName rest
      (c :: name, after)
    else ([], c :: rest)

theorem length_splitBracket {cs inner after : List Char}
    (h : splitBracket cs = some (inner, after)) : after.length < cs.length := by
  induction cs generalizing inner after with
  | nil => simp [splitBracket] at h
  | cons c rest ih =>
    unfold splitBracket at h
    split at h
    · simp_all
    · simp_all
    · rename_i c' rest' _ hc
      obtain ⟨rfl, rfl⟩ := List.cons.inj hc
      cases hr : splitBracket rest with
      | none => simp [hr] at h
      | some pair =>
        obtain ⟨i, a⟩ := pair
        simp only [hr, Option.map_some, Option.some.injEq, Prod.mk.injEq] at h
        have := ih hr
        obtain ⟨-, rfl⟩ := h
        simp only [List.length_cons]
        omega

theorem length_splitName (cs : List Char) : (splitName cs).2.length ≤ cs.length := by
  induction cs with
  | nil => simp [splitName]
  | cons c rest ih =>
    unfold splitName
    split
    · simp only [List.length_cons]; omega
    · simp

/-- Reads the steps from byte `offset` on; `afterDot` tells that a dot stands just before, which
only a name may follow. -/
def parseFrom (offset : Nat) (afterDot : Bool) (cs : List Char) :
    Except ParseError (List Segment) :=
  match cs with
  | [] => if afterDot then .error (.emptyField offset) else .ok []
  | '.' :: _ => .error (.emptyField offset)
  | ']' :: _ => .error (.unexpected ']' offset)
  | '[' :: rest =>
    if afterDot then .error (.emptyField offset)
    else
      match _h : splitBracket rest with
      | none => .error (.unterminated offset)
      | some (inner, after) =>
        match bracketSegment offset inner with
        | .error e => .error e
        | .ok segment =>
          let next := offset + byteLength inner + 2
          match after.head? with
          | none => .ok [segment]
          | some '[' => (parseFrom next false after).map (segment :: ·)
          | some '.' => (parseFrom (next + 1) true after.tail).map (segment :: ·)
          | some c => .error (.unexpected (leadByte c) next)
  | c :: rest =>
    let name := c :: (splitName rest).1
    let segment := Segment.field (String.ofList name)
    let next := offset + byteLength name
    let after := (splitName rest).2
    match after.head? with
    | some '.' => (parseFrom (next + 1) true after.tail).map (segment :: ·)
    | _ => (parseFrom next false after).map (segment :: ·)
termination_by cs.length
decreasing_by
  · have := length_splitBracket _h
    simp only [List.length_cons]
    omega
  · have := length_splitBracket _h
    simp only [List.length_cons, List.length_tail]
    omega
  · have := length_splitName rest
    simp only [List.length_cons, List.length_tail]
    omega
  · have := length_splitName rest
    simp only [List.length_cons]
    omega

/-- The path that a text spells, or the first place where it fails. -/
def parse (raw : String) : Except ParseError FieldPath :=
  if raw.isEmpty then .error .empty
  else (parseFrom 0 false raw.toList).map FieldPath.mk

end FieldPath

end CompositionGen
