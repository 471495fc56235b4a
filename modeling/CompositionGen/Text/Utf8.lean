/-!
# UTF-8 text

Byte form of a text and its partial inverse. Decoding stops at the first byte sequence that is
not UTF-8 and says where the valid part ends and how many bytes the offending sequence has,
so that a report can name the place.
-/

namespace CompositionGen.Utf8

def encode (text : String) : List UInt8 :=
  text.toList.flatMap String.utf8EncodeChar

/-- Where a byte string stops being UTF-8. -/
structure Fault where
  /-- Number of bytes before the offending sequence. -/
  index : Nat
  /-- Length of the offending sequence; `none` when the bytes end inside a character. -/
  length : Option Nat
  deriving DecidableEq, Repr

def Fault.message (fault : Fault) : String :=
  match fault.length with
  | some n => s!"invalid utf-8 sequence of {n} bytes from index {fault.index}"
  | none => s!"incomplete utf-8 byte sequence from index {fault.index}"

/-- A continuation byte carries six bits. -/
def isContinuation (b : UInt8) : Bool := 0x80 ≤ b && b ≤ 0xBF

/-- Whether `b` may follow the lead byte `lead`: overlong forms, surrogates and values above
U+10FFFF are refused at the second byte. -/
def secondAllowed (lead b : UInt8) : Bool :=
  if lead = 0xE0 then 0xA0 ≤ b && b ≤ 0xBF
  else if lead = 0xED then 0x80 ≤ b && b ≤ 0x9F
  else if lead = 0xF0 then 0x90 ≤ b && b ≤ 0xBF
  else if lead = 0xF4 then 0x80 ≤ b && b ≤ 0x8F
  else isContinuation b

/-- Number of bytes announced by a lead byte. -/
def width? (lead : UInt8) : Option Nat :=
  if lead < 0x80 then some 1
  else if 0xC2 ≤ lead && lead ≤ 0xDF then some 2
  else if 0xE0 ≤ lead && lead ≤ 0xEF then some 3
  else if 0xF0 ≤ lead && lead ≤ 0xF4 then some 4
  else none

/-- A character being read: its lead byte, the bytes still to come and the bits so far. -/
structure Pending where
  lead : UInt8
  /-- Bytes read so far, the lead included. -/
  seen : Nat
  missing : Nat
  value : Nat

/-- Whether a character under way may go on with a byte. -/
def Pending.allows (p : Pending) (b : UInt8) : Bool :=
  if p.seen = 1 then secondAllowed p.lead b else isContinuation b

/-- Reads bytes from offset `index` on, with at most one character under way. -/
def decodeFrom (index : Nat) : Option Pending → List UInt8 → Except Fault (List Char)
  | none, [] => .ok []
  | some _, [] => .error ⟨index, none⟩
  | none, b :: rest =>
    match width? b with
    | none => .error ⟨index, some 1⟩
    | some 1 => do
      let tail ← decodeFrom (index + 1) none rest
      pure (Char.ofNat b.toNat :: tail)
    | some n => decodeFrom index (some ⟨b, 1, n - 1, b.toNat % Nat.pow 2 (7 - n)⟩) rest
  | some p, b :: rest =>
    if !p.allows b then .error ⟨index, some p.seen⟩
    else
      let value := p.value * 64 + b.toNat % 64
      if p.missing ≤ 1 then do
        let tail ← decodeFrom (index + p.seen + 1) none rest
        pure (Char.ofNat value :: tail)
      else decodeFrom index (some ⟨p.lead, p.seen + 1, p.missing - 1, value⟩) rest

/-- The text of a byte string, or its first fault. -/
def decode (bytes : List UInt8) : Except Fault String :=
  (decodeFrom 0 none bytes).map String.ofList

def decode? (bytes : List UInt8) : Option String :=
  (decode bytes).toOption

/-! ## Bytes that are not all UTF-8 -/

inductive Piece where
  | char (c : Char)
  /-- Bytes that make up no character: the longest ones with which one could have begun. -/
  | other (bytes : List UInt8)
  deriving DecidableEq, Repr

/-- What a byte is with no character under way: a piece of its own, or the start of one. -/
def beginPiece (b : UInt8) : List Piece × Option (Pending × List UInt8) :=
  match width? b with
  | none => ([.other [b]], none)
  | some 1 => ([.char (Char.ofNat b.toNat)], none)
  | some n => ([], some (⟨b, 1, n - 1, b.toNat % Nat.pow 2 (7 - n)⟩, [b]))

/-- The pieces that end with a byte, and the character under way after it with its bytes. -/
def takeByte : Option (Pending × List UInt8) → UInt8 →
    List Piece × Option (Pending × List UInt8)
  | none, b => beginPiece b
  | some (p, held), b =>
    let value := p.value * 64 + b.toNat % 64
    if !p.allows b then (.other held :: (beginPiece b).1, (beginPiece b).2)
    else if p.missing ≤ 1 then ([.char (Char.ofNat value)], none)
    else ([], some (⟨p.lead, p.seen + 1, p.missing - 1, value⟩, held ++ [b]))

/-- The pieces of a byte string, with at most one character under way. -/
def piecesFrom : Option (Pending × List UInt8) → List UInt8 → List Piece
  | none, [] => []
  | some (_, held), [] => [.other held]
  | state, b :: rest => (takeByte state b).1 ++ piecesFrom (takeByte state b).2 rest

def pieces (bytes : List UInt8) : List Piece := piecesFrom none bytes

end CompositionGen.Utf8
