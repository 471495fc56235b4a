/-!
# Base64

Bytes as text in the standard alphabet. Three bytes are four characters, and the last group is
padded to four. Reading accepts only what writing produces: the padding has to be there and the
bits that it leaves over have to be zero.
-/

namespace CompositionGen.Base64

/-- The sixty-four characters in the order of their values. -/
def alphabet : List Char :=
  "ABCDEFGHIJKLMNOPQRSTUVWXYZabcdefghijklmnopqrstuvwxyz0123456789+/".toList

/-- The character that fills up the last group. -/
def padding : Char := '='

/-- The character of six bits. -/
def digitOf (n : Nat) : Char := (alphabet[n % 64]?).getD padding

/-- The six bits of a character. -/
def valueOf? (c : Char) : Option Nat := alphabet.findIdx? (· == c)

def encode : List UInt8 → List Char
  | [] => []
  | [a] =>
    let n := a.toNat * 16
    [digitOf (n / 64), digitOf n, padding, padding]
  | [a, b] =>
    let n := (a.toNat * 256 + b.toNat) * 4
    [digitOf (n / 4096), digitOf (n / 64), digitOf n, padding]
  | a :: b :: c :: rest =>
    let n := (a.toNat * 256 + b.toNat) * 256 + c.toNat
    digitOf (n / 262144) :: digitOf (n / 4096) :: digitOf (n / 64) :: digitOf n :: encode rest

/-- The byte of the lowest eight bits of a number. -/
def byteOf (n : Nat) : UInt8 := UInt8.ofNat (n % 256)

/-- The bytes of the last group of a text, if it is one. -/
def decodeLast? (a b c d : Char) : Option (List UInt8) := do
  let n := (← valueOf? a) * 64 + (← valueOf? b)
  if c = padding then
    if d = padding && n % 16 = 0 then some [byteOf (n / 16)] else none
  else
    let n := n * 64 + (← valueOf? c)
    if d = padding then
      if n % 4 = 0 then some [byteOf (n / 1024), byteOf (n / 4)] else none
    else
      let n := n * 64 + (← valueOf? d)
      some [byteOf (n / 65536), byteOf (n / 256), byteOf n]

/-- The bytes of a group that is not the last. -/
def decodeGroup? (a b c d : Char) : Option (List UInt8) :=
  if d = padding then none else decodeLast? a b c d

/-- The bytes of a text, if it is the text of any. -/
def decode? : List Char → Option (List UInt8)
  | [] => some []
  | [a, b, c, d] => decodeLast? a b c d
  | a :: b :: c :: d :: rest => do some ((← decodeGroup? a b c d) ++ (← decode? rest))
  | _ => none

end CompositionGen.Base64
