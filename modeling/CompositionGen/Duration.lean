/-!
# Durations

A span of whole milliseconds, written in the largest unit that it fills: seconds with as many
decimals as are needed, or milliseconds.
-/

namespace CompositionGen

structure Duration where
  milliseconds : Nat
  deriving DecidableEq, Inhabited, Repr

namespace Duration

def ofSeconds (n : Nat) : Duration := ⟨n * 1000⟩

/-- The decimals of `n` thousandths, without zeros at the end. -/
def decimals (n : Nat) : String :=
  let digits := [n / 100, n / 10 % 10, n % 10].map fun d => Char.ofNat ('0'.toNat + d)
  match (digits.reverse.dropWhile (· = '0')).reverse with
  | [] => ""
  | kept => "." ++ String.ofList kept

def text (d : Duration) : String :=
  if d.milliseconds = 0 then "0ns"
  else if d.milliseconds < 1000 then s!"{d.milliseconds}ms"
  else toString (d.milliseconds / 1000) ++ decimals (d.milliseconds % 1000) ++ "s"

end Duration

end CompositionGen
