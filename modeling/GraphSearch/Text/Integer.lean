/-!
# Decimal integers of a given width

An integer is written as at most one sign and at least one ASCII digit, with nothing around them.
Leading zeros are allowed, so a number has many written forms. A reader is told how many bits the
number may take up; one that does not fit is refused like one that is not written so at all.

The unsigned form takes a plus but no minus, not even before a zero.
-/

namespace GraphSearch.Text

/-- The number that is written by one or more digits. -/
def digits? (text : List Char) : Option Nat :=
  if !text.isEmpty && text.all Char.isDigit then
    some (text.foldl (fun n c ↦ 10 * n + (c.toNat - '0'.toNat)) 0)
  else none

/-- The integer that is written by digits after at most one sign, whatever its size. -/
def signed? : List Char → Option Int
  | '-' :: text => (digits? text).map fun n ↦ -(n : Int)
  | '+' :: text => (digits? text).map Int.ofNat
  | text => (digits? text).map Int.ofNat

/-- The number that is written by digits after at most one plus, whatever its size. -/
def unsigned? : List Char → Option Nat
  | '+' :: text => digits? text
  | text => digits? text

/-- Whether an integer fits into so many bits, one of which is taken by the sign. -/
def fitsSigned (bits : Nat) (n : Int) : Bool :=
  let bound : Int := Nat.pow 2 (bits - 1)
  n < bound && -bound ≤ n

/-- Reads an integer that fits into so many bits, one of which is taken by the sign. -/
def signedOfWidth? (bits : Nat) (text : List Char) : Option Int :=
  (signed? text).filter (fitsSigned bits)

/-- Reads a number that fits into so many bits. -/
def unsignedOfWidth? (bits : Nat) (text : List Char) : Option Nat :=
  (unsigned? text).filter (· < Nat.pow 2 bits)

example : signedOfWidth? 8 ['-', '0', '1', '2', '8'] = some (-128) := by decide

example : signedOfWidth? 8 ['+', '1', '2', '8'] = none := by decide

example : unsignedOfWidth? 8 ['-', '0'] = none := by decide

end GraphSearch.Text
