import Cosigning.Text.Digit

/-!
# JSON values

A value as it stands in a text: numbers keep their digits, and objects keep their
members in order, repeated names included.
-/

namespace Cosigning
namespace Json

structure Number where
  negative : Bool
  whole : List Nat
  fraction : List Nat
  exponent : Option Int
deriving DecidableEq

namespace Number

def ofNat (n : Nat) : Number :=
  { negative := false, whole := Text.decimalDigits n, fraction := [], exponent := none }

def toNat? (number : Number) (bound : Nat) : Option Nat :=
  if number.negative || !number.fraction.isEmpty || number.exponent.isSome then none
  else
    let n := Text.ofDigits 10 number.whole
    if n < bound then some n else none

/-- The longest run of leading digits, after those of `value`, that sixty-four bits hold; with the
digits left over. -/
def leadingDigits (value : Nat) : List Nat -> Nat × List Nat
  | [] => (value, [])
  | digit :: rest =>
      if 10 * value + digit < 0x10000000000000000 then leadingDigits (10 * value + digit) rest
      else (value, digit :: rest)

/-- A number rounded to fifty-three significant bits, a tie to the even neighbour. -/
def roundTo53Bits (n : Nat) : Nat :=
  let unit := Nat.pow 2 (n.log2 + 1 - 53)
  let quotient := n / unit
  let twice := 2 * (n % unit)
  let up := decide (unit < twice) || (decide (twice = unit) && quotient % 2 == 1)
  (if up then quotient + 1 else quotient) * unit

/-- Whether a number stays within the range of double precision.  As many leading digits as fit
sixty-four bits count; further ones only move the point. -/
def isFinite (number : Number) : Bool :=
  let (high, left) := leadingDigits 0 number.whole
  let (significand, dropped) :=
    if left.isEmpty then leadingDigits high number.fraction else (high, number.fraction)
  let used := number.fraction.length - dropped.length
  let power : Int := left.length - used + number.exponent.getD 0
  if significand = 0 ∨ power < 0 then true
  else if 308 < power then false
  else
    roundTo53Bits significand * roundTo53Bits (Nat.pow 10 power.toNat) < Nat.pow 2 1024 - Nat.pow 2 970

end Number

inductive Value where
  | null
  | bool (value : Bool)
  | number (value : Number)
  | string (value : String)
  | array (items : List Value)
  | object (members : List (String × Value))

namespace Value

def ofNat (n : Nat) : Value :=
  number (Number.ofNat n)

end Value

end Json
end Cosigning
