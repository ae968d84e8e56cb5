/-!
# Digits

The digits of numbers in bases up to sixteen, of either case, as characters.
-/

namespace Cosigning
namespace Text

def hexDigit? (c : Char) : Option Nat :=
  if '0' <= c && c <= '9' then some (c.toNat - 48)
  else if 'a' <= c && c <= 'f' then some (c.toNat - 87)
  else if 'A' <= c && c <= 'F' then some (c.toNat - 55)
  else none

def digit? (base : Nat) (c : Char) : Option Nat :=
  (hexDigit? c).filter (fun value => decide (value < base))

def ofDigits (base : Nat) (digits : List Nat) : Nat :=
  digits.foldl (fun value digit => base * value + digit) 0

def decimalDigits (n : Nat) : List Nat :=
  (Nat.toDigits 10 n).map (fun c => c.toNat - 48)

def hexChar (value : Nat) : Char :=
  Char.ofNat (if value < 10 then 48 + value else 87 + value)

end Text
end Cosigning
