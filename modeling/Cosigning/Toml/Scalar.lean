import Cosigning.Toml.Table
import Cosigning.Toml.Text

/-!
# TOML numbers, dates and truth values

All values but strings and brackets are words: runs of letters, digits and a few
marks.  A date and a time may also be two words with a blank between them.
-/

namespace Cosigning
namespace Toml

def isWordChar (c : Char) : Bool :=
  isBareChar c || c = '+' || c = '.' || c = ':'

/-!
## Numbers
-/

def splitSign : List Char -> Bool × List Char
  | '-' :: rest => (true, rest)
  | '+' :: rest => (false, rest)
  | cs => (false, cs)

def groupedDigits? (base : Nat) : List Char -> Option (List Nat)
  | [] => none
  | [c] => (Text.digit? base c).map (fun digit => [digit])
  | c :: '_' :: rest => do
      let digit <- Text.digit? base c
      let more <- groupedDigits? base rest
      return digit :: more
  | c :: rest => do
      let digit <- Text.digit? base c
      let more <- groupedDigits? base rest
      return digit :: more

def wholeDigits? (cs : List Char) : Option (List Nat) := do
  let digits <- groupedDigits? 10 cs
  if digits.head? = some 0 ∧ digits.length ≠ 1 then none else some digits

def wordSized? (value : Int) : Option Value :=
  if -0x8000000000000000 <= value ∧ value < 0x8000000000000000 then some (.integer value) else none

/-- A whole number: decimal with a sign, or in base sixteen, eight or two without one. -/
def integer? : List Char -> Option Value
  | '0' :: 'x' :: rest => (groupedDigits? 16 rest).bind (fun ds => wordSized? (Text.ofDigits 16 ds))
  | '0' :: 'o' :: rest => (groupedDigits? 8 rest).bind (fun ds => wordSized? (Text.ofDigits 8 ds))
  | '0' :: 'b' :: rest => (groupedDigits? 2 rest).bind (fun ds => wordSized? (Text.ofDigits 2 ds))
  | cs => do
      let (negative, cs) := splitSign cs
      let value : Int := Text.ofDigits 10 (<- wholeDigits? cs)
      wordSized? (if negative then -value else value)

/-- Whether a decimal number is too large for double precision: digits times a power of ten.  The
number of digits decides unless it is near the limit. -/
def exceedsDouble (digits : List Nat) (power : Int) : Bool :=
  let value := Text.ofDigits 10 digits
  let size : Int := (Nat.toDigits 10 value).length + power
  let limit := Nat.pow 2 1024 - Nat.pow 2 970
  if value = 0 ∨ size < 300 then false
  else if 310 < size then true
  else if 0 <= power then limit <= value * Nat.pow 10 power.toNat
  else limit * Nat.pow 10 (-power).toNat <= value

def cutAt (stop : Char -> Bool) (cs : List Char) : List Char × Option (List Char) :=
  match cs.dropWhile (fun c => !stop c) with
  | [] => (cs, none)
  | _ :: after => (cs.takeWhile (fun c => !stop c), some after)

/-- Whether a word is a number with a fraction or a power of ten.  One that is too large is
refused, unless it is negative. -/
def isDecimalFloat (cs : List Char) : Bool :=
  let (mantissa, power) := cutAt (fun c => c = 'e' || c = 'E') cs
  let (whole, fraction) := cutAt (fun c => c = '.') mantissa
  let (negative, whole) := splitSign whole
  let exponent? : Option Int :=
    match power with
    | none => some 0
    | some cs =>
        let (negative, cs) := splitSign cs
        (groupedDigits? 10 cs).map (fun digits =>
          if negative then -(Text.ofDigits 10 digits : Int) else Text.ofDigits 10 digits)
  let fraction? : Option (List Nat) :=
    match fraction with
    | none => some []
    | some cs => groupedDigits? 10 cs
  match wholeDigits? whole, fraction?, exponent? with
  | some whole, some digits, some exponent =>
      (fraction.isSome || power.isSome) &&
        (negative || !exceedsDouble (whole ++ digits) (exponent - digits.length))
  | _, _, _ => false

def isSpecialFloat (cs : List Char) : Bool :=
  let (_, cs) := splitSign cs
  cs = ['i', 'n', 'f'] || cs = ['n', 'a', 'n']

/-!
## Dates and times
-/

def twoDigits? (a b : Char) : Option Nat := do
  let a <- Text.digit? 10 a
  let b <- Text.digit? 10 b
  return 10 * a + b

def daysIn (year month : Nat) : Nat :=
  if month = 2 then
    if year % 4 = 0 ∧ (year % 100 ≠ 0 ∨ year % 400 = 0) then 29 else 28
  else if month = 4 ∨ month = 6 ∨ month = 9 ∨ month = 11 then 30
  else 31

def isDate : List Char -> Bool
  | [y1, y2, y3, y4, '-', m1, m2, '-', d1, d2] =>
      match twoDigits? y1 y2, twoDigits? y3 y4, twoDigits? m1 m2, twoDigits? d1 d2 with
      | some century, some year, some month, some day =>
          1 <= month && month <= 12 && 1 <= day && day <= daysIn (100 * century + year) month
      | _, _, _, _ => false
  | _ => false

def isUpTo (greatest : Nat) (a b : Char) : Bool :=
  (twoDigits? a b).any (fun value => decide (value <= greatest))

def fractionThen (test : List Char -> Bool) (cs : List Char) : Bool :=
  !(cs.takeWhile Char.isDigit).isEmpty && test (cs.dropWhile Char.isDigit)

/-- Whether a text is a time of the day followed by something that passes a test.  A minute may
have a leap second. -/
def timeThen (test : List Char -> Bool) : List Char -> Bool
  | h1 :: h2 :: ':' :: m1 :: m2 :: ':' :: s1 :: s2 :: rest =>
      isUpTo 23 h1 h2 && isUpTo 59 m1 m2 && isUpTo 60 s1 s2 &&
        match rest with
        | '.' :: digits => fractionThen test digits
        | _ => test rest
  | _ => false

def isOffset : List Char -> Bool
  | [] => true
  | ['Z'] => true
  | ['z'] => true
  | [sign, h1, h2, ':', m1, m2] => (sign = '+' || sign = '-') && isUpTo 23 h1 h2 && isUpTo 59 m1 m2
  | _ => false

def isZonedTime (cs : List Char) : Bool :=
  timeThen isOffset cs

def isDateTime (cs : List Char) : Bool :=
  isDate cs || timeThen List.isEmpty cs ||
    match cs.drop 10 with
    | mark :: time => (mark = 'T' || mark = 't') && isDate (cs.take 10) && isZonedTime time
    | [] => false

/-!
## Words
-/

def ofWord? (cs : List Char) : Option Value :=
  if cs = ['t', 'r', 'u', 'e'] then some (.boolean true)
  else if cs = ['f', 'a', 'l', 's', 'e'] then some (.boolean false)
  else if isDateTime cs then some (.dateTime (String.ofList cs))
  else if isDecimalFloat cs || isSpecialFloat cs then some (.float (String.ofList cs))
  else integer? cs

/-- A value that is a word, or a date and a time with a blank between them. -/
def scalar? : Scan Value := fun cs =>
  let word := cs.takeWhile isWordChar
  let rest := cs.dropWhile isWordChar
  let plain := (ofWord? word).map (fun value => (value, rest))
  match rest with
  | ' ' :: after =>
      let time := after.takeWhile isWordChar
      if isDate word && isZonedTime time then
        some (.dateTime (String.ofList (word ++ ' ' :: time)), after.dropWhile isWordChar)
      else plain
  | _ => plain

end Toml
end Cosigning
