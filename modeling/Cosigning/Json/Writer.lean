import Cosigning.Json.Value

/-!
# Writing JSON

A value is written on one line without blanks, or spread over lines with two blanks
for each level.  Every function writes in front of the text that follows.
-/

namespace Cosigning
namespace Json

def escapeChar (c : Char) : List Char :=
  if c = '\"' then ['\\', '\"']
  else if c = '\\' then ['\\', '\\']
  else if c = '\x08' then ['\\', 'b']
  else if c = '\x0c' then ['\\', 'f']
  else if c = '\n' then ['\\', 'n']
  else if c = '\r' then ['\\', 'r']
  else if c = '\t' then ['\\', 't']
  else if c.toNat < 0x20 then
    ['\\', 'u', '0', '0', Text.hexChar (c.toNat / 16), Text.hexChar (c.toNat % 16)]
  else [c]

def quote (text : String) (rest : List Char) : List Char :=
  '\"' :: (text.toList.flatMap escapeChar ++ '\"' :: rest)

namespace Number

def digitChars (digits : List Nat) : List Char :=
  digits.map Text.hexChar

def write (number : Number) (rest : List Char) : List Char :=
  let power :=
    match number.exponent with
    | none => []
    | some power =>
        'e' :: ((if power < 0 then ['-'] else []) ++
          digitChars (Text.decimalDigits power.natAbs))
  (if number.negative then ['-'] else []) ++ digitChars number.whole ++
    (if number.fraction.isEmpty then [] else '.' :: digitChars number.fraction) ++ power ++ rest

end Number

namespace Value

mutual

def write : Value -> List Char -> List Char
  | null, rest => 'n' :: 'u' :: 'l' :: 'l' :: rest
  | bool true, rest => 't' :: 'r' :: 'u' :: 'e' :: rest
  | bool false, rest => 'f' :: 'a' :: 'l' :: 's' :: 'e' :: rest
  | number n, rest => n.write rest
  | string text, rest => quote text rest
  | array items, rest => '[' :: writeItems items (']' :: rest)
  | object members, rest => '\x7b' :: writeMembers members ('\x7d' :: rest)

def writeItems : List Value -> List Char -> List Char
  | [], rest => rest
  | [item], rest => item.write rest
  | item :: others, rest => item.write (',' :: writeItems others rest)

def writeMembers : List (String × Value) -> List Char -> List Char
  | [], rest => rest
  | [(name, value)], rest => quote name (':' :: value.write rest)
  | (name, value) :: others, rest =>
      quote name (':' :: value.write (',' :: writeMembers others rest))

end

def compact (value : Value) : String :=
  String.ofList (value.write [])

def newLine (level : Nat) (rest : List Char) : List Char :=
  '\n' :: (List.replicate (2 * level) ' ' ++ rest)

mutual

def writeLines (level : Nat) : Value -> List Char -> List Char
  | array [], rest => '[' :: ']' :: rest
  | array items, rest =>
      '[' :: newLine (level + 1) (writeItemLines (level + 1) items (newLine level (']' :: rest)))
  | object [], rest => '\x7b' :: '\x7d' :: rest
  | object members, rest =>
      '\x7b' :: newLine (level + 1)
        (writeMemberLines (level + 1) members (newLine level ('\x7d' :: rest)))
  | null, rest => write null rest
  | bool value, rest => write (bool value) rest
  | number n, rest => n.write rest
  | string text, rest => quote text rest

def writeItemLines (level : Nat) : List Value -> List Char -> List Char
  | [], rest => rest
  | [item], rest => item.writeLines level rest
  | item :: others, rest =>
      item.writeLines level (',' :: newLine level (writeItemLines level others rest))

def writeMemberLines (level : Nat) : List (String × Value) -> List Char -> List Char
  | [], rest => rest
  | [(name, value)], rest => quote name (':' :: ' ' :: value.writeLines level rest)
  | (name, value) :: others, rest =>
      quote name
        (':' :: ' ' :: value.writeLines level
          (',' :: newLine level (writeMemberLines level others rest)))

end

def pretty (value : Value) : String :=
  String.ofList (value.writeLines 0 [])

end Value

end Json
end Cosigning
