import Cosigning.Text.Invisible

/-!
# Quoted text

A quoted text stands between quotes on one line: the quote itself, the backslash
and the common controls are written with a backslash, and characters without a
picture of their own by their number in braces.
-/

namespace Cosigning
namespace Text

def hexNumber (n : Nat) : String :=
  String.ofList (Nat.toDigits 16 n)

def quotedChar (quote c : Char) : String :=
  if c = Char.ofNat 0 then "\\0"
  else if c = '\t' then "\\t"
  else if c = '\r' then "\\r"
  else if c = '\n' then "\\n"
  else if c = '\\' then "\\\\"
  else if c = quote then String.ofList ['\\', c]
  else if isInvisible c then
    String.ofList ['\\', 'u', '\x7b'] ++ hexNumber c.toNat ++ String.ofList ['\x7d']
  else String.ofList [c]

def quoted (s : String) : String :=
  "\"" ++ String.join (s.toList.map (quotedChar '"')) ++ "\""

def quotedSingle (c : Char) : String :=
  "'" ++ quotedChar '\'' c ++ "'"

end Text
end Cosigning
