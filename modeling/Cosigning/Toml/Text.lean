import Cosigning.Text.Digit

/-!
# The text of TOML

Blanks, comments, line ends, strings and keys.  Each function takes characters off
the front of a text and returns what follows them.
-/

namespace Cosigning
namespace Toml

abbrev Scan (α : Type) := List Char -> Option (α × List Char)

/-- Read items until the step returns none of them; `bound` limits their number. -/
def collect {α : Type} (step : Scan (Option α)) : Nat -> Scan (List α)
  | 0, _ => none
  | bound + 1, cs =>
      match step cs with
      | none => none
      | some (none, rest) => some ([], rest)
      | some (some item, rest) =>
          (collect step bound rest).map (fun found => (item :: found.1, found.2))

def separated {α : Type} (item : Scan α) (separator : Char) : Nat -> Scan (List α)
  | 0, _ => none
  | bound + 1, cs =>
      match item cs with
      | none => none
      | some (first, []) => some ([first], [])
      | some (first, c :: rest) =>
          if c = separator then
            (separated item separator bound rest).map (fun found => (first :: found.1, found.2))
          else some ([first], c :: rest)

/-!
## Between the values
-/

def isBlank (c : Char) : Bool :=
  c = ' ' || c = '\t'

def isTextChar (c : Char) : Bool :=
  c = '\t' || (0x20 <= c.toNat && c.toNat != 0x7f)

def skipBlanks (cs : List Char) : List Char :=
  cs.dropWhile isBlank

def newline? : List Char -> Option (List Char)
  | '\n' :: rest => some rest
  | '\r' :: '\n' :: rest => some rest
  | _ => none

def lineEnd? (cs : List Char) : Option (List Char) :=
  let cs :=
    match skipBlanks cs with
    | '#' :: rest => rest.dropWhile isTextChar
    | cs => cs
  if cs.isEmpty then some [] else newline? cs

def skipLines (inComment : Bool) : List Char -> List Char
  | [] => []
  | '\n' :: rest => skipLines false rest
  | '\r' :: '\n' :: rest => skipLines false rest
  | c :: rest =>
      if inComment then
        if isTextChar c then skipLines true rest else c :: rest
      else if isBlank c then skipLines false rest
      else if c = '#' then skipLines true rest
      else c :: rest

/-!
## Strings
-/

def codePoint? (count : Nat) : Scan Char := fun cs => do
  let digits <- (cs.take count).mapM Text.hexDigit?
  let code := Text.ofDigits 16 digits
  if digits.length = count ∧ code.isValidChar then
    return (Char.ofNat code, cs.drop count)
  else none

def escape? : Scan Char
  | 'b' :: rest => some ('\x08', rest)
  | 't' :: rest => some ('\t', rest)
  | 'n' :: rest => some ('\n', rest)
  | 'f' :: rest => some ('\x0c', rest)
  | 'r' :: rest => some ('\r', rest)
  | '\"' :: rest => some ('\"', rest)
  | '\\' :: rest => some ('\\', rest)
  | 'u' :: rest => codePoint? 4 rest
  | 'U' :: rest => codePoint? 8 rest
  | _ => none

def basicStep : Scan (Option Char)
  | '\"' :: rest => some (none, rest)
  | '\\' :: rest => (escape? rest).map (fun found => (some found.1, found.2))
  | c :: rest => if isTextChar c then some (some c, rest) else none
  | [] => none

def literalStep : Scan (Option Char)
  | '\'' :: rest => some (none, rest)
  | c :: rest => if isTextChar c then some (some c, rest) else none
  | [] => none

def skipBlankLines : List Char -> List Char
  | [] => []
  | '\n' :: rest => skipBlankLines rest
  | '\r' :: '\n' :: rest => skipBlankLines rest
  | c :: rest => if isBlank c then skipBlankLines rest else c :: rest

def lineContinuation? (cs : List Char) : Option (List Char) :=
  (newline? (skipBlanks cs)).map skipBlankLines

/-- Part of a string of several lines, or the three quotes that close it.  Up to two quotes may
stand anywhere in the string, also before those that close it. -/
def multiLineStep (quote : Char) (escapes : Bool) : Scan (Option (List Char)) := fun cs =>
  match newline? cs with
  | some rest => some (some ['\n'], rest)
  | none =>
      match cs with
      | [] => none
      | c :: rest =>
          if c = quote then
            let count := (cs.takeWhile (fun d => d = quote)).length
            if count = 3 then some (none, cs.drop 3)
            else if count <= 5 then some (some [c], rest)
            else none
          else if escapes && c = '\\' then
            match lineContinuation? rest with
            | some rest => some (some [], rest)
            | none => (escape? rest).map (fun found => (some [found.1], found.2))
          else if isTextChar c then some (some [c], rest)
          else none

def lineString? (step : Scan (Option Char)) : Scan String := fun cs =>
  (collect step (cs.length + 1) cs).map (fun found => (String.ofList found.1, found.2))

/-- A string of several lines, after its opening quotes.  A line end right after them is
dropped. -/
def multiLineString? (quote : Char) (escapes : Bool) : Scan String := fun cs =>
  let cs := (newline? cs).getD cs
  (collect (multiLineStep quote escapes) (cs.length + 1) cs).map (fun found =>
    (String.ofList found.1.flatten, found.2))

def string? : Scan String
  | '\"' :: '\"' :: '\"' :: rest => multiLineString? '\"' true rest
  | '\'' :: '\'' :: '\'' :: rest => multiLineString? '\'' false rest
  | '\"' :: rest => lineString? basicStep rest
  | '\'' :: rest => lineString? literalStep rest
  | _ => none

/-!
## Keys
-/

def isBareChar (c : Char) : Bool :=
  ('a' <= c && c <= 'z') || ('A' <= c && c <= 'Z') || ('0' <= c && c <= '9') || c = '_' || c = '-'

def simpleKey? : Scan String
  | '\"' :: rest => lineString? basicStep rest
  | '\'' :: rest => lineString? literalStep rest
  | cs =>
      let word := cs.takeWhile isBareChar
      if word.isEmpty then none else some (String.ofList word, cs.dropWhile isBareChar)

def keyPart? : Scan String := fun cs =>
  (simpleKey? (skipBlanks cs)).map (fun found => (found.1, skipBlanks found.2))

/-- The number of parts that a key may not reach, and of brackets that may not be open at once. -/
def depthLimit : Nat := 80

def key? : Scan (List String) := fun cs =>
  match separated keyPart? '.' (cs.length + 1) cs with
  | some (parts, rest) => if parts.length < depthLimit then some (parts, rest) else none
  | none => none

end Toml
end Cosigning
