import Cosigning.Json.Value

/-!
# JSON tokens

A text is cut into tokens, and blanks between them are dropped.  Strings may not
hold raw control characters, and an escaped surrogate must be one of a pair.
-/

namespace Cosigning
namespace Json

inductive Token where
  | openObject
  | closeObject
  | openArray
  | closeArray
  | comma
  | colon
  | null
  | bool (value : Bool)
  | number (value : Number)
  | string (value : String)
deriving DecidableEq

namespace Token

/-!
## Numbers
-/

def isNumberChar (c : Char) : Bool :=
  ('0' <= c && c <= '9') || c = '-' || c = '+' || c = '.' || c = 'e' || c = 'E'

def digits? (cs : List Char) : Option (List Nat) :=
  if cs.isEmpty then none else cs.mapM (Text.digit? 10)

def power? : List Char -> Option Int
  | '-' :: rest => (digits? rest).map (fun values => -(Text.ofDigits 10 values : Int))
  | '+' :: rest => (digits? rest).map (fun values => (Text.ofDigits 10 values : Int))
  | cs => (digits? cs).map (fun values => (Text.ofDigits 10 values : Int))

def splitAt? (stop : Char -> Bool) : List Char -> List Char × Option (List Char)
  | [] => ([], none)
  | c :: rest =>
      if stop c then ([], some rest)
      else
        let (before, after) := splitAt? stop rest
        (c :: before, after)

def unsigned? (negative : Bool) (cs : List Char) : Option Number := do
  let (mantissa, power) := splitAt? (fun c => c = 'e' || c = 'E') cs
  let (whole, fraction) := splitAt? (fun c => c = '.') mantissa
  let whole <- digits? whole
  let fraction <-
    match fraction with
    | none => some []
    | some cs => digits? cs
  let exponent <-
    match power with
    | none => some none
    | some cs => (power? cs).map some
  let number : Number :=
    { negative := negative, whole := whole, fraction := fraction, exponent := exponent }
  if whole.head? = some 0 ∧ whole.length ≠ 1 then none
  else if number.isFinite then some number
  else none

def number? : List Char -> Option Number
  | '-' :: rest => unsigned? true rest
  | cs => unsigned? false cs

/-!
## Strings
-/

inductive Piece where
  | char (c : Char)
  | code (n : Nat)

def hex4? (a b c d : Char) : Option Nat := do
  let a <- Text.hexDigit? a
  let b <- Text.hexDigit? b
  let c <- Text.hexDigit? c
  let d <- Text.hexDigit? d
  return 4096 * a + 256 * b + 16 * c + d

def shortEscape? : Char -> Option Char
  | '\"' => some '\"'
  | '\\' => some '\\'
  | '/' => some '/'
  | 'b' => some '\x08'
  | 'f' => some '\x0c'
  | 'n' => some '\n'
  | 'r' => some '\r'
  | 't' => some '\t'
  | _ => none

def pieces? : List Char -> Option (List Piece × List Char)
  | [] => none
  | '\"' :: rest => some ([], rest)
  | '\\' :: 'u' :: a :: b :: c :: d :: rest => do
      let code <- hex4? a b c d
      let (pieces, after) <- pieces? rest
      return (.code code :: pieces, after)
  | '\\' :: letter :: rest => do
      let char <- shortEscape? letter
      let (pieces, after) <- pieces? rest
      return (.char char :: pieces, after)
  | char :: rest =>
      if char.toNat < 0x20 then none
      else (pieces? rest).map (fun found => (.char char :: found.1, found.2))

def surrogatePair? (high low : Nat) : Option Char :=
  if 0xd800 <= high && high < 0xdc00 && 0xdc00 <= low && low < 0xe000 then
    some (Char.ofNat (0x10000 + 1024 * (high - 0xd800) + (low - 0xdc00)))
  else none

def isSurrogate (code : Nat) : Bool :=
  0xd800 <= code && code < 0xe000

def join? : List Piece -> Option (List Char)
  | [] => some []
  | .char c :: rest => (join? rest).map (fun cs => c :: cs)
  | .code code :: rest =>
      if !isSurrogate code then (join? rest).map (fun cs => Char.ofNat code :: cs)
      else
        match rest with
        | .code low :: rest => do
            let c <- surrogatePair? code low
            let cs <- join? rest
            return c :: cs
        | _ => none

def string? (cs : List Char) : Option (String × List Char) := do
  let (pieces, rest) <- pieces? cs
  let body <- join? pieces
  return (String.ofList body, rest)

theorem length_pieces? {cs rest : List Char} {pieces : List Piece}
    (h : pieces? cs = some (pieces, rest)) : rest.length < cs.length := by
  fun_induction pieces? cs generalizing pieces rest with
  | case1 => cases h
  | case2 => cases h; simp
  | case3 a b c d rest' ih =>
      simp only [Option.bind_eq_bind, Option.bind_eq_some_iff, Option.pure_def,
        Option.some.injEq, Prod.mk.injEq] at h
      obtain ⟨_, _, ⟨pieces', after⟩, hrest, _, rfl⟩ := h
      have hlt := ih hrest
      simp only [List.length_cons]
      omega
  | case4 letter rest' _ ih =>
      simp only [Option.bind_eq_bind, Option.bind_eq_some_iff, Option.pure_def,
        Option.some.injEq, Prod.mk.injEq] at h
      obtain ⟨_, _, ⟨pieces', after⟩, hrest, _, rfl⟩ := h
      have hlt := ih hrest
      simp only [List.length_cons]
      omega
  | case5 => cases h
  | case6 char rest' _ _ _ _ ih =>
      obtain ⟨found, hrest, hpair⟩ := Option.map_eq_some_iff.mp h
      cases hpair
      have hlt := ih hrest
      simp only [List.length_cons]
      omega

theorem length_string? {cs rest : List Char} {body : String}
    (h : string? cs = some (body, rest)) : rest.length < cs.length := by
  simp only [string?, Option.bind_eq_bind, Option.bind_eq_some_iff, Option.pure_def,
    Option.some.injEq, Prod.mk.injEq] at h
  obtain ⟨⟨pieces, after⟩, hpieces, _, _, _, rfl⟩ := h
  exact length_pieces? hpieces

/-!
## All tokens
-/

def isBlank (c : Char) : Bool :=
  c = ' ' || c = '\n' || c = '\t' || c = '\r'

def ofChar? : Char -> Option Token
  | '\x7b' => some openObject
  | '\x7d' => some closeObject
  | '[' => some openArray
  | ']' => some closeArray
  | ',' => some comma
  | ':' => some colon
  | _ => none

def word? : List Char -> Option (Token × List Char)
  | 'n' :: 'u' :: 'l' :: 'l' :: rest => some (null, rest)
  | 't' :: 'r' :: 'u' :: 'e' :: rest => some (bool true, rest)
  | 'f' :: 'a' :: 'l' :: 's' :: 'e' :: rest => some (bool false, rest)
  | _ => none

def first? (c : Char) (rest : List Char) : Option (Token × List Char) :=
  if c = '\"' then (string? rest).map (fun found => (string found.1, found.2))
  else if isNumberChar c then
    (number? (c :: rest.takeWhile isNumberChar)).map (fun value =>
      (number value, rest.dropWhile isNumberChar))
  else
    match ofChar? c with
    | some token => some (token, rest)
    | none => word? (c :: rest)

theorem length_first? {c : Char} {rest after : List Char} {token : Token}
    (h : first? c rest = some (token, after)) : after.length <= rest.length := by
  unfold first? at h
  split at h
  · obtain ⟨found, hfound, hpair⟩ := Option.map_eq_some_iff.mp h
    cases hpair
    exact Nat.le_of_lt (length_string? hfound)
  · split at h
    · obtain ⟨found, _, hpair⟩ := Option.map_eq_some_iff.mp h
      cases hpair
      exact (List.dropWhile_suffix isNumberChar).length_le
    · split at h
      · cases h
        exact Nat.le_refl _
      · unfold word? at h
        split at h <;> simp_all <;> omega

def ofChars? : List Char -> Option (List Token)
  | [] => some []
  | c :: rest =>
      if isBlank c then ofChars? rest
      else
        match _h : first? c rest with
        | none => none
        | some (token, after) => (ofChars? after).map (fun tokens => token :: tokens)
termination_by cs => cs.length
decreasing_by
  · simp
  · have hle := length_first? _h
    simp only [List.length_cons]
    omega

end Token
end Json
end Cosigning
