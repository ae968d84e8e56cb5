import Cosigning.Bytes
import Cosigning.Text.Digit

/-!
# Hexadecimal text

A byte is written as two lower-case digits.  Reading accepts digits of either
case and is inverse to writing.
-/

namespace Cosigning
namespace Hex

open Text (hexChar hexDigit?)

inductive Error where
  | oddLength
  | invalidDigit (byte : UInt8) (index : Nat)
deriving DecidableEq

def digits (bytes : List UInt8) : List Char :=
  bytes.flatMap (fun byte => [hexChar (byte.toNat / 16), hexChar (byte.toNat % 16)])

def encode (bytes : List UInt8) : String :=
  String.ofList (digits bytes)

def digitValue? (code : UInt8) : Option Nat :=
  hexDigit? (Char.ofNat code.toNat)

/-- Read pairs of digits; `index` counts the codes read before. -/
def decodeCodes (index : Nat) : List UInt8 -> Except Error (List UInt8)
  | [] => .ok []
  | [_] => .error .oddLength
  | high :: low :: rest =>
      match digitValue? high, digitValue? low with
      | none, _ => .error (.invalidDigit high index)
      | some _, none => .error (.invalidDigit low (index + 1))
      | some h, some l =>
          (decodeCodes (index + 2) rest).map (fun bytes => UInt8.ofNat (16 * h + l) :: bytes)

/-- The byte string that a text writes.  An odd length is found before a bad digit. -/
def decode (text : String) : Except Error (List UInt8) :=
  let codes := text.toUTF8.data.toList
  if codes.length % 2 = 1 then .error .oddLength else decodeCodes 0 codes

def decodeFixed? (width : Nat) (text : String) : Option (FixedBytes width) :=
  match decode text with
  | .ok bytes => FixedBytes.ofList? width bytes
  | .error _ => none

end Hex

def FixedBytes.toHex {width : Nat} (a : FixedBytes width) : String :=
  Hex.encode a.toList

end Cosigning
