import Cosigning.Musig.Nonce
import Cosigning.Musig.Error

/-!
# Bytes exchanged between participants

A public nonce travels as two compressed points and a partial signature as a
scalar.  The length is checked before the content, and each value has one form.
-/

namespace Cosigning
namespace Wire

open Musig

variable {P : Type} [Ciphersuite P]

def nonceLength : Nat := 66

def partialLength : Nat := 32

def encodeNonce (nonce : PublicNonce P) : List UInt8 :=
  nonce.toBytes

def decodeNonce (bytes : List UInt8) : Except Error (PublicNonce P) :=
  if bytes.length ≠ nonceLength then .error (.nonceLength bytes.length)
  else
    match PublicNonce.ofBytes? bytes with
    | some nonce => .ok nonce
    | none => .error .malformedNonce

def encodePartial (response : Scalar) : List UInt8 :=
  response.toBytes.toList

def decodePartial (bytes : List UInt8) : Except Error Scalar :=
  if bytes.length ≠ partialLength then .error (.partialLength bytes.length)
  else
    match (FixedBytes.ofList? 32 bytes).bind Scalar.ofBytes? with
    | some response => .ok response
    | none => .error .malformedPartial

end Wire
end Cosigning
