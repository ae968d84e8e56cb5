import Cosigning.Key

/-!
# Schnorr signatures

A signature names a nonce point by its x coordinate and gives a response.  It
is valid for a message under an x-only key when the response's multiple of the
base point, less the challenge's multiple of the key, is the even point with that
x coordinate.
-/

namespace Cosigning
namespace Schnorr

open Ciphersuite

variable {P : Type} [Ciphersuite P]

/-- Sixty-four bytes offered as a signature. -/
structure Signature where
  nonce : Bytes32
  response : Bytes32
deriving DecidableEq

namespace Signature

def toBytes (signature : Signature) : List UInt8 :=
  signature.nonce.toList ++ signature.response.toList

def toHex (signature : Signature) : String :=
  Hex.encode signature.toBytes

def ofBytes? (bytes : List UInt8) : Option Signature := do
  let nonce <- FixedBytes.ofList? 32 (bytes.take 32)
  let response <- FixedBytes.ofList? 32 (bytes.drop 32)
  return { nonce := nonce, response := response }

def ofHex? (text : String) : Option Signature :=
  match Hex.decode text with
  | .ok bytes => ofBytes? bytes
  | .error _ => none

end Signature

def challenge (nonce : Bytes32) (key : XOnlyKey P) (message : Bytes32) : Scalar :=
  Scalar.reduce
    (hash (P := P) .schnorrChallenge (nonce.toList ++ key.bytes.toList ++ message.toList))

def verify (key : XOnlyKey P) (message : Bytes32) (signature : Signature) : Bool :=
  match Scalar.ofBytes? signature.response with
  | none => false
  | some response =>
      let e := challenge signature.nonce key message
      -- What the nonce point must have been; only a finite even point was signed with.
      let point := scale response base + -scale e key.lift.point
      decide (point ≠ 0) && !isOdd point && decide (xCoord point = signature.nonce)

def deriveNonce (pair : KeyPair P) (secret : Scalar) (aux message : Bytes32) : KeyPair P :=
  let masked := secret.toBytes.xor (hash (P := P) .schnorrAux aux.toList)
  KeyPair.ofScalarOrOne
    (Scalar.reduce
      (hash (P := P) .schnorrNonce
        (masked.toList ++ pair.xOnly.bytes.toList ++ message.toList)))

def sign (pair : KeyPair P) (aux message : Bytes32) : Signature :=
  let secret := Scalar.negateIf pair.publicKey.isOdd pair.secret
  let nonce := deriveNonce pair secret aux message
  let nonceSecret := Scalar.negateIf nonce.publicKey.isOdd nonce.secret
  let e := challenge nonce.xOnly.bytes pair.xOnly message
  { nonce := nonce.xOnly.bytes
    response := (nonceSecret + e * secret).toBytes }

end Schnorr
end Cosigning
