import Cosigning.Key

/-!
# Nonces

A participant's nonce is a pair: two secret scalars with their two points.  The
points of all participants are added up, place by place, to the aggregate nonce.
-/

namespace Cosigning
namespace Musig

open Ciphersuite

variable {P : Type} [Ciphersuite P]

structure PublicNonce (P : Type) [Ciphersuite P] where
  first : PublicKey P
  second : PublicKey P
deriving DecidableEq

structure SecretNonce (P : Type) [Ciphersuite P] where
  first : KeyPair P
  second : KeyPair P

structure AggregateNonce (P : Type) [Ciphersuite P] where
  first : P
  second : P

namespace PublicNonce

def toBytes (nonce : PublicNonce P) : List UInt8 :=
  nonce.first.toBytes ++ nonce.second.toBytes

def toHex (nonce : PublicNonce P) : String :=
  Hex.encode nonce.toBytes

def ofBytes? (bytes : List UInt8) : Option (PublicNonce P) := do
  let first <- PublicKey.ofCompressed? (bytes.take 33)
  let second <- PublicKey.ofCompressed? (bytes.drop 33)
  return { first := first, second := second }

end PublicNonce

namespace SecretNonce

def toPublic (nonce : SecretNonce P) : PublicNonce P :=
  { first := nonce.first.publicKey
    second := nonce.second.publicKey }

/-- What the two scalars are hashed from: the signer's secret masked by the seed, the signer's key,
the aggregate key and the message, each but the first with its length. -/
def material (secret : Scalar) (signer : PublicKey P) (aggregate : XOnlyKey P)
    (message seed : Bytes32) : List UInt8 :=
  let masked := secret.toBytes.xor (hash (P := P) .musigAux seed.toList)
  masked.toList ++
    33 :: signer.toBytes ++
    32 :: aggregate.bytes.toList ++
    1 :: bigEndian 8 32 ++ message.toList

def derive (secret : Scalar) (signer : PublicKey P) (aggregate : XOnlyKey P)
    (message seed : Bytes32) : SecretNonce P :=
  let scalarAt (place : UInt8) : Scalar :=
    Scalar.reduce
      (hash (P := P) .musigNonce (material secret signer aggregate message seed ++ [place]))
  { first := KeyPair.ofScalarOrOne (scalarAt 0)
    second := KeyPair.ofScalarOrOne (scalarAt 1) }

end SecretNonce

namespace AggregateNonce

def ofList (nonces : List (PublicNonce P)) : AggregateNonce P :=
  { first := Ciphersuite.sum (nonces.map (fun nonce => nonce.first.point))
    second := Ciphersuite.sum (nonces.map (fun nonce => nonce.second.point)) }

/-- The two sums in sixty-six bytes; infinity is all zeros. -/
def toBytes (nonce : AggregateNonce P) : List UInt8 :=
  compress nonce.first ++ compress nonce.second

end AggregateNonce

end Musig
end Cosigning
