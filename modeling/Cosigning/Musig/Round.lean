import Cosigning.Musig.KeyContext
import Cosigning.Musig.Nonce
import Cosigning.Schnorr

/-!
# The second round

Once the aggregate nonce is known, so is everything that partial signatures are
made and checked against: the factor of the second nonces, the final nonce,
and the challenge.  An adaptor point shifts the nonce that the challenge is for.
-/

namespace Cosigning
namespace Musig

open Ciphersuite

variable {P : Type} [Ciphersuite P]

/-- What all partial signatures of a signing have in common. -/
structure Round (P : Type) [Ciphersuite P] where
  context : KeyContext P
  nonceFactor : Scalar
  finalNonce : PublicKey P
  adaptedNonce : P
  challenge : Scalar

namespace Round

def factorFor (context : KeyContext P) (nonce : AggregateNonce P) (message : Bytes32) :
    Scalar :=
  Scalar.reduce
    (hash (P := P) .nonceCoefficient
      (nonce.toBytes ++ context.aggregate.xOnly.bytes.toList ++ message.toList))

def finiteOrBase (point : P) : PublicKey P :=
  (PublicKey.ofPoint? point).getD KeyPair.one.publicKey

def ofNonce (context : KeyContext P) (nonce : AggregateNonce P)
    (adaptorPoint : Option (PublicKey P)) (message : Bytes32) : Round P :=
  let factor := factorFor context nonce message
  let finalNonce := finiteOrBase (nonce.first + scale factor nonce.second)
  let adaptedNonce :=
    match adaptorPoint with
    | none => finalNonce.point
    | some adaptor => finalNonce.point + adaptor.point
  { context := context
    nonceFactor := factor
    finalNonce := finalNonce
    adaptedNonce := adaptedNonce
    challenge := Schnorr.challenge (xCoord adaptedNonce) context.aggregate.xOnly message }

/-- Whether the nonces count with the opposite sign, so that the adapted nonce is even. -/
def negatesNonce (round : Round P) : Bool :=
  isOdd round.adaptedNonce

/-- Whether the keys count with the opposite sign, so that the aggregate is even. -/
def negatesKey (round : Round P) : Bool :=
  round.context.aggregate.isOdd ^^ round.context.negated

def partialSignature (round : Round P) (secret : Scalar) (signer : PublicKey P)
    (nonce : SecretNonce P) : Scalar :=
  let share := coefficient round.context.keys signer
  Scalar.negateIf round.negatesNonce
      (nonce.first.secret + round.nonceFactor * nonce.second.secret) +
    round.challenge * share * Scalar.negateIf round.negatesKey secret

def verifyPartial (round : Round P) (signer : PublicKey P) (nonce : PublicNonce P)
    (response : Scalar) : Bool :=
  let share := coefficient round.context.keys signer
  let effectiveNonce := nonce.first.point + scale round.nonceFactor nonce.second.point
  let keyPart := scale (round.challenge * share) signer.point
  decide
    (scale response base =
      negateIf round.negatesNonce effectiveNonce + negateIf round.negatesKey keyPart)

def combine (round : Round P) (partials : List Scalar) : Scalar :=
  partials.foldr (fun response total => response + total) 0 +
    Scalar.negateIf round.context.aggregate.isOdd (round.challenge * round.context.offset)

def accepts (round : Round P) (response : Scalar) : Bool :=
  decide
    (scale response base =
      negateIf round.negatesNonce round.finalNonce.point +
        scale round.challenge
          (negateIf round.context.aggregate.isOdd round.context.aggregate.point))

end Round

end Musig
end Cosigning
