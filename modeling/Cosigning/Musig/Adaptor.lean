import Cosigning.Musig.Session

/-!
# Adaptor signatures

When a session has an adaptor point, its partial signatures combine to a
signature that lacks the secret of that point.  Adding the secret completes it,
and whoever holds both the incomplete and the completed signature learns the
secret.
-/

namespace Cosigning
namespace Musig

open Ciphersuite

variable {P : Type} [Ciphersuite P]

/-- A signature that lacks the secret of a point. -/
structure AdaptorSignature (P : Type) [Ciphersuite P] where
  /-- The nonce without the adaptor point. -/
  nonce : PublicKey P
  response : Scalar
  point : PublicKey P

namespace AdaptorSignature

def complete? (incomplete : AdaptorSignature P) (secret : Scalar) :
    Option Schnorr.Signature :=
  (PublicKey.ofPoint? (incomplete.nonce.point + scale secret base)).map (fun nonce =>
    { nonce := nonce.xOnly.bytes
      response :=
        (incomplete.response + Scalar.negateIf nonce.isOdd secret).toBytes })

def openSignature (signature : Schnorr.Signature) : Except Error (XOnlyKey P × Scalar) :=
  match Scalar.ofBytes? signature.response, XOnlyKey.ofBytes? signature.nonce with
  | none, _ => .error .malformedResponse
  | some _, none => .error .malformedNoncePoint
  | some response, some nonce => .ok (nonce, response)

def difference? (incomplete : AdaptorSignature P) (nonce : XOnlyKey P) (response : Scalar) :
    Option Scalar :=
  let gap := response - incomplete.response
  let point : P := scale gap base
  if point = nonce.lift.point + -incomplete.nonce.point then some gap
  else if point = nonce.lift.point + incomplete.nonce.point then some (-gap)
  else none

def reveal (incomplete : AdaptorSignature P) (completed : Schnorr.Signature) :
    Except Error (KeyPair P) := do
  let (nonce, response) <- openSignature completed
  match incomplete.difference? nonce response with
  | none => throw .notCompletion
  | some secret =>
      match KeyPair.ofScalar? secret with
      | none => throw .zeroAdaptorSecret
      | some pair =>
          ensure (pair.publicKey = incomplete.point) Error.revealedSecretMismatch
          return pair

end AdaptorSignature

namespace Session

def requireAdaptor (session : Session P) : Except Error (PublicKey P) :=
  match session.adaptorPoint with
  | some point => .ok point
  | none => .error .adaptorAbsent

def combineAdaptor (session : Session P) (point : PublicKey P) (partials : List Scalar) :
    Except Error (AdaptorSignature P) := do
  session.requireAll partials
  let round <- session.round
  let response := round.combine partials
  ensure (round.accepts response) Error.invalidAdaptorAggregate
  return { nonce := round.finalNonce
           response := response
           point := point }

def aggregateAdaptor (session : Session P) (partials : List Scalar) :
    Except Error (AdaptorSignature P × Session P) := do
  session.require .combining
  let point <- session.requireAdaptor
  let incomplete <- session.combineAdaptor point partials
  return (incomplete, { session with phase := .aggregated })

def adapt (session : Session P) (incomplete : AdaptorSignature P) (pair : KeyPair P) :
    Except Error (Schnorr.Signature × Session P) := do
  session.require .completing
  ensure (pair.publicKey = incomplete.point) Error.adaptorSecretMismatch
  match incomplete.complete? pair.secret with
  | none => throw .invalidCompletion
  | some signature =>
      session.verify signature
      return (signature, { session with phase := .adapted })

def extract (session : Session P) (completed : Schnorr.Signature) (partials : List Scalar) :
    Except Error (KeyPair P) := do
  session.require .fixedNonces
  let point <- session.requireAdaptor
  session.verify completed
  let incomplete <- session.combineAdaptor point partials
  incomplete.reveal completed

end Session

end Musig
end Cosigning
