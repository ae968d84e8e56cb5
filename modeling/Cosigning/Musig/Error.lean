import Cosigning.Text.Hex
import Cosigning.Text.Quoted

/-!
# Phases and failures of a signing session

A session moves through six phases.  Each operation passes a gate that admits
some of them.  A failure is a cause; its kind and its wording are read off the
cause.
-/

namespace Cosigning
namespace Musig

inductive Phase where
  | created
  | noncesGenerated
  | noncesProcessed
  | partiallySigned
  | aggregated
  | adapted
deriving DecidableEq

namespace Phase

def text : Phase -> String
  | created => "created"
  | noncesGenerated => "nonces-generated"
  | noncesProcessed => "nonces-processed"
  | partiallySigned => "partially-signed"
  | aggregated => "aggregated"
  | adapted => "adapted"

end Phase

inductive Gate where
  | setup
  | nonceRound
  | signing
  | combining
  | fixedNonces
  | completing
deriving DecidableEq

namespace Gate

def phases : Gate -> List Phase
  | setup => [.created]
  | nonceRound => [.created, .noncesGenerated]
  | signing => [.noncesProcessed, .partiallySigned]
  | combining => [.noncesProcessed, .partiallySigned]
  | fixedNonces => [.noncesProcessed, .partiallySigned, .aggregated, .adapted]
  | completing => [.aggregated]

def text : Gate -> String
  | setup => "created"
  | nonceRound => "created or nonces-generated"
  | signing => "nonces-processed"
  | combining => "nonces-processed or partially-signed"
  | fixedNonces => "nonces-processed"
  | completing => "aggregated"

end Gate

inductive ErrorKind where
  | invalidArgument
  | invalidState
  | verificationFailure
  | securityViolation
  | encoding
deriving DecidableEq

inductive Error where
  | noParticipants
  | duplicateParticipant (key : Bytes32)
  | aggregateAtInfinity
  | zeroTweak
  /-- A tweak that leads to infinity, or a digest that is no scalar. -/
  | invalidTweak
  | adaptorAlreadySet
  | foreignSecret
  | nonceCount (expected actual : Nat)
  | nonceOwner (nonceSigner keySigner : Nat)
  /-- A nonce whose public half was not processed at its signer's place. -/
  | nonceNotProcessed (signer : Nat)
  | failedSelfCheck
  | unknownSigner
  | adaptorPresent
  | adaptorAbsent
  | partialCount (expected actual : Nat)
  | adaptorSecretMismatch
  | otherSigning
  | outOfPhase (gate : Gate) (actual : Phase)
  | invalidSignature
  | invalidPartial (signer : Nat)
  | invalidAggregate
  | invalidAdaptorAggregate
  | invalidCompletion
  | notCompletion
  | zeroAdaptorSecret
  | revealedSecretMismatch
  | foreignNonce
  | secondSignature (signer : Nat)
  | nonceLength (actual : Nat)
  | partialLength (actual : Nat)
  | malformedNonce
  | malformedPartial
  | malformedResponse
  | malformedNoncePoint
  | unsupportedVersion (version : UInt8)
  | nonceExpected
  | partialExpected
  | invalidHex (fault : Hex.Error)
deriving DecidableEq

def hexFault : Hex.Error -> String
  | .oddLength => "Odd number of digits"
  | .invalidDigit byte index =>
      "Invalid character " ++ Text.quotedSingle (Char.ofNat byte.toNat) ++
        " at position " ++ toString index

namespace Error

def kind : Error -> ErrorKind
  | noParticipants | duplicateParticipant _ | aggregateAtInfinity | zeroTweak | invalidTweak
  | adaptorAlreadySet | foreignSecret | nonceCount _ _ | nonceOwner _ _ | nonceNotProcessed _
  | failedSelfCheck | unknownSigner | adaptorPresent | adaptorAbsent | partialCount _ _
  | adaptorSecretMismatch | otherSigning => .invalidArgument
  | outOfPhase _ _ => .invalidState
  | invalidSignature | invalidPartial _ | invalidAggregate | invalidAdaptorAggregate
  | invalidCompletion | notCompletion | zeroAdaptorSecret | revealedSecretMismatch =>
      .verificationFailure
  | foreignNonce | secondSignature _ => .securityViolation
  | nonceLength _ | partialLength _ | malformedNonce | malformedPartial | malformedResponse
  | malformedNoncePoint | unsupportedVersion _ | nonceExpected | partialExpected
  | invalidHex _ => .encoding

/-- Whether the session and the keys it touched must be destroyed. -/
def isFatal (e : Error) : Bool :=
  e.kind = .securityViolation

def detail : Error -> String
  | noParticipants => "no participant keys"
  | duplicateParticipant key => "duplicate participant key " ++ key.toHex
  | aggregateAtInfinity => "key aggregation: computed an invalid aggregated key"
  | zeroTweak => "scalar out of range: malformed or out-of-range secret key"
  | invalidTweak => "tweak: tweak value is invalid"
  | adaptorAlreadySet => "adaptor point already set"
  | foreignSecret => "secret key does not belong to a participant"
  | nonceCount expected actual => s!"expected {expected} public nonces, got {actual}"
  | nonceOwner nonceSigner keySigner =>
      s!"nonce belongs to signer {nonceSigner}, key belongs to signer {keySigner}"
  | nonceNotProcessed signer =>
      s!"nonce for signer {signer} was not part of the processed nonce set"
  | failedSelfCheck => "partial sign: failed to verify our own signature; something is wrong"
  | unknownSigner => "signer is not a participant"
  | adaptorPresent =>
      "session uses an adaptor point, aggregate an adaptor signature instead"
  | adaptorAbsent => "session has no adaptor point"
  | partialCount expected actual => s!"expected {expected} partial signatures, got {actual}"
  | adaptorSecretMismatch => "secret does not match the adaptor point"
  | otherSigning => "round message is for a different signing"
  | outOfPhase gate actual => "expected " ++ gate.text ++ ", session is " ++ actual.text
  | invalidSignature => "schnorr signature: signature failed verification"
  | invalidPartial signer =>
      s!"partial signature of signer {signer}: failed to verify signature: signature is invalid"
  | invalidAggregate => "sig aggregation: failed to verify signature: signature is invalid"
  | invalidAdaptorAggregate =>
      "adaptor aggregation: failed to verify signature: signature is invalid"
  | invalidCompletion => "adapted signature is invalid"
  | notCompletion => "signature does not complete this adaptor signature"
  | zeroAdaptorSecret => "adaptor secret: malformed or out-of-range secret key"
  | revealedSecretMismatch => "revealed secret does not match the adaptor point"
  | foreignNonce => "nonce was generated for a different session"
  | secondSignature signer => s!"signer {signer} already signed in this session"
  | nonceLength actual => s!"public nonce must be 66 bytes, got {actual}"
  | partialLength actual => s!"partial signature must be 32 bytes, got {actual}"
  | malformedNonce =>
      "public nonce: error decoding musig2::nonces::PubNonce: " ++
        "received invalid point byte representation"
  | malformedPartial => "partial signature: received invalid scalar bytes"
  | malformedResponse =>
      "lifted signature: error decoding musig2::signature::LiftedSignature: " ++
        "received invalid scalar bytes"
  | malformedNoncePoint =>
      "lifted signature: error decoding musig2::signature::LiftedSignature: " ++
        "received invalid point byte representation"
  | unsupportedVersion version => s!"unsupported wire version {version}"
  | nonceExpected => "expected a nonce, got a partial signature"
  | partialExpected => "expected a partial signature, got a nonce"
  | invalidHex fault => "invalid hex: " ++ hexFault fault

def message (e : Error) : String :=
  let label :=
    match e.kind with
    | .invalidArgument => "Invalid argument: "
    | .invalidState => "Invalid state: "
    | .verificationFailure => "Verification failed: "
    | .securityViolation => "Security violation: "
    | .encoding => "Encoding error: "
  label ++ e.detail

end Error

end Musig
end Cosigning
