import Cosigning.Ensure
import Cosigning.Musig.Round

/-!
# Signing sessions

A session makes one signature over one message by an ordered list of
participants.  Before the first nonce the aggregate key may be tweaked and an
adaptor point set; then every participant makes a nonce, all public nonces are
processed together, every participant makes a partial signature, and the partial
signatures are combined.  An operation that fails leaves nothing behind: it
returns the failure and no session.

A secret nonce remembers the session and the participant that it was made for, and
a participant signs once.
-/

namespace Cosigning
namespace Musig

open Ciphersuite

variable {P : Type} [Ciphersuite P]

abbrev SessionId := Bytes32

structure Session (P : Type) [Ciphersuite P] where
  id : SessionId
  participants : List (PublicKey P)
  message : Bytes32
  context : KeyContext P
  untweakedKey : XOnlyKey P
  tweaks : List Tweak
  adaptorPoint : Option (PublicKey P)
  publicNonces : List (PublicNonce P)
  aggregateNonce : Option (AggregateNonce P)
  signed : List Bool
  phase : Phase

/-- A participant's secret nonce, bound to the session that made it. -/
structure SigningNonce (P : Type) [Ciphersuite P] where
  session : SessionId
  signer : Nat
  secret : SecretNonce P

namespace SigningNonce

def toPublic (nonce : SigningNonce P) : PublicNonce P :=
  nonce.secret.toPublic

def describe (nonce : SigningNonce P) : String :=
  "SigningNonce \x7b signer_index: " ++ toString nonce.signer ++
    ", secret: \"<redacted>\" \x7d"

end SigningNonce

structure SignerShare (P : Type) [Ciphersuite P] where
  index : Nat
  key : PublicKey P
  secret : Scalar

namespace Session

def ofKeys (id : SessionId) (participants : List (PublicKey P)) (message : Bytes32) :
    Except Error (Session P) :=
  (KeyContext.ofKeys participants).map (fun context =>
    { id := id
      participants := participants
      message := message
      context := context
      untweakedKey := context.aggregate.xOnly
      tweaks := []
      adaptorPoint := none
      publicNonces := []
      aggregateNonce := none
      signed := participants.map (fun _ => false)
      phase := .created })

def ofXOnly (id : SessionId) (participants : List (XOnlyKey P)) (message : Bytes32) :
    Except Error (Session P) :=
  ofKeys id (participants.map XOnlyKey.lift) message

def aggregateKey (session : Session P) : PublicKey P :=
  session.context.aggregate

def aggregateXOnly (session : Session P) : XOnlyKey P :=
  session.context.aggregate.xOnly

def participant? (session : Session P) (key : XOnlyKey P) : Option (PublicKey P × Nat) :=
  session.participants.zipIdx.find? (fun entry => decide (entry.1.xOnly = key))

def participantIndex? (session : Session P) (key : XOnlyKey P) : Option Nat :=
  (session.participant? key).map Prod.snd

def require (session : Session P) (gate : Gate) : Except Error Unit :=
  ensure (session.phase ∈ gate.phases) (.outOfPhase gate session.phase)

def applyTweak (session : Session P) (tweak : Tweak) : Except Error (Session P) := do
  session.require .setup
  let context <- session.context.apply tweak
  return { session with
    context := context
    tweaks := session.tweaks ++ [tweak] }

def useAdaptor (session : Session P) (point : PublicKey P) : Except Error (Session P) := do
  session.require .setup
  ensure (session.adaptorPoint = none) Error.adaptorAlreadySet
  return { session with adaptorPoint := some point }

/-- The participant that a key pair belongs to.  The participant's key may be the negative of the
pair's; then it is the negated secret that signs. -/
def resolveSigner (session : Session P) (pair : KeyPair P) : Except Error (SignerShare P) :=
  match session.participant? pair.xOnly with
  | none => .error .foreignSecret
  | some (key, index) =>
      .ok
        { index := index
          key := key
          secret := Scalar.negateIf (decide (key ≠ pair.publicKey)) pair.secret }

def generateNonce (session : Session P) (pair : KeyPair P) (seed : Bytes32) :
    Except Error (SigningNonce P × Session P) := do
  session.require .nonceRound
  let signer <- session.resolveSigner pair
  let secret :=
    SecretNonce.derive signer.secret signer.key session.aggregateXOnly session.message seed
  return ({ session := session.id
            signer := signer.index
            secret := secret },
    { session with phase := .noncesGenerated })

def processNonces (session : Session P) (nonces : List (PublicNonce P)) :
    Except Error (Session P) := do
  session.require .nonceRound
  ensure (nonces.length = session.participants.length)
    (Error.nonceCount session.participants.length nonces.length)
  return { session with
    publicNonces := nonces
    aggregateNonce := some (AggregateNonce.ofList nonces)
    phase := .noncesProcessed }

def round (session : Session P) : Except Error (Round P) :=
  match session.aggregateNonce with
  | some nonce =>
      .ok (Round.ofNonce session.context nonce session.adaptorPoint session.message)
  | none => .error (.outOfPhase .fixedNonces session.phase)

def sign (session : Session P) (pair : KeyPair P) (nonce : SigningNonce P) :
    Except Error (Scalar × Session P) := do
  session.require .signing
  ensure (nonce.session = session.id) Error.foreignNonce
  let signer <- session.resolveSigner pair
  ensure (signer.index = nonce.signer) (Error.nonceOwner nonce.signer signer.index)
  ensure (session.signed[signer.index]? ≠ some true) (Error.secondSignature signer.index)
  ensure (session.publicNonces[signer.index]? = some nonce.toPublic)
    (Error.nonceNotProcessed signer.index)
  let round <- session.round
  let response := round.partialSignature signer.secret signer.key nonce.secret
  -- Checked under the participant's key, of which the pair's may be the negative.
  ensure (round.verifyPartial signer.key nonce.toPublic response) Error.failedSelfCheck
  return (response,
    { session with
      signed := session.signed.set signer.index true
      phase := .partiallySigned })

def verifyPartial (session : Session P) (signer : PublicKey P) (nonce : PublicNonce P)
    (response : Scalar) : Except Error Unit := do
  session.require .fixedNonces
  match session.participant? signer.xOnly with
  | none => throw .unknownSigner
  | some (key, index) =>
      let round <- session.round
      ensure (round.verifyPartial key nonce response) (Error.invalidPartial index)

def verify (session : Session P) (signature : Schnorr.Signature) : Except Error Unit :=
  ensure (Schnorr.verify session.aggregateXOnly session.message signature)
    Error.invalidSignature

def requireAll (session : Session P) (partials : List Scalar) : Except Error Unit :=
  ensure (partials.length = session.participants.length)
    (Error.partialCount session.participants.length partials.length)

def aggregate (session : Session P) (partials : List Scalar) :
    Except Error (Schnorr.Signature × Session P) := do
  session.require .combining
  ensure (session.adaptorPoint = none) Error.adaptorPresent
  session.requireAll partials
  let round <- session.round
  let response := round.combine partials
  ensure (round.accepts response) Error.invalidAggregate
  let signature : Schnorr.Signature :=
    { nonce := xCoord round.finalNonce.point
      response := response.toBytes }
  session.verify signature
  return (signature, { session with phase := .aggregated })

end Session

def verifySignature (key : XOnlyKey P) (message : Bytes32) (signature : Schnorr.Signature) :
    Except Error Unit :=
  ensure (Schnorr.verify key message signature) Error.invalidSignature

end Musig
end Cosigning
