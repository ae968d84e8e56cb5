import Cosigning.Proofs.Musig.Operations

/-!
# Sessions operated in place

The owner of a session changes it by operations.  Here each operation is the list of its
questions and assignments, in the order in which they are made: a refusal leaves behind
whatever was assigned before it, and a position that a list does not have is a crash.  On
a session whose lists have the right lengths there is no crash, and a refused operation
has assigned nothing.
-/

namespace Cosigning
namespace Musig

open Ciphersuite

variable {P : Type} [Ciphersuite P]

inductive Stop where
  | refused (cause : Error)
  /-- A list was asked for a position that it does not have. -/
  | outOfRange

abbrev InPlace (P : Type) [Ciphersuite P] :=
  EStateM Stop (Session P)

namespace InPlace

variable {α β : Type}

def ask (question : Session P -> Except Error α) : InPlace P α := fun session =>
  match question session with
  | .ok answer => .ok answer session
  | .error cause => .error (.refused cause) session

def entry (entries : Session P -> List α) (place : Nat) : InPlace P α := fun session =>
  match (entries session)[place]? with
  | some found => .ok found session
  | none => .error .outOfRange session

def assign (change : Session P -> Session P) : InPlace P Unit := fun session =>
  .ok () (change session)

def participant (key : XOnlyKey P) (cause : Error) : InPlace P (PublicKey P × Nat) := do
  let index <- ask (fun session =>
    match session.participantIndex? key with
    | some index => .ok index
    | none => .error cause)
  let found <- entry (fun session => session.participants) index
  return (found, index)

def applyTweak (tweak : Tweak) : InPlace P Unit := do
  ask (fun session => session.require .setup)
  let context <- ask (fun session => session.context.apply tweak)
  assign (fun session => { session with context := context })
  assign (fun session => { session with tweaks := session.tweaks ++ [tweak] })

def useAdaptor (point : PublicKey P) : InPlace P Unit := do
  ask (fun session => session.require .setup)
  ask (fun session => ensure (session.adaptorPoint = none) Error.adaptorAlreadySet)
  assign (fun session => { session with adaptorPoint := some point })

def resolveSigner (pair : KeyPair P) : InPlace P (SignerShare P) := do
  let (key, index) <- participant pair.xOnly .foreignSecret
  return { index := index
           key := key
           secret := Scalar.negateIf (decide (key ≠ pair.publicKey)) pair.secret }

def generateNonce (pair : KeyPair P) (seed : Bytes32) : InPlace P (SigningNonce P) := do
  ask (fun session => session.require .nonceRound)
  let signer <- resolveSigner pair
  let secret <- ask (fun session =>
    .ok (SecretNonce.derive signer.secret signer.key session.aggregateXOnly session.message
      seed))
  assign (fun session => { session with phase := .noncesGenerated })
  let id <- ask (fun session => .ok session.id)
  return { session := id
           signer := signer.index
           secret := secret }

def processNonces (nonces : List (PublicNonce P)) : InPlace P Unit := do
  ask (fun session => session.require .nonceRound)
  ask (fun session => ensure (nonces.length = session.participants.length)
    (Error.nonceCount session.participants.length nonces.length))
  assign (fun session => { session with publicNonces := nonces })
  assign (fun session => { session with aggregateNonce := some (AggregateNonce.ofList nonces) })
  assign (fun session => { session with phase := .noncesProcessed })

def sign (pair : KeyPair P) (nonce : SigningNonce P) : InPlace P Scalar := do
  ask (fun session => session.require .signing)
  ask (fun session => ensure (nonce.session = session.id) Error.foreignNonce)
  let signer <- resolveSigner pair
  ask (fun _ => ensure (signer.index = nonce.signer)
    (Error.nonceOwner nonce.signer signer.index))
  let flag <- entry (fun session => session.signed) signer.index
  ask (fun _ => ensure (flag = false) (Error.secondSignature signer.index))
  let slot <- entry (fun session => session.publicNonces) signer.index
  ask (fun _ => ensure (slot = nonce.toPublic) (Error.nonceNotProcessed signer.index))
  let round <- ask (fun session => session.round)
  let response := round.partialSignature signer.secret signer.key nonce.secret
  ask (fun _ => ensure (round.verifyPartial signer.key nonce.toPublic response)
    Error.failedSelfCheck)
  assign (fun session => { session with signed := session.signed.set signer.index true })
  assign (fun session => { session with phase := .partiallySigned })
  return response

def verifyPartial (signer : PublicKey P) (nonce : PublicNonce P) (response : Scalar) :
    InPlace P Unit := do
  ask (fun session => session.require .fixedNonces)
  let (key, index) <- participant signer.xOnly .unknownSigner
  let round <- ask (fun session => session.round)
  ask (fun _ => ensure (round.verifyPartial key nonce response) (Error.invalidPartial index))

def aggregate (partials : List Scalar) : InPlace P Schnorr.Signature := do
  ask (fun session => session.require .combining)
  ask (fun session => ensure (session.adaptorPoint = none) Error.adaptorPresent)
  ask (fun session => session.requireAll partials)
  let round <- ask (fun session => session.round)
  let response := round.combine partials
  ask (fun _ => ensure (round.accepts response) Error.invalidAggregate)
  let signature : Schnorr.Signature :=
    { nonce := xCoord round.finalNonce.point
      response := response.toBytes }
  ask (fun session => session.verify signature)
  assign (fun session => { session with phase := .aggregated })
  return signature

def aggregateAdaptor (partials : List Scalar) : InPlace P (AdaptorSignature P) := do
  ask (fun session => session.require .combining)
  let point <- ask (fun session => session.requireAdaptor)
  let incomplete <- ask (fun session => session.combineAdaptor point partials)
  assign (fun session => { session with phase := .aggregated })
  return incomplete

def adapt (incomplete : AdaptorSignature P) (pair : KeyPair P) :
    InPlace P Schnorr.Signature := do
  ask (fun session => session.require .completing)
  ask (fun _ => ensure (pair.publicKey = incomplete.point) Error.adaptorSecretMismatch)
  let signature <- ask (fun _ =>
    match incomplete.complete? pair.secret with
    | none => .error .invalidCompletion
    | some signature => .ok signature)
  ask (fun session => session.verify signature)
  assign (fun session => { session with phase := .adapted })
  return signature

def extract (completed : Schnorr.Signature) (partials : List Scalar) :
    InPlace P (KeyPair P) := do
  ask (fun session => session.require .fixedNonces)
  let point <- ask (fun session => session.requireAdaptor)
  ask (fun session => session.verify completed)
  let incomplete <- ask (fun session => session.combineAdaptor point partials)
  ask (fun _ => incomplete.reveal completed)

end InPlace

inductive Operation (P : Type) [Ciphersuite P] : Type -> Type where
  | applyTweak (tweak : Tweak) : Operation P Unit
  | useAdaptor (point : PublicKey P) : Operation P Unit
  | generateNonce (pair : KeyPair P) (seed : Bytes32) : Operation P (SigningNonce P)
  | processNonces (nonces : List (PublicNonce P)) : Operation P Unit
  | sign (pair : KeyPair P) (nonce : SigningNonce P) : Operation P Scalar
  | verifyPartial (signer : PublicKey P) (nonce : PublicNonce P) (response : Scalar) :
      Operation P Unit
  | aggregate (partials : List Scalar) : Operation P Schnorr.Signature
  | aggregateAdaptor (partials : List Scalar) : Operation P (AdaptorSignature P)
  | adapt (incomplete : AdaptorSignature P) (pair : KeyPair P) : Operation P Schnorr.Signature
  | extract (completed : Schnorr.Signature) (partials : List Scalar) : Operation P (KeyPair P)

namespace Operation

variable {α : Type}

def inPlace : Operation P α -> InPlace P α
  | applyTweak tweak => InPlace.applyTweak tweak
  | useAdaptor point => InPlace.useAdaptor point
  | generateNonce pair seed => InPlace.generateNonce pair seed
  | processNonces nonces => InPlace.processNonces nonces
  | sign pair nonce => InPlace.sign pair nonce
  | verifyPartial signer nonce response => InPlace.verifyPartial signer nonce response
  | aggregate partials => InPlace.aggregate partials
  | aggregateAdaptor partials => InPlace.aggregateAdaptor partials
  | adapt incomplete pair => InPlace.adapt incomplete pair
  | extract completed partials => InPlace.extract completed partials

def outcome (session : Session P) : Operation P α -> Except Error (α × Session P)
  | applyTweak tweak => (session.applyTweak tweak).map (fun next => ((), next))
  | useAdaptor point => (session.useAdaptor point).map (fun next => ((), next))
  | generateNonce pair seed => session.generateNonce pair seed
  | processNonces nonces => (session.processNonces nonces).map (fun next => ((), next))
  | sign pair nonce => session.sign pair nonce
  | verifyPartial signer nonce response =>
      (session.verifyPartial signer nonce response).map (fun done => (done, session))
  | aggregate partials => session.aggregate partials
  | aggregateAdaptor partials => session.aggregateAdaptor partials
  | adapt incomplete pair => session.adapt incomplete pair
  | extract completed partials =>
      (session.extract completed partials).map (fun pair => (pair, session))

def gate : Operation P α -> Gate
  | applyTweak _ => .setup
  | useAdaptor _ => .setup
  | generateNonce _ _ => .nonceRound
  | processNonces _ => .nonceRound
  | sign _ _ => .signing
  | verifyPartial _ _ _ => .fixedNonces
  | aggregate _ => .combining
  | aggregateAdaptor _ => .combining
  | adapt _ _ => .completing
  | extract _ _ => .fixedNonces

end Operation

/-!
## Programs and functions
-/

/-- What a program does that gives the outcome of a function and assigns nothing if it is refused. -/
def settle {α : Type} (session : Session P) :
    Except Error (α × Session P) -> EStateM.Result Stop (Session P) α
  | .ok (answer, next) => .ok answer next
  | .error cause => .error (.refused cause) session

namespace InPlace

variable {α β γ : Type} {session : Session P}

theorem map_bind {first : Except Error α} {next : α -> Except Error β} {change : β -> γ} :
    (first >>= next).map change = first >>= fun middle => (next middle).map change := by
  cases first with
  | error cause => rfl
  | ok middle => rfl

theorem ask_bind_of_ok {question : Session P -> Except Error α} {a : α}
    {program : α -> InPlace P β} (h : question session = .ok a) :
    (ask question >>= program) session = program a session := by
  change EStateM.bind (ask question) program session = _
  unfold EStateM.bind ask
  rw [h]

theorem ask_bind_of_error {question : Session P -> Except Error α} {e : Error}
    {program : α -> InPlace P β} (h : question session = .error e) :
    (ask question >>= program) session = .error (.refused e) session := by
  change EStateM.bind (ask question) program session = _
  unfold EStateM.bind ask
  rw [h]

theorem entry_bind {entries : Session P -> List α} {place : Nat} {found : α}
    {program : α -> InPlace P β} (h : (entries session)[place]? = some found) :
    (entry entries place >>= program) session = program found session := by
  change EStateM.bind (entry entries place) program session = _
  unfold EStateM.bind entry
  rw [h]

theorem ask_bind {question : Session P -> Except Error α} {program : α -> InPlace P β}
    {rest : α -> Except Error (β × Session P)}
    (h : forall answer, question session = .ok answer ->
      program answer session = settle session (rest answer)) :
    (ask question >>= program) session = settle session (question session >>= rest) := by
  cases hanswer : question session with
  | error cause => exact ask_bind_of_error hanswer
  | ok answer =>
      rw [ask_bind_of_ok hanswer]
      exact h answer hanswer

theorem participant_eq_ask (key : XOnlyKey P) (cause : Error) :
    (participant key cause : InPlace P (PublicKey P × Nat)) =
      ask (fun session =>
        match session.participant? key with
        | some found => .ok found
        | none => .error cause) := by
  funext session
  unfold participant
  cases hfound : session.participant? key with
  | none =>
      rw [ask_bind_of_error (e := cause) (by simp [Session.participantIndex?, hfound])]
      simp only [ask, hfound]
  | some found =>
      rcases found with ⟨member, index⟩
      rw [ask_bind_of_ok (a := index) (by simp [Session.participantIndex?, hfound]),
        entry_bind (Session.participant?_eq_some hfound).1]
      simp only [ask, hfound]
      rfl

theorem resolveSigner_eq_ask (pair : KeyPair P) :
    (resolveSigner pair : InPlace P (SignerShare P)) =
      ask (fun session => session.resolveSigner pair) := by
  funext session
  unfold resolveSigner
  rw [participant_eq_ask]
  cases hfound : session.participant? pair.xOnly with
  | none =>
      rw [ask_bind_of_error (e := .foreignSecret) (by simp only [hfound])]
      simp only [ask, Session.resolveSigner, hfound]
  | some found =>
      rw [ask_bind_of_ok (a := found) (by simp only [hfound])]
      simp only [ask, Session.resolveSigner, hfound]
      rfl

/-!
## The operations
-/

theorem applyTweak_eq_settle (tweak : Tweak) :
    applyTweak tweak session =
      settle session ((session.applyTweak tweak).map (fun next => ((), next))) := by
  unfold applyTweak Session.applyTweak
  simp only [map_bind]
  apply ask_bind
  intro _ _
  apply ask_bind
  intro context _
  rfl

theorem useAdaptor_eq_settle (point : PublicKey P) :
    useAdaptor point session =
      settle session ((session.useAdaptor point).map (fun next => ((), next))) := by
  unfold useAdaptor Session.useAdaptor
  simp only [map_bind]
  apply ask_bind
  intro _ _
  apply ask_bind
  intro _ _
  rfl

theorem generateNonce_eq_settle (pair : KeyPair P) (seed : Bytes32) :
    generateNonce pair seed session = settle session (session.generateNonce pair seed) := by
  unfold generateNonce Session.generateNonce
  rw [resolveSigner_eq_ask]
  apply ask_bind
  intro _ _
  apply ask_bind
  intro signer _
  rfl

theorem processNonces_eq_settle (nonces : List (PublicNonce P)) :
    processNonces nonces session =
      settle session ((session.processNonces nonces).map (fun next => ((), next))) := by
  unfold processNonces Session.processNonces
  simp only [map_bind]
  apply ask_bind
  intro _ _
  apply ask_bind
  intro _ _
  rfl

theorem sign_eq_settle (hflags : session.signed.length = session.participants.length)
    (hnonces : session.phase ∈ Gate.signing.phases ->
      session.publicNonces.length = session.participants.length)
    (pair : KeyPair P) (nonce : SigningNonce P) :
    sign pair nonce session = settle session (session.sign pair nonce) := by
  unfold sign Session.sign
  rw [resolveSigner_eq_ask]
  apply ask_bind
  intro _ hphase
  apply ask_bind
  intro _ _
  apply ask_bind
  intro signer hsigner
  apply ask_bind
  intro _ _
  -- The signer is one of the participants, so both lists have an entry at its index.
  have hindex : signer.index < session.participants.length :=
    Session.participantIndex?_lt (Session.participantIndex?_of_resolveSigner hsigner)
  have hnonces := hnonces (ensure_eq_ok_iff.mp hphase)
  rw [entry_bind (List.getElem?_eq_getElem (hflags.symm ▸ hindex)),
    List.getElem?_eq_getElem (hflags.symm ▸ hindex),
    List.getElem?_eq_getElem (hnonces.symm ▸ hindex)]
  simp only [Option.some.injEq, ne_eq, Bool.not_eq_true]
  apply ask_bind
  intro _ _
  rw [entry_bind (List.getElem?_eq_getElem (hnonces.symm ▸ hindex))]
  apply ask_bind
  intro _ _
  apply ask_bind
  intro round _
  apply ask_bind
  intro _ _
  rfl

theorem ask_eq_settle {question : Session P -> Except Error α} :
    ask question session =
      settle session ((question session).map (fun answer => (answer, session))) := by
  unfold ask
  cases question session with
  | error cause => rfl
  | ok answer => rfl

theorem verifyPartial_eq_settle (signer : PublicKey P) (nonce : PublicNonce P)
    (response : Scalar) :
    verifyPartial signer nonce response session =
      settle session ((session.verifyPartial signer nonce response).map
        (fun done => (done, session))) := by
  unfold verifyPartial Session.verifyPartial
  rw [participant_eq_ask]
  simp only [map_bind]
  apply ask_bind
  intro _ _
  cases hfound : session.participant? signer.xOnly with
  | none => exact ask_bind_of_error (by simp only [hfound])
  | some found =>
      rw [ask_bind_of_ok (a := found) (by simp only [hfound])]
      simp only [map_bind]
      apply ask_bind
      intro round _
      exact ask_eq_settle

theorem aggregate_eq_settle (partials : List Scalar) :
    aggregate partials session = settle session (session.aggregate partials) := by
  unfold aggregate Session.aggregate
  apply ask_bind
  intro _ _
  apply ask_bind
  intro _ _
  apply ask_bind
  intro _ _
  apply ask_bind
  intro round _
  apply ask_bind
  intro _ _
  apply ask_bind
  intro _ _
  rfl

theorem aggregateAdaptor_eq_settle (partials : List Scalar) :
    aggregateAdaptor partials session =
      settle session (session.aggregateAdaptor partials) := by
  unfold aggregateAdaptor Session.aggregateAdaptor
  apply ask_bind
  intro _ _
  apply ask_bind
  intro point _
  apply ask_bind
  intro incomplete _
  rfl

theorem adapt_eq_settle (incomplete : AdaptorSignature P) (pair : KeyPair P) :
    adapt incomplete pair session = settle session (session.adapt incomplete pair) := by
  unfold adapt Session.adapt
  apply ask_bind
  intro _ _
  apply ask_bind
  intro _ _
  cases hcomplete : incomplete.complete? pair.secret with
  | none => exact ask_bind_of_error rfl
  | some signature =>
      rw [ask_bind_of_ok (a := signature) rfl]
      apply ask_bind
      intro _ _
      rfl

theorem extract_eq_settle (completed : Schnorr.Signature) (partials : List Scalar) :
    extract completed partials session =
      settle session ((session.extract completed partials).map
        (fun pair => (pair, session))) := by
  unfold extract Session.extract
  simp only [map_bind]
  apply ask_bind
  intro _ _
  apply ask_bind
  intro point _
  apply ask_bind
  intro _ _
  apply ask_bind
  intro incomplete _
  exact ask_eq_settle

end InPlace

namespace Operation

variable {α : Type} {session : Session P}

/-- On a session with a flag for every participant and, once the nonces are processed, a nonce for
every participant, an operation in place gives what its function gives, and leaves the session as
it was if it is refused. -/
theorem inPlace_eq_settle (hflags : session.signed.length = session.participants.length)
    (hnonces : session.phase ∈ Gate.signing.phases ->
      session.publicNonces.length = session.participants.length)
    (operation : Operation P α) :
    operation.inPlace session = settle session (operation.outcome session) := by
  cases operation with
  | applyTweak tweak => exact InPlace.applyTweak_eq_settle tweak
  | useAdaptor point => exact InPlace.useAdaptor_eq_settle point
  | generateNonce pair seed => exact InPlace.generateNonce_eq_settle pair seed
  | processNonces nonces => exact InPlace.processNonces_eq_settle nonces
  | sign pair nonce => exact InPlace.sign_eq_settle hflags hnonces pair nonce
  | verifyPartial signer nonce response =>
      exact InPlace.verifyPartial_eq_settle signer nonce response
  | aggregate partials => exact InPlace.aggregate_eq_settle partials
  | aggregateAdaptor partials => exact InPlace.aggregateAdaptor_eq_settle partials
  | adapt incomplete pair => exact InPlace.adapt_eq_settle incomplete pair
  | extract completed partials => exact InPlace.extract_eq_settle completed partials

end Operation

end Musig
end Cosigning
