import Cosigning.Proofs.Exponent
import Cosigning.Proofs.Musig.Signers
import Cosigning.Proofs.Musig.Soundness

/-!
# Tampering is detected

For every participant there is exactly one partial signature that passes, the honest
one, and partial signatures combine exactly when they have the sum of the honest ones;
the signature is then the same.  This holds of every session of every run.
-/

namespace Cosigning
namespace Musig

open Ciphersuite

variable {P : Type} [Ciphersuite P]

def Refuses {α : Type} (outcome : Except Error α) (kind : ErrorKind) : Prop :=
  exists cause, outcome = .error cause ∧ cause.kind = kind

namespace Session

structure Holders (session : Session P) where
  pair : Fin session.participants.length -> KeyPair P
  nonce : Fin session.participants.length -> SecretNonce P
  owns : forall i, (pair i).publicKey.point = session.participants[i].point ∨
    (pair i).publicKey.point = -session.participants[i].point
  processed : forall i, session.publicNonces[i.val]? = some (nonce i).toPublic

namespace Holders

variable {session : Session P}

def response (holders : session.Holders) (i : Fin session.participants.length) : Scalar :=
  session.fixedRound.partialSignature
    (shareOf session.participants[i] i.val (holders.pair i)).secret session.participants[i]
    (holders.nonce i)

theorem publicNonces_eq (holders : session.Holders)
    (h : session.publicNonces.length = session.participants.length) :
    session.publicNonces = List.ofFn (fun i => (holders.nonce i).toPublic) := by
  apply List.ext_getElem?
  intro place
  by_cases hplace : place < session.participants.length
  · rw [holders.processed ⟨place, hplace⟩]
    simp [hplace]
  · rw [List.getElem?_eq_none (by omega), List.getElem?_eq_none (by rw [List.length_ofFn]; omega)]

end Holders

/-- Only what the participants make honestly passes: each partial signature by itself, and the sum
of all. -/
structure DetectsTampering (session : Session P) (holders : session.Holders) : Prop where
  honest : forall (i : Fin session.participants.length) (nonce : SigningNonce P),
    nonce.session = session.id -> nonce.signer = i.val -> nonce.secret = holders.nonce i ->
      session.signed[i.val]? ≠ some true ->
        exists next, session.sign (holders.pair i) nonce = .ok (holders.response i, next)
  verifies : forall i,
    session.verifyPartial session.participants[i] (holders.nonce i).toPublic
      (holders.response i) = .ok ()
  falsifies : forall i response, response ≠ holders.response i ->
    Refuses (session.verifyPartial session.participants[i] (holders.nonce i).toPublic response)
      .verificationFailure
  combines : exists signature,
    Schnorr.verify session.aggregateXOnly session.message signature = true ∧
    forall partials : List Scalar, partials.length = session.participants.length ->
      partials.sum = (List.ofFn (holders.response)).sum ->
        session.aggregate partials = .ok (signature, { session with phase := .aggregated })
  detects : forall partials : List Scalar, partials.length = session.participants.length ->
    partials.sum ≠ (List.ofFn (holders.response)).sum ->
      Refuses (session.aggregate partials) .verificationFailure
  counts : forall partials : List Scalar, partials.length ≠ session.participants.length ->
    Refuses (session.aggregate partials) .invalidArgument

section

variable {session : Session P}

theorem getElem?_participants (i : Fin session.participants.length) :
    session.participants[i.val]? = some session.participants[i] :=
  List.getElem?_eq_getElem i.isLt

variable [LawfulCiphersuite P]

theorem Sound.nodup_xOnly (h : session.Sound) :
    (session.participants.map PublicKey.xOnly).Nodup :=
  (KeyContext.tweaked_eq_ok h.context).2.2

theorem Holders.verifyPartial_response (holders : session.Holders)
    (i : Fin session.participants.length) :
    session.fixedRound.verifyPartial session.participants[i] (holders.nonce i).toPublic
      (holders.response i) = true :=
  Round.verifyPartial_partialSignature (scale_secret_shareOf (holders.owns i))

theorem Holders.sign_eq_ok (holders : session.Holders) (h : session.Sound)
    (hphase : session.phase ∈ Gate.signing.phases) (i : Fin session.participants.length)
    {nonce : SigningNonce P} (origin : nonce.session = session.id)
    (owner : nonce.signer = i.val) (secret : nonce.secret = holders.nonce i)
    (unsigned : session.signed[i.val]? ≠ some true) :
    session.sign (holders.pair i) nonce =
      .ok (holders.response i, session.afterSigning i.val) := by
  have hready : session.Ready (shareOf session.participants[i] i.val (holders.pair i))
      (holders.pair i) nonce := by
    refine ⟨resolveSigner_eq_shareOf h.nodup_xOnly (getElem?_participants i) (holders.owns i),
      scale_secret_shareOf (holders.owns i), origin, owner.symm, ?_, unsigned⟩
    change session.publicNonces[i.val]? = some nonce.secret.toPublic
    rw [secret]
    exact holders.processed i
  rw [Session.sign_eq_ok hphase (h.round_eq (mem_fixedNonces_of_mem_signing hphase)) hready, secret]
  rfl

theorem Holders.accepts_responses (holders : session.Holders) (h : session.Sound)
    (hfixed : session.IsFixed)
    (hfinite : Round.nonceSum session.context (AggregateNonce.ofList session.publicNonces)
      session.message ≠ 0) :
    session.fixedRound.accepts
      (session.fixedRound.combine (List.ofFn holders.response)) = true := by
  rcases KeyContext.tweaked_eq_ok h.context with ⟨hkeys, haccounts, _⟩
  have hnonces := holders.publicNonces_eq (h.nonces hfixed).1
  have hverified := holders.verifyPartial_response
  unfold fixedRound at hverified ⊢
  rw [hnonces] at hfinite hverified ⊢
  exact Round.accepts_ofFn (hkeys.trans List.ofFn_getElem.symm) haccounts hfinite hverified

theorem Sound.detectsTampering (h : session.Sound) (hadaptor : session.adaptorPoint = none)
    (hphase : session.phase ∈ Gate.combining.phases) (holders : session.Holders)
    (hfinite : Round.nonceSum session.context (AggregateNonce.ofList session.publicNonces)
      session.message ≠ 0) : session.DetectsTampering holders := by
  have hfixed : session.IsFixed := mem_fixedNonces_of_mem_signing hphase
  have hround := h.round_eq hfixed
  have haccepts := holders.accepts_responses h hfixed hfinite
  constructor
  case honest =>
    intro i nonce origin owner secret unsigned
    exact ⟨_, holders.sign_eq_ok h hphase i origin owner secret unsigned⟩
  case verifies =>
    intro i
    exact verifyPartial_eq_ok hfixed hround h.nodup_xOnly (getElem?_participants i)
      (holders.verifyPartial_response i)
  case falsifies =>
    intro i response hne
    refine ⟨_, verifyPartial_eq_error hfixed hround h.nodup_xOnly (getElem?_participants i) ?_, rfl⟩
    intro hvalid
    exact hne (Round.eq_of_verifyPartial hvalid (holders.verifyPartial_response i))
  case combines =>
    have hverify : Schnorr.verify session.aggregateXOnly session.message
        { nonce := xCoord session.fixedRound.finalNonce.point
          response := (session.fixedRound.combine (List.ofFn holders.response)).toBytes } =
          true := by
      unfold fixedRound at haccepts ⊢
      rw [hadaptor] at haccepts ⊢
      exact Round.verify_of_accepts haccepts
    refine ⟨_, hverify, ?_⟩
    -- What has the sum of the honest ones is combined to the same response.
    intro partials hcount hsum
    rw [← Round.combine_eq_iff.mpr hsum] at haccepts hverify ⊢
    exact aggregate_eq_ok_iff.mpr
      ⟨hphase, hadaptor, hcount, _, hround, haccepts, rfl, hverify, rfl⟩
  case detects =>
    intro partials hcount hsum
    refine ⟨_, aggregate_of_not_accepts hphase hadaptor hcount hround ?_, rfl⟩
    intro haccepted
    exact hsum (Round.combine_eq_iff.mp (Round.eq_of_accepts haccepted haccepts))
  case counts =>
    intro partials hcount
    exact ⟨_, aggregate_of_length_ne hphase hadaptor hcount, rfl⟩

end

end Session

namespace Ensemble

variable [LawfulCiphersuite P]

/-- In every run, a session without an adaptor point that is ready to combine partial signatures
takes the honest ones and what has their sum; whatever else is offered leaves everything as it
was. -/
theorem tampering_detected (calls : List (Call P)) {place : Nat} {session : Session P}
    (found : (run calls).sessions[place]? = some session)
    (hadaptor : session.adaptorPoint = none)
    (hphase : session.phase = .noncesProcessed ∨ session.phase = .partiallySigned)
    (holders : session.Holders)
    (hfinite : Round.nonceSum session.context (AggregateNonce.ofList session.publicNonces)
      session.message ≠ 0) :
    session.DetectsTampering holders ∧
      forall (partials : List Scalar) (kind : ErrorKind),
        Refuses (session.aggregate partials) kind ->
          run (calls ++ [.aggregate place partials]) = run calls := by
  constructor
  · apply (sound_run calls found).detectsTampering hadaptor _ holders hfinite
    simpa [Gate.phases] using hphase
  · intro partials kind hrefused
    rcases hrefused with ⟨cause, hcause, _⟩
    have hstay : (run calls).act place (fun session => session.aggregate partials)
        (fun _ _ changed => changed) = run calls := act_of_eq_error found hcause _
    unfold run at hstay ⊢
    rw [List.foldl_append]
    exact hstay

/-- Two participants have processed their nonces and the first one has signed; the secret of the
second one belongs to the negative of its key. -/
def halfSignedCalls : List (Call Exponent) :=
  let opening : List (Call Exponent) :=
    [.create (FixedBytes.ofNat 32 1)
        (.full [(Exponent.pair 2).publicKey, (Exponent.pair (groupOrder - 5)).publicKey])
        (FixedBytes.ofNat 32 9),
      .applyTweak 0 (.plain 3), .applyTweak 0 (.xOnly 4),
      .generateNonce 0 (Exponent.pair 2) (FixedBytes.ofNat 32 3),
      .generateNonce 0 (Exponent.pair 5) (FixedBytes.ofNat 32 4)]
  let nonces := (run opening).nonces.map (fun minting => minting.nonce.toPublic)
  opening ++ [.processNonces 0 nonces, .sign 0 (Exponent.pair 2) 0]

theorem isSome_halfSigned : (run halfSignedCalls).sessions[0]?.isSome = true := by
  decide +kernel

def halfSigned : Session Exponent :=
  (run halfSignedCalls).sessions[0]?.get isSome_halfSigned

def halfSignedHolders : halfSigned.Holders where
  pair := fun i => Exponent.pair ([2, 5].getD i.val 0)
  nonce := fun i =>
    ((run halfSignedCalls).nonces.map (fun minting => minting.nonce.secret)).getD i.val
      { first := KeyPair.one, second := KeyPair.one }
  owns := by decide +kernel
  processed := by decide +kernel

def shiftedPartials (first second : Scalar) : List Scalar :=
  List.ofFn (fun i => halfSignedHolders.response i + if i.val = 0 then first else second)

theorem tampering_detected_halfSigned :
    halfSigned.adaptorPoint = none ∧ halfSigned.phase = .partiallySigned ∧
      Refuses (halfSigned.aggregate (shiftedPartials 1 0)) .verificationFailure ∧
      exists signature, halfSigned.aggregate (shiftedPartials 1 (-1)) =
        .ok (signature, { halfSigned with phase := .aggregated }) := by
  rcases tampering_detected halfSignedCalls (Option.some_get isSome_halfSigned).symm
    (by decide +kernel) (by decide +kernel) halfSignedHolders (by decide +kernel) with
    ⟨hdetects, _⟩
  rcases hdetects.combines with ⟨signature, _, hcombines⟩
  exact ⟨by decide +kernel, by decide +kernel,
    hdetects.detects _ (by decide +kernel) (by decide +kernel), signature,
    hcombines _ (by decide +kernel) (by decide +kernel)⟩

end Ensemble

end Musig
end Cosigning
