import Cosigning.Musig.Adaptor
import Mathlib.Tactic.Common

/-!
# What the operations of a session do

For each operation the exact conditions under which it succeeds, and the session
that it leaves.  Whatever is proved of sessions is proved from these.
-/

namespace Cosigning
namespace Musig

open Ciphersuite

variable {P : Type} [Ciphersuite P]

namespace Session

variable {session next : Session P}

theorem require_bind_eq_ok_iff {α : Type} {gate : Gate} {rest : Unit -> Except Error α}
    {result : α} :
    (session.require gate >>= rest) = .ok result <->
      session.phase ∈ gate.phases ∧ rest () = .ok result :=
  ensure_bind_eq_ok_iff

/-!
## Participants
-/

theorem participant?_eq_some {x : XOnlyKey P} {key : PublicKey P} {index : Nat}
    (h : session.participant? x = some (key, index)) :
    session.participants[index]? = some key ∧ key.xOnly = x := by
  unfold participant? at h
  have hkey := List.find?_some h
  have hmem := List.mem_of_find?_eq_some h
  rw [List.mem_zipIdx_iff_getElem?] at hmem
  exact ⟨hmem, of_decide_eq_true hkey⟩

theorem participantIndex?_lt {x : XOnlyKey P} {index : Nat}
    (h : session.participantIndex? x = some index) : index < session.participants.length := by
  rcases Option.map_eq_some_iff.mp h with ⟨⟨key, place⟩, hfound, rfl⟩
  exact (List.getElem?_eq_some_iff.mp (participant?_eq_some hfound).1).1

theorem resolveSigner_eq_ok_iff {pair : KeyPair P} {share : SignerShare P} :
    session.resolveSigner pair = .ok share <->
      session.participant? pair.xOnly = some (share.key, share.index) ∧
        share.secret = Scalar.negateIf (decide (share.key ≠ pair.publicKey)) pair.secret := by
  unfold resolveSigner
  cases hfound : session.participant? pair.xOnly with
  | none => simp
  | some entry =>
      rcases entry with ⟨key, index⟩
      rcases share with ⟨place, signer, secret⟩
      simp only [Except.ok.injEq, SignerShare.mk.injEq, Option.some.injEq, Prod.mk.injEq]
      constructor
      · intro h
        rcases h with ⟨rfl, rfl, rfl⟩
        exact ⟨⟨rfl, rfl⟩, rfl⟩
      · intro h
        rcases h with ⟨⟨rfl, rfl⟩, hsecret⟩
        exact ⟨rfl, rfl, hsecret.symm⟩

theorem participantIndex?_of_resolveSigner {pair : KeyPair P} {share : SignerShare P}
    (h : session.resolveSigner pair = .ok share) :
    session.participantIndex? pair.xOnly = some share.index := by
  rw [participantIndex?, (resolveSigner_eq_ok_iff.mp h).1]
  rfl

theorem exists_resolveSigner {pair : KeyPair P} {index : Nat}
    (h : session.participantIndex? pair.xOnly = some index) :
    exists share, session.resolveSigner pair = .ok share ∧ share.index = index := by
  rcases Option.map_eq_some_iff.mp h with ⟨⟨key, place⟩, hfound, rfl⟩
  unfold resolveSigner
  rw [hfound]
  exact ⟨_, rfl, rfl⟩

theorem kind_of_resolveSigner_eq_error {pair : KeyPair P} {cause : Error}
    (h : session.resolveSigner pair = .error cause) : cause.kind = .invalidArgument := by
  unfold resolveSigner at h
  split at h
  · cases h
    rfl
  · cases h

/-!
## Creation and setup
-/

theorem ofKeys_eq_ok_iff {id : SessionId} {participants : List (PublicKey P)}
    {message : Bytes32} :
    ofKeys id participants message = .ok session <->
      exists context, KeyContext.ofKeys participants = .ok context ∧
        session =
          { id := id
            participants := participants
            message := message
            context := context
            untweakedKey := context.aggregate.xOnly
            tweaks := []
            adaptorPoint := none
            publicNonces := []
            aggregateNonce := none
            signed := participants.map (fun _ => false)
            phase := .created } := by
  unfold ofKeys
  rw [map_eq_ok_iff]
  simp only [eq_comm]

theorem applyTweak_eq_ok_iff {tweak : Tweak} :
    session.applyTweak tweak = .ok next <->
      session.phase = .created ∧
      exists context, session.context.apply tweak = .ok context ∧
        next = { session with context := context, tweaks := session.tweaks ++ [tweak] } := by
  unfold applyTweak
  rw [require_bind_eq_ok_iff, bind_eq_ok_iff]
  simp [Gate.phases, pure, Except.pure, eq_comm]

theorem useAdaptor_eq_ok_iff {point : PublicKey P} :
    session.useAdaptor point = .ok next <->
      session.phase = .created ∧ session.adaptorPoint = none ∧
        next = { session with adaptorPoint := some point } := by
  unfold useAdaptor
  rw [require_bind_eq_ok_iff, ensure_bind_eq_ok_iff]
  simp [Gate.phases, pure, Except.pure, eq_comm]

/-!
## The first round
-/

theorem generateNonce_eq_ok_iff {pair : KeyPair P} {seed : Bytes32} {nonce : SigningNonce P} :
    session.generateNonce pair seed = .ok (nonce, next) <->
      session.phase ∈ Gate.nonceRound.phases ∧
      exists share, session.resolveSigner pair = .ok share ∧
        nonce =
          { session := session.id
            signer := share.index
            secret := SecretNonce.derive share.secret share.key session.aggregateXOnly
              session.message seed } ∧
        next = { session with phase := .noncesGenerated } := by
  unfold generateNonce
  rw [require_bind_eq_ok_iff, bind_eq_ok_iff]
  simp [pure, Except.pure, eq_comm]

theorem processNonces_eq_ok_iff {nonces : List (PublicNonce P)} :
    session.processNonces nonces = .ok next <->
      session.phase ∈ Gate.nonceRound.phases ∧
      nonces.length = session.participants.length ∧
        next =
          { session with
            publicNonces := nonces
            aggregateNonce := some (AggregateNonce.ofList nonces)
            phase := .noncesProcessed } := by
  unfold processNonces
  rw [require_bind_eq_ok_iff, ensure_bind_eq_ok_iff]
  simp [pure, Except.pure, eq_comm]

theorem round_eq_ok_iff {round : Round P} :
    session.round = .ok round <->
      exists nonce, session.aggregateNonce = some nonce ∧
        round = Round.ofNonce session.context nonce session.adaptorPoint session.message := by
  unfold Session.round
  cases hnonce : session.aggregateNonce with
  | none => simp
  | some nonce => simp [eq_comm]

theorem kind_of_round_eq_error {cause : Error} (h : session.round = .error cause) :
    cause.kind = .invalidState := by
  unfold Session.round at h
  split at h
  · cases h
  · cases h
    rfl

/-!
## The second round
-/

theorem sign_eq_ok_iff {pair : KeyPair P} {nonce : SigningNonce P} {response : Scalar} :
    session.sign pair nonce = .ok (response, next) <->
      session.phase ∈ Gate.signing.phases ∧
      nonce.session = session.id ∧
      exists share, session.resolveSigner pair = .ok share ∧
        share.index = nonce.signer ∧
        session.signed[share.index]? ≠ some true ∧
        session.publicNonces[share.index]? = some nonce.toPublic ∧
        exists round, session.round = .ok round ∧
          response = round.partialSignature share.secret share.key nonce.secret ∧
          round.verifyPartial share.key nonce.toPublic response = true ∧
          next =
            { session with
              signed := session.signed.set share.index true
              phase := .partiallySigned } := by
  unfold sign
  rw [require_bind_eq_ok_iff, ensure_bind_eq_ok_iff, bind_eq_ok_iff]
  simp only [bind_eq_ok_iff, ensure_eq_ok_iff, exists_const, pure, Except.pure,
    Except.ok.injEq, Prod.mk.injEq]
  constructor
  · intro h
    rcases h with ⟨hphase, hid, share, hshare, howner, hsigned, hslot, round, hround, hverify,
      rfl, rfl⟩
    exact ⟨hphase, hid, share, hshare, howner, hsigned, hslot, round, hround, rfl, hverify, rfl⟩
  · intro h
    rcases h with ⟨hphase, hid, share, hshare, howner, hsigned, hslot, round, hround, rfl,
      hverify, rfl⟩
    exact ⟨hphase, hid, share, hshare, howner, hsigned, hslot, round, hround, hverify, rfl, rfl⟩

theorem sign_securityViolation_iff {pair : KeyPair P} {nonce : SigningNonce P} :
    (exists cause, session.sign pair nonce = .error cause ∧
        cause.kind = .securityViolation) <->
      session.phase ∈ Gate.signing.phases ∧
        (nonce.session ≠ session.id ∨
          session.participantIndex? pair.xOnly = some nonce.signer ∧
            session.signed[nonce.signer]? = some true) := by
  unfold sign
  simp only [require, bind_eq_error_iff, ensure_eq_error_iff, ensure_eq_ok_iff, exists_const]
  constructor
  · intro h
    rcases h with ⟨cause, herror, hkind⟩
    rcases herror with ⟨_, rfl⟩ | ⟨hphase, herror⟩
    · cases hkind
    · refine ⟨hphase, ?_⟩
      rcases herror with ⟨hforeign, _⟩ | ⟨_, herror⟩
      · exact Or.inl hforeign
      · rcases herror with hresolve | ⟨share, hshare, herror⟩
        · rw [kind_of_resolveSigner_eq_error hresolve] at hkind
          cases hkind
        · -- Of the checks that are left only the one for a second signature has this kind.
          rcases herror with ⟨_, rfl⟩ | ⟨howner, herror⟩
          · cases hkind
          · rcases herror with ⟨hsigned, _⟩ | ⟨_, herror⟩
            · rw [← howner]
              exact Or.inr ⟨participantIndex?_of_resolveSigner hshare,
                Decidable.of_not_not hsigned⟩
            · rcases herror with ⟨_, rfl⟩ | ⟨_, hround | ⟨round, _, ⟨_, rfl⟩ | ⟨_, hdone⟩⟩⟩
              · cases hkind
              · rw [kind_of_round_eq_error hround] at hkind
                cases hkind
              · cases hkind
              · cases hdone
  · intro h
    rcases h with ⟨hphase, hbreach⟩
    by_cases hid : nonce.session = session.id
    · rcases hbreach with hforeign | ⟨hindex, hsigned⟩
      · exact absurd hid hforeign
      · rcases exists_resolveSigner hindex with ⟨share, hshare, howner⟩
        rw [← howner] at hsigned
        exact ⟨.secondSignature share.index,
          Or.inr ⟨hphase, Or.inr ⟨hid, Or.inr ⟨share, hshare,
            Or.inr ⟨howner, Or.inl ⟨fun hne => hne hsigned, rfl⟩⟩⟩⟩⟩, rfl⟩
    · exact ⟨.foreignNonce, Or.inr ⟨hphase, Or.inl ⟨hid, rfl⟩⟩, rfl⟩

/-!
## Combining
-/

theorem verifyPartial_eq_ok_iff {signer : PublicKey P} {nonce : PublicNonce P}
    {response : Scalar} :
    session.verifyPartial signer nonce response = .ok () <->
      session.phase ∈ Gate.fixedNonces.phases ∧
      exists key index round, session.participant? signer.xOnly = some (key, index) ∧
        session.round = .ok round ∧ round.verifyPartial key nonce response = true := by
  unfold verifyPartial
  rw [require_bind_eq_ok_iff]
  apply and_congr_right
  intro _
  cases hfound : session.participant? signer.xOnly with
  | none => simp [throw, throwThe, MonadExceptOf.throw]
  | some entry =>
      rcases entry with ⟨key, index⟩
      simp only [bind_eq_ok_iff, ensure_eq_ok_iff]
      constructor
      · intro h
        rcases h with ⟨round, hround, hverify⟩
        exact ⟨key, index, round, rfl, hround, hverify⟩
      · intro h
        rcases h with ⟨_, _, round, hentry, hround, hverify⟩
        cases hentry
        exact ⟨round, hround, hverify⟩

theorem aggregate_eq_ok_iff {partials : List Scalar} {signature : Schnorr.Signature} :
    session.aggregate partials = .ok (signature, next) <->
      session.phase ∈ Gate.combining.phases ∧
      session.adaptorPoint = none ∧
      partials.length = session.participants.length ∧
      exists round, session.round = .ok round ∧
        round.accepts (round.combine partials) = true ∧
        signature =
          { nonce := xCoord round.finalNonce.point
            response := (round.combine partials).toBytes } ∧
        Schnorr.verify session.aggregateXOnly session.message signature = true ∧
        next = { session with phase := .aggregated } := by
  unfold aggregate
  rw [require_bind_eq_ok_iff, ensure_bind_eq_ok_iff]
  simp only [requireAll, verify, bind_eq_ok_iff, ensure_eq_ok_iff, exists_const, pure,
    Except.pure, Except.ok.injEq, Prod.mk.injEq]
  constructor
  · intro h
    rcases h with ⟨hphase, hadaptor, hcount, round, hround, haccepts, hverify, rfl, rfl⟩
    exact ⟨hphase, hadaptor, hcount, round, hround, haccepts, rfl, hverify, rfl⟩
  · intro h
    rcases h with ⟨hphase, hadaptor, hcount, round, hround, haccepts, rfl, hverify, rfl⟩
    exact ⟨hphase, hadaptor, hcount, round, hround, haccepts, hverify, rfl, rfl⟩

theorem aggregate_of_length_ne {partials : List Scalar}
    (hphase : session.phase ∈ Gate.combining.phases) (hadaptor : session.adaptorPoint = none)
    (hcount : partials.length ≠ session.participants.length) :
    session.aggregate partials =
      .error (.partialCount session.participants.length partials.length) := by
  simp only [aggregate, require, requireAll, ensure_of hphase, ensure_of hadaptor,
    ensure_of_not hcount]
  rfl

theorem aggregate_of_not_accepts {partials : List Scalar} {round : Round P}
    (hphase : session.phase ∈ Gate.combining.phases) (hadaptor : session.adaptorPoint = none)
    (hcount : partials.length = session.participants.length)
    (hround : session.round = .ok round)
    (hrefused : ¬ round.accepts (round.combine partials) = true) :
    session.aggregate partials = .error .invalidAggregate := by
  simp only [aggregate, require, requireAll, ensure_of hphase, ensure_of hadaptor,
    ensure_of hcount, hround]
  change (ensure (round.accepts (round.combine partials) = true) Error.invalidAggregate >>= _) = _
  rw [ensure_of_not hrefused]
  rfl

theorem verifyPartial_of_not_verifyPartial {signer key : PublicKey P} {index : Nat}
    {nonce : PublicNonce P} {response : Scalar} {round : Round P}
    (hphase : session.phase ∈ Gate.fixedNonces.phases)
    (hfound : session.participant? signer.xOnly = some (key, index))
    (hround : session.round = .ok round)
    (hrefused : ¬ round.verifyPartial key nonce response = true) :
    session.verifyPartial signer nonce response = .error (.invalidPartial index) := by
  simp only [verifyPartial, require, ensure_of hphase, hfound, hround]
  exact ensure_of_not hrefused

/-!
## Adaptor signatures
-/

theorem requireAdaptor_eq_ok_iff {point : PublicKey P} :
    session.requireAdaptor = .ok point <-> session.adaptorPoint = some point := by
  unfold requireAdaptor
  cases session.adaptorPoint with
  | none => simp
  | some own => simp

theorem combineAdaptor_eq_ok_iff {point : PublicKey P} {partials : List Scalar}
    {incomplete : AdaptorSignature P} :
    session.combineAdaptor point partials = .ok incomplete <->
      partials.length = session.participants.length ∧
      exists round, session.round = .ok round ∧
        round.accepts (round.combine partials) = true ∧
        incomplete =
          { nonce := round.finalNonce
            response := round.combine partials
            point := point } := by
  simp only [combineAdaptor, requireAll, bind_eq_ok_iff, ensure_eq_ok_iff, exists_const, pure,
    Except.pure, Except.ok.injEq]
  simp only [eq_comm]

theorem aggregateAdaptor_eq_ok_iff {partials : List Scalar} {incomplete : AdaptorSignature P} :
    session.aggregateAdaptor partials = .ok (incomplete, next) <->
      session.phase ∈ Gate.combining.phases ∧
      exists point, session.adaptorPoint = some point ∧
        session.combineAdaptor point partials = .ok incomplete ∧
        next = { session with phase := .aggregated } := by
  unfold aggregateAdaptor
  rw [require_bind_eq_ok_iff]
  simp only [bind_eq_ok_iff, requireAdaptor_eq_ok_iff, pure, Except.pure, Except.ok.injEq,
    Prod.mk.injEq]
  constructor
  · intro h
    rcases h with ⟨hphase, point, hpoint, _, hcombined, rfl, rfl⟩
    exact ⟨hphase, point, hpoint, hcombined, rfl⟩
  · intro h
    rcases h with ⟨hphase, point, hpoint, hcombined, rfl⟩
    exact ⟨hphase, point, hpoint, incomplete, hcombined, rfl, rfl⟩

/-- Completing looks at the point of the adaptor signature and at the session's key, message and
phase; the session's own adaptor point is not asked for. -/
theorem adapt_eq_ok_iff {incomplete : AdaptorSignature P} {pair : KeyPair P}
    {signature : Schnorr.Signature} :
    session.adapt incomplete pair = .ok (signature, next) <->
      session.phase = .aggregated ∧
      pair.publicKey = incomplete.point ∧
      incomplete.complete? pair.secret = some signature ∧
      Schnorr.verify session.aggregateXOnly session.message signature = true ∧
      next = { session with phase := .adapted } := by
  unfold adapt
  rw [require_bind_eq_ok_iff, ensure_bind_eq_ok_iff, Gate.phases, List.mem_singleton]
  apply and_congr_right
  intro _
  apply and_congr_right
  intro _
  cases hcomplete : incomplete.complete? pair.secret with
  | none => simp [throw, throwThe, MonadExceptOf.throw]
  | some completed =>
      simp only [verify, bind_eq_ok_iff, ensure_eq_ok_iff, exists_const, pure, Except.pure,
        Except.ok.injEq, Prod.mk.injEq, Option.some.injEq]
      constructor
      · intro h
        rcases h with ⟨hverify, rfl, rfl⟩
        exact ⟨rfl, hverify, rfl⟩
      · intro h
        rcases h with ⟨rfl, hverify, rfl⟩
        exact ⟨hverify, rfl, rfl⟩

theorem extract_eq_ok_iff {completed : Schnorr.Signature} {partials : List Scalar}
    {pair : KeyPair P} :
    session.extract completed partials = .ok pair <->
      session.phase ∈ Gate.fixedNonces.phases ∧
      exists point, session.adaptorPoint = some point ∧
        Schnorr.verify session.aggregateXOnly session.message completed = true ∧
        exists incomplete, session.combineAdaptor point partials = .ok incomplete ∧
          incomplete.reveal completed = .ok pair := by
  unfold extract
  rw [require_bind_eq_ok_iff]
  simp only [verify, bind_eq_ok_iff, requireAdaptor_eq_ok_iff, ensure_eq_ok_iff, exists_const]

end Session

end Musig
end Cosigning
