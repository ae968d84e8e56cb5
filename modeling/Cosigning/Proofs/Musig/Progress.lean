import Cosigning.Proofs.Musig.Operations

/-!
# The progress of a session

From the moment when the nonces are processed, everything that a partial signature
depends on stays as it is.  Only signing changes who has signed.
-/

namespace Cosigning
namespace Musig

variable {P : Type} [Ciphersuite P]

namespace Session

variable {session next : Session P}

/-!
## What a session keeps
-/

def IsFixed (session : Session P) : Prop :=
  session.phase ∈ Gate.fixedNonces.phases

structure SameTerms (before after : Session P) : Prop where
  context : after.context = before.context
  adaptorPoint : after.adaptorPoint = before.adaptorPoint
  publicNonces : after.publicNonces = before.publicNonces
  aggregateNonce : after.aggregateNonce = before.aggregateNonce

structure Continues (before after : Session P) : Prop where
  id : after.id = before.id
  participants : after.participants = before.participants
  message : after.message = before.message
  fixed : before.IsFixed -> after.IsFixed ∧ before.SameTerms after

theorem SameTerms.refl (session : Session P) : session.SameTerms session :=
  ⟨rfl, rfl, rfl, rfl⟩

theorem SameTerms.trans {first second third : Session P} (before : first.SameTerms second)
    (after : second.SameTerms third) : first.SameTerms third :=
  ⟨after.context.trans before.context, after.adaptorPoint.trans before.adaptorPoint,
    after.publicNonces.trans before.publicNonces,
    after.aggregateNonce.trans before.aggregateNonce⟩

theorem Continues.refl (session : Session P) : session.Continues session :=
  ⟨rfl, rfl, rfl, fun h => ⟨h, SameTerms.refl session⟩⟩

theorem Continues.trans {first second third : Session P} (before : first.Continues second)
    (after : second.Continues third) : first.Continues third := by
  refine ⟨after.id.trans before.id, after.participants.trans before.participants,
    after.message.trans before.message, ?_⟩
  intro h
  have hsecond := before.fixed h
  have hthird := after.fixed hsecond.1
  exact ⟨hthird.1, hsecond.2.trans hthird.2⟩

section

variable {before after : Session P}

theorem Continues.participant? (h : before.Continues after) (key : XOnlyKey P) :
    after.participant? key = before.participant? key := by
  unfold Session.participant?
  rw [h.participants]

theorem Continues.participantIndex? (h : before.Continues after) (key : XOnlyKey P) :
    after.participantIndex? key = before.participantIndex? key := by
  unfold Session.participantIndex?
  rw [h.participant?]

theorem Continues.round {round : Round P} (h : before.Continues after) (fixed : before.IsFixed)
    (hround : before.round = .ok round) : after.round = .ok round := by
  have hterms := (h.fixed fixed).2
  rw [round_eq_ok_iff] at hround ⊢
  rw [hterms.aggregateNonce, hterms.context, hterms.adaptorPoint, h.message]
  exact hround

theorem Continues.verifyPartial {signer : PublicKey P} {nonce : PublicNonce P}
    {response : Scalar} (h : before.Continues after)
    (valid : before.verifyPartial signer nonce response = .ok ()) :
    after.verifyPartial signer nonce response = .ok () := by
  rw [verifyPartial_eq_ok_iff] at valid ⊢
  rcases valid with ⟨hfixed, key, index, round, hfound, hround, hverify⟩
  refine ⟨(h.fixed hfixed).1, key, index, round, ?_, h.round hfixed hround, hverify⟩
  rw [h.participant?]
  exact hfound

end

theorem not_isFixed_of_mem_nonceRound (h : session.phase ∈ Gate.nonceRound.phases) :
    ¬ session.IsFixed := by
  intro hfixed
  simp only [IsFixed, Gate.phases, List.mem_cons, List.not_mem_nil, or_false] at h hfixed
  rcases h with h | h <;> simp [h] at hfixed

theorem mem_fixedNonces_of_mem_signing {phase : Phase} (h : phase ∈ Gate.signing.phases) :
    phase ∈ Gate.fixedNonces.phases := by
  simp only [Gate.phases, List.mem_cons, List.not_mem_nil, or_false] at h ⊢
  rcases h with h | h <;> simp [h]

theorem continues_of_not_isFixed (id : next.id = session.id)
    (participants : next.participants = session.participants)
    (message : next.message = session.message) (unfixed : ¬ session.IsFixed) :
    session.Continues next :=
  ⟨id, participants, message, fun h => absurd h unfixed⟩

theorem continues_with {phase : Phase} (h : phase ∈ Gate.fixedNonces.phases)
    (signed : List Bool) :
    session.Continues { session with signed := signed, phase := phase } :=
  ⟨rfl, rfl, rfl, fun _ => ⟨h, rfl, rfl, rfl, rfl⟩⟩

/-!
## One operation
-/

/-- One operation other than signing succeeds and takes a session to its next state. -/
inductive Advances (session : Session P) : Session P -> Prop where
  | applyTweak (tweak : Tweak) (next : Session P) (h : session.applyTweak tweak = .ok next) :
      Advances session next
  | useAdaptor (point : PublicKey P) (next : Session P)
      (h : session.useAdaptor point = .ok next) : Advances session next
  | generateNonce (pair : KeyPair P) (seed : Bytes32) (nonce : SigningNonce P)
      (next : Session P) (h : session.generateNonce pair seed = .ok (nonce, next)) :
      Advances session next
  | processNonces (nonces : List (PublicNonce P)) (next : Session P)
      (h : session.processNonces nonces = .ok next) : Advances session next
  | aggregate (partials : List Scalar) (signature : Schnorr.Signature) (next : Session P)
      (h : session.aggregate partials = .ok (signature, next)) : Advances session next
  | aggregateAdaptor (partials : List Scalar) (incomplete : AdaptorSignature P)
      (next : Session P) (h : session.aggregateAdaptor partials = .ok (incomplete, next)) :
      Advances session next
  | adapt (incomplete : AdaptorSignature P) (pair : KeyPair P) (signature : Schnorr.Signature)
      (next : Session P) (h : session.adapt incomplete pair = .ok (signature, next)) :
      Advances session next

inductive Step (session : Session P) : Session P -> Prop where
  | advances (next : Session P) (h : session.Advances next) : Step session next
  | sign (pair : KeyPair P) (nonce : SigningNonce P) (response : Scalar) (next : Session P)
      (h : session.sign pair nonce = .ok (response, next)) : Step session next

theorem Advances.continues (h : session.Advances next) : session.Continues next := by
  cases h with
  | applyTweak tweak _ h =>
      rcases applyTweak_eq_ok_iff.mp h with ⟨hphase, _, _, rfl⟩
      exact continues_of_not_isFixed rfl rfl rfl
        (not_isFixed_of_mem_nonceRound (by simp [Gate.phases, hphase]))
  | useAdaptor point _ h =>
      rcases useAdaptor_eq_ok_iff.mp h with ⟨hphase, _, rfl⟩
      exact continues_of_not_isFixed rfl rfl rfl
        (not_isFixed_of_mem_nonceRound (by simp [Gate.phases, hphase]))
  | generateNonce pair seed nonce _ h =>
      rcases generateNonce_eq_ok_iff.mp h with ⟨hphase, _, _, _, rfl⟩
      exact continues_of_not_isFixed rfl rfl rfl (not_isFixed_of_mem_nonceRound hphase)
  | processNonces nonces _ h =>
      rcases processNonces_eq_ok_iff.mp h with ⟨hphase, _, rfl⟩
      exact continues_of_not_isFixed rfl rfl rfl (not_isFixed_of_mem_nonceRound hphase)
  | aggregate partials signature _ h =>
      rcases aggregate_eq_ok_iff.mp h with ⟨_, _, _, _, _, _, _, _, rfl⟩
      exact continues_with (by decide) session.signed
  | aggregateAdaptor partials incomplete _ h =>
      rcases aggregateAdaptor_eq_ok_iff.mp h with ⟨_, _, _, _, rfl⟩
      exact continues_with (by decide) session.signed
  | adapt incomplete pair signature _ h =>
      rcases adapt_eq_ok_iff.mp h with ⟨_, _, _, _, rfl⟩
      exact continues_with (by decide) session.signed

theorem Advances.signed (h : session.Advances next) : next.signed = session.signed := by
  cases h with
  | applyTweak tweak _ h =>
      rcases applyTweak_eq_ok_iff.mp h with ⟨_, _, _, rfl⟩
      rfl
  | useAdaptor point _ h =>
      rcases useAdaptor_eq_ok_iff.mp h with ⟨_, _, rfl⟩
      rfl
  | generateNonce pair seed nonce _ h =>
      rcases generateNonce_eq_ok_iff.mp h with ⟨_, _, _, _, rfl⟩
      rfl
  | processNonces nonces _ h =>
      rcases processNonces_eq_ok_iff.mp h with ⟨_, _, rfl⟩
      rfl
  | aggregate partials signature _ h =>
      rcases aggregate_eq_ok_iff.mp h with ⟨_, _, _, _, _, _, _, _, rfl⟩
      rfl
  | aggregateAdaptor partials incomplete _ h =>
      rcases aggregateAdaptor_eq_ok_iff.mp h with ⟨_, _, _, _, rfl⟩
      rfl
  | adapt incomplete pair signature _ h =>
      rcases adapt_eq_ok_iff.mp h with ⟨_, _, _, _, rfl⟩
      rfl

theorem Step.continues (h : session.Step next) : session.Continues next := by
  cases h with
  | advances _ h => exact h.continues
  | sign pair nonce response _ h =>
      rcases sign_eq_ok_iff.mp h with ⟨_, _, _, _, _, _, _, _, _, _, _, rfl⟩
      exact continues_with (by decide) _

/-!
## Signing
-/

theorem signed_sign {pair : KeyPair P} {nonce : SigningNonce P} {response : Scalar}
    (h : session.sign pair nonce = .ok (response, next)) :
    next.signed = session.signed.set nonce.signer true := by
  rcases sign_eq_ok_iff.mp h with ⟨_, _, share, _, howner, _, _, _, _, _, _, rfl⟩
  rw [← howner]

theorem isFixed_of_sign {pair : KeyPair P} {nonce : SigningNonce P} {response : Scalar}
    (h : session.sign pair nonce = .ok (response, next)) : session.IsFixed :=
  mem_fixedNonces_of_mem_signing (sign_eq_ok_iff.mp h).1

theorem nonce_session_of_sign {pair : KeyPair P} {nonce : SigningNonce P} {response : Scalar}
    (h : session.sign pair nonce = .ok (response, next)) : nonce.session = session.id :=
  (sign_eq_ok_iff.mp h).2.1

theorem not_signed_of_sign {pair : KeyPair P} {nonce : SigningNonce P} {response : Scalar}
    (h : session.sign pair nonce = .ok (response, next)) :
    session.signed[nonce.signer]? ≠ some true := by
  rcases sign_eq_ok_iff.mp h with ⟨_, _, share, _, howner, hsigned, _⟩
  rw [← howner]
  exact hsigned

theorem publicNonce_of_sign {pair : KeyPair P} {nonce : SigningNonce P} {response : Scalar}
    (h : session.sign pair nonce = .ok (response, next)) :
    session.publicNonces[nonce.signer]? = some nonce.toPublic := by
  rcases sign_eq_ok_iff.mp h with ⟨_, _, share, _, howner, _, hslot, _⟩
  rw [← howner]
  exact hslot

theorem participantIndex?_of_sign {pair : KeyPair P} {nonce : SigningNonce P}
    {response : Scalar} (h : session.sign pair nonce = .ok (response, next)) :
    session.participantIndex? pair.xOnly = some nonce.signer := by
  rcases sign_eq_ok_iff.mp h with ⟨_, _, share, hshare, howner, _⟩
  rw [← howner]
  exact participantIndex?_of_resolveSigner hshare

end Session

end Musig
end Cosigning
