import Cosigning.Proofs.Musig.AdaptorSignatures
import Cosigning.Proofs.Musig.HonestRun

/-!
# Honest runs with an adaptor

When all sessions have the same adaptor point, the partial signatures combine to an
adaptor signature.  Its point's secret completes it to a valid signature, from which
every session that has processed the nonces learns the secret.
-/

namespace Cosigning
namespace Musig

open Ciphersuite

variable {P : Type} [Ciphersuite P]

namespace Session

def prepareLocked (roster : Roster P) (id : SessionId) (message : Bytes32)
    (early late : List Tweak) (point : PublicKey P) : Except Error (Session P) := do
  let session <- prepare roster id message early
  let locked <- session.useAdaptor point
  late.foldlM applyTweak locked

theorem prepared_of_prepareLocked {roster : Roster P} {id : SessionId} {message : Bytes32}
    {early late : List Tweak} {point : PublicKey P} {session : Session P}
    (h : prepareLocked roster id message early late point = .ok session) :
    session.Prepared roster.keys message (early ++ late) (some point) := by
  rcases bind_eq_ok_iff.mp h with ⟨started, hstarted, hrest⟩
  rcases bind_eq_ok_iff.mp hrest with ⟨locked, hlocked, hlate⟩
  exact ((prepared_of_prepare hstarted).useAdaptor hlocked).applyTweaks hlate

end Session

namespace Ceremony

open Session

variable {ι : Type} (ceremony : Ceremony P ι) (prepared : ι -> Session P)

def Locks (point : PublicKey P) : Prop :=
  forall j, exists early late, early ++ late = ceremony.tweaks ∧
    prepareLocked ceremony.roster (ceremony.id j) ceremony.message early late point =
      .ok (prepared j)

def incomplete (point : PublicKey P) (j : ι) : AdaptorSignature P :=
  { nonce := (ceremony.round prepared j).finalNonce
    response :=
      (ceremony.round prepared j).combine (List.ofFn (ceremony.response prepared))
    point := point }

variable {ceremony prepared} {point : PublicKey P}

theorem uniform_of_locks (h : ceremony.Locks prepared point) :
    ceremony.Uniform prepared (some point) := by
  intro j
  rcases h j with ⟨early, late, htweaks, hprepared⟩
  rw [← htweaks]
  exact prepared_of_prepareLocked hprepared

theorem nonceSum_eq (h : ceremony.Uniform prepared (some point)) (j k : ι) :
    ceremony.nonceSum prepared j = ceremony.nonceSum prepared k := by
  unfold nonceSum
  rw [context_eq h j k]

theorem incomplete_eq (h : ceremony.Uniform prepared (some point)) (j k : ι) :
    ceremony.incomplete prepared point j = ceremony.incomplete prepared point k := by
  unfold incomplete
  rw [round_eq h j k]

theorem adaptedNonce_incomplete {j : ι} (hfinite : ceremony.nonceSum prepared j ≠ 0) :
    (ceremony.incomplete prepared point j).adaptedNonce =
      ceremony.nonceSum prepared j + point.point :=
  congrArg (fun nonce => nonce + point.point)
    (Round.finalNonce_ofNonce hfinite : (ceremony.round prepared j).finalNonce.point = _)

section

variable [LawfulCiphersuite P] {j : ι} {later : Session P} {secret : KeyPair P}

theorem combineAdaptor_later (h : ceremony.Uniform prepared (some point))
    (hfinite : ceremony.nonceSum prepared j ≠ 0)
    (hlater : (ceremony.processed prepared j).Continues later) :
    later.combineAdaptor point (List.ofFn (ceremony.response prepared)) =
      .ok (ceremony.incomplete prepared point j) :=
  combineAdaptor_eq_ok_iff.mpr ⟨length_responses_later h hlater, _, round_later h hlater,
    accepts_responses h j hfinite, rfl⟩

theorem verify_completion_later (h : ceremony.Uniform prepared (some secret.publicKey))
    (hfinite : ceremony.nonceSum prepared j ≠ 0)
    (hadapted : ceremony.nonceSum prepared j + secret.publicKey.point ≠ 0)
    (hlater : (ceremony.processed prepared j).Continues later) :
    Schnorr.verify later.aggregateXOnly ceremony.message
      ((ceremony.incomplete prepared secret.publicKey j).completion secret) = true := by
  have haccepts := accepts_responses h j hfinite
  rw [← adaptedNonce_incomplete hfinite] at hadapted
  rw [round_eq_ofNonce h j] at haccepts
  have hnonce := congrArg Round.finalNonce (round_eq_ofNonce h j)
  have hresponse : (ceremony.incomplete prepared secret.publicKey j).response = _ :=
    congrArg (fun round : Round P => round.combine (List.ofFn (ceremony.response prepared)))
      (round_eq_ofNonce h j)
  rw [← hresponse] at haccepts
  unfold Session.aggregateXOnly
  rw [context_later hlater]
  exact AdaptorSignature.verify_completion hnonce haccepts rfl hadapted

theorem aggregateAdaptor_later (h : ceremony.Uniform prepared (some point))
    (hfinite : ceremony.nonceSum prepared j ≠ 0)
    (hlater : (ceremony.processed prepared j).Continues later)
    (hphase : later.phase ∈ Gate.combining.phases) :
    later.aggregateAdaptor (List.ofFn (ceremony.response prepared)) =
      .ok (ceremony.incomplete prepared point j, { later with phase := .aggregated }) :=
  aggregateAdaptor_eq_ok_iff.mpr ⟨hphase, point, adaptorPoint_later h hlater,
    combineAdaptor_later h hfinite hlater, rfl⟩

theorem adapt_later (h : ceremony.Uniform prepared (some secret.publicKey))
    (hfinite : ceremony.nonceSum prepared j ≠ 0)
    (hadapted : ceremony.nonceSum prepared j + secret.publicKey.point ≠ 0)
    (hlater : (ceremony.processed prepared j).Continues later)
    (hphase : later.phase = .aggregated) :
    later.adapt (ceremony.incomplete prepared secret.publicKey j) secret =
      .ok ((ceremony.incomplete prepared secret.publicKey j).completion secret,
        { later with phase := .adapted }) := by
  have hverify := verify_completion_later h hfinite hadapted hlater
  rw [← adaptedNonce_incomplete hfinite] at hadapted
  refine adapt_eq_ok_iff.mpr ⟨hphase, rfl, AdaptorSignature.complete?_eq_completion rfl hadapted,
    ?_, rfl⟩
  rw [message_later h hlater]
  exact hverify

theorem extract_later (h : ceremony.Uniform prepared (some secret.publicKey))
    (hfinite : ceremony.nonceSum prepared j ≠ 0)
    (hadapted : ceremony.nonceSum prepared j + secret.publicKey.point ≠ 0)
    (hlater : (ceremony.processed prepared j).Continues later) :
    later.extract ((ceremony.incomplete prepared secret.publicKey j).completion secret)
      (List.ofFn (ceremony.response prepared)) = .ok secret := by
  have hverify := verify_completion_later h hfinite hadapted hlater
  rw [← adaptedNonce_incomplete hfinite] at hadapted
  refine extract_eq_ok_iff.mpr ⟨(hlater.fixed (isFixed_processed j)).1, secret.publicKey,
    adaptorPoint_later h hlater, ?_, _, combineAdaptor_later h hfinite hlater,
    AdaptorSignature.reveal_completion rfl hadapted⟩
  rw [message_later h hlater]
  exact hverify

/-- The secret of the adaptor point completes what honest participants make, and comes back from it
in every session. -/
theorem returns_secret (ceremony : Ceremony P ι) {prepared : ι -> Session P}
    (secret : KeyPair P) (h : ceremony.Locks prepared secret.publicKey) (j : ι) :
    exists generated signed : Session P, ceremony.Proceeds prepared j generated signed ∧
      (ceremony.nonceSum prepared j ≠ 0 ->
        ceremony.nonceSum prepared j + secret.publicKey.point ≠ 0 ->
        exists incomplete aggregated signature adapted,
          signed.aggregateAdaptor (List.ofFn (ceremony.response prepared)) =
              .ok (incomplete, aggregated) ∧
            aggregated.adapt incomplete secret = .ok (signature, adapted) ∧
            adapted.phase = .adapted ∧
            Schnorr.verify adapted.aggregateXOnly ceremony.message signature = true ∧
            incomplete.reveal signature = .ok secret ∧
            forall k later, (ceremony.processed prepared k).Continues later ->
              later.extract signature (List.ofFn (ceremony.response prepared)) =
                .ok secret) := by
  have huniform := uniform_of_locks h
  rcases exists_proceeds huniform j with ⟨generated, signed, hproceeds⟩
  refine ⟨generated, signed, hproceeds, ?_⟩
  intro hfinite hadapted
  -- Combining and completing change the phase alone, so what the round fixed stays as it was.
  have hlater : forall phase, phase ∈ Gate.fixedNonces.phases ->
      (ceremony.processed prepared j).Continues { signed with phase := phase } :=
    fun phase hphase => hproceeds.continues.trans (continues_with hphase signed.signed)
  refine ⟨_, _, _, _, aggregateAdaptor_later huniform hfinite hproceeds.continues hproceeds.phase,
    adapt_later huniform hfinite hadapted (hlater .aggregated (by decide)) rfl, rfl,
    verify_completion_later huniform hfinite hadapted (hlater .adapted (by decide)), ?_, ?_⟩
  · apply AdaptorSignature.reveal_completion rfl
    rw [adaptedNonce_incomplete hfinite]
    exact hadapted
  · intro k later hlater
    rw [incomplete_eq huniform j k]
    rw [nonceSum_eq huniform j k] at hfinite hadapted
    exact extract_later huniform hfinite hadapted hlater

end

def lockedSession? (secret : KeyPair Exponent) (j : Fin 2) : Except Error (Session Exponent) :=
  prepareLocked threeInTwoSessions.roster (threeInTwoSessions.id j) threeInTwoSessions.message
    (threeInTwoSessions.tweaks.take (2 * j.val + 1))
    (threeInTwoSessions.tweaks.drop (2 * j.val + 1)) secret.publicKey

theorem isSome_lockedSession? (j : Fin 2) :
    (lockedSession? (Exponent.pair 12) j).toOption.isSome = true := by
  revert j
  decide +kernel

def lockedSessions (j : Fin 2) : Session Exponent :=
  (lockedSession? (Exponent.pair 12) j).toOption.get (isSome_lockedSession? j)

theorem locks_lockedSessions :
    threeInTwoSessions.Locks lockedSessions (Exponent.pair 12).publicKey :=
  fun j => ⟨_, _, List.take_append_drop (2 * j.val + 1) _,
    eq_ok_get_toOption (isSome_lockedSession? j)⟩

/-- The adapted nonce is odd here, so that the secret is subtracted. -/
theorem returns_secret_threeInTwoSessions :
    threeInTwoSessions.Locks lockedSessions (Exponent.pair 12).publicKey ∧
      isOdd (threeInTwoSessions.nonceSum lockedSessions 1 +
        (Exponent.pair 12).publicKey.point) = true ∧
      exists (incomplete : AdaptorSignature Exponent) (signature : Schnorr.Signature),
        incomplete.reveal signature = .ok (Exponent.pair 12) ∧
          forall k later, (threeInTwoSessions.processed lockedSessions k).Continues later ->
            later.extract signature (List.ofFn (threeInTwoSessions.response lockedSessions)) =
              .ok (Exponent.pair 12) := by
  rcases returns_secret threeInTwoSessions (Exponent.pair 12) locks_lockedSessions 1 with
    ⟨_, _, _, hreturns⟩
  rcases hreturns (by decide +kernel) (by decide +kernel) with
    ⟨incomplete, _, signature, _, _, _, _, _, hreveal, hextract⟩
  exact ⟨locks_lockedSessions, by decide +kernel, incomplete, signature, hreveal, hextract⟩

end Ceremony

end Musig
end Cosigning
