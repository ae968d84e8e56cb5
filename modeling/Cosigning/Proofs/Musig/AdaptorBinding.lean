import Cosigning.Proofs.Exponent
import Cosigning.Proofs.Musig.Transition

/-!
# What completing an adaptor signature is bound to

In every run an adaptor signature is locked to the adaptor point of the session that
made it, so only the secret of that point completes it.  The session that completes
it need not be the one that made it, nor have an adaptor point: any session that has
an aggregate under the same key for the same message will do.
-/

namespace Cosigning
namespace Musig

variable {P : Type} [Ciphersuite P]

theorem Session.adapt_of_adapt {first second next : Session P} {incomplete : AdaptorSignature P}
    {secret : KeyPair P} {signature : Schnorr.Signature}
    (h : first.adapt incomplete secret = .ok (signature, next))
    (key : second.aggregateXOnly = first.aggregateXOnly)
    (message : second.message = first.message) (phase : second.phase = .aggregated) :
    second.adapt incomplete secret = .ok (signature, { second with phase := .adapted }) := by
  rcases Session.adapt_eq_ok_iff.mp h with ⟨_, hpoint, hcomplete, hverify, _⟩
  rw [← key, ← message] at hverify
  exact Session.adapt_eq_ok_iff.mpr ⟨phase, hpoint, hcomplete, hverify, rfl⟩

namespace Ensemble

variable {ensemble : Ensemble P}

/-- The adaptor signature is what partial signatures combine to in the session at its maker's place,
locked to that session's adaptor point. -/
def Locked (ensemble : Ensemble P) (combining : Combining P) : Prop :=
  exists maker partials, ensemble.sessions[combining.maker]? = some maker ∧ maker.IsFixed ∧
    maker.adaptorPoint = some combining.incomplete.point ∧
    maker.combineAdaptor combining.incomplete.point partials = .ok combining.incomplete

theorem Locked.mono {after : Ensemble P} {combining : Combining P} (h : ensemble.Extends after)
    (locked : ensemble.Locked combining) : after.Locked combining := by
  rcases locked with ⟨maker, partials, hmaker, hfixed, hpoint, hcombined⟩
  rcases h.sessions _ _ hmaker with ⟨later, hlater, hcontinues⟩
  rcases hcontinues.fixed hfixed with ⟨hfixedLater, hterms⟩
  refine ⟨later, partials, hlater, hfixedLater, hterms.adaptorPoint.trans hpoint, ?_⟩
  rcases Session.combineAdaptor_eq_ok_iff.mp hcombined with ⟨hcount, round, hround, haccepts, hmade⟩
  rw [← hcontinues.participants] at hcount
  exact Session.combineAdaptor_eq_ok_iff.mpr
    ⟨hcount, round, hcontinues.round hfixed hround, haccepts, hmade⟩

def AllLocked (ensemble : Ensemble P) : Prop :=
  forall combining, combining ∈ ensemble.incompletes -> ensemble.Locked combining

theorem AllLocked.transition (h : ensemble.AllLocked) {after : Ensemble P}
    (transition : ensemble.Transition after) : after.AllLocked := by
  have hextends := extends_of_transition transition
  intro combining hmem
  cases transition with
  | stay => exact h combining hmem
  | create roster id message session starts => exact (h combining hmem).mono hextends
  | advance place session next found advances => exact (h combining hmem).mono hextends
  | mint place session next pair seed nonce found makes => exact (h combining hmem).mono hextends
  | sign place session next pair number minting response found minted signs =>
      exact (h combining hmem).mono hextends
  | combine place session next partials incomplete found combines =>
      rcases List.mem_append.mp hmem with hold | hnew
      · exact (h combining hold).mono hextends
      · cases List.mem_singleton.mp hnew
        rcases Session.aggregateAdaptor_eq_ok_iff.mp combines with
          ⟨hphase, point, hpoint, hcombined, _⟩
        have hsame : incomplete.point = point := by
          rcases Session.combineAdaptor_eq_ok_iff.mp hcombined with ⟨_, _, _, _, rfl⟩
          rfl
        rw [← hsame] at hpoint hcombined
        have hlocked : ensemble.Locked { maker := place, incomplete := incomplete } :=
          ⟨session, partials, found, Session.mem_fixedNonces_of_mem_signing hphase, hpoint,
            hcombined⟩
        exact hlocked.mono hextends

theorem allLocked_run (calls : List (Call P)) : (run calls).AllLocked :=
  run_induction (fun _ hmem => absurd hmem List.not_mem_nil) (fun _ _ h => h.transition) calls

/-- What completes an adaptor signature is the secret of its maker's adaptor point, and of the
session's own when the session has made it; every other session with an aggregate under the same key
for the same message completes it as well. -/
theorem adapt_bound_to_maker (calls : List (Call P)) {place number : Nat}
    {session next : Session P} {combining : Combining P} {secret : KeyPair P}
    {signature : Schnorr.Signature}
    (found : (run calls).sessions[place]? = some session)
    (made : (run calls).incompletes[number]? = some combining)
    (h : session.adapt combining.incomplete secret = .ok (signature, next)) :
    (exists maker partials, (run calls).sessions[combining.maker]? = some maker ∧
        maker.adaptorPoint = some secret.publicKey ∧
        maker.combineAdaptor secret.publicKey partials = .ok combining.incomplete) ∧
      (combining.maker = place -> session.adaptorPoint = some secret.publicKey) ∧
      session.phase = .aggregated ∧ next = { session with phase := .adapted } ∧
      Schnorr.verify session.aggregateXOnly session.message signature = true ∧
      forall other : Session P, other.phase = .aggregated ->
        other.aggregateXOnly = session.aggregateXOnly -> other.message = session.message ->
          other.adapt combining.incomplete secret =
            .ok (signature, { other with phase := .adapted }) := by
  rcases Session.adapt_eq_ok_iff.mp h with ⟨hphase, hpoint, _, hverify, hnext⟩
  rcases allLocked_run calls combining (List.mem_of_getElem? made) with
    ⟨maker, partials, hmaker, _, hadaptor, hcombined⟩
  rw [← hpoint] at hadaptor hcombined
  refine ⟨⟨maker, partials, hmaker, hadaptor, hcombined⟩, ?_, hphase, hnext, hverify, ?_⟩
  · intro hplace
    rw [hplace, found] at hmaker
    cases hmaker
    exact hadaptor
  · intro other phase key message
    exact Session.adapt_of_adapt h key message phase

/-- Two participants have two sessions for one message, the second with an adaptor point, and
combine their partial signatures in both. -/
def combiningCalls : List (Call Exponent) :=
  let roster : Roster Exponent := .full [(Exponent.pair 2).publicKey, (Exponent.pair 5).publicKey]
  let opening : List (Call Exponent) :=
    [.create (FixedBytes.ofNat 32 1) roster (FixedBytes.ofNat 32 9),
      .create (FixedBytes.ofNat 32 2) roster (FixedBytes.ofNat 32 9),
      .useAdaptor 1 (Exponent.pair 7).publicKey,
      .generateNonce 0 (Exponent.pair 2) (FixedBytes.ofNat 32 3),
      .generateNonce 0 (Exponent.pair 5) (FixedBytes.ofNat 32 4),
      .generateNonce 1 (Exponent.pair 2) (FixedBytes.ofNat 32 5),
      .generateNonce 1 (Exponent.pair 5) (FixedBytes.ofNat 32 6)]
  let nonces := (run opening).nonces.map (fun minting => minting.nonce.toPublic)
  let signing : List (Call Exponent) := opening ++
    [.processNonces 0 (nonces.take 2), .processNonces 1 (nonces.drop 2),
      .sign 0 (Exponent.pair 2) 0, .sign 0 (Exponent.pair 5) 1,
      .sign 1 (Exponent.pair 2) 2, .sign 1 (Exponent.pair 5) 3]
  let partials := (run signing).signings.map Signing.response
  signing ++ [.aggregate 0 (partials.take 2), .aggregateAdaptor 1 (partials.drop 2)]

def completing? (calls : List (Call P)) (place number : Nat) (secret : KeyPair P) :
    Option (Option (PublicKey P)) := do
  let session <- (run calls).sessions[place]?
  let combining <- (run calls).incompletes[number]?
  let _ <- (session.adapt combining.incomplete secret).toOption
  return session.adaptorPoint

theorem exists_of_completing? {calls : List (Call P)} {place number : Nat} {secret : KeyPair P}
    {adaptorPoint : Option (PublicKey P)}
    (h : completing? calls place number secret = some adaptorPoint) :
    exists session next combining signature, (run calls).sessions[place]? = some session ∧
      (run calls).incompletes[number]? = some combining ∧
      session.adapt combining.incomplete secret = .ok (signature, next) ∧
      session.adaptorPoint = adaptorPoint := by
  rcases Option.bind_eq_some_iff.mp h with ⟨session, hsession, hrest⟩
  rcases Option.bind_eq_some_iff.mp hrest with ⟨combining, hcombining, hadapted⟩
  rcases Option.bind_eq_some_iff.mp hadapted with ⟨⟨signature, next⟩, hoption, hpoint⟩
  refine ⟨session, next, combining, signature, hsession, hcombining, ?_, Option.some.inj hpoint⟩
  cases houtcome : session.adapt combining.incomplete secret with
  | error cause =>
      rw [houtcome] at hoption
      cases hoption
  | ok outcome =>
      rw [houtcome] at hoption
      cases hoption
      rfl

theorem completing?_combiningCalls :
    completing? combiningCalls 0 0 (Exponent.pair 7) = some none := by
  decide +kernel

theorem adapt_bound_to_maker_combiningCalls :
    exists (session next : Session Exponent) (combining : Combining Exponent)
      (signature : Schnorr.Signature) (maker : Session Exponent),
      (run combiningCalls).sessions[0]? = some session ∧ session.adaptorPoint = none ∧
        (run combiningCalls).incompletes[0]? = some combining ∧
        session.adapt combining.incomplete (Exponent.pair 7) = .ok (signature, next) ∧
        (run combiningCalls).sessions[combining.maker]? = some maker ∧
        maker.adaptorPoint = some (Exponent.pair 7).publicKey := by
  rcases exists_of_completing? completing?_combiningCalls with
    ⟨session, next, combining, signature, hsession, hcombining, hadapts, hpoint⟩
  rcases adapt_bound_to_maker combiningCalls hsession hcombining hadapts with
    ⟨⟨maker, _, hmaker, hadaptor, _⟩, _⟩
  exact ⟨session, next, combining, signature, maker, hsession, hpoint, hcombining, hadapts, hmaker,
    hadaptor⟩

theorem not_adapt_bound_to_own_point :
    ¬ forall (calls : List (Call Exponent)) (place number : Nat) (session next : Session Exponent)
      (combining : Combining Exponent) (secret : KeyPair Exponent)
      (signature : Schnorr.Signature),
      ((run calls).sessions.map Session.id).Nodup ->
      (run calls).sessions[place]? = some session ->
      (run calls).incompletes[number]? = some combining ->
      session.adapt combining.incomplete secret = .ok (signature, next) ->
        session.adaptorPoint = some secret.publicKey := by
  intro h
  rcases exists_of_completing? completing?_combiningCalls with
    ⟨session, next, combining, signature, hsession, hcombining, hadapts, hpoint⟩
  have hown := h combiningCalls 0 0 session next combining (Exponent.pair 7) signature
    (by decide +kernel) hsession hcombining hadapts
  rw [hpoint] at hown
  cases hown

end Ensemble

end Musig
end Cosigning
