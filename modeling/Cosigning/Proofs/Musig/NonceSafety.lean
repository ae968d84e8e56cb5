import Cosigning.Proofs.Exponent
import Cosigning.Proofs.Musig.Soundness
import Mathlib.Data.List.Nodup

/-!
# No nonce signs twice

Whatever is called on however many sessions, a secret nonce makes at most one
partial signature, provided that the sessions have distinct identities.
-/

namespace Cosigning
namespace Musig

variable {P : Type} [Ciphersuite P]

namespace Ensemble

variable {ensemble : Ensemble P}

/-!
## What is on record
-/

def Made (ensemble : Ensemble P) (minting : Minting P) : Prop :=
  exists session, ensemble.sessions[minting.maker]? = some session ∧
    minting.nonce.session = session.id ∧
    session.participantIndex? minting.pair.xOnly = some minting.nonce.signer

structure Recorded (ensemble : Ensemble P) (signing : Signing P) : Prop where
  minted : exists minting, ensemble.nonces[signing.number]? = some minting ∧
    minting.nonce = signing.nonce
  signs : exists next, signing.session.sign signing.pair signing.nonce = .ok (signing.response, next)
  later : exists session, ensemble.sessions[signing.place]? = some session ∧
    signing.session.Continues session

theorem Made.mono {after : Ensemble P} {minting : Minting P} (h : ensemble.Extends after)
    (made : ensemble.Made minting) : after.Made minting := by
  rcases made with ⟨session, hsession, hid, hindex⟩
  rcases h.sessions _ _ hsession with ⟨next, hnext, hcontinues⟩
  exact ⟨next, hnext, hid.trans hcontinues.id.symm,
    (hcontinues.participantIndex? minting.pair.xOnly).trans hindex⟩

theorem Recorded.mono {after : Ensemble P} {signing : Signing P} (h : ensemble.Extends after)
    (recorded : ensemble.Recorded signing) : after.Recorded signing := by
  refine ⟨?_, recorded.signs, ?_⟩
  · rcases recorded.minted with ⟨minting, hminting, hnonce⟩
    exact ⟨minting, h.nonces _ _ hminting, hnonce⟩
  · rcases recorded.later with ⟨session, hsession, hcontinues⟩
    rcases h.sessions _ _ hsession with ⟨next, hnext, hlater⟩
    exact ⟨next, hnext, hcontinues.trans hlater⟩

/-!
## The invariant
-/

/-- The flags of the sessions and the record of the partial signatures agree. -/
structure Consistent (ensemble : Ensemble P) : Prop where
  sound : forall (place : Nat) (session : Session P), ensemble.sessions[place]? = some session ->
    session.Sound
  flagged : forall (place : Nat) (session : Session P) (signer : Nat),
    ensemble.sessions[place]? = some session ->
    (session.signed[signer]? = some true <->
      (place, signer) ∈ ensemble.signings.map Signing.slot)
  made : forall minting, minting ∈ ensemble.nonces -> ensemble.Made minting
  recorded : forall signing, signing ∈ ensemble.signings -> ensemble.Recorded signing
  once : (ensemble.signings.map Signing.slot).Nodup

theorem consistent_empty : (empty : Ensemble P).Consistent := by
  constructor <;> simp [empty]

theorem place_lt_of_mem_slots (h : ensemble.Consistent) {place signer : Nat}
    (hmem : (place, signer) ∈ ensemble.signings.map Signing.slot) :
    place < ensemble.sessions.length := by
  rcases List.mem_map.mp hmem with ⟨signing, hsigning, hslot⟩
  rcases (h.recorded signing hsigning).later with ⟨session, hsession, _⟩
  cases hslot
  exact (List.getElem?_eq_some_iff.mp hsession).1

theorem signed_of_start {roster : Roster P} {id : SessionId} {message : Bytes32}
    {session : Session P} (h : roster.start id message = .ok session) :
    session.signed = session.participants.map (fun _ => false) := by
  rw [Roster.start_eq_ofKeys] at h
  rcases Session.ofKeys_eq_ok_iff.mp h with ⟨context, _, rfl⟩
  rfl

theorem flagged_update (h : ensemble.Consistent) {place : Nat} {session next : Session P}
    (found : ensemble.sessions[place]? = some session) (advances : session.Advances next)
    (other : Nat) (later : Session P) (signer : Nat)
    (hlater : (ensemble.update place next).sessions[other]? = some later) :
    later.signed[signer]? = some true <->
      (other, signer) ∈ ensemble.signings.map Signing.slot := by
  rw [sessions_update found] at hlater
  split at hlater
  · rename_i hother
    cases hlater
    rw [advances.signed, hother]
    exact h.flagged place session signer found
  · exact h.flagged other later signer hlater

theorem signer_lt_of_sign (h : ensemble.Consistent) {place : Nat} {session next : Session P}
    (found : ensemble.sessions[place]? = some session) {pair : KeyPair P}
    {nonce : SigningNonce P} {response : Scalar}
    (signs : session.sign pair nonce = .ok (response, next)) :
    nonce.signer < session.signed.length := by
  rw [(h.sound place session found).flags]
  exact Session.participantIndex?_lt (Session.participantIndex?_of_sign signs)

theorem flagged_of_transition (h : ensemble.Consistent) {after : Ensemble P}
    (transition : ensemble.Transition after) (place : Nat) (session : Session P) (signer : Nat)
    (found : after.sessions[place]? = some session) :
    session.signed[signer]? = some true <->
      (place, signer) ∈ after.signings.map Signing.slot := by
  cases transition with
  | stay => exact h.flagged place session signer found
  | create roster id message created starts =>
      rcases getElem?_concat_eq_some found with hold | ⟨hplace, rfl⟩
      · exact h.flagged place session signer hold
      · -- Nobody has signed in a session that did not exist before.
        constructor
        · intro hflag
          have hraised := List.mem_of_getElem? hflag
          rw [signed_of_start starts] at hraised
          simp at hraised
        · intro hmem
          exact absurd (place_lt_of_mem_slots h hmem) (by omega)
  | advance at_ prior next prior_found advances =>
      exact flagged_update h prior_found advances place session signer found
  | mint at_ prior next pair seed nonce prior_found makes =>
      exact flagged_update h prior_found
        (Session.Advances.generateNonce pair seed nonce next makes) place session signer found
  | combine at_ prior next partials incomplete prior_found combines =>
      exact flagged_update h prior_found
        (Session.Advances.aggregateAdaptor partials incomplete next combines) place session signer
        found
  | sign at_ prior next pair number minting response prior_found minted signs =>
      rw [List.map_append, List.mem_append]
      change (ensemble.update at_ next).sessions[place]? = some session at found
      rw [sessions_update prior_found] at found
      split at found
      · rename_i hplace
        cases found
        rw [hplace, Session.signed_sign signs, ← h.flagged at_ prior signer prior_found]
        have hlt := signer_lt_of_sign h prior_found signs
        by_cases hsigner : signer = minting.nonce.signer
        · simp [hsigner, hlt, Signing.slot, Signing.signer]
        · simp [hsigner, Ne.symm hsigner, Signing.slot, Signing.signer]
      · rename_i hplace
        rw [h.flagged place session signer found]
        simp [hplace, Signing.slot, Signing.signer]

theorem made_of_transition (h : ensemble.Consistent) {after : Ensemble P}
    (transition : ensemble.Transition after) (minting : Minting P)
    (hmem : minting ∈ after.nonces) : after.Made minting := by
  have hextends := extends_of_transition transition
  cases transition with
  | stay => exact h.made minting hmem
  | create roster id message created starts => exact (h.made minting hmem).mono hextends
  | advance place prior next found advances => exact (h.made minting hmem).mono hextends
  | combine place prior next partials incomplete found combines =>
      exact (h.made minting hmem).mono hextends
  | mint place prior next pair seed nonce found makes =>
      rcases List.mem_append.mp hmem with hold | hnew
      · exact (h.made minting hold).mono hextends
      · cases List.mem_singleton.mp hnew
        rcases Session.generateNonce_eq_ok_iff.mp makes with ⟨_, share, hshare, rfl, _⟩
        have hmade : ensemble.Made
            { maker := place
              pair := pair
              nonce :=
                { session := prior.id
                  signer := share.index
                  secret := SecretNonce.derive share.secret share.key prior.aggregateXOnly
                    prior.message seed } } :=
          ⟨prior, found, rfl, Session.participantIndex?_of_resolveSigner hshare⟩
        exact hmade.mono hextends
  | sign place prior next pair number minted response found hminted signs =>
      exact (h.made minting hmem).mono hextends

theorem recorded_of_transition (h : ensemble.Consistent) {after : Ensemble P}
    (transition : ensemble.Transition after) (signing : Signing P)
    (hmem : signing ∈ after.signings) : after.Recorded signing := by
  have hextends := extends_of_transition transition
  cases transition with
  | stay => exact h.recorded signing hmem
  | create roster id message created starts => exact (h.recorded signing hmem).mono hextends
  | advance place prior next found advances => exact (h.recorded signing hmem).mono hextends
  | combine place prior next partials incomplete found combines =>
      exact (h.recorded signing hmem).mono hextends
  | mint place prior next pair seed nonce found makes =>
      exact (h.recorded signing hmem).mono hextends
  | sign place prior next pair number minting response found minted signs =>
      rcases List.mem_append.mp hmem with hold | hnew
      · exact (h.recorded signing hold).mono hextends
      · cases List.mem_singleton.mp hnew
        rcases hextends.sessions place prior found with ⟨later, hlater, hcontinues⟩
        exact ⟨⟨minting, minted, rfl⟩, ⟨next, signs⟩, ⟨later, hlater, hcontinues⟩⟩

theorem once_of_transition (h : ensemble.Consistent) {after : Ensemble P}
    (transition : ensemble.Transition after) :
    (after.signings.map Signing.slot).Nodup := by
  cases transition with
  | stay => exact h.once
  | create roster id message created starts => exact h.once
  | advance place prior next found advances => exact h.once
  | combine place prior next partials incomplete found combines => exact h.once
  | mint place prior next pair seed nonce found makes => exact h.once
  | sign place prior next pair number minting response found minted signs =>
      rw [List.map_append, List.map_singleton]
      apply List.Nodup.append h.once (List.nodup_singleton _)
      rw [List.disjoint_singleton]
      -- The flag of the signer was down, so nothing is recorded for it.
      intro hmem
      exact Session.not_signed_of_sign signs
        ((h.flagged place prior minting.nonce.signer found).mpr hmem)

theorem Consistent.transition (h : ensemble.Consistent) {after : Ensemble P}
    (transition : ensemble.Transition after) : after.Consistent :=
  ⟨transition.forall_session (fun _ _ _ _ => Session.sound_of_start) (fun _ _ => Session.Sound.step) h.sound,
    flagged_of_transition h transition, made_of_transition h transition,
    recorded_of_transition h transition, once_of_transition h transition⟩

theorem consistent_run (calls : List (Call P)) : (run calls).Consistent :=
  run_induction consistent_empty (fun _ _ h => h.transition) calls

/-!
## Sessions with distinct identities
-/

theorem place_eq_of_id {place other : Nat} {session second : Session P}
    (distinct : (ensemble.sessions.map Session.id).Nodup)
    (found : ensemble.sessions[place]? = some session)
    (hsecond : ensemble.sessions[other]? = some second) (hid : session.id = second.id) :
    place = other := by
  have hlt : place < (ensemble.sessions.map Session.id).length := by
    rw [List.length_map]
    exact (List.getElem?_eq_some_iff.mp found).1
  apply (List.getElem?_inj hlt distinct).mp
  rw [List.getElem?_map, List.getElem?_map, found, hsecond, Option.map_some, Option.map_some,
    hid]

theorem Recorded.exists_session {signing : Signing P} (h : ensemble.Recorded signing) :
    exists session, ensemble.sessions[signing.place]? = some session ∧
      signing.nonce.session = session.id := by
  rcases h.later with ⟨session, hsession, hcontinues⟩
  rcases h.signs with ⟨_, hsigns⟩
  exact ⟨session, hsession,
    (Session.nonce_session_of_sign hsigns).trans hcontinues.id.symm⟩

theorem maker_eq_place (h : ensemble.Consistent)
    (distinct : (ensemble.sessions.map Session.id).Nodup) {signing : Signing P}
    (hsigning : signing ∈ ensemble.signings) {minting : Minting P}
    (hminting : minting ∈ ensemble.nonces) (hnonce : minting.nonce = signing.nonce) :
    minting.maker = signing.place := by
  rcases h.made minting hminting with ⟨maker, hmaker, hid, _⟩
  rcases (h.recorded signing hsigning).exists_session with ⟨session, hsession, hsigned⟩
  apply place_eq_of_id distinct hmaker hsession
  rw [← hid, hnonce, hsigned]

theorem place_eq_of_nonce_eq (h : ensemble.Consistent)
    (distinct : (ensemble.sessions.map Session.id).Nodup) {first second : Signing P}
    (hfirst : first ∈ ensemble.signings) (hsecond : second ∈ ensemble.signings)
    (hnonce : first.nonce = second.nonce) : first.place = second.place := by
  rcases (h.recorded first hfirst).exists_session with ⟨session, hsession, hsigned⟩
  rcases (h.recorded second hsecond).exists_session with ⟨other, hother, hsignedSecond⟩
  apply place_eq_of_id distinct hsession hother
  rw [← hsigned, ← hsignedSecond, hnonce]

theorem nodup_nonces (h : ensemble.Consistent)
    (distinct : (ensemble.sessions.map Session.id).Nodup) :
    (ensemble.signings.map Signing.nonce).Nodup := by
  apply List.Nodup.map_on ?_ (List.Nodup.of_map _ h.once)
  intro first hfirst second hsecond hnonce
  apply List.inj_on_of_nodup_map h.once hfirst hsecond
  have hplace := place_eq_of_nonce_eq h distinct hfirst hsecond hnonce
  simp [Signing.slot, Signing.signer, hplace, hnonce]

theorem nodup_numbers (h : ensemble.Consistent)
    (distinct : (ensemble.sessions.map Session.id).Nodup) :
    (ensemble.signings.map Signing.number).Nodup := by
  apply List.Nodup.map_on ?_ (List.Nodup.of_map _ h.once)
  intro first hfirst second hsecond hnumber
  apply List.inj_on_of_nodup_map (nodup_nonces h distinct) hfirst hsecond
  rcases (h.recorded first hfirst).minted with ⟨minting, hminting, hnonce⟩
  rcases (h.recorded second hsecond).minted with ⟨other, hother, hnonceSecond⟩
  rw [hnumber, hother] at hminting
  cases hminting
  rw [← hnonce, hnonceSecond]

theorem sameTerms_of_place_eq (h : ensemble.Consistent) {first second : Signing P}
    (hfirst : first ∈ ensemble.signings) (hsecond : second ∈ ensemble.signings)
    (hplace : first.place = second.place) :
    second.session.message = first.session.message ∧
      first.session.SameTerms second.session := by
  rcases (h.recorded first hfirst).signs with ⟨_, hsigns⟩
  rcases (h.recorded second hsecond).signs with ⟨_, hsignsSecond⟩
  rcases (h.recorded first hfirst).later with ⟨session, hsession, hcontinues⟩
  rcases (h.recorded second hsecond).later with ⟨other, hother, hcontinuesSecond⟩
  rw [hplace, hother] at hsession
  cases hsession
  have hterms := (hcontinues.fixed (Session.isFixed_of_sign hsigns)).2
  have htermsSecond := (hcontinuesSecond.fixed (Session.isFixed_of_sign hsignsSecond)).2
  exact ⟨hcontinuesSecond.message.symm.trans hcontinues.message,
    htermsSecond.context.symm.trans hterms.context,
    htermsSecond.adaptorPoint.symm.trans hterms.adaptorPoint,
    htermsSecond.publicNonces.symm.trans hterms.publicNonces,
    htermsSecond.aggregateNonce.symm.trans hterms.aggregateNonce⟩

theorem nonce_session_ne_iff (h : ensemble.Consistent)
    (distinct : (ensemble.sessions.map Session.id).Nodup) {place : Nat} {session : Session P}
    (found : ensemble.sessions[place]? = some session) {minting : Minting P}
    (hminting : minting ∈ ensemble.nonces) :
    minting.nonce.session ≠ session.id <-> minting.maker ≠ place := by
  rcases h.made minting hminting with ⟨maker, hmaker, hid, _⟩
  apply not_congr
  constructor
  · intro hsame
    exact place_eq_of_id distinct hmaker found (hid.symm.trans hsame)
  · intro hplace
    rw [hplace, found] at hmaker
    cases hmaker
    exact hid

structure NoncesSafe (ensemble : Ensemble P) : Prop where
  number_once : (ensemble.signings.map Signing.number).Nodup
  /-- Nor does an equal one that is made again. -/
  nonce_once : (ensemble.signings.map Signing.nonce).Nodup
  slot_once : (ensemble.signings.map Signing.slot).Nodup
  own : forall signing, signing ∈ ensemble.signings ->
    exists minting, ensemble.nonces[signing.number]? = some minting ∧
      minting.nonce = signing.nonce ∧ minting.maker = signing.place ∧
      signing.session.participantIndex? minting.pair.xOnly = some signing.signer ∧
      signing.session.participantIndex? signing.pair.xOnly = some signing.signer ∧
      signing.session.publicNonces[signing.signer]? = some signing.nonce.toPublic
  replays : forall signing, signing ∈ ensemble.signings ->
    (exists session, ensemble.sessions[signing.place]? = some session ∧
      signing.session.Continues session) ∧
    exists next,
      signing.session.sign signing.pair signing.nonce = .ok (signing.response, next)
  same_terms : forall first second, first ∈ ensemble.signings -> second ∈ ensemble.signings ->
    first.place = second.place ->
      second.session.message = first.session.message ∧
        first.session.SameTerms second.session
  refused_iff : forall (place : Nat) (session : Session P) (number : Nat) (minting : Minting P)
    (pair : KeyPair P), ensemble.sessions[place]? = some session ->
      ensemble.nonces[number]? = some minting ->
      ((exists cause, session.sign pair minting.nonce = .error cause ∧
          cause.kind = .securityViolation) <->
        (session.phase = .noncesProcessed ∨ session.phase = .partiallySigned) ∧
          (minting.maker ≠ place ∨
            session.participantIndex? pair.xOnly = some minting.nonce.signer ∧
              exists signing, signing ∈ ensemble.signings ∧ signing.place = place ∧
                signing.signer = minting.nonce.signer))

/-- Whatever is called in whatever order, no nonce signs twice. -/
theorem noncesSafe_run (calls : List (Call P))
    (distinct : ((run calls).sessions.map Session.id).Nodup) : (run calls).NoncesSafe := by
  have h := consistent_run calls
  constructor
  case number_once => exact nodup_numbers h distinct
  case nonce_once => exact nodup_nonces h distinct
  case slot_once => exact h.once
  case own =>
    intro signing hsigning
    have hrecorded := h.recorded signing hsigning
    rcases hrecorded.minted with ⟨minting, hminting, hnonce⟩
    rcases hrecorded.signs with ⟨_, hsigns⟩
    rcases hrecorded.later with ⟨session, hsession, hcontinues⟩
    have hmem := List.mem_of_getElem? hminting
    have hplace := maker_eq_place h distinct hsigning hmem hnonce
    rcases h.made minting hmem with ⟨maker, hmaker, _, hindex⟩
    rw [hplace, hsession] at hmaker
    cases hmaker
    rw [hcontinues.participantIndex?, hnonce] at hindex
    exact ⟨minting, hminting, hnonce, hplace, hindex, Session.participantIndex?_of_sign hsigns,
      Session.publicNonce_of_sign hsigns⟩
  case replays =>
    intro signing hsigning
    exact ⟨(h.recorded signing hsigning).later, (h.recorded signing hsigning).signs⟩
  case same_terms =>
    intro first second hfirst hsecond hplace
    exact sameTerms_of_place_eq h hfirst hsecond hplace
  case refused_iff =>
    intro place session number minting pair found hminting
    rw [Session.sign_securityViolation_iff,
      nonce_session_ne_iff h distinct found (List.mem_of_getElem? hminting),
      h.flagged place session minting.nonce.signer found]
    simp [Gate.phases, Signing.slot]

def openingCalls : List (Call Exponent) :=
  let keys := [(Exponent.pair 2).publicKey, (Exponent.pair 5).publicKey]
  [.create (FixedBytes.ofNat 32 1) (.full keys) (FixedBytes.ofNat 32 9),
    .create (FixedBytes.ofNat 32 2) (.full keys) (FixedBytes.ofNat 32 9),
    .generateNonce 0 (Exponent.pair 2) (FixedBytes.ofNat 32 3),
    .generateNonce 1 (Exponent.pair 5) (FixedBytes.ofNat 32 4)]

def replayingCalls : List (Call Exponent) :=
  let nonces := (run openingCalls).nonces.map (fun minting => minting.nonce.toPublic)
  openingCalls ++
    [.processNonces 0 nonces, .processNonces 1 nonces, .sign 1 (Exponent.pair 2) 0,
      .sign 0 (Exponent.pair 2) 0, .sign 0 (Exponent.pair 2) 0, .sign 0 (Exponent.pair 5) 1,
      .sign 1 (Exponent.pair 5) 1, .sign 1 (Exponent.pair 5) 1]

theorem noncesSafe_run_replayingCalls :
    ((run replayingCalls).sessions.map Session.id).Nodup ∧
      (run replayingCalls).signings.map Signing.slot = [(0, 0), (1, 1)] ∧
      (run replayingCalls).NoncesSafe := by
  have hdistinct : ((run replayingCalls).sessions.map Session.id).Nodup := by
    decide +kernel
  exact ⟨hdistinct, by decide +kernel, noncesSafe_run replayingCalls hdistinct⟩

end Ensemble

end Musig
end Cosigning
