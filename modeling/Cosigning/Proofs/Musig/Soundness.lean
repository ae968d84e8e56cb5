import Cosigning.Proofs.Musig.KeyAggregation
import Cosigning.Proofs.Musig.Transition

/-!
# Sound sessions

In every session of every run the key context is the one of the participants' keys
with the recorded tweaks, every participant has a flag, and as soon as the nonces are
processed there is one for every participant and the aggregate is their sum.
-/

namespace Cosigning
namespace Musig

variable {P : Type} [Ciphersuite P]

namespace Session

variable {session next : Session P}

/-- What a session stores of its history fits together. -/
structure Sound (session : Session P) : Prop where
  context : KeyContext.tweaked session.participants session.tweaks = .ok session.context
  flags : session.signed.length = session.participants.length
  nonces : session.IsFixed ->
    session.publicNonces.length = session.participants.length ∧
      session.aggregateNonce = some (AggregateNonce.ofList session.publicNonces)

theorem sound_of_start {roster : Roster P} {id : SessionId} {message : Bytes32}
    (h : roster.start id message = .ok session) : session.Sound := by
  rw [Roster.start_eq_ofKeys] at h
  rcases ofKeys_eq_ok_iff.mp h with ⟨context, hcontext, rfl⟩
  refine ⟨bind_eq_ok_iff.mpr ⟨context, hcontext, rfl⟩, List.length_map .., ?_⟩
  intro hfixed
  exact absurd hfixed (by simp [IsFixed, Gate.phases])

theorem Sound.with_phase (h : session.Sound) (fixed : session.IsFixed) {signed : List Bool}
    (flags : signed.length = session.participants.length) {phase : Phase} :
    ({ session with signed := signed, phase := phase } : Session P).Sound :=
  ⟨h.context, flags, fun _ => h.nonces fixed⟩

theorem Sound.advances (h : session.Sound) (advances : session.Advances next) : next.Sound := by
  cases advances with
  | applyTweak tweak _ happly =>
      rcases applyTweak_eq_ok_iff.mp happly with ⟨hphase, context, hcontext, rfl⟩
      refine ⟨KeyContext.tweaked_concat h.context hcontext, h.flags, ?_⟩
      intro hfixed
      exact absurd hfixed (by simp [IsFixed, Gate.phases, hphase])
  | useAdaptor point _ huse =>
      rcases useAdaptor_eq_ok_iff.mp huse with ⟨_, _, rfl⟩
      exact ⟨h.context, h.flags, h.nonces⟩
  | generateNonce pair seed nonce _ hmakes =>
      rcases generateNonce_eq_ok_iff.mp hmakes with ⟨_, _, _, _, rfl⟩
      refine ⟨h.context, h.flags, ?_⟩
      intro hfixed
      exact absurd hfixed (by simp [IsFixed, Gate.phases])
  | processNonces nonces _ hprocess =>
      rcases processNonces_eq_ok_iff.mp hprocess with ⟨_, hcount, rfl⟩
      exact ⟨h.context, h.flags, fun _ => ⟨hcount, rfl⟩⟩
  | aggregate partials signature _ haggregate =>
      rcases aggregate_eq_ok_iff.mp haggregate with ⟨hphase, _, _, _, _, _, _, _, rfl⟩
      exact h.with_phase (mem_fixedNonces_of_mem_signing hphase) h.flags
  | aggregateAdaptor partials incomplete _ hcombine =>
      rcases aggregateAdaptor_eq_ok_iff.mp hcombine with ⟨hphase, _, _, _, rfl⟩
      exact h.with_phase (mem_fixedNonces_of_mem_signing hphase) h.flags
  | adapt incomplete pair signature _ hadapt =>
      rcases adapt_eq_ok_iff.mp hadapt with ⟨hphase, _, _, _, rfl⟩
      exact h.with_phase (by simp [IsFixed, Gate.phases, hphase]) h.flags

theorem Sound.step (h : session.Sound) (step : session.Step next) : next.Sound := by
  cases step with
  | advances _ hadvances => exact h.advances hadvances
  | sign pair nonce response _ hsign =>
      have hflags := signed_sign hsign
      rcases sign_eq_ok_iff.mp hsign with ⟨hphase, _, _, _, _, _, _, _, _, _, _, rfl⟩
      exact h.with_phase (mem_fixedNonces_of_mem_signing hphase)
        ((List.length_set ..).trans h.flags)

def fixedRound (session : Session P) : Round P :=
  Round.ofNonce session.context (AggregateNonce.ofList session.publicNonces) session.adaptorPoint
    session.message

theorem Sound.round_eq (h : session.Sound) (fixed : session.IsFixed) :
    session.round = .ok session.fixedRound :=
  round_eq_ok_iff.mpr ⟨_, (h.nonces fixed).2, rfl⟩

end Session

theorem Ensemble.sound_run (calls : List (Call P)) {place : Nat} {session : Session P}
    (found : (Ensemble.run calls).sessions[place]? = some session) : session.Sound :=
  Ensemble.session_run (fun _ _ _ _ => Session.sound_of_start) (fun _ _ => Session.Sound.step) calls
    found

end Musig
end Cosigning
