import Cosigning.Proofs.Musig.InPlace
import Cosigning.Proofs.Musig.Soundness

/-!
# Well-formed sessions

A session that is operated in place, in whatever order and with whatever arguments, stays
well formed: its lists fit its participants, its key context is the one of the recorded
tweaks, and it has an aggregate nonce exactly when its nonces are processed.  It only moves
forward, and what it has fixed stays as it is.
-/

namespace Cosigning
namespace Musig

variable {P : Type} [Ciphersuite P]

/-!
## The order of phases
-/

namespace Phase

def rank : Phase -> Nat
  | created => 0
  | noncesGenerated => 1
  | noncesProcessed => 2
  | partiallySigned => 3
  | aggregated => 4
  | adapted => 5

instance : LE Phase :=
  ⟨fun a b => a.rank <= b.rank⟩

instance (a b : Phase) : Decidable (a <= b) :=
  inferInstanceAs (Decidable (_ <= _))

theorem le_refl (a : Phase) : a <= a :=
  Nat.le_refl a.rank

theorem le_trans {a b c : Phase} (hab : a <= b) (hbc : b <= c) : a <= c :=
  Nat.le_trans hab hbc

theorem eq_created_of_le {a : Phase} (h : a <= created) : a = created := by
  cases a <;> first | rfl | exact absurd h (by decide)

theorem mem_fixedNonces_iff {a : Phase} :
    a ∈ Gate.fixedNonces.phases <-> noncesProcessed <= a := by
  cases a <;> decide

theorem le_of_mem_signing {a : Phase} (h : a ∈ Gate.signing.phases) :
    noncesProcessed <= a ∧ a <= partiallySigned := by
  revert h
  cases a <;> decide

theorem not_le_of_mem_nonceRound {a : Phase} (h : a ∈ Gate.nonceRound.phases) :
    ¬ noncesProcessed <= a := by
  revert h
  cases a <;> decide

end Phase

namespace Session

variable {session next : Session P}

/-!
## What a later state of a session keeps
-/

/-- A session never moves back: it may be set up while it is created, its nonces are processed once
and a flag that is set stays so. -/
structure Follows (before after : Session P) : Prop where
  id : after.id = before.id
  participants : after.participants = before.participants
  message : after.message = before.message
  untweakedKey : after.untweakedKey = before.untweakedKey
  phase : before.phase <= after.phase
  setup : before.phase ≠ .created ->
    after.tweaks = before.tweaks ∧ after.context = before.context ∧
      after.adaptorPoint = before.adaptorPoint
  nonces : Phase.noncesProcessed <= before.phase ->
    after.publicNonces = before.publicNonces ∧ after.aggregateNonce = before.aggregateNonce
  signed : forall place : Nat,
    before.signed[place]? = some true -> after.signed[place]? = some true

theorem Follows.refl (session : Session P) : session.Follows session :=
  ⟨rfl, rfl, rfl, rfl, Phase.le_refl _, fun _ => ⟨rfl, rfl, rfl⟩, fun _ => ⟨rfl, rfl⟩,
    fun _ h => h⟩

theorem Follows.trans {first second third : Session P} (before : first.Follows second)
    (after : second.Follows third) : first.Follows third := by
  constructor
  case id => exact after.id.trans before.id
  case participants => exact after.participants.trans before.participants
  case message => exact after.message.trans before.message
  case untweakedKey => exact after.untweakedKey.trans before.untweakedKey
  case phase => exact Phase.le_trans before.phase after.phase
  case setup =>
    intro h
    have hsecond : second.phase ≠ .created := fun hcreated =>
      h (Phase.eq_created_of_le (hcreated ▸ before.phase))
    rcases before.setup h with ⟨htweaks, hcontext, hadaptor⟩
    rcases after.setup hsecond with ⟨htweaks', hcontext', hadaptor'⟩
    exact ⟨htweaks'.trans htweaks, hcontext'.trans hcontext, hadaptor'.trans hadaptor⟩
  case nonces =>
    intro h
    rcases before.nonces h with ⟨hpublic, haggregate⟩
    rcases after.nonces (Phase.le_trans h before.phase) with ⟨hpublic', haggregate'⟩
    exact ⟨hpublic'.trans hpublic, haggregate'.trans haggregate⟩
  case signed =>
    intro place h
    exact after.signed place (before.signed place h)

theorem follows_of_created (hcreated : session.phase = .created) (context : KeyContext P)
    (tweaks : List Tweak) (adaptorPoint : Option (PublicKey P)) :
    session.Follows
      { session with context := context, tweaks := tweaks, adaptorPoint := adaptorPoint } :=
  ⟨rfl, rfl, rfl, rfl, Phase.le_refl _, fun h => absurd hcreated h, fun _ => ⟨rfl, rfl⟩,
    fun _ h => h⟩

theorem follows_with {phase : Phase} (hphase : session.phase <= phase) {signed : List Bool}
    (hsigned : forall place : Nat,
      session.signed[place]? = some true -> signed[place]? = some true) :
    session.Follows { session with signed := signed, phase := phase } :=
  ⟨rfl, rfl, rfl, rfl, hphase, fun _ => ⟨rfl, rfl, rfl⟩, fun _ => ⟨rfl, rfl⟩, hsigned⟩

theorem Step.follows (h : session.Step next) : session.Follows next := by
  cases h with
  | sign pair nonce response _ hsign =>
      rcases sign_eq_ok_iff.mp hsign with ⟨hphase, _, share, _, _, _, _, _, _, _, _, rfl⟩
      apply follows_with (Phase.le_of_mem_signing hphase).2
      intro place hplace
      rw [List.getElem?_set]
      split
      · rename_i hsame
        rw [hsame, if_pos (List.getElem?_eq_some_iff.mp hplace).1]
      · exact hplace
  | advances _ h =>
      cases h with
      | applyTweak tweak _ h =>
          rcases applyTweak_eq_ok_iff.mp h with ⟨hphase, context, _, rfl⟩
          exact follows_of_created hphase context _ _
      | useAdaptor point _ h =>
          rcases useAdaptor_eq_ok_iff.mp h with ⟨hphase, _, rfl⟩
          exact follows_of_created hphase _ _ _
      | generateNonce pair seed nonce _ h =>
          rcases generateNonce_eq_ok_iff.mp h with ⟨hphase, _, _, _, rfl⟩
          refine follows_with ?_ (fun _ h => h)
          revert hphase
          cases session.phase <;> decide
      | processNonces nonces _ h =>
          rcases processNonces_eq_ok_iff.mp h with ⟨hphase, _, rfl⟩
          have hbefore := Phase.not_le_of_mem_nonceRound hphase
          exact ⟨rfl, rfl, rfl, rfl, Nat.le_of_not_le hbefore, fun _ => ⟨rfl, rfl, rfl⟩,
            fun h => absurd h hbefore, fun _ h => h⟩
      | aggregate partials signature _ h =>
          rcases aggregate_eq_ok_iff.mp h with ⟨hphase, _, _, _, _, _, _, _, rfl⟩
          exact follows_with (Phase.le_trans (Phase.le_of_mem_signing hphase).2 (by decide))
            (fun _ h => h)
      | aggregateAdaptor partials incomplete _ h =>
          rcases aggregateAdaptor_eq_ok_iff.mp h with ⟨hphase, _, _, _, rfl⟩
          exact follows_with (Phase.le_trans (Phase.le_of_mem_signing hphase).2 (by decide))
            (fun _ h => h)
      | adapt incomplete pair signature _ h =>
          rcases adapt_eq_ok_iff.mp h with ⟨hphase, _, _, _, rfl⟩
          exact follows_with (by rw [hphase]; decide) (fun _ h => h)

/-!
## What holds in every state
-/

/-- What every state of a session has that is reached from its creation. -/
structure WellFormed (session : Session P) : Prop extends session.Sound where
  inhabited : session.participants ≠ []
  distinct : (session.participants.map PublicKey.xOnly).Nodup
  untweaked : exists original, KeyContext.ofKeys session.participants = .ok original ∧
    session.untweakedKey = original.aggregate.xOnly
  processed : Phase.noncesProcessed <= session.phase <-> session.aggregateNonce.isSome = true
  complete : session.aggregateNonce.isSome = true <->
    session.publicNonces.length = session.participants.length
  unsigned : true ∈ session.signed -> Phase.partiallySigned <= session.phase
  begun : session.phase = .partiallySigned -> true ∈ session.signed

theorem wellFormed_of_start {roster : Roster P} {id : SessionId} {message : Bytes32}
    (h : roster.start id message = .ok session) : session.WellFormed := by
  have hsound := sound_of_start h
  rw [Roster.start_eq_ofKeys] at h
  rcases ofKeys_eq_ok_iff.mp h with ⟨context, hcontext, rfl⟩
  rcases KeyContext.ofKeys_eq_ok hcontext with ⟨hinhabited, hdistinct, _⟩
  constructor
  case toSound => exact hsound
  case inhabited => exact hinhabited
  case distinct => exact hdistinct
  case untweaked => exact ⟨context, hcontext, rfl⟩
  case processed =>
    exact iff_of_false (Phase.not_le_of_mem_nonceRound (a := .created) (by decide))
      Bool.false_ne_true
  case complete =>
    refine iff_of_false Bool.false_ne_true ?_
    intro h
    exact hinhabited (List.length_eq_zero_iff.mp h.symm)
  case unsigned => simp
  case begun => simp

theorem Step.nonces (h : session.Step next) :
    (next.publicNonces.length = next.participants.length ∧
        next.aggregateNonce.isSome = true ∧ Phase.noncesProcessed <= next.phase) ∨
      (next.publicNonces = session.publicNonces ∧
        next.aggregateNonce = session.aggregateNonce ∧
        (Phase.noncesProcessed <= next.phase <-> Phase.noncesProcessed <= session.phase)) := by
  cases h with
  | sign pair nonce response _ hsign =>
      rcases sign_eq_ok_iff.mp hsign with ⟨hphase, _, _, _, _, _, _, _, _, _, _, rfl⟩
      have hsigning : Phase.partiallySigned ∈ Gate.signing.phases := by decide
      exact Or.inr ⟨rfl, rfl, iff_of_true (Phase.le_of_mem_signing hsigning).1
        (Phase.le_of_mem_signing hphase).1⟩
  | advances _ h =>
      cases h with
      | applyTweak tweak _ h =>
          rcases applyTweak_eq_ok_iff.mp h with ⟨_, _, _, rfl⟩
          exact Or.inr ⟨rfl, rfl, Iff.rfl⟩
      | useAdaptor point _ h =>
          rcases useAdaptor_eq_ok_iff.mp h with ⟨_, _, rfl⟩
          exact Or.inr ⟨rfl, rfl, Iff.rfl⟩
      | generateNonce pair seed nonce _ h =>
          rcases generateNonce_eq_ok_iff.mp h with ⟨hphase, _, _, _, rfl⟩
          have hround : Phase.noncesGenerated ∈ Gate.nonceRound.phases := by decide
          exact Or.inr ⟨rfl, rfl, iff_of_false (Phase.not_le_of_mem_nonceRound hround)
            (Phase.not_le_of_mem_nonceRound hphase)⟩
      | processNonces nonces _ h =>
          rcases processNonces_eq_ok_iff.mp h with ⟨_, hcount, rfl⟩
          exact Or.inl ⟨hcount, rfl, Phase.le_refl _⟩
      | aggregate partials signature _ h =>
          rcases aggregate_eq_ok_iff.mp h with ⟨hphase, _, _, _, _, _, _, _, rfl⟩
          have hfixed : Phase.aggregated ∈ Gate.fixedNonces.phases := by decide
          exact Or.inr ⟨rfl, rfl, iff_of_true (Phase.mem_fixedNonces_iff.mp hfixed)
            (Phase.le_of_mem_signing hphase).1⟩
      | aggregateAdaptor partials incomplete _ h =>
          rcases aggregateAdaptor_eq_ok_iff.mp h with ⟨hphase, _, _, _, rfl⟩
          have hfixed : Phase.aggregated ∈ Gate.fixedNonces.phases := by decide
          exact Or.inr ⟨rfl, rfl, iff_of_true (Phase.mem_fixedNonces_iff.mp hfixed)
            (Phase.le_of_mem_signing hphase).1⟩
      | adapt incomplete pair signature _ h =>
          rcases adapt_eq_ok_iff.mp h with ⟨hphase, _, _, _, rfl⟩
          refine Or.inr ⟨rfl, rfl, ?_⟩
          change Phase.noncesProcessed <= Phase.adapted <-> _
          rw [hphase]
          decide

theorem Advances.phase_ne (h : session.Advances next) : next.phase ≠ .partiallySigned := by
  cases h with
  | applyTweak tweak _ h =>
      rcases applyTweak_eq_ok_iff.mp h with ⟨hphase, _, _, rfl⟩
      simp [hphase]
  | useAdaptor point _ h =>
      rcases useAdaptor_eq_ok_iff.mp h with ⟨hphase, _, rfl⟩
      simp [hphase]
  | generateNonce pair seed nonce _ h =>
      rcases generateNonce_eq_ok_iff.mp h with ⟨_, _, _, _, rfl⟩
      simp
  | processNonces nonces _ h =>
      rcases processNonces_eq_ok_iff.mp h with ⟨_, _, rfl⟩
      simp
  | aggregate partials signature _ h =>
      rcases aggregate_eq_ok_iff.mp h with ⟨_, _, _, _, _, _, _, _, rfl⟩
      simp
  | aggregateAdaptor partials incomplete _ h =>
      rcases aggregateAdaptor_eq_ok_iff.mp h with ⟨_, _, _, _, rfl⟩
      simp
  | adapt incomplete pair signature _ h =>
      rcases adapt_eq_ok_iff.mp h with ⟨_, _, _, _, rfl⟩
      simp

theorem Sound.mem_signed_sign (h : session.Sound) {pair : KeyPair P} {nonce : SigningNonce P}
    {response : Scalar} (hsign : session.sign pair nonce = .ok (response, next)) :
    true ∈ next.signed := by
  rcases sign_eq_ok_iff.mp hsign with ⟨_, _, share, hshare, _, _, _, _, _, _, _, rfl⟩
  have hlt : share.index < session.participants.length :=
    participantIndex?_lt (participantIndex?_of_resolveSigner hshare)
  exact List.mem_set (h.flags.symm ▸ hlt) true

theorem WellFormed.step (h : session.WellFormed) (step : session.Step next) :
    next.WellFormed := by
  have hfollows := step.follows
  constructor
  case toSound => exact h.toSound.step step
  case inhabited =>
    rw [hfollows.participants]
    exact h.inhabited
  case distinct =>
    rw [hfollows.participants]
    exact h.distinct
  case untweaked =>
    rw [hfollows.participants, hfollows.untweakedKey]
    exact h.untweaked
  case processed =>
    rcases step.nonces with ⟨_, haggregate, hphase⟩ | ⟨_, haggregate, hphase⟩
    · exact iff_of_true hphase haggregate
    · rw [haggregate, hphase]
      exact h.processed
  case complete =>
    rcases step.nonces with ⟨hpublic, haggregate, _⟩ | ⟨hpublic, haggregate, _⟩
    · exact iff_of_true haggregate hpublic
    · rw [haggregate, hpublic, hfollows.participants]
      exact h.complete
  case unsigned =>
    -- Only signing sets a flag; elsewhere the flag was set and the phase does not go back.
    intro hsigned
    cases step with
    | sign pair nonce response _ hsign =>
        rcases sign_eq_ok_iff.mp hsign with ⟨_, _, _, _, _, _, _, _, _, _, _, rfl⟩
        exact Phase.le_refl _
    | advances _ hadvances =>
        rw [hadvances.signed] at hsigned
        exact Phase.le_trans (h.unsigned hsigned) hfollows.phase
  case begun =>
    intro hphase
    cases step with
    | sign pair nonce response _ hsign => exact h.toSound.mem_signed_sign hsign
    | advances _ hadvances => exact absurd hphase hadvances.phase_ne

end Session

end Musig
end Cosigning
