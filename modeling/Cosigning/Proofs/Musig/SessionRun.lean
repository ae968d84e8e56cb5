import Cosigning.Proofs.Exponent
import Cosigning.Proofs.Musig.WellFormed

/-!
# Runs of a session

The owner of a session may try any operation at any time and with any arguments.
Whatever is tried, the session stays well formed and moves forward only.  An operation that
is refused leaves the session as it was, and it is refused for its phase exactly in the
phases that its gate does not admit.
-/

namespace Cosigning
namespace Musig

open Ciphersuite

variable {P : Type} [Ciphersuite P]

/-!
## Refusals by the phase
-/

def Admitted {α : Type} (outcome : Except Error α) : Prop :=
  forall cause, outcome = .error cause -> cause.kind ≠ .invalidState

namespace Admitted

variable {α β : Type}

theorem ok (answer : α) : Admitted (.ok answer) := by
  intro cause h
  cases h

theorem error {cause : Error} (h : cause.kind ≠ .invalidState) :
    Admitted (.error cause : Except Error α) := by
  intro _ heq
  cases heq
  exact h

theorem ensure {condition : Prop} [Decidable condition] {cause : Error}
    (h : cause.kind ≠ .invalidState) : Admitted (ensure condition cause) := by
  intro failure hfailure
  rw [← (ensure_eq_error_iff.mp hfailure).2]
  exact h

theorem bind {first : Except Error α} {next : α -> Except Error β} (hfirst : Admitted first)
    (hnext : forall middle, first = .ok middle -> Admitted (next middle)) :
    Admitted (first >>= next) := by
  intro cause h
  rcases bind_eq_error_iff.mp h with h | ⟨middle, hmiddle, h⟩
  · exact hfirst cause h
  · exact hnext middle hmiddle cause h

theorem map {first : Except Error α} {change : α -> β} (h : Admitted first) :
    Admitted (first.map change) := by
  cases first with
  | error cause => exact error (h cause rfl)
  | ok answer => exact ok _

theorem addXOnly {context : KeyContext P} {amount : Scalar} :
    Admitted (context.addXOnly amount) := by
  unfold KeyContext.addXOnly
  dsimp only
  split
  · exact error (by decide)
  · exact ok _

theorem apply {context : KeyContext P} {tweak : Tweak} : Admitted (context.apply tweak) := by
  cases tweak with
  | plain amount =>
      simp only [KeyContext.apply, KeyContext.addPlain]
      split
      · exact error (by decide)
      · split
        · exact error (by decide)
        · exact ok _
  | xOnly amount =>
      simp only [KeyContext.apply]
      split
      · exact error (by decide)
      · exact addXOnly
  | taproot root =>
      simp only [KeyContext.apply]
      split
      · exact error (by decide)
      · exact addXOnly

theorem reveal {incomplete : AdaptorSignature P} {completed : Schnorr.Signature} :
    Admitted (incomplete.reveal completed) := by
  unfold AdaptorSignature.reveal
  apply bind
  · unfold AdaptorSignature.openSignature
    split
    · exact error (by decide)
    · exact error (by decide)
    · exact ok _
  · intro opened _
    dsimp only
    split
    · exact error (by decide)
    · split
      · exact error (by decide)
      · apply bind
        · exact ensure (by decide)
        · intro _ _
          exact ok _

section

variable {session : Session P}

theorem require {gate : Gate} (h : session.phase ∈ gate.phases) :
    Admitted (session.require gate) := by
  unfold Session.require
  rw [ensure_of h]
  exact ok _

theorem resolveSigner {pair : KeyPair P} : Admitted (session.resolveSigner pair) := by
  intro cause h
  rw [Session.kind_of_resolveSigner_eq_error h]
  decide

theorem requireAdaptor : Admitted session.requireAdaptor := by
  unfold Session.requireAdaptor
  split
  · exact ok _
  · exact error (by decide)

theorem round (h : session.aggregateNonce.isSome = true) : Admitted session.round := by
  rcases Option.isSome_iff_exists.mp h with ⟨nonce, hnonce⟩
  unfold Session.round
  rw [hnonce]
  exact ok _

theorem combineAdaptor (h : session.aggregateNonce.isSome = true) {point : PublicKey P}
    {partials : List Scalar} : Admitted (session.combineAdaptor point partials) := by
  unfold Session.combineAdaptor
  refine (ensure (by simp [Error.kind])).bind ?_
  intro _ _
  refine (round h).bind ?_
  intro round _
  refine (ensure (by decide)).bind ?_
  intro _ _
  exact ok _

/-!
### Each operation in a phase of its gate

Where an operation works with the aggregate nonce, it is there.
-/

theorem applyTweak {tweak : Tweak} (h : session.phase ∈ Gate.setup.phases) :
    Admitted (session.applyTweak tweak) := by
  refine (require h).bind ?_
  intro _ _
  refine apply.bind ?_
  intro context _
  exact ok _

theorem useAdaptor {point : PublicKey P} (h : session.phase ∈ Gate.setup.phases) :
    Admitted (session.useAdaptor point) := by
  refine (require h).bind ?_
  intro _ _
  refine (ensure (by decide)).bind ?_
  intro _ _
  exact ok _

theorem generateNonce {pair : KeyPair P} {seed : Bytes32}
    (h : session.phase ∈ Gate.nonceRound.phases) :
    Admitted (session.generateNonce pair seed) := by
  refine (require h).bind ?_
  intro _ _
  refine resolveSigner.bind ?_
  intro signer _
  exact ok _

theorem processNonces {nonces : List (PublicNonce P)}
    (h : session.phase ∈ Gate.nonceRound.phases) :
    Admitted (session.processNonces nonces) := by
  refine (require h).bind ?_
  intro _ _
  refine (ensure (by simp [Error.kind])).bind ?_
  intro _ _
  exact ok _

theorem sign {pair : KeyPair P} {nonce : SigningNonce P}
    (h : session.phase ∈ Gate.signing.phases) (hnonce : session.aggregateNonce.isSome = true) :
    Admitted (session.sign pair nonce) := by
  refine (require h).bind ?_
  intro _ _
  refine (ensure (by decide)).bind ?_
  intro _ _
  refine resolveSigner.bind ?_
  intro signer _
  refine (ensure (by simp [Error.kind])).bind ?_
  intro _ _
  refine (ensure (by simp [Error.kind])).bind ?_
  intro _ _
  refine (ensure (by simp [Error.kind])).bind ?_
  intro _ _
  refine (round hnonce).bind ?_
  intro round _
  refine (ensure (by decide)).bind ?_
  intro _ _
  exact ok _

theorem verifyPartial {signer : PublicKey P} {nonce : PublicNonce P} {response : Scalar}
    (h : session.phase ∈ Gate.fixedNonces.phases)
    (hnonce : session.aggregateNonce.isSome = true) :
    Admitted (session.verifyPartial signer nonce response) := by
  refine (require h).bind ?_
  intro _ _
  cases session.participant? signer.xOnly with
  | none => exact error (by decide)
  | some found =>
      refine (round hnonce).bind ?_
      intro round _
      exact ensure (by simp [Error.kind])

theorem aggregate {partials : List Scalar} (h : session.phase ∈ Gate.combining.phases)
    (hnonce : session.aggregateNonce.isSome = true) : Admitted (session.aggregate partials) := by
  refine (require h).bind ?_
  intro _ _
  refine (ensure (by decide)).bind ?_
  intro _ _
  refine (ensure (by simp [Error.kind])).bind ?_
  intro _ _
  refine (round hnonce).bind ?_
  intro round _
  refine (ensure (by decide)).bind ?_
  intro _ _
  refine (ensure (by decide)).bind ?_
  intro _ _
  exact ok _

theorem aggregateAdaptor {partials : List Scalar} (h : session.phase ∈ Gate.combining.phases)
    (hnonce : session.aggregateNonce.isSome = true) :
    Admitted (session.aggregateAdaptor partials) := by
  refine (require h).bind ?_
  intro _ _
  refine requireAdaptor.bind ?_
  intro point _
  refine (combineAdaptor hnonce).bind ?_
  intro incomplete _
  exact ok _

theorem adapt {incomplete : AdaptorSignature P} {pair : KeyPair P}
    (h : session.phase ∈ Gate.completing.phases) :
    Admitted (session.adapt incomplete pair) := by
  refine (require h).bind ?_
  intro _ _
  refine (ensure (by decide)).bind ?_
  intro _ _
  cases incomplete.complete? pair.secret with
  | none => exact error (by decide)
  | some signature =>
      refine (ensure (by decide)).bind ?_
      intro _ _
      exact ok _

theorem extract {completed : Schnorr.Signature} {partials : List Scalar}
    (h : session.phase ∈ Gate.fixedNonces.phases)
    (hnonce : session.aggregateNonce.isSome = true) :
    Admitted (session.extract completed partials) := by
  refine (require h).bind ?_
  intro _ _
  refine requireAdaptor.bind ?_
  intro point _
  refine (ensure (by decide)).bind ?_
  intro _ _
  refine (combineAdaptor hnonce).bind ?_
  intro incomplete _
  exact reveal

end

end Admitted

namespace Operation

variable {α : Type} {session next : Session P}

theorem require_bind_of_not_mem {gate : Gate} (h : session.phase ∉ gate.phases)
    {program : Unit -> Except Error α} :
    (session.require gate >>= program) = .error (.outOfPhase gate session.phase) := by
  unfold Session.require
  rw [ensure_of_not h]
  rfl

theorem outcome_of_not_mem {operation : Operation P α}
    (h : session.phase ∉ operation.gate.phases) :
    operation.outcome session = .error (.outOfPhase operation.gate session.phase) := by
  cases operation with
  | applyTweak tweak => exact congrArg (Except.map _) (require_bind_of_not_mem h)
  | useAdaptor point => exact congrArg (Except.map _) (require_bind_of_not_mem h)
  | generateNonce pair seed => exact require_bind_of_not_mem h
  | processNonces nonces => exact congrArg (Except.map _) (require_bind_of_not_mem h)
  | sign pair nonce => exact require_bind_of_not_mem h
  | verifyPartial signer nonce response =>
      exact congrArg (Except.map _) (require_bind_of_not_mem h)
  | aggregate partials => exact require_bind_of_not_mem h
  | aggregateAdaptor partials => exact require_bind_of_not_mem h
  | adapt incomplete pair => exact require_bind_of_not_mem h
  | extract completed partials => exact congrArg (Except.map _) (require_bind_of_not_mem h)

theorem admitted_of_mem {operation : Operation P α} (h : session.phase ∈ operation.gate.phases)
    (processed : Phase.noncesProcessed <= session.phase ->
      session.aggregateNonce.isSome = true) : Admitted (operation.outcome session) := by
  cases operation with
  | applyTweak tweak => exact (Admitted.applyTweak h).map
  | useAdaptor point => exact (Admitted.useAdaptor h).map
  | generateNonce pair seed => exact Admitted.generateNonce h
  | processNonces nonces => exact (Admitted.processNonces h).map
  | sign pair nonce => exact Admitted.sign h (processed (Phase.le_of_mem_signing h).1)
  | verifyPartial signer nonce response =>
      exact (Admitted.verifyPartial h (processed (Phase.mem_fixedNonces_iff.mp h))).map
  | aggregate partials => exact Admitted.aggregate h (processed (Phase.le_of_mem_signing h).1)
  | aggregateAdaptor partials =>
      exact Admitted.aggregateAdaptor h (processed (Phase.le_of_mem_signing h).1)
  | adapt incomplete pair => exact Admitted.adapt h
  | extract completed partials =>
      exact (Admitted.extract h (processed (Phase.mem_fixedNonces_iff.mp h))).map

theorem step_of_outcome {operation : Operation P α} {answer : α}
    (h : operation.outcome session = .ok (answer, next)) :
    next = session ∨ session.Step next := by
  cases operation with
  | applyTweak tweak =>
      rcases map_eq_ok_iff.mp h with ⟨_, happly, hnext⟩
      cases hnext
      exact Or.inr (.advances _ (.applyTweak tweak _ happly))
  | useAdaptor point =>
      rcases map_eq_ok_iff.mp h with ⟨_, huse, hnext⟩
      cases hnext
      exact Or.inr (.advances _ (.useAdaptor point _ huse))
  | generateNonce pair seed => exact Or.inr (.advances _ (.generateNonce pair seed answer _ h))
  | processNonces nonces =>
      rcases map_eq_ok_iff.mp h with ⟨_, hprocess, hnext⟩
      cases hnext
      exact Or.inr (.advances _ (.processNonces nonces _ hprocess))
  | sign pair nonce => exact Or.inr (.sign pair nonce answer _ h)
  | verifyPartial signer nonce response =>
      rcases map_eq_ok_iff.mp h with ⟨_, _, hnext⟩
      cases hnext
      exact Or.inl rfl
  | aggregate partials => exact Or.inr (.advances _ (.aggregate partials answer _ h))
  | aggregateAdaptor partials =>
      exact Or.inr (.advances _ (.aggregateAdaptor partials answer _ h))
  | adapt incomplete pair => exact Or.inr (.advances _ (.adapt incomplete pair answer _ h))
  | extract completed partials =>
      rcases map_eq_ok_iff.mp h with ⟨_, _, hnext⟩
      cases hnext
      exact Or.inl rfl

def after (operation : Operation P α) (session : Session P) : Session P :=
  match operation.inPlace session with
  | .ok _ next => next
  | .error _ left => left

end Operation

namespace Session

variable {session : Session P}

def run (session : Session P) (operations : List ((α : Type) × Operation P α)) : Session P :=
  operations.foldl (fun current operation => operation.2.after current) session

/-- An operation on the session either succeeds as its function does or is refused and changes
nothing. -/
structure Obeys {α : Type} (session : Session P) (operation : Operation P α) : Prop where
  agrees : operation.inPlace session = settle session (operation.outcome session)
  inRange : forall left, operation.inPlace session ≠ .error .outOfRange left
  unchanged : forall stop left, operation.inPlace session = .error stop left -> left = session
  outOfPhase : (exists cause left, operation.inPlace session = .error (.refused cause) left ∧
      cause.kind = .invalidState) <-> session.phase ∉ operation.gate.phases

section

variable {α : Type}

theorem WellFormed.inPlace_eq_settle (h : session.WellFormed) (operation : Operation P α) :
    operation.inPlace session = settle session (operation.outcome session) := by
  apply Operation.inPlace_eq_settle h.flags
  intro hphase
  exact h.complete.mp (h.processed.mp (Phase.le_of_mem_signing hphase).1)

theorem WellFormed.obeys (h : session.WellFormed) (operation : Operation P α) :
    session.Obeys operation := by
  have hagrees := h.inPlace_eq_settle operation
  constructor
  case agrees => exact hagrees
  case inRange =>
    intro left
    rw [hagrees]
    cases operation.outcome session with
    | error cause => simp [settle]
    | ok result => simp [settle]
  case unchanged =>
    intro stop left
    rw [hagrees]
    cases operation.outcome session with
    | error cause =>
        intro hleft
        cases hleft
        rfl
    | ok result => simp [settle]
  case outOfPhase =>
    rw [hagrees]
    constructor
    · intro hrefused hphase
      rcases hrefused with ⟨cause, left, hrefused, hkind⟩
      have hadmitted := Operation.admitted_of_mem hphase h.processed.mp
      cases houtcome : operation.outcome session with
      | ok result =>
          rw [houtcome] at hrefused
          cases hrefused
      | error refusal =>
          rw [houtcome] at hrefused
          cases hrefused
          exact hadmitted cause houtcome hkind
    · intro hphase
      rw [Operation.outcome_of_not_mem hphase]
      exact ⟨_, _, rfl, rfl⟩

theorem WellFormed.after (h : session.WellFormed) (operation : Operation P α) :
    (operation.after session).WellFormed ∧ session.Follows (operation.after session) := by
  unfold Operation.after
  rw [h.inPlace_eq_settle operation]
  cases houtcome : operation.outcome session with
  | error cause => exact ⟨h, Follows.refl session⟩
  | ok result =>
      rcases result with ⟨answer, next⟩
      rcases Operation.step_of_outcome houtcome with hnext | hstep
      · rw [hnext]
        exact ⟨h, Follows.refl session⟩
      · exact ⟨h.step hstep, hstep.follows⟩

end

theorem WellFormed.run (h : session.WellFormed)
    (operations : List ((α : Type) × Operation P α)) :
    (session.run operations).WellFormed ∧ session.Follows (session.run operations) := by
  induction operations generalizing session with
  | nil => exact ⟨h, Follows.refl session⟩
  | cons operation rest ih =>
      have hafter := h.after operation.2
      have hrest := ih hafter.1
      exact ⟨hrest.1, hafter.2.trans hrest.2⟩

theorem run_append (session : Session P)
    (operations further : List ((α : Type) × Operation P α)) :
    session.run (operations ++ further) = (session.run operations).run further :=
  List.foldl_append

/-- Whatever is tried on a session from its creation on, it stays well formed and for its
participants and message, moves forward only, and every operation on it obeys. -/
theorem wellFormed_run {roster : Roster P} {id : SessionId} {message : Bytes32}
    {initial : Session P} (h : roster.start id message = .ok initial)
    (operations : List ((α : Type) × Operation P α)) :
    (initial.run operations).WellFormed ∧
      (initial.run operations).participants = roster.keys ∧
      (initial.run operations).message = message ∧
      (forall further, (initial.run operations).Follows (initial.run (operations ++ further))) ∧
      forall {α : Type} (operation : Operation P α),
        (initial.run operations).Obeys operation := by
  have hrun := (wellFormed_of_start h).run operations
  rw [Roster.start_eq_ofKeys] at h
  rcases ofKeys_eq_ok_iff.mp h with ⟨_, _, hinitial⟩
  refine ⟨hrun.1, ?_, ?_, ?_, hrun.1.obeys⟩
  · rw [hrun.2.participants, hinitial]
  · rw [hrun.2.message, hinitial]
  · intro further
    rw [run_append]
    exact (hrun.1.run further).2

def pairRoster : Roster Exponent :=
  .full [(Exponent.pair 2).publicKey, (Exponent.pair 5).publicKey]

def firstNonce : SigningNonce Exponent :=
  { session := FixedBytes.ofNat 32 1
    signer := 0
    secret := { first := Exponent.pair 3, second := Exponent.pair 4 } }

/-- Tries of which some come too early, have the wrong number of nonces or come a second time. -/
def pairTries : List ((α : Type) × Operation Exponent α) :=
  let second : PublicNonce Exponent :=
    { first := (Exponent.pair 6).publicKey, second := (Exponent.pair 7).publicKey }
  [⟨_, .sign (Exponent.pair 2) firstNonce⟩, ⟨_, .applyTweak (.plain 0)⟩,
    ⟨_, .applyTweak (.taproot none)⟩, ⟨_, .generateNonce (Exponent.pair 2) (FixedBytes.ofNat 32 8)⟩,
    ⟨_, .applyTweak (.plain 1)⟩, ⟨_, .processNonces [second]⟩,
    ⟨_, .processNonces [firstNonce.toPublic, second]⟩, ⟨_, .sign (Exponent.pair 2) firstNonce⟩,
    ⟨_, .sign (Exponent.pair 2) firstNonce⟩, ⟨_, .aggregate []⟩]

theorem isSome_start_pairRoster :
    (pairRoster.start (FixedBytes.ofNat 32 1) (FixedBytes.ofNat 32 9)).toOption.isSome = true := by
  decide +kernel

def pairSession : Session Exponent :=
  (pairRoster.start (FixedBytes.ofNat 32 1) (FixedBytes.ofNat 32 9)).toOption.get
    isSome_start_pairRoster

theorem wellFormed_run_pairTries :
    (pairSession.run pairTries).tweaks = [.taproot none] ∧
      (pairSession.run pairTries).signed = [true, false] ∧
      (pairSession.run pairTries).phase = .partiallySigned ∧
      (pairSession.run pairTries).WellFormed ∧
      (pairSession.run pairTries).Obeys (.sign (Exponent.pair 2) firstNonce) := by
  rcases wellFormed_run (eq_ok_get_toOption isSome_start_pairRoster) pairTries with
    ⟨hwellFormed, _, _, _, hobeys⟩
  exact ⟨by decide +kernel, by decide +kernel, by decide +kernel, hwellFormed, hobeys _⟩

end Session

end Musig
end Cosigning
