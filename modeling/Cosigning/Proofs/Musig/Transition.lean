import Cosigning.Proofs.Musig.Ensemble
import Cosigning.Proofs.Musig.Progress

/-!
# What a call can do

Whatever is called, at most one session changes, by one successful operation, and
what the operation makes is put on record.  What holds of every session when it is
created, and is kept by every operation, therefore holds of all sessions in all runs.
-/

namespace Cosigning
namespace Musig

variable {P : Type} [Ciphersuite P]

namespace Ensemble

variable {ensemble : Ensemble P}

/-!
## One call
-/

def update (ensemble : Ensemble P) (place : Nat) (next : Session P) : Ensemble P :=
  { ensemble with sessions := ensemble.sessions.set place next }

/-- What a call can do to an ensemble. -/
inductive Transition (before : Ensemble P) : Ensemble P -> Prop where
  | stay : Transition before before
  | create (roster : Roster P) (id : SessionId) (message : Bytes32) (session : Session P)
      (starts : roster.start id message = .ok session) :
      Transition before { before with sessions := before.sessions ++ [session] }
  | advance (place : Nat) (session next : Session P)
      (found : before.sessions[place]? = some session) (advances : session.Advances next) :
      Transition before (before.update place next)
  | mint (place : Nat) (session next : Session P) (pair : KeyPair P) (seed : Bytes32)
      (nonce : SigningNonce P) (found : before.sessions[place]? = some session)
      (makes : session.generateNonce pair seed = .ok (nonce, next)) :
      Transition before
        { before.update place next with
          nonces := before.nonces ++ [{ maker := place, pair := pair, nonce := nonce }] }
  | combine (place : Nat) (session next : Session P) (partials : List Scalar)
      (incomplete : AdaptorSignature P) (found : before.sessions[place]? = some session)
      (combines : session.aggregateAdaptor partials = .ok (incomplete, next)) :
      Transition before
        { before.update place next with
          incompletes := before.incompletes ++ [{ maker := place, incomplete := incomplete }] }
  | sign (place : Nat) (session next : Session P) (pair : KeyPair P) (number : Nat)
      (minting : Minting P) (response : Scalar)
      (found : before.sessions[place]? = some session)
      (minted : before.nonces[number]? = some minting)
      (signs : session.sign pair minting.nonce = .ok (response, next)) :
      Transition before
        { before.update place next with
          signings := before.signings ++
            [{ place := place
               session := session
               pair := pair
               number := number
               nonce := minting.nonce
               response := response }] }

theorem act_cases {α : Type} (ensemble : Ensemble P) (place : Nat)
    (operation : Session P -> Except Error (α × Session P))
    (record : Session P -> α -> Ensemble P -> Ensemble P) :
    ensemble.act place operation record = ensemble ∨
      exists session result next, ensemble.sessions[place]? = some session ∧
        operation session = .ok (result, next) ∧
        ensemble.act place operation record =
          record session result (ensemble.update place next) := by
  unfold act
  cases hfound : ensemble.sessions[place]? with
  | none => exact Or.inl rfl
  | some session =>
      cases hresult : operation session with
      | error cause => exact Or.inl (by simp only [hresult])
      | ok outcome =>
          rcases outcome with ⟨result, next⟩
          exact Or.inr ⟨session, result, next, rfl, hresult, by simp only [hresult]; rfl⟩

theorem act_of_eq_error {α : Type} {place : Nat} {session : Session P}
    {operation : Session P -> Except Error (α × Session P)} {cause : Error}
    (found : ensemble.sessions[place]? = some session) (h : operation session = .error cause)
    (record : Session P -> α -> Ensemble P -> Ensemble P) :
    ensemble.act place operation record = ensemble := by
  simp only [act, found, h]

theorem transition_act {α : Type} {place : Nat}
    {operation : Session P -> Except Error (α × Session P)}
    {record : Session P -> α -> Ensemble P -> Ensemble P}
    (h : forall session result next, ensemble.sessions[place]? = some session ->
      operation session = .ok (result, next) ->
        Transition ensemble (record session result (ensemble.update place next))) :
    Transition ensemble (ensemble.act place operation record) := by
  rcases act_cases ensemble place operation record with
    hstay | ⟨session, result, next, hfound, hresult, hact⟩
  · rw [hstay]
    exact Transition.stay
  · rw [hact]
    exact h session result next hfound hresult

theorem transition_change {place : Nat} {operation : Session P -> Except Error (Session P)}
    (h : forall session next, operation session = .ok next -> session.Advances next) :
    Transition ensemble (ensemble.change place operation) := by
  apply transition_act
  intro session result next hfound hresult
  rcases map_eq_ok_iff.mp hresult with ⟨after, hnext, hpair⟩
  cases hpair
  exact Transition.advance place session next hfound (h session next hnext)

theorem update_self {place : Nat} {session : Session P}
    (found : ensemble.sessions[place]? = some session) :
    ensemble.update place session = ensemble := by
  rcases List.getElem?_eq_some_iff.mp found with ⟨hlt, hsession⟩
  unfold update
  rw [← hsession, List.set_getElem_self]

theorem transition_step (ensemble : Ensemble P) (call : Call P) :
    Transition ensemble (ensemble.step call) := by
  cases call with
  | create id roster message =>
      simp only [step]
      split
      · exact Transition.stay
      · rename_i session hstart
        exact Transition.create roster id message session hstart
  | applyTweak place tweak =>
      exact transition_change (fun _ _ => Session.Advances.applyTweak tweak _)
  | useAdaptor place point =>
      exact transition_change (fun _ _ => Session.Advances.useAdaptor point _)
  | generateNonce place pair seed =>
      simp only [step]
      apply transition_act
      intro session nonce next hfound hmakes
      exact Transition.mint place session next pair seed nonce hfound hmakes
  | processNonces place nonces =>
      exact transition_change (fun _ _ => Session.Advances.processNonces nonces _)
  | sign place pair number =>
      simp only [step]
      split
      · exact Transition.stay
      · rename_i minting hminted
        apply transition_act
        intro session response next hfound hsigns
        exact Transition.sign place session next pair number minting response hfound hminted
          hsigns
  | verifyPartial place signer nonce response =>
      simp only [step, change]
      apply transition_act
      intro session _ next hfound hchecked
      rcases map_eq_ok_iff.mp hchecked with ⟨after, hafter, hpair⟩
      rcases map_eq_ok_iff.mp hafter with ⟨_, _, rfl⟩
      cases hpair
      rw [update_self hfound]
      exact Transition.stay
  | aggregate place partials =>
      simp only [step]
      apply transition_act
      intro session signature next hfound haggregates
      exact Transition.advance place session next hfound
        (Session.Advances.aggregate partials signature next haggregates)
  | aggregateAdaptor place partials =>
      simp only [step]
      apply transition_act
      intro session incomplete next hfound hcombines
      exact Transition.combine place session next partials incomplete hfound hcombines
  | adapt place number pair =>
      simp only [step]
      split
      · exact Transition.stay
      · rename_i combining hcombining
        apply transition_act
        intro session signature next hfound hadapts
        exact Transition.advance place session next hfound
          (Session.Advances.adapt combining.incomplete pair signature next hadapts)

theorem run_induction {motive : Ensemble P -> Prop} (start : motive empty)
    (kept : forall before after : Ensemble P, motive before -> before.Transition after ->
      motive after) (calls : List (Call P)) : motive (run calls) :=
  List.foldlRecOn calls step start
    (fun before h call _ => kept before _ h (transition_step before call))

/-!
## What a call keeps
-/

/-- Every session goes on, and no nonce is forgotten. -/
structure Extends (before after : Ensemble P) : Prop where
  sessions : forall (place : Nat) (session : Session P), before.sessions[place]? = some session ->
    exists next, after.sessions[place]? = some next ∧ session.Continues next
  nonces : forall (number : Nat) (minting : Minting P), before.nonces[number]? = some minting ->
    after.nonces[number]? = some minting

theorem getElem?_append_of_eq_some {α : Type} {entries added : List α} {place : Nat} {entry : α}
    (h : entries[place]? = some entry) : (entries ++ added)[place]? = some entry := by
  rw [List.getElem?_append_left (List.getElem?_eq_some_iff.mp h).1]
  exact h

theorem sessions_update {place : Nat} {session next : Session P}
    (found : ensemble.sessions[place]? = some session) (other : Nat) :
    (ensemble.update place next).sessions[other]? =
      if other = place then some next else ensemble.sessions[other]? := by
  have hlt : place < ensemble.sessions.length := (List.getElem?_eq_some_iff.mp found).1
  by_cases hother : other = place
  · simp [update, hother, hlt]
  · simp [update, hother, Ne.symm hother]

theorem continues_update {place : Nat} {session next : Session P}
    (found : ensemble.sessions[place]? = some session) (continues : session.Continues next)
    (other : Nat) (prior : Session P) (hprior : ensemble.sessions[other]? = some prior) :
    exists later, (ensemble.update place next).sessions[other]? = some later ∧
      prior.Continues later := by
  rw [sessions_update found]
  by_cases hother : other = place
  · rw [hother, found] at hprior
    cases hprior
    exact ⟨next, if_pos hother, continues⟩
  · exact ⟨prior, by rw [if_neg hother, hprior], Session.Continues.refl prior⟩

theorem extends_of_transition {after : Ensemble P} (h : ensemble.Transition after) :
    ensemble.Extends after := by
  cases h with
  | stay => exact ⟨fun _ session found => ⟨session, found, Session.Continues.refl session⟩,
      fun _ _ minted => minted⟩
  | create roster id message session starts =>
      exact ⟨fun _ prior found =>
        ⟨prior, getElem?_append_of_eq_some found, Session.Continues.refl prior⟩,
        fun _ _ minted => minted⟩
  | advance place session next found advances =>
      exact ⟨continues_update found advances.continues, fun _ _ minted => minted⟩
  | mint place session next pair seed nonce found makes =>
      exact ⟨continues_update found
        (Session.Advances.generateNonce pair seed nonce next makes).continues,
        fun _ _ minted => getElem?_append_of_eq_some minted⟩
  | combine place session next partials incomplete found combines =>
      exact ⟨continues_update found
        (Session.Advances.aggregateAdaptor partials incomplete next combines).continues,
        fun _ _ minted => minted⟩
  | sign place session next pair number minting response found minted signs =>
      exact ⟨continues_update found
        (Session.Step.sign pair minting.nonce response next signs).continues,
        fun _ _ minted => minted⟩

/-!
## What holds of every session
-/

theorem getElem?_concat_eq_some {α : Type} {entries : List α} {last entry : α} {place : Nat}
    (h : (entries ++ [last])[place]? = some entry) :
    entries[place]? = some entry ∨ place = entries.length ∧ entry = last := by
  rcases Nat.lt_trichotomy place entries.length with hlt | heq | hgt
  · rw [List.getElem?_append_left hlt] at h
    exact Or.inl h
  · rw [heq, List.getElem?_concat_length] at h
    exact Or.inr ⟨heq, (Option.some.inj h).symm⟩
  · rw [List.getElem?_eq_none (by simp only [List.length_append, List.length_singleton]; omega)] at h
    cases h

theorem cases_update {place other : Nat} {session next found : Session P}
    (hsession : ensemble.sessions[place]? = some session) (step : session.Step next)
    (h : (ensemble.update place next).sessions[other]? = some found) :
    ensemble.sessions[other]? = some found ∨
      exists prior, ensemble.sessions[other]? = some prior ∧ prior.Step found := by
  rw [sessions_update hsession] at h
  split at h
  · rename_i hplace
    cases h
    exact Or.inr ⟨session, by rw [hplace, hsession], step⟩
  · exact Or.inl h

theorem Transition.cases_session {after : Ensemble P} (h : ensemble.Transition after)
    {place : Nat} {session : Session P} (found : after.sessions[place]? = some session) :
    (ensemble.sessions[place]? = some session ∨
      exists prior, ensemble.sessions[place]? = some prior ∧ prior.Step session) ∨
    exists (roster : Roster P) (id : SessionId) (message : Bytes32),
      roster.start id message = .ok session := by
  cases h with
  | stay => exact Or.inl (Or.inl found)
  | create roster id message created starts =>
      rcases getElem?_concat_eq_some found with hold | ⟨_, rfl⟩
      · exact Or.inl (Or.inl hold)
      · exact Or.inr ⟨roster, id, message, starts⟩
  | advance _ prior next hprior advances =>
      exact Or.inl (cases_update hprior (Session.Step.advances next advances) found)
  | mint _ prior next pair seed nonce hprior makes =>
      exact Or.inl (cases_update hprior (Session.Step.advances next
        (Session.Advances.generateNonce pair seed nonce next makes)) found)
  | combine _ prior next partials incomplete hprior combines =>
      exact Or.inl (cases_update hprior (Session.Step.advances next
        (Session.Advances.aggregateAdaptor partials incomplete next combines)) found)
  | sign _ prior next pair _ minting response hprior _ signs =>
      exact Or.inl (cases_update hprior
        (Session.Step.sign pair minting.nonce response next signs) found)

section

variable {motive : Session P -> Prop}
  (start : forall (roster : Roster P) (id : SessionId) (message : Bytes32) (session : Session P),
    roster.start id message = .ok session -> motive session)
  (kept : forall session next : Session P, motive session -> session.Step next -> motive next)

include start kept

theorem Transition.forall_session {after : Ensemble P} (h : ensemble.Transition after)
    (before : forall (place : Nat) (session : Session P),
      ensemble.sessions[place]? = some session -> motive session)
    (place : Nat) (session : Session P) (found : after.sessions[place]? = some session) :
    motive session := by
  rcases h.cases_session found with
    (hsame | ⟨prior, hprior, hstep⟩) | ⟨roster, id, message, hstart⟩
  · exact before place session hsame
  · exact kept prior session (before place prior hprior) hstep
  · exact start roster id message session hstart

theorem session_run (calls : List (Call P)) {place : Nat} {session : Session P}
    (found : (run calls).sessions[place]? = some session) : motive session := by
  refine run_induction (motive := fun ensemble => forall (place : Nat) (session : Session P),
    ensemble.sessions[place]? = some session -> motive session) ?_ ?_ calls place session found
  · intro place session hnone
    cases hnone
  · intro before after hbefore htransition
    exact htransition.forall_session start kept hbefore

end

end Ensemble

end Musig
end Cosigning
