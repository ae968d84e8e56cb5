import Cosigning.Proofs.Musig.InPlace
import Cosigning.Proofs.Musig.Interchange

/-!
# The identity of a session

A session's identity only tells its nonces from those of other sessions.  Under another
identity every operation does the same.
-/

namespace Cosigning
namespace Musig

variable {P : Type} [Ciphersuite P]

def Session.withId (id : SessionId) (session : Session P) : Session P :=
  { session with id := id }

def SigningNonce.withId (id : SessionId) (nonce : SigningNonce P) : SigningNonce P :=
  { nonce with session := id }

namespace Session

open InPlace (map_bind)

variable (id : SessionId) (session : Session P)

/-!
## Setup
-/

theorem ofKeys_withId (other : SessionId) (participants : List (PublicKey P))
    (message : Bytes32) :
    ofKeys other participants message = (ofKeys id participants message).map (withId other) := by
  unfold ofKeys
  cases KeyContext.ofKeys participants <;> rfl

theorem applyTweak_withId (tweak : Tweak) :
    (session.withId id).applyTweak tweak = (session.applyTweak tweak).map (withId id) := by
  unfold applyTweak
  simp only [map_bind]
  rfl

theorem foldlM_applyTweak_withId (tweaks : List Tweak) :
    tweaks.foldlM applyTweak (session.withId id) =
      (tweaks.foldlM applyTweak session).map (withId id) := by
  induction tweaks generalizing session with
  | nil => rfl
  | cons tweak rest ih =>
      rw [List.foldlM_cons, List.foldlM_cons, applyTweak_withId, map_bind]
      cases session.applyTweak tweak with
      | error cause => rfl
      | ok next => exact ih next

theorem useAdaptor_withId (point : PublicKey P) :
    (session.withId id).useAdaptor point = (session.useAdaptor point).map (withId id) := by
  unfold useAdaptor
  simp only [map_bind]
  rfl

/-!
## The two rounds
-/

theorem generateNonce_withId (pair : KeyPair P) (seed : Bytes32) :
    (session.withId id).generateNonce pair seed =
      (session.generateNonce pair seed).map
        (fun made => (made.1.withId id, made.2.withId id)) := by
  unfold generateNonce
  simp only [map_bind]
  rfl

theorem processNonces_withId (nonces : List (PublicNonce P)) :
    (session.withId id).processNonces nonces =
      (session.processNonces nonces).map (withId id) := by
  unfold processNonces
  simp only [map_bind]
  rfl

theorem sign_withId (pair : KeyPair P) {nonce : SigningNonce P}
    (h : nonce.session = session.id) :
    (session.withId id).sign pair (nonce.withId id) =
      (session.sign pair nonce).map (fun made => (made.1, made.2.withId id)) := by
  have hown : (nonce.withId id).session = (session.withId id).id := rfl
  unfold sign
  rw [ensure_of h, ensure_of hown]
  simp only [map_bind]
  rfl

/-!
## Combining
-/

theorem aggregate_withId (partials : List Scalar) :
    (session.withId id).aggregate partials =
      (session.aggregate partials).map (fun made => (made.1, made.2.withId id)) := by
  unfold aggregate
  simp only [map_bind]
  rfl

theorem aggregateAdaptor_withId (partials : List Scalar) :
    (session.withId id).aggregateAdaptor partials =
      (session.aggregateAdaptor partials).map (fun made => (made.1, made.2.withId id)) := by
  unfold aggregateAdaptor
  simp only [map_bind]
  rfl

end Session

/-!
## Ledgers
-/

namespace Ledger

variable {ι α : Type} [DecidableEq ι]

def withId (id : SessionId) (rename : α -> α) (ledger : Ledger P ι α) : Ledger P ι α :=
  { session := ledger.session.withId id, given := fun i => (ledger.given i).map rename }

theorem give_withId (id : SessionId) (rename : α -> α) (ledger : Ledger P ι α) (receiver : ι)
    (result : α) (next : Session P) :
    (ledger.give receiver result next).withId id rename =
      (ledger.withId id rename).give receiver (rename result) (next.withId id) := by
  have hgiven : (fun i => ((ledger.give receiver result next).given i).map rename) =
      Function.update (fun i => (ledger.given i).map rename) receiver (some (rename result)) := by
    funext i
    by_cases hsame : i = receiver
    · rw [hsame, given_give_self, Function.update_self, Option.map_some]
    · rw [given_give_of_ne ledger hsame, Function.update_of_ne hsame]
  exact congrArg (Ledger.mk (next.withId id)) hgiven

theorem callAll_withId {operation renamed : ι -> Session P -> Option (α × Session P)}
    (own id : SessionId) (rename : α -> α)
    (hkeeps : forall i session result next,
      operation i session = some (result, next) -> next.id = session.id)
    (hrenamed : forall i session, session.id = own ->
      renamed i (session.withId id) =
        (operation i session).map (fun made => (rename made.1, made.2.withId id)))
    (ledger : Ledger P ι α) (hown : ledger.session.id = own) (callers : List ι) :
    (ledger.withId id rename).callAll renamed callers =
      (ledger.callAll operation callers).withId id rename := by
  induction callers generalizing ledger with
  | nil => rfl
  | cons caller rest ih =>
      have hcaller := hrenamed caller ledger.session hown
      rw [callAll_cons, callAll_cons]
      cases hcall : operation caller ledger.session with
      | none =>
          rw [hcall] at hcaller
          rw [call_of_eq_none hcall, call_of_eq_none hcaller]
          exact ih ledger hown
      | some made =>
          rcases made with ⟨result, next⟩
          rw [hcall] at hcaller
          rw [call_of_eq_some hcall, call_of_eq_some hcaller, ← give_withId]
          exact ih _ ((hkeeps _ _ _ _ hcall).trans hown)

end Ledger

end Musig
end Cosigning
