import Cosigning.Proofs.Musig.Operations

/-!
# Sessions side by side

An ensemble is any number of sessions that are operated in any order.  It keeps
every secret nonce and every adaptor signature that was made, so that they can be
offered again and again and to any session, and a record of every partial
signature.  Calls that fail, or that name what does not exist, change nothing.
-/

namespace Cosigning
namespace Musig

variable {P : Type} [Ciphersuite P]

inductive Roster (P : Type) [Ciphersuite P] where
  | full (keys : List (PublicKey P))
  | xOnly (keys : List (XOnlyKey P))

namespace Roster

def keys : Roster P -> List (PublicKey P)
  | full keys => keys
  | xOnly keys => keys.map XOnlyKey.lift

def start (roster : Roster P) (id : SessionId) (message : Bytes32) : Except Error (Session P) :=
  match roster with
  | full keys => Session.ofKeys id keys message
  | xOnly keys => Session.ofXOnly id keys message

theorem start_eq_ofKeys (roster : Roster P) (id : SessionId) (message : Bytes32) :
    roster.start id message = Session.ofKeys id roster.keys message := by
  cases roster <;> rfl

end Roster

structure Minting (P : Type) [Ciphersuite P] where
  maker : Nat
  pair : KeyPair P
  nonce : SigningNonce P

structure Combining (P : Type) [Ciphersuite P] where
  maker : Nat
  incomplete : AdaptorSignature P

/-- A partial signature that was made: where, by the session in which state, with which key pair and
which nonce, the nonce named by its number in the order of making. -/
structure Signing (P : Type) [Ciphersuite P] where
  place : Nat
  session : Session P
  pair : KeyPair P
  number : Nat
  nonce : SigningNonce P
  response : Scalar

def Signing.signer (signing : Signing P) : Nat :=
  signing.nonce.signer

def Signing.slot (signing : Signing P) : Nat × Nat :=
  (signing.place, signing.signer)

structure Ensemble (P : Type) [Ciphersuite P] where
  sessions : List (Session P)
  nonces : List (Minting P)
  incompletes : List (Combining P)
  signings : List (Signing P)

/-- A call of one of the operations; sessions are named by their place, secret nonces and adaptor
signatures by their number in the order of making. -/
inductive Call (P : Type) [Ciphersuite P] where
  | create (id : SessionId) (roster : Roster P) (message : Bytes32)
  | applyTweak (place : Nat) (tweak : Tweak)
  | useAdaptor (place : Nat) (point : PublicKey P)
  | generateNonce (place : Nat) (pair : KeyPair P) (seed : Bytes32)
  | processNonces (place : Nat) (nonces : List (PublicNonce P))
  | sign (place : Nat) (pair : KeyPair P) (number : Nat)
  | verifyPartial (place : Nat) (signer : PublicKey P) (nonce : PublicNonce P)
      (response : Scalar)
  | aggregate (place : Nat) (partials : List Scalar)
  | aggregateAdaptor (place : Nat) (partials : List Scalar)
  | adapt (place : Nat) (number : Nat) (pair : KeyPair P)

namespace Ensemble

def empty : Ensemble P :=
  { sessions := [], nonces := [], incompletes := [], signings := [] }

def act {α : Type} (ensemble : Ensemble P) (place : Nat)
    (operation : Session P -> Except Error (α × Session P))
    (record : Session P -> α -> Ensemble P -> Ensemble P) : Ensemble P :=
  match ensemble.sessions[place]? with
  | none => ensemble
  | some session =>
      match operation session with
      | .error _ => ensemble
      | .ok (result, next) =>
          record session result { ensemble with sessions := ensemble.sessions.set place next }

def change (ensemble : Ensemble P) (place : Nat)
    (operation : Session P -> Except Error (Session P)) : Ensemble P :=
  ensemble.act place (fun session => (operation session).map (fun next => ((), next)))
    (fun _ _ changed => changed)

def step (ensemble : Ensemble P) : Call P -> Ensemble P
  | .create id roster message =>
      match roster.start id message with
      | .error _ => ensemble
      | .ok session => { ensemble with sessions := ensemble.sessions ++ [session] }
  | .applyTweak place tweak => ensemble.change place (fun session => session.applyTweak tweak)
  | .useAdaptor place point => ensemble.change place (fun session => session.useAdaptor point)
  | .generateNonce place pair seed =>
      ensemble.act place (fun session => session.generateNonce pair seed)
        (fun _ nonce changed =>
          { changed with
            nonces := changed.nonces ++ [{ maker := place, pair := pair, nonce := nonce }] })
  | .processNonces place nonces =>
      ensemble.change place (fun session => session.processNonces nonces)
  | .sign place pair number =>
      match ensemble.nonces[number]? with
      | none => ensemble
      | some minting =>
          ensemble.act place (fun session => session.sign pair minting.nonce)
            (fun session response changed =>
              { changed with
                signings := changed.signings ++
                  [{ place := place
                     session := session
                     pair := pair
                     number := number
                     nonce := minting.nonce
                     response := response }] })
  | .verifyPartial place signer nonce response =>
      ensemble.change place (fun session =>
        (session.verifyPartial signer nonce response).map (fun _ => session))
  | .aggregate place partials =>
      ensemble.act place (fun session => session.aggregate partials)
        (fun _ _ changed => changed)
  | .aggregateAdaptor place partials =>
      ensemble.act place (fun session => session.aggregateAdaptor partials)
        (fun _ incomplete changed =>
          { changed with
            incompletes := changed.incompletes ++
              [{ maker := place, incomplete := incomplete }] })
  | .adapt place number pair =>
      match ensemble.incompletes[number]? with
      | none => ensemble
      | some combining =>
          ensemble.act place (fun session => session.adapt combining.incomplete pair)
            (fun _ _ changed => changed)

def run (calls : List (Call P)) : Ensemble P :=
  calls.foldl step empty

end Ensemble

end Musig
end Cosigning
