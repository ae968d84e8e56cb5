import Cosigning.Proofs.Musig.Signers
import Mathlib.Logic.Function.Basic

/-!
# Calls of different participants

A ledger is a session with what its participants were given by their calls.  When no
call reads what another one writes, the ledger does not depend on the order of the
calls.  Making nonces and signing are such calls.
-/

namespace Cosigning
namespace Musig

variable {P : Type} [Ciphersuite P]

/-- A session with what each participant was given so far. -/
structure Ledger (P : Type) [Ciphersuite P] (ι α : Type) where
  session : Session P
  given : ι -> Option α

namespace Ledger

variable {ι α : Type} [DecidableEq ι]

def give (ledger : Ledger P ι α) (receiver : ι) (result : α) (next : Session P) :
    Ledger P ι α :=
  { session := next, given := Function.update ledger.given receiver (some result) }

/-- The ledger after a participant's call.  A call without a result changes nothing. -/
def call (operation : ι -> Session P -> Option (α × Session P)) (ledger : Ledger P ι α)
    (caller : ι) : Ledger P ι α :=
  match operation caller ledger.session with
  | none => ledger
  | some (result, next) => ledger.give caller result next

def callAll (operation : ι -> Session P -> Option (α × Session P)) (ledger : Ledger P ι α)
    (callers : List ι) : Ledger P ι α :=
  callers.foldl (call operation) ledger

end Ledger

/-!
## Order of calls
-/

/-- The first operation does not change what the second one gives, and for the session it does not
matter in which order both are done. -/
structure Interchange {α : Type} (first second : Session P -> Option (α × Session P)) : Prop where
  reflects : forall session result next other last,
    first session = some (result, next) -> second next = some (other, last) ->
      exists after, second session = some (other, after)
  diamond : forall session result next other after,
    first session = some (result, next) -> second session = some (other, after) ->
      exists last, second next = some (other, last) ∧ first after = some (result, last)

namespace Interchange

variable {α : Type} (operation : Session P -> Option (α × Session P))

theorem none_left : Interchange (fun _ => none) operation := by
  constructor
  case reflects =>
    intro _ _ _ _ _ hfirst
    cases hfirst
  case diamond =>
    intro _ _ _ _ _ hfirst
    cases hfirst

theorem none_right : Interchange operation (fun _ => none) := by
  constructor
  case reflects =>
    intro _ _ _ _ _ _ hsecond
    cases hsecond
  case diamond =>
    intro _ _ _ _ _ _ hsecond
    cases hsecond

end Interchange

namespace Ledger

variable {ι α : Type} [DecidableEq ι] {operation : ι -> Session P -> Option (α × Session P)}

theorem call_of_eq_none {ledger : Ledger P ι α} {caller : ι}
    (h : operation caller ledger.session = none) : ledger.call operation caller = ledger := by
  rw [call, h]

theorem call_of_eq_some {ledger : Ledger P ι α} {caller : ι} {result : α} {next : Session P}
    (h : operation caller ledger.session = some (result, next)) :
    ledger.call operation caller = ledger.give caller result next := by
  rw [call, h]

theorem given_give_self (ledger : Ledger P ι α) (receiver : ι) (result : α) (next : Session P) :
    (ledger.give receiver result next).given receiver = some result :=
  Function.update_self ..

theorem given_give_of_ne (ledger : Ledger P ι α) {receiver other : ι} (h : other ≠ receiver)
    (result : α) (next : Session P) :
    (ledger.give receiver result next).given other = ledger.given other :=
  Function.update_of_ne h ..

theorem give_comm (ledger : Ledger P ι α) {i j : ι} (hne : i ≠ j) (first second : α)
    (next other last : Session P) :
    (ledger.give i first next).give j second last =
      (ledger.give j second other).give i first last := by
  unfold give
  rw [Function.update_comm hne]

theorem call_comm_of_eq_none {i j : ι} (hforth : Interchange (operation i) (operation j))
    {ledger : Ledger P ι α} (hnone : operation j ledger.session = none) :
    (ledger.call operation i).call operation j = (ledger.call operation j).call operation i := by
  rw [call_of_eq_none hnone]
  apply call_of_eq_none
  cases hi : operation i ledger.session with
  | none =>
      rw [call_of_eq_none hi]
      exact hnone
  | some found =>
      rcases found with ⟨result, next⟩
      rw [call_of_eq_some hi]
      cases hj : operation j next with
      | none => exact hj
      | some later =>
          rcases later with ⟨other, last⟩
          rcases hforth.reflects _ _ _ _ _ hi hj with ⟨_, hafter⟩
          rw [hnone] at hafter
          cases hafter

theorem call_comm {i j : ι} (hne : i ≠ j) (hforth : Interchange (operation i) (operation j))
    (hback : Interchange (operation j) (operation i)) (ledger : Ledger P ι α) :
    (ledger.call operation i).call operation j = (ledger.call operation j).call operation i := by
  cases hi : operation i ledger.session with
  | none => exact (call_comm_of_eq_none hback hi).symm
  | some found =>
      cases hj : operation j ledger.session with
      | none => exact call_comm_of_eq_none hforth hj
      | some later =>
          rcases found with ⟨result, next⟩
          rcases later with ⟨other, after⟩
          rcases hforth.diamond _ _ _ _ _ hi hj with ⟨last, hlast, hlast'⟩
          rw [call_of_eq_some hi, call_of_eq_some hj, call_of_eq_some hlast,
            call_of_eq_some hlast', give_comm ledger hne]

theorem callAll_cons (ledger : Ledger P ι α) (caller : ι) (rest : List ι) :
    ledger.callAll operation (caller :: rest) =
      (ledger.call operation caller).callAll operation rest :=
  rfl

theorem callAll_eq_of_perm
    (hinterchange : forall i j, i ≠ j -> Interchange (operation i) (operation j))
    {callers others : List ι} (hperm : callers.Perm others) (ledger : Ledger P ι α) :
    ledger.callAll operation callers = ledger.callAll operation others := by
  refine hperm.foldl_eq' (fun i _ j _ ledger => ?_) ledger
  by_cases hsame : i = j
  · rw [hsame]
  · exact call_comm hsame (hinterchange i j hsame) (hinterchange j i (Ne.symm hsame)) ledger

theorem callAll_induction {motive : Ledger P ι α -> Prop}
    (step : forall ledger caller result next, motive ledger ->
      operation caller ledger.session = some (result, next) ->
      motive (ledger.give caller result next))
    {ledger : Ledger P ι α} (start : motive ledger) (callers : List ι) :
    motive (ledger.callAll operation callers) := by
  induction callers generalizing ledger with
  | nil => exact start
  | cons caller rest ih =>
      rw [callAll_cons]
      apply ih
      cases hcall : operation caller ledger.session with
      | none =>
          rw [call_of_eq_none hcall]
          exact start
      | some found =>
          rcases found with ⟨result, next⟩
          rw [call_of_eq_some hcall]
          exact step ledger caller result next start hcall

theorem isSome_given_callAll
    (hinterchange : forall i j, i ≠ j -> Interchange (operation i) (operation j))
    {ledger : Ledger P ι α} {caller : ι} {result : α} {next : Session P}
    (hfirst : operation caller ledger.session = some (result, next)) {callers : List ι}
    (hmem : caller ∈ callers) :
    ((ledger.callAll operation callers).given caller).isSome = true := by
  -- The caller may as well be the first one.
  rw [callAll_eq_of_perm hinterchange (List.perm_cons_erase hmem), callAll_cons,
    call_of_eq_some hfirst]
  refine callAll_induction (motive := fun ledger => (ledger.given caller).isSome = true) ?_ ?_ _
  · intro ledger other result next hsome _
    by_cases hsame : caller = other
    · rw [hsame, given_give_self]
      rfl
    · rw [given_give_of_ne ledger hsame]
      exact hsome
  · rw [given_give_self]
    rfl

end Ledger

/-!
## The two rounds
-/

namespace Session

theorem interchange_generateNonce (pair other : KeyPair P) (seed otherSeed : Bytes32) :
    Interchange (fun session : Session P => (session.generateNonce pair seed).toOption)
      (fun session => (session.generateNonce other otherSeed).toOption) := by
  constructor
  case reflects =>
    intro session nonce next otherNonce last hfirst hsecond
    rw [toOption_eq_some_iff, generateNonce_eq_ok_iff] at hfirst hsecond
    rcases hfirst with ⟨hphase, _, _, _, rfl⟩
    rcases hsecond with ⟨_, share, hshare, hnonce, _⟩
    exact ⟨_, toOption_eq_some_iff.mpr
      (generateNonce_eq_ok_iff.mpr ⟨hphase, share, hshare, hnonce, rfl⟩)⟩
  case diamond =>
    intro session nonce next otherNonce after hfirst hsecond
    rw [toOption_eq_some_iff, generateNonce_eq_ok_iff] at hfirst hsecond
    rcases hfirst with ⟨_, share, hshare, hnonce, rfl⟩
    rcases hsecond with ⟨_, otherShare, hotherShare, hotherNonce, rfl⟩
    have hphase : Phase.noncesGenerated ∈ Gate.nonceRound.phases := by decide
    exact ⟨_, toOption_eq_some_iff.mpr
        (generateNonce_eq_ok_iff.mpr ⟨hphase, otherShare, hotherShare, hotherNonce, rfl⟩),
      toOption_eq_some_iff.mpr
        (generateNonce_eq_ok_iff.mpr ⟨hphase, share, hshare, hnonce, rfl⟩)⟩

theorem index_ne_of_resolveSigner {session : Session P} {pair other : KeyPair P}
    {share otherShare : SignerShare P} (hshare : session.resolveSigner pair = .ok share)
    (hother : session.resolveSigner other = .ok otherShare) (hne : pair.xOnly ≠ other.xOnly) :
    share.index ≠ otherShare.index := by
  intro hsame
  rcases participant?_eq_some (resolveSigner_eq_ok_iff.mp hshare).1 with ⟨hkey, hx⟩
  rcases participant?_eq_some (resolveSigner_eq_ok_iff.mp hother).1 with ⟨hotherKey, hotherX⟩
  rw [hsame, hotherKey] at hkey
  rw [Option.some.inj hkey] at hotherX
  exact hne (hx.symm.trans hotherX)

theorem afterSigning_comm (session : Session P) {i j : Nat} (hne : i ≠ j) :
    (session.afterSigning i).afterSigning j = (session.afterSigning j).afterSigning i := by
  unfold afterSigning
  rw [List.set_comm _ _ hne]

theorem afterSigning_of_sign {session next : Session P} {pair : KeyPair P}
    {nonce : SigningNonce P} {response : Scalar}
    (h : session.sign pair nonce = .ok (response, next)) :
    exists share, session.resolveSigner pair = .ok share ∧
      next = session.afterSigning share.index := by
  rcases sign_eq_ok_iff.mp h with ⟨_, _, share, hshare, _, _, _, _, _, _, _, hnext⟩
  exact ⟨share, hshare, hnext⟩

theorem sign_afterSigning_eq_ok_iff {session last : Session P}
    (hphase : session.phase ∈ Gate.signing.phases) {index : Nat} {pair : KeyPair P}
    (hindex : forall share, session.resolveSigner pair = .ok share -> index ≠ share.index)
    {nonce : SigningNonce P} {response : Scalar} :
    (session.afterSigning index).sign pair nonce = .ok (response, last) <->
      exists next, session.sign pair nonce = .ok (response, next) ∧
        last = next.afterSigning index := by
  have hflag : forall share, session.resolveSigner pair = .ok share ->
      (session.signed.set index true)[share.index]? = session.signed[share.index]? :=
    fun share hshare => List.getElem?_set_ne (hindex share hshare)
  constructor
  · intro h
    rcases sign_eq_ok_iff.mp h with ⟨_, hid, share, hshare, howner, hsigned, hslot, round, hround,
      hresponse, hverify, rfl⟩
    change session.resolveSigner pair = .ok share at hshare
    change (session.signed.set index true)[share.index]? ≠ some true at hsigned
    rw [hflag share hshare] at hsigned
    rw [round_eq_ok_iff] at hround
    exact ⟨session.afterSigning share.index,
      sign_eq_ok_iff.mpr ⟨hphase, hid, share, hshare, howner, hsigned, hslot, round,
        round_eq_ok_iff.mpr hround, hresponse, hverify, rfl⟩,
      session.afterSigning_comm (hindex share hshare)⟩
  · intro h
    rcases h with ⟨next, hsign, rfl⟩
    rcases sign_eq_ok_iff.mp hsign with ⟨_, hid, share, hshare, howner, hsigned, hslot, round,
      hround, hresponse, hverify, rfl⟩
    rw [← hflag share hshare] at hsigned
    rw [round_eq_ok_iff] at hround
    have hlast : (session.afterSigning index).afterSigning share.index =
        (session.afterSigning share.index).afterSigning index :=
      session.afterSigning_comm (hindex share hshare)
    have hphaseAfter : Phase.partiallySigned ∈ Gate.signing.phases := by decide
    exact sign_eq_ok_iff.mpr ⟨hphaseAfter, hid, share, hshare, howner, hsigned, hslot, round,
      round_eq_ok_iff.mpr hround, hresponse, hverify, hlast.symm⟩

theorem interchange_sign {pair other : KeyPair P} (hne : pair.xOnly ≠ other.xOnly)
    (nonce otherNonce : SigningNonce P) :
    Interchange (fun session : Session P => (session.sign pair nonce).toOption)
      (fun session => (session.sign other otherNonce).toOption) := by
  constructor
  case reflects =>
    intro session response next otherResponse last hfirst hsecond
    rw [toOption_eq_some_iff] at hfirst hsecond
    rcases afterSigning_of_sign hfirst with ⟨share, hshare, rfl⟩
    rw [sign_afterSigning_eq_ok_iff (sign_eq_ok_iff.mp hfirst).1
      (fun _ hother => index_ne_of_resolveSigner hshare hother hne)] at hsecond
    rcases hsecond with ⟨after, hafter, _⟩
    exact ⟨after, toOption_eq_some_iff.mpr hafter⟩
  case diamond =>
    intro session response next otherResponse after hfirst hsecond
    rw [toOption_eq_some_iff] at hfirst hsecond
    have hphase := (sign_eq_ok_iff.mp hfirst).1
    rcases afterSigning_of_sign hfirst with ⟨share, hshare, rfl⟩
    rcases afterSigning_of_sign hsecond with ⟨otherShare, hother, rfl⟩
    have hindex := index_ne_of_resolveSigner hshare hother hne
    refine ⟨(session.afterSigning otherShare.index).afterSigning share.index,
      toOption_eq_some_iff.mpr ?_, toOption_eq_some_iff.mpr ?_⟩
    · exact (sign_afterSigning_eq_ok_iff hphase
        (fun _ hother => index_ne_of_resolveSigner hshare hother hne)).mpr ⟨_, hsecond, rfl⟩
    · exact (sign_afterSigning_eq_ok_iff hphase
        (fun _ hshare => index_ne_of_resolveSigner hother hshare (Ne.symm hne))).mpr
          ⟨_, hfirst, session.afterSigning_comm hindex.symm⟩

end Session

end Musig
end Cosigning
