import Cosigning.Proofs.Musig.AdaptorRun
import Cosigning.Proofs.Musig.Identity

/-!
# The order of the signers

Participants make their nonces and, when the public nonces are processed, sign in some
order.  Which order it is makes no difference: everybody is given the same, the session
ends the same, and the partial signatures combine to the same in any order.
-/

namespace Cosigning
namespace Musig

open Ciphersuite

variable {P : Type} [Ciphersuite P]

/-- What is to be signed by whom: a setup of sessions with a secret and a seed for each
participant. -/
structure Plan (P : Type) [Ciphersuite P] where
  roster : Roster P
  message : Bytes32
  early : List Tweak
  adaptorPoint : Option (PublicKey P)
  late : List Tweak
  pair : Fin roster.keys.length -> KeyPair P
  seed : Fin roster.keys.length -> Bytes32
  owns : forall i, (pair i).xOnly = (roster.keys.get i).xOnly

structure Transcript (P : Type) [Ciphersuite P] (ι : Type) where
  nonce : ι -> Option (SigningNonce P)
  response : ι -> Option Scalar
  last : Session P

namespace Transcript

variable {ι : Type}

def publicNonce (run : Transcript P ι) (i : ι) : Option (PublicNonce P) :=
  (run.nonce i).map SigningNonce.toPublic

/-- The other run, under the given identity, has the same outcome for every participant, ends the
same, and its partial signatures combine to the same in any order. -/
structure Agrees (run rerun : Transcript P ι) (id : SessionId) : Prop where
  publicNonce : rerun.publicNonce = run.publicNonce
  response : rerun.response = run.response
  last : rerun.last = { run.last with id := id }
  aggregate : forall partials permuted : List Scalar, partials.Perm permuted ->
    rerun.last.aggregate permuted =
      (run.last.aggregate partials).map (fun made => (made.1, { made.2 with id := id }))
  aggregateAdaptor : forall partials permuted : List Scalar, partials.Perm permuted ->
    rerun.last.aggregateAdaptor permuted =
      (run.last.aggregateAdaptor partials).map (fun made => (made.1, { made.2 with id := id }))

end Transcript

/-!
## Combining
-/

open Fin.CommRing in
theorem Round.combine_eq_of_perm (round : Round P) {partials permuted : List Scalar}
    (h : partials.Perm permuted) : round.combine permuted = round.combine partials :=
  combine_eq_iff.mpr h.sum_eq.symm

namespace Session

variable (session : Session P) {partials permuted : List Scalar}

theorem requireAll_eq_of_perm (h : partials.Perm permuted) :
    session.requireAll permuted = session.requireAll partials := by
  unfold requireAll
  rw [h.length_eq]

theorem aggregate_eq_of_perm (h : partials.Perm permuted) :
    session.aggregate permuted = session.aggregate partials := by
  unfold aggregate
  simp only [session.requireAll_eq_of_perm h, Round.combine_eq_of_perm _ h]

theorem aggregateAdaptor_eq_of_perm (h : partials.Perm permuted) :
    session.aggregateAdaptor permuted = session.aggregateAdaptor partials := by
  unfold aggregateAdaptor combineAdaptor
  simp only [session.requireAll_eq_of_perm h, Round.combine_eq_of_perm _ h]

end Session

namespace Plan

open Session

abbrev Place (plan : Plan P) : Type :=
  Fin plan.roster.keys.length

variable (plan : Plan P)

def lock (session : Session P) : Except Error (Session P) :=
  match plan.adaptorPoint with
  | none => .ok session
  | some point => session.useAdaptor point

def start (id : SessionId) : Except Error (Session P) := do
  let session <- prepare plan.roster id plan.message plan.early
  let locked <- plan.lock session
  plan.late.foldlM applyTweak locked

def makeNonce (i : plan.Place) (session : Session P) : Option (SigningNonce P × Session P) :=
  (session.generateNonce (plan.pair i) (plan.seed i)).toOption

def signWith (nonce : plan.Place -> Option (SigningNonce P)) (i : plan.Place)
    (session : Session P) : Option (Scalar × Session P) :=
  (nonce i).bind (fun nonce => (session.sign (plan.pair i) nonce).toOption)

def fix (nonces : List (PublicNonce P)) (session : Session P) : Session P :=
  match session.processNonces nonces with
  | .ok next => next
  | .error _ => session

def made (session : Session P) (makers : List plan.Place) :
    Ledger P plan.Place (SigningNonce P) :=
  Ledger.callAll plan.makeNonce { session := session, given := fun _ => none } makers

def signed (made : Ledger P plan.Place (SigningNonce P)) (nonces : List (PublicNonce P))
    (signers : List plan.Place) : Ledger P plan.Place Scalar :=
  Ledger.callAll (plan.signWith made.given)
    { session := fix nonces made.session, given := fun _ => none } signers

def conduct (session : Session P) (makers : List plan.Place) (nonces : List (PublicNonce P))
    (signers : List plan.Place) : Transcript P plan.Place :=
  { nonce := (plan.made session makers).given
    response := (plan.signed (plan.made session makers) nonces signers).given
    last := (plan.signed (plan.made session makers) nonces signers).session }

variable {plan} {id : SessionId} {session : Session P}

/-!
## Participants
-/

theorem prepared (h : plan.start id = .ok session) :
    session.Prepared plan.roster.keys plan.message (plan.early ++ plan.late)
      plan.adaptorPoint := by
  rcases bind_eq_ok_iff.mp h with ⟨begun, hbegun, hrest⟩
  rcases bind_eq_ok_iff.mp hrest with ⟨locked, hlocked, hlate⟩
  have hprepared := prepared_of_prepare hbegun
  unfold lock at hlocked
  cases hpoint : plan.adaptorPoint with
  | none =>
      rw [hpoint] at hlocked
      cases hlocked
      exact hprepared.applyTweaks hlate
  | some point =>
      rw [hpoint] at hlocked
      exact (hprepared.useAdaptor hlocked).applyTweaks hlate

theorem nodup_xOnly (h : plan.start id = .ok session) :
    (plan.roster.keys.map PublicKey.xOnly).Nodup := by
  rcases bind_eq_ok_iff.mp (prepared h).context with ⟨_, hkeys, _⟩
  exact (KeyContext.ofKeys_eq_ok hkeys).2.1

theorem xOnly_pair_ne (h : plan.start id = .ok session) {i j : plan.Place} (hne : i ≠ j) :
    (plan.pair i).xOnly ≠ (plan.pair j).xOnly := by
  intro hsame
  rw [plan.owns, plan.owns] at hsame
  have hlt : i.val < (plan.roster.keys.map PublicKey.xOnly).length := by
    rw [List.length_map]
    exact i.isLt
  have hplaces : i.val = j.val := by
    apply (List.getElem?_inj hlt (nodup_xOnly h)).mp
    rw [List.getElem?_map, List.getElem?_map, List.getElem?_eq_getElem i.isLt,
      List.getElem?_eq_getElem j.isLt]
    exact congrArg some hsame
  exact hne (Fin.ext hplaces)

def share (plan : Plan P) (i : plan.Place) : SignerShare P :=
  shareOf (plan.roster.keys.get i) i.val (plan.pair i)

theorem resolveSigner_eq (h : plan.start id = .ok session) {later : Session P}
    (hlater : later.participants = plan.roster.keys) (i : plan.Place) :
    later.resolveSigner (plan.pair i) = .ok (plan.share i) := by
  have hkey : later.participants[i.val]? = some (plan.roster.keys.get i) := by
    rw [hlater]
    exact List.getElem?_eq_getElem i.isLt
  rw [resolveSigner_eq_ok_iff, plan.owns]
  refine ⟨participant?_of_nodup ?_ hkey, rfl⟩
  rw [hlater]
  exact nodup_xOnly h

/-!
## The first round
-/

theorem makeNonce_eq_some_iff (h : plan.start id = .ok session) {i : plan.Place} {phase : Phase}
    {nonce : SigningNonce P} {next : Session P} :
    plan.makeNonce i { session with phase := phase } = some (nonce, next) <->
      phase ∈ Gate.nonceRound.phases ∧
        nonce = session.nonceFor (plan.share i) (plan.seed i) ∧
        next = { session with phase := .noncesGenerated } := by
  have hshare : ({ session with phase := phase } : Session P).resolveSigner (plan.pair i) =
      .ok (plan.share i) :=
    resolveSigner_eq h (prepared h).participants i
  unfold makeNonce
  rw [toOption_eq_some_iff, generateNonce_eq_ok_iff, hshare]
  constructor
  · rintro ⟨hphase, share, hsame, hnonce, hnext⟩
    cases hsame
    exact ⟨hphase, hnonce, hnext⟩
  · rintro ⟨hphase, hnonce, hnext⟩
    exact ⟨hphase, _, rfl, hnonce, hnext⟩

theorem interchange_makeNonce (plan : Plan P) (i j : plan.Place) :
    Interchange (plan.makeNonce i) (plan.makeNonce j) :=
  interchange_generateNonce ..

theorem made_spec (h : plan.start id = .ok session) (makers : List plan.Place) :
    (exists phase, phase ∈ Gate.nonceRound.phases ∧
        (plan.made session makers).session = { session with phase := phase }) ∧
      forall i nonce, (plan.made session makers).given i = some nonce ->
        nonce = session.nonceFor (plan.share i) (plan.seed i) := by
  refine Ledger.callAll_induction
    (motive := fun ledger =>
      (exists phase, phase ∈ Gate.nonceRound.phases ∧
          ledger.session = { session with phase := phase }) ∧
        forall i nonce, ledger.given i = some nonce ->
          nonce = session.nonceFor (plan.share i) (plan.seed i)) ?_ ?_ makers
  · rintro ledger caller result next ⟨⟨phase, _, hsession⟩, hgiven⟩ hcall
    rw [hsession, makeNonce_eq_some_iff h] at hcall
    rcases hcall with ⟨_, hresult, hnext⟩
    refine ⟨⟨.noncesGenerated, by decide, hnext⟩, fun i nonce hnonce => ?_⟩
    by_cases hsame : i = caller
    · rw [hsame, Ledger.given_give_self] at hnonce
      rw [hsame, ← hresult]
      exact (Option.some.inj hnonce).symm
    · rw [Ledger.given_give_of_ne ledger hsame] at hnonce
      exact hgiven i nonce hnonce
  · refine ⟨⟨session.phase, ?_, rfl⟩, fun _ _ hnonce => nomatch hnonce⟩
    rw [(prepared h).phase]
    decide

theorem isSome_given_made (h : plan.start id = .ok session) {makers : List plan.Place}
    {i : plan.Place} (hi : i ∈ makers) :
    ((plan.made session makers).given i).isSome = true := by
  have hphase : session.phase ∈ Gate.nonceRound.phases := by
    rw [(prepared h).phase]
    decide
  have hfirst : plan.makeNonce i session = some (session.nonceFor (plan.share i) (plan.seed i),
      { session with phase := .noncesGenerated }) :=
    (makeNonce_eq_some_iff h).mpr ⟨hphase, rfl, rfl⟩
  unfold made
  exact Ledger.isSome_given_callAll (fun i j _ => interchange_makeNonce plan i j) hfirst hi

theorem fix_made (h : plan.start id = .ok session) (makers : List plan.Place)
    {nonces : List (PublicNonce P)} (hcount : nonces.length = plan.roster.keys.length) :
    fix nonces (plan.made session makers).session =
      { session with
        publicNonces := nonces
        aggregateNonce := some (AggregateNonce.ofList nonces)
        phase := .noncesProcessed } := by
  rcases (made_spec h makers).1 with ⟨phase, hphase, hsession⟩
  have hprocess : ({ session with phase := phase } : Session P).processNonces nonces =
      .ok { session with
        publicNonces := nonces
        aggregateNonce := some (AggregateNonce.ofList nonces)
        phase := .noncesProcessed } :=
    processNonces_eq_ok_iff.mpr
      ⟨hphase, hcount.trans (congrArg List.length (prepared h).participants).symm, rfl⟩
  rw [hsession, fix, hprocess]

/-!
## Any order
-/

theorem signWith_of_eq_none {nonce : plan.Place -> Option (SigningNonce P)} {i : plan.Place}
    (h : nonce i = none) : plan.signWith nonce i = fun _ => none := by
  funext session
  rw [signWith, h, Option.bind_none]

theorem signWith_of_eq_some {nonce : plan.Place -> Option (SigningNonce P)} {i : plan.Place}
    {own : SigningNonce P} (h : nonce i = some own) :
    plan.signWith nonce i = fun session => (session.sign (plan.pair i) own).toOption := by
  funext session
  rw [signWith, h, Option.bind_some]

theorem interchange_signWith (h : plan.start id = .ok session)
    (nonce : plan.Place -> Option (SigningNonce P)) {i j : plan.Place} (hne : i ≠ j) :
    Interchange (plan.signWith nonce i) (plan.signWith nonce j) := by
  cases hi : nonce i with
  | none =>
      rw [signWith_of_eq_none hi]
      exact .none_left _
  | some own =>
      cases hj : nonce j with
      | none =>
          rw [signWith_of_eq_none hj]
          exact .none_right _
      | some other =>
          rw [signWith_of_eq_some hi, signWith_of_eq_some hj]
          exact interchange_sign (xOnly_pair_ne h hne) own other

theorem conduct_eq_of_perm (h : plan.start id = .ok session)
    {makers otherMakers signers otherSigners : List plan.Place}
    (hmakers : makers.Perm otherMakers) (hsigners : signers.Perm otherSigners)
    (nonces : List (PublicNonce P)) :
    plan.conduct session otherMakers nonces otherSigners =
      plan.conduct session makers nonces signers := by
  have hmade : plan.made session otherMakers = plan.made session makers :=
    (Ledger.callAll_eq_of_perm (fun i j _ => interchange_makeNonce plan i j) hmakers _).symm
  have hsigned : plan.signed (plan.made session makers) nonces otherSigners =
      plan.signed (plan.made session makers) nonces signers :=
    (Ledger.callAll_eq_of_perm (fun _ _ hne => interchange_signWith h _ hne) hsigners _).symm
  unfold conduct
  rw [hmade, hsigned]

/-!
## Under another identity
-/

theorem start_withId (plan : Plan P) (id other : SessionId) :
    plan.start other = (plan.start id).map (withId other) := by
  have hprepare : prepare plan.roster other plan.message plan.early =
      (prepare plan.roster id plan.message plan.early).map (withId other) := by
    unfold prepare
    rw [Roster.start_eq_ofKeys, Roster.start_eq_ofKeys, ofKeys_withId id other]
    cases ofKeys id plan.roster.keys plan.message with
    | error cause => rfl
    | ok session => exact foldlM_applyTweak_withId other session plan.early
  have hlock : forall session, plan.lock (session.withId other) =
      (plan.lock session).map (withId other) := by
    intro session
    unfold lock
    split
    · rfl
    · exact useAdaptor_withId other session _
  unfold start
  rw [hprepare]
  cases prepare plan.roster id plan.message plan.early with
  | error cause => rfl
  | ok session =>
      change (plan.lock (session.withId other) >>= fun locked =>
        plan.late.foldlM applyTweak locked) = (plan.lock session >>= _).map _
      rw [hlock]
      cases plan.lock session with
      | error cause => rfl
      | ok locked => exact foldlM_applyTweak_withId other locked plan.late

theorem id_makeNonce {i : plan.Place} {nonce : SigningNonce P} {next : Session P}
    (h : plan.makeNonce i session = some (nonce, next)) : next.id = session.id :=
  (Advances.generateNonce _ _ _ _ (toOption_eq_some_iff.mp h)).continues.id

theorem id_signWith {nonce : plan.Place -> Option (SigningNonce P)} {i : plan.Place}
    {response : Scalar} {next : Session P}
    (h : plan.signWith nonce i session = some (response, next)) : next.id = session.id := by
  rcases Option.bind_eq_some_iff.mp h with ⟨own, _, hsign⟩
  exact (Step.sign _ _ _ _ (toOption_eq_some_iff.mp hsign)).continues.id

theorem id_fix (nonces : List (PublicNonce P)) (session : Session P) :
    (fix nonces session).id = session.id := by
  unfold fix
  split
  · rename_i hprocess
    rcases processNonces_eq_ok_iff.mp hprocess with ⟨_, _, rfl⟩
    rfl
  · rfl

theorem made_withId (other : SessionId) (session : Session P) (makers : List plan.Place) :
    plan.made (session.withId other) makers =
      (plan.made session makers).withId other (SigningNonce.withId other) := by
  have hrenamed : forall i session, plan.makeNonce i (session.withId other) =
      (plan.makeNonce i session).map (fun made => (made.1.withId other, made.2.withId other)) := by
    intro i session
    unfold makeNonce
    rw [generateNonce_withId, toOption_map]
  exact Ledger.callAll_withId session.id other (SigningNonce.withId other)
    (fun _ _ _ _ hcall => id_makeNonce hcall) (fun i session _ => hrenamed i session)
    { session := session, given := fun _ => none } rfl makers

theorem fix_withId (other : SessionId) (nonces : List (PublicNonce P)) (session : Session P) :
    fix nonces (session.withId other) = (fix nonces session).withId other := by
  unfold fix
  rw [processNonces_withId]
  cases session.processNonces nonces <;> rfl

theorem signWith_withId (other : SessionId) {nonce : plan.Place -> Option (SigningNonce P)}
    (hnonce : forall i own, nonce i = some own -> own.session = session.id) (i : plan.Place) :
    plan.signWith (fun i => (nonce i).map (SigningNonce.withId other)) i (session.withId other) =
      (plan.signWith nonce i session).map (fun made => (made.1, made.2.withId other)) := by
  change ((nonce i).map (SigningNonce.withId other)).bind
      (fun own => ((session.withId other).sign (plan.pair i) own).toOption) =
    ((nonce i).bind _).map _
  cases hgiven : nonce i with
  | none => rfl
  | some own =>
      rw [Option.map_some, Option.bind_some, Option.bind_some,
        sign_withId _ _ _ (hnonce i own hgiven), toOption_map]

theorem signed_withId (other : SessionId) {made : Ledger P plan.Place (SigningNonce P)}
    (hmade : forall i (nonce : SigningNonce P), made.given i = some nonce ->
      nonce.session = made.session.id)
    (nonces : List (PublicNonce P)) (signers : List plan.Place) :
    plan.signed (made.withId other (SigningNonce.withId other)) nonces signers =
      (plan.signed made nonces signers).withId other (fun response => response) := by
  have hfixed : fix nonces (made.withId other (SigningNonce.withId other)).session =
      (fix nonces made.session).withId other :=
    fix_withId other nonces made.session
  unfold signed
  rw [hfixed]
  refine Ledger.callAll_withId made.session.id other (fun response => response)
    (fun _ _ _ _ hcall => id_signWith hcall) (fun i session hown => ?_)
    { session := fix nonces made.session, given := fun _ => none } (id_fix nonces made.session)
    signers
  exact signWith_withId other
    (fun i own hgiven => (hmade i own hgiven).trans hown.symm) i

theorem agrees_withId (h : plan.start id = .ok session) (other : SessionId)
    (makers : List plan.Place) (nonces : List (PublicNonce P)) (signers : List plan.Place) :
    (plan.conduct session makers nonces signers).Agrees
      (plan.conduct (session.withId other) makers nonces signers) other := by
  have hmade : plan.made (session.withId other) makers =
      (plan.made session makers).withId other (SigningNonce.withId other) :=
    made_withId other session makers
  have hsigned : plan.signed ((plan.made session makers).withId other (SigningNonce.withId other))
      nonces signers =
        (plan.signed (plan.made session makers) nonces signers).withId other
          (fun response => response) := by
    -- Only nonces of the session itself are renamed along with it.
    apply signed_withId
    intro i nonce hgiven
    rcases made_spec h makers with ⟨⟨phase, _, hsession⟩, hnonces⟩
    rw [hnonces i nonce hgiven, hsession]
    rfl
  have hlast : (plan.conduct (session.withId other) makers nonces signers).last =
      (plan.conduct session makers nonces signers).last.withId other := by
    change (plan.signed (plan.made (session.withId other) makers) nonces signers).session = _
    rw [hmade, hsigned]
    rfl
  constructor
  case publicNonce =>
    funext i
    change ((plan.made (session.withId other) makers).given i).map _ = _
    rw [hmade]
    exact Option.map_map ..
  case response =>
    change (plan.signed (plan.made (session.withId other) makers) nonces signers).given = _
    rw [hmade, hsigned]
    funext i
    exact Option.map_id' ..
  case last => exact hlast
  case aggregate =>
    intro partials permuted hperm
    rw [hlast, aggregate_withId, aggregate_eq_of_perm _ hperm]
    rfl
  case aggregateAdaptor =>
    intro partials permuted hperm
    rw [hlast, aggregateAdaptor_withId, aggregateAdaptor_eq_of_perm _ hperm]
    rfl

/-!
## The second round
-/

section

variable {makers signers : List plan.Place} {nonces : List (PublicNonce P)}

theorem slot_of_nonces
    (hnonces : nonces.map some =
      List.ofFn (plan.conduct session makers nonces signers).publicNonce) (i : plan.Place) :
    exists own, (plan.made session makers).given i = some own ∧
      nonces[i.val]? = some own.toPublic := by
  have hplace : nonces[i.val]?.map some =
      some (((plan.made session makers).given i).map SigningNonce.toPublic) := by
    rw [← List.getElem?_map, hnonces, List.getElem?_ofFn, dif_pos i.isLt]
    rfl
  rcases Option.map_eq_some_iff.mp hplace with ⟨shared, hslot, hgiven⟩
  rcases Option.map_eq_some_iff.mp hgiven.symm with ⟨own, hown, rfl⟩
  exact ⟨own, hown, hslot⟩

variable [LawfulCiphersuite P]

theorem ready_fix_made (h : plan.start id = .ok session)
    (hcount : nonces.length = plan.roster.keys.length) {i : plan.Place} {own : SigningNonce P}
    (hown : (plan.made session makers).given i = some own)
    (hslot : nonces[i.val]? = some own.toPublic) :
    (fix nonces (plan.made session makers).session).Ready (plan.share i) (plan.pair i) own := by
  rw [fix_made h makers hcount]
  rw [(made_spec h makers).2 i own hown] at hslot ⊢
  refine ⟨resolveSigner_eq h (prepared h).participants i,
    scale_secret_shareOf (PublicKey.xOnly_eq_iff.mp (plan.owns i)), rfl, rfl, hslot, ?_⟩
  change session.signed[i.val]? ≠ some true
  rw [(prepared h).signed]
  simp

theorem isSome_response (h : plan.start id = .ok session)
    (hnonces : nonces.map some =
      List.ofFn (plan.conduct session makers nonces signers).publicNonce)
    {i : plan.Place} (hi : i ∈ signers) :
    ((plan.conduct session makers nonces signers).response i).isSome = true := by
  have hcount : nonces.length = plan.roster.keys.length := by
    have hlength := congrArg List.length hnonces
    rw [List.length_map, List.length_ofFn] at hlength
    exact hlength
  have hphase : (fix nonces (plan.made session makers).session).phase ∈ Gate.signing.phases := by
    rw [fix_made h makers hcount]
    exact (by decide : Phase.noncesProcessed ∈ Gate.signing.phases)
  have hround : exists round,
      (fix nonces (plan.made session makers).session).round = .ok round := by
    rw [fix_made h makers hcount]
    exact ⟨_, rfl⟩
  rcases hround with ⟨round, hround⟩
  rcases slot_of_nonces hnonces i with ⟨own, hown, hslot⟩
  have hfirst := toOption_eq_some_iff.mpr
    (sign_eq_ok hphase hround (ready_fix_made h hcount hown hslot))
  rw [← congrFun (signWith_of_eq_some hown) _] at hfirst
  exact Ledger.isSome_given_callAll (fun _ _ hne => interchange_signWith h _ hne) hfirst hi

end

/-!
## The run
-/

/-- There is one transcript that every order of the calls gives, and under any other identity every
order gives it up to the identity.  Whoever makes a nonce is given one, and when just these nonces
are processed, whoever signs is given a partial signature. -/
theorem order_irrelevant (plan : Plan P) {id : SessionId} {session : Session P}
    (h : plan.start id = .ok session) (makers signers : List plan.Place)
    (nonces : List (PublicNonce P)) :
    exists run : Transcript P plan.Place,
      (forall otherMakers otherSigners : List plan.Place,
        makers.Perm otherMakers -> signers.Perm otherSigners ->
          plan.conduct session otherMakers nonces otherSigners = run) ∧
      (forall other, exists second, plan.start other = .ok second ∧
        forall otherMakers otherSigners : List plan.Place,
          makers.Perm otherMakers -> signers.Perm otherSigners ->
            run.Agrees (plan.conduct second otherMakers nonces otherSigners) other) ∧
      (forall i, i ∈ makers -> (run.publicNonce i).isSome = true) ∧
      ([LawfulCiphersuite P] -> nonces.map some = List.ofFn run.publicNonce ->
        forall i, i ∈ signers -> (run.response i).isSome = true) := by
  refine ⟨plan.conduct session makers nonces signers, ?_, ?_, ?_, ?_⟩
  · intro otherMakers otherSigners hmakers hsigners
    exact conduct_eq_of_perm h hmakers hsigners nonces
  · intro other
    refine ⟨session.withId other, ?_, ?_⟩
    · rw [start_withId plan id other, h]
      rfl
    · intro otherMakers otherSigners hmakers hsigners
      rw [← conduct_eq_of_perm h hmakers hsigners nonces]
      exact agrees_withId h other otherMakers nonces otherSigners
  · intro i hi
    unfold Transcript.publicNonce
    rw [Option.isSome_map]
    exact isSome_given_made h hi
  · intro _ hnonces i hi
    exact isSome_response h hnonces hi

/-- Three participants, of whom the second one holds the secret of the negative of its key, with an
adaptor point between the tweaks. -/
def threeSigners : Plan Exponent :=
  { roster := Ceremony.threeInTwoSessions.roster
    message := Ceremony.threeInTwoSessions.message
    early := Ceremony.threeInTwoSessions.tweaks.take 2
    adaptorPoint := some (Exponent.pair 12).publicKey
    late := Ceremony.threeInTwoSessions.tweaks.drop 2
    pair := Ceremony.threeInTwoSessions.pair
    seed := Ceremony.threeInTwoSessions.seed
    owns := by decide +kernel }

theorem isSome_start_threeSigners :
    (threeSigners.start (FixedBytes.ofNat 32 1)).toOption.isSome = true := by
  decide +kernel

def threeStarted : Session Exponent :=
  (threeSigners.start (FixedBytes.ofNat 32 1)).toOption.get isSome_start_threeSigners

def inOrder : List threeSigners.Place :=
  List.finRange threeSigners.roster.keys.length

def threeNonces : List (PublicNonce Exponent) :=
  inOrder.filterMap (threeSigners.conduct threeStarted inOrder [] []).publicNonce

theorem order_irrelevant_threeSigners :
    threeSigners.start (FixedBytes.ofNat 32 1) = .ok threeStarted ∧
      exists (run : Transcript Exponent threeSigners.Place) (second : Session Exponent),
        threeSigners.conduct threeStarted inOrder threeNonces inOrder = run ∧
          (forall i, (run.response i).isSome = true) ∧
          threeSigners.start (FixedBytes.ofNat 32 2) = .ok second ∧
          run.Agrees
            (threeSigners.conduct second inOrder.reverse threeNonces inOrder.reverse)
            (FixedBytes.ofNat 32 2) := by
  have hstarted : threeSigners.start (FixedBytes.ofNat 32 1) = .ok threeStarted :=
    eq_ok_get_toOption isSome_start_threeSigners
  rcases order_irrelevant threeSigners hstarted inOrder inOrder threeNonces with
    ⟨run, hrun, hother, _, hsigned⟩
  rcases hother (FixedBytes.ofNat 32 2) with ⟨second, hsecond, hagrees⟩
  have hbackwards : inOrder.Perm inOrder.reverse := (List.reverse_perm inOrder).symm
  have hsame := hrun inOrder inOrder (.refl _) (.refl _)
  refine ⟨hstarted, run, second, hsame, fun i => ?_, hsecond,
    hagrees _ _ hbackwards hbackwards⟩
  apply hsigned _ i (List.mem_finRange i)
  rw [← hsame]
  decide +kernel

end Plan

end Musig
end Cosigning
