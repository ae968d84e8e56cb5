import Cosigning.Proofs.Exponent
import Cosigning.Proofs.Musig.Ensemble
import Cosigning.Proofs.Musig.Signers

/-!
# Honest runs

Participants who follow the protocol, each with a session of its own or several with
one, obtain a valid signature under the tweaked aggregate key.
-/

namespace Cosigning
namespace Musig

open Ciphersuite

variable {P : Type} [Ciphersuite P]

namespace Session

def prepare (roster : Roster P) (id : SessionId) (message : Bytes32) (tweaks : List Tweak) :
    Except Error (Session P) := do
  let session <- roster.start id message
  tweaks.foldlM applyTweak session

def makeNonces (session : Session P) :
    List (KeyPair P × Bytes32) -> Except Error (List (SigningNonce P) × Session P)
  | [] => .ok ([], session)
  | (pair, seed) :: rest => do
      let (nonce, after) <- session.generateNonce pair seed
      let (nonces, last) <- after.makeNonces rest
      return (nonce :: nonces, last)

def makePartials (session : Session P) :
    List (KeyPair P × SigningNonce P) -> Except Error (List Scalar × Session P)
  | [] => .ok ([], session)
  | (pair, nonce) :: rest => do
      let (response, after) <- session.sign pair nonce
      let (responses, last) <- after.makePartials rest
      return (response :: responses, last)

/-!
## Preparation
-/

/-- A session that is set up for keys, a message, tweaks and perhaps an adaptor point, and that has
made no nonce yet. -/
structure Prepared (session : Session P) (keys : List (PublicKey P)) (message : Bytes32)
    (tweaks : List Tweak) (adaptorPoint : Option (PublicKey P)) : Prop where
  context : KeyContext.tweaked keys tweaks = .ok session.context
  participants : session.participants = keys
  message : session.message = message
  adaptorPoint : session.adaptorPoint = adaptorPoint
  signed : session.signed = keys.map (fun _ => false)
  phase : session.phase = .created

theorem prepared_of_start {roster : Roster P} {id : SessionId} {message : Bytes32}
    {session : Session P} (h : roster.start id message = .ok session) :
    session.Prepared roster.keys message [] none := by
  rw [Roster.start_eq_ofKeys] at h
  rcases ofKeys_eq_ok_iff.mp h with ⟨context, hcontext, rfl⟩
  exact ⟨bind_eq_ok_iff.mpr ⟨context, hcontext, rfl⟩, rfl, rfl, rfl, rfl, rfl⟩

section

variable {keys : List (PublicKey P)} {message : Bytes32} {tweaks : List Tweak}
  {adaptorPoint : Option (PublicKey P)} {session next : Session P}

theorem Prepared.applyTweak {tweak : Tweak}
    (prepared : session.Prepared keys message tweaks adaptorPoint)
    (h : session.applyTweak tweak = .ok next) :
    next.Prepared keys message (tweaks ++ [tweak]) adaptorPoint := by
  rcases applyTweak_eq_ok_iff.mp h with ⟨_, context, hcontext, rfl⟩
  exact ⟨KeyContext.tweaked_concat prepared.context hcontext, prepared.participants,
    prepared.message, prepared.adaptorPoint, prepared.signed, prepared.phase⟩

theorem Prepared.applyTweaks {added : List Tweak}
    (prepared : session.Prepared keys message tweaks adaptorPoint)
    (h : added.foldlM Session.applyTweak session = .ok next) :
    next.Prepared keys message (tweaks ++ added) adaptorPoint := by
  induction added generalizing session tweaks with
  | nil =>
      cases h
      rw [List.append_nil]
      exact prepared
  | cons tweak rest ih =>
      rw [List.foldlM_cons, bind_eq_ok_iff] at h
      rcases h with ⟨after, happly, hrest⟩
      rw [List.append_cons]
      exact ih (prepared.applyTweak happly) hrest

theorem Prepared.useAdaptor {point : PublicKey P}
    (prepared : session.Prepared keys message tweaks adaptorPoint)
    (h : session.useAdaptor point = .ok next) :
    next.Prepared keys message tweaks (some point) := by
  rcases useAdaptor_eq_ok_iff.mp h with ⟨_, _, rfl⟩
  exact ⟨prepared.context, prepared.participants, prepared.message, rfl, prepared.signed,
    prepared.phase⟩

end

theorem prepared_of_prepare {roster : Roster P} {id : SessionId} {message : Bytes32}
    {tweaks : List Tweak} {session : Session P}
    (h : prepare roster id message tweaks = .ok session) :
    session.Prepared roster.keys message tweaks none := by
  rcases bind_eq_ok_iff.mp h with ⟨started, hstarted, htweaked⟩
  exact (prepared_of_start hstarted).applyTweaks htweaked

/-!
## Rounds of calls
-/

def nonceFor (session : Session P) (share : SignerShare P) (seed : Bytes32) :
    SigningNonce P :=
  { session := session.id
    signer := share.index
    secret := SecretNonce.derive share.secret share.key session.aggregateXOnly session.message
      seed }

theorem makeNonces_eq_ok {ι : Type} {session : Session P}
    (hphase : session.phase ∈ Gate.nonceRound.phases) {pair : ι -> KeyPair P}
    {share : ι -> SignerShare P} (seed : ι -> Bytes32) (signers : List ι)
    (hshare : forall i, i ∈ signers -> session.resolveSigner (pair i) = .ok (share i)) :
    exists phase, phase ∈ Gate.nonceRound.phases ∧
      session.makeNonces (signers.map (fun i => (pair i, seed i))) =
        .ok (signers.map (fun i => session.nonceFor (share i) (seed i)),
          { session with phase := phase }) := by
  induction signers generalizing session with
  | nil => exact ⟨session.phase, hphase, rfl⟩
  | cons i rest ih =>
      have hgenerated : session.generateNonce (pair i) (seed i) =
          .ok (session.nonceFor (share i) (seed i),
            { session with phase := .noncesGenerated }) :=
        generateNonce_eq_ok_iff.mpr
          ⟨hphase, share i, hshare i (List.mem_cons_self ..), rfl, rfl⟩
      have hphaseAfter :
          ({ session with phase := .noncesGenerated } : Session P).phase ∈
            Gate.nonceRound.phases := by
        simp [Gate.phases]
      rcases ih hphaseAfter (fun j hj => hshare j (List.mem_cons_of_mem _ hj)) with
        ⟨phase, hmem, hrest⟩
      refine ⟨phase, hmem, ?_⟩
      simp only [List.map_cons, makeNonces]
      exact bind_eq_ok_iff.mpr ⟨_, hgenerated, bind_eq_ok_iff.mpr ⟨_, hrest, rfl⟩⟩

theorem makePartials_eq_ok [LawfulCiphersuite P] {ι : Type} {session : Session P}
    {round : Round P} (hphase : session.phase ∈ Gate.signing.phases)
    (hround : session.round = .ok round) {pair : ι -> KeyPair P} {nonce : ι -> SigningNonce P}
    {share : ι -> SignerShare P} (signers : List ι)
    (hdistinct : (signers.map (fun i => (share i).index)).Nodup)
    (hready : forall i, i ∈ signers -> session.Ready (share i) (pair i) (nonce i)) :
    exists signed phase, phase ∈ Gate.signing.phases ∧
      session.makePartials (signers.map (fun i => (pair i, nonce i))) =
        .ok (signers.map (fun i =>
            round.partialSignature (share i).secret (share i).key (nonce i).secret),
          { session with signed := signed, phase := phase }) := by
  induction signers generalizing session with
  | nil => exact ⟨session.signed, session.phase, hphase, rfl⟩
  | cons i rest ih =>
      have hsigned := sign_eq_ok hphase hround (hready i (List.mem_cons_self ..))
      rw [List.map_cons, List.nodup_cons] at hdistinct
      have hreadyRest : forall j, j ∈ rest ->
          (session.afterSigning (share i).index).Ready (share j) (pair j) (nonce j) := by
        intro j hj
        apply (hready j (List.mem_cons_of_mem _ hj)).afterSigning
        intro hsame
        exact hdistinct.1 (List.mem_map.mpr ⟨j, hj, hsame.symm⟩)
      have hroundAfter : (session.afterSigning (share i).index).round = .ok round :=
        (continues_with (by decide) _).round (mem_fixedNonces_of_mem_signing hphase) hround
      have hphaseAfter : (session.afterSigning (share i).index).phase ∈ Gate.signing.phases := by
        simp [Session.afterSigning, Gate.phases]
      rcases ih hphaseAfter hroundAfter hdistinct.2 hreadyRest with
        ⟨signed, phase, hmem, hrest⟩
      refine ⟨signed, phase, hmem, ?_⟩
      simp only [List.map_cons, makePartials]
      exact bind_eq_ok_iff.mpr ⟨_, hsigned, bind_eq_ok_iff.mpr ⟨_, hrest, rfl⟩⟩

end Session

/-!
## The run
-/

/-- An honest run: who is to sign what, with which secrets, and in which sessions. -/
structure Ceremony (P : Type) [Ciphersuite P] (ι : Type) where
  roster : Roster P
  message : Bytes32
  tweaks : List Tweak
  id : ι -> SessionId
  pair : Fin roster.keys.length -> KeyPair P
  seed : Fin roster.keys.length -> Bytes32
  home : Fin roster.keys.length -> ι
  makers : ι -> List (Fin roster.keys.length)
  signers : ι -> List (Fin roster.keys.length)
  owns : forall i, (pair i).publicKey.point = roster.keys[i].point ∨
    (pair i).publicKey.point = -roster.keys[i].point
  mem_makers : forall j i, i ∈ makers j <-> home i = j
  mem_signers : forall j i, i ∈ signers j <-> home i = j
  nodup_signers : forall j, (signers j).Nodup

namespace Ceremony

open Session

variable {ι : Type} (ceremony : Ceremony P ι) (prepared : ι -> Session P)

def Prepares : Prop :=
  forall j, prepare ceremony.roster (ceremony.id j) ceremony.message ceremony.tweaks =
    .ok (prepared j)

def Uniform (adaptorPoint : Option (PublicKey P)) : Prop :=
  forall j, (prepared j).Prepared ceremony.roster.keys ceremony.message ceremony.tweaks adaptorPoint

def share (i : Fin ceremony.roster.keys.length) : SignerShare P :=
  shareOf ceremony.roster.keys[i] i.val (ceremony.pair i)

def nonce (i : Fin ceremony.roster.keys.length) : SigningNonce P :=
  (prepared (ceremony.home i)).nonceFor (ceremony.share i) (ceremony.seed i)

def publicNonces : List (PublicNonce P) :=
  List.ofFn (fun i => (ceremony.nonce prepared i).toPublic)

def nonceSum (j : ι) : P :=
  Round.nonceSum (prepared j).context (AggregateNonce.ofList (ceremony.publicNonces prepared))
    ceremony.message

def round (j : ι) : Round P :=
  Round.ofNonce (prepared j).context (AggregateNonce.ofList (ceremony.publicNonces prepared))
    (prepared j).adaptorPoint ceremony.message

def response (i : Fin ceremony.roster.keys.length) : Scalar :=
  (ceremony.round prepared (ceremony.home i)).partialSignature (ceremony.share i).secret
    (ceremony.share i).key (ceremony.nonce prepared i).secret

def processed (j : ι) : Session P :=
  { prepared j with
    publicNonces := ceremony.publicNonces prepared
    aggregateNonce := some (AggregateNonce.ofList (ceremony.publicNonces prepared))
    phase := .noncesProcessed }

variable {ceremony prepared} {adaptorPoint : Option (PublicKey P)}

theorem uniform_of_prepares (h : ceremony.Prepares prepared) : ceremony.Uniform prepared none :=
  fun j => prepared_of_prepare (h j)

theorem context_eq (h : ceremony.Uniform prepared adaptorPoint) (j k : ι) :
    (prepared j).context = (prepared k).context :=
  Except.ok.inj ((h j).context.symm.trans (h k).context)

theorem round_eq_ofNonce (h : ceremony.Uniform prepared adaptorPoint) (j : ι) :
    ceremony.round prepared j =
      Round.ofNonce (prepared j).context (AggregateNonce.ofList (ceremony.publicNonces prepared))
        adaptorPoint ceremony.message := by
  unfold round
  rw [(h j).adaptorPoint]

theorem round_eq (h : ceremony.Uniform prepared adaptorPoint) (j k : ι) :
    ceremony.round prepared j = ceremony.round prepared k := by
  rw [round_eq_ofNonce h j, round_eq_ofNonce h k, context_eq h j k]

theorem getElem?_participants (h : ceremony.Uniform prepared adaptorPoint) (j : ι)
    (i : Fin ceremony.roster.keys.length) :
    (prepared j).participants[i.val]? = some ceremony.roster.keys[i] := by
  rw [(h j).participants]
  exact List.getElem?_eq_getElem i.isLt

theorem round_processed (h : ceremony.Uniform prepared adaptorPoint) (j : ι) :
    (ceremony.processed prepared j).round = .ok (ceremony.round prepared j) := by
  rw [round_eq_ok_iff]
  refine ⟨_, rfl, ?_⟩
  change _ = Round.ofNonce (prepared j).context _ (prepared j).adaptorPoint (prepared j).message
  rw [(h j).message]
  rfl

theorem processNonces_eq_ok (h : ceremony.Uniform prepared adaptorPoint) (j : ι) {phase : Phase}
    (hphase : phase ∈ Gate.nonceRound.phases) :
    Session.processNonces { prepared j with phase := phase } (ceremony.publicNonces prepared) =
      .ok (ceremony.processed prepared j) := by
  refine processNonces_eq_ok_iff.mpr ⟨hphase, ?_, rfl⟩
  change _ = (prepared j).participants.length
  rw [(h j).participants, publicNonces, List.length_ofFn]

/-!
## Later states
-/

theorem isFixed_processed (j : ι) : (ceremony.processed prepared j).IsFixed := by
  simp [IsFixed, processed, Gate.phases]

section

variable {j : ι} {later : Session P}

theorem round_later (h : ceremony.Uniform prepared adaptorPoint)
    (hlater : (ceremony.processed prepared j).Continues later) :
    later.round = .ok (ceremony.round prepared j) :=
  hlater.round (isFixed_processed j) (round_processed h j)

theorem context_later (hlater : (ceremony.processed prepared j).Continues later) :
    later.context = (prepared j).context :=
  (hlater.fixed (isFixed_processed j)).2.context

theorem adaptorPoint_later (h : ceremony.Uniform prepared adaptorPoint)
    (hlater : (ceremony.processed prepared j).Continues later) :
    later.adaptorPoint = adaptorPoint :=
  (hlater.fixed (isFixed_processed j)).2.adaptorPoint.trans (h j).adaptorPoint

theorem message_later (h : ceremony.Uniform prepared adaptorPoint)
    (hlater : (ceremony.processed prepared j).Continues later) :
    later.message = ceremony.message :=
  hlater.message.trans (h j).message

theorem length_responses_later (h : ceremony.Uniform prepared adaptorPoint)
    (hlater : (ceremony.processed prepared j).Continues later) :
    (List.ofFn (ceremony.response prepared)).length = later.participants.length := by
  rw [List.length_ofFn, hlater.participants]
  exact (congrArg List.length (h j).participants).symm

end

/-!
## Signing
-/

section

variable [LawfulCiphersuite P]

theorem nodup_xOnly (h : ceremony.Uniform prepared adaptorPoint) (j : ι) :
    ((prepared j).participants.map PublicKey.xOnly).Nodup := by
  rw [(h j).participants]
  exact (KeyContext.tweaked_eq_ok (h j).context).2.2

theorem resolveSigner_eq (h : ceremony.Uniform prepared adaptorPoint) (j : ι)
    (i : Fin ceremony.roster.keys.length) :
    (prepared j).resolveSigner (ceremony.pair i) = .ok (ceremony.share i) :=
  resolveSigner_eq_shareOf (nodup_xOnly h j) (getElem?_participants h j i) (ceremony.owns i)

theorem verifyPartial_response (h : ceremony.Uniform prepared adaptorPoint) (j : ι)
    (i : Fin ceremony.roster.keys.length) :
    (ceremony.round prepared j).verifyPartial ceremony.roster.keys[i]
      (ceremony.nonce prepared i).toPublic (ceremony.response prepared i) = true := by
  rw [round_eq h j (ceremony.home i)]
  exact Round.verifyPartial_partialSignature (scale_secret_shareOf (ceremony.owns i))

theorem ready_processed (h : ceremony.Uniform prepared adaptorPoint)
    (i : Fin ceremony.roster.keys.length) :
    (ceremony.processed prepared (ceremony.home i)).Ready (ceremony.share i) (ceremony.pair i)
      (ceremony.nonce prepared i) := by
  refine ⟨resolveSigner_eq h _ i, scale_secret_shareOf (ceremony.owns i), rfl, rfl, ?_, ?_⟩
  · change (ceremony.publicNonces prepared)[i.val]? = _
    simp [publicNonces]
  · change (prepared (ceremony.home i)).signed[i.val]? ≠ some true
    rw [(h _).signed]
    simp

theorem makeNonces_eq (h : ceremony.Uniform prepared adaptorPoint) (j : ι) :
    exists phase, phase ∈ Gate.nonceRound.phases ∧
      (prepared j).makeNonces
          ((ceremony.makers j).map (fun i => (ceremony.pair i, ceremony.seed i))) =
        .ok ((ceremony.makers j).map (ceremony.nonce prepared),
          { prepared j with phase := phase }) := by
  have hphase : (prepared j).phase ∈ Gate.nonceRound.phases := by
    rw [(h j).phase]
    simp [Gate.phases]
  rcases makeNonces_eq_ok hphase ceremony.seed (ceremony.makers j)
    (fun i _ => resolveSigner_eq h j i) with ⟨phase, hmem, hmade⟩
  refine ⟨phase, hmem, ?_⟩
  rw [hmade]
  have hnonces : (ceremony.makers j).map
        (fun i => (prepared j).nonceFor (ceremony.share i) (ceremony.seed i)) =
      (ceremony.makers j).map (ceremony.nonce prepared) := by
    apply List.map_congr_left
    intro i hi
    unfold nonce
    rw [(ceremony.mem_makers j i).mp hi]
  rw [hnonces]

theorem makePartials_eq (h : ceremony.Uniform prepared adaptorPoint) (j : ι) :
    exists signed, (ceremony.processed prepared j).makePartials
          ((ceremony.signers j).map (fun i => (ceremony.pair i, ceremony.nonce prepared i))) =
        .ok ((ceremony.signers j).map (ceremony.response prepared), signed) ∧
      (ceremony.processed prepared j).Continues signed ∧ signed.phase ∈ Gate.combining.phases := by
  have hready : forall i, i ∈ ceremony.signers j ->
      (ceremony.processed prepared j).Ready (ceremony.share i) (ceremony.pair i)
        (ceremony.nonce prepared i) := by
    intro i hi
    rw [← (ceremony.mem_signers j i).mp hi]
    exact ready_processed h i
  have hdistinct : ((ceremony.signers j).map (fun i => (ceremony.share i).index)).Nodup :=
    (ceremony.nodup_signers j).map Fin.val_injective
  rcases makePartials_eq_ok (by simp [processed, Gate.phases]) (round_processed h j)
    (ceremony.signers j) hdistinct hready with ⟨flags, phase, hmem, hmade⟩
  refine ⟨_, ?_, continues_with (mem_fixedNonces_of_mem_signing hmem) flags, hmem⟩
  rw [hmade]
  have hresponses : (ceremony.signers j).map (fun i =>
        (ceremony.round prepared j).partialSignature (ceremony.share i).secret
          (ceremony.share i).key (ceremony.nonce prepared i).secret) =
      (ceremony.signers j).map (ceremony.response prepared) := by
    apply List.map_congr_left
    intro i hi
    unfold response
    rw [(ceremony.mem_signers j i).mp hi]
  rw [hresponses]

theorem verifyPartial_later (h : ceremony.Uniform prepared adaptorPoint) {j : ι}
    {later : Session P} (hlater : (ceremony.processed prepared j).Continues later)
    (i : Fin ceremony.roster.keys.length) :
    later.verifyPartial ceremony.roster.keys[i] (ceremony.nonce prepared i).toPublic
      (ceremony.response prepared i) = .ok () :=
  hlater.verifyPartial
    (verifyPartial_eq_ok (isFixed_processed j) (round_processed h j) (nodup_xOnly h j)
      (getElem?_participants h j i) (verifyPartial_response h j i))

theorem accepts_responses (h : ceremony.Uniform prepared adaptorPoint) (j : ι)
    (hfinite : ceremony.nonceSum prepared j ≠ 0) :
    (ceremony.round prepared j).accepts
      ((ceremony.round prepared j).combine (List.ofFn (ceremony.response prepared))) = true := by
  rcases KeyContext.tweaked_eq_ok (h j).context with ⟨hkeys, haccounts, _⟩
  have hverified := verifyPartial_response h j
  rw [round_eq_ofNonce h j] at hverified ⊢
  exact Round.accepts_ofFn (hkeys.trans List.ofFn_getElem.symm) haccounts hfinite hverified

/-- In a session everything up to the partial signatures goes as it should: the participants'
nonces and partial signatures are made, and every partial signature is valid in it from then on,
wherever it was made. -/
structure Proceeds (ceremony : Ceremony P ι) (prepared : ι -> Session P) (j : ι)
    (generated signed : Session P) : Prop where
  generates : (prepared j).makeNonces
      ((ceremony.makers j).map (fun i => (ceremony.pair i, ceremony.seed i))) =
    .ok ((ceremony.makers j).map (ceremony.nonce prepared), generated)
  processes : generated.processNonces (ceremony.publicNonces prepared) =
    .ok (ceremony.processed prepared j)
  signs : (ceremony.processed prepared j).makePartials
      ((ceremony.signers j).map (fun i => (ceremony.pair i, ceremony.nonce prepared i))) =
    .ok ((ceremony.signers j).map (ceremony.response prepared), signed)
  continues : (ceremony.processed prepared j).Continues signed
  phase : signed.phase ∈ Gate.combining.phases
  verifies : forall later, (ceremony.processed prepared j).Continues later -> forall i,
    later.verifyPartial ceremony.roster.keys[i] (ceremony.nonce prepared i).toPublic
      (ceremony.response prepared i) = .ok ()

theorem exists_proceeds (h : ceremony.Uniform prepared adaptorPoint) (j : ι) :
    exists generated signed, ceremony.Proceeds prepared j generated signed := by
  rcases makeNonces_eq h j with ⟨phase, hgenerating, hnonces⟩
  rcases makePartials_eq h j with ⟨signed, hpartials, hsigned, hphase⟩
  exact ⟨_, signed, hnonces, processNonces_eq_ok h j hgenerating, hpartials, hsigned, hphase,
    fun _ hlater i => verifyPartial_later h hlater i⟩

/-- Honest participants obtain a valid signature, however they are spread over sessions. -/
theorem yields_signature (ceremony : Ceremony P ι) {prepared : ι -> Session P}
    (h : ceremony.Prepares prepared) (j : ι) :
    exists generated signed : Session P, ceremony.Proceeds prepared j generated signed ∧
      (ceremony.nonceSum prepared j ≠ 0 ->
        exists signature last,
          signed.aggregate (List.ofFn (ceremony.response prepared)) = .ok (signature, last) ∧
            Schnorr.verify signed.aggregateXOnly ceremony.message signature = true) := by
  have huniform := uniform_of_prepares h
  rcases exists_proceeds huniform j with ⟨generated, signed, hproceeds⟩
  refine ⟨generated, signed, hproceeds, ?_⟩
  intro hfinite
  have haccepts := accepts_responses huniform j hfinite
  have hverify : Schnorr.verify signed.aggregateXOnly ceremony.message
      { nonce := xCoord (ceremony.round prepared j).finalNonce.point
        response := ((ceremony.round prepared j).combine
          (List.ofFn (ceremony.response prepared))).toBytes } = true := by
    unfold Session.aggregateXOnly
    rw [context_later hproceeds.continues]
    rw [round_eq_ofNonce huniform j] at haccepts ⊢
    exact Round.verify_of_accepts haccepts
  refine ⟨_, _, aggregate_eq_ok_iff.mpr ⟨hproceeds.phase,
    adaptorPoint_later huniform hproceeds.continues,
    length_responses_later huniform hproceeds.continues, _,
    round_later huniform hproceeds.continues, haccepts, rfl, ?_, rfl⟩, hverify⟩
  rw [message_later huniform hproceeds.continues]
  exact hverify

end

/-- Three participants in two sessions; the second one holds the secret of the negative of its key,
and the key is tweaked in every way. -/
def threeInTwoSessions : Ceremony Exponent (Fin 2) :=
  let roster : Roster Exponent :=
    .full [(Exponent.pair 2).publicKey, (Exponent.pair (groupOrder - 5)).publicKey,
      (Exponent.pair 7).publicKey]
  let home : Fin roster.keys.length -> Fin 2 := fun i => if i.val = 1 then 1 else 0
  let inSession : Fin 2 -> List (Fin roster.keys.length) := fun j =>
    (List.finRange roster.keys.length).filter (fun i => home i = j)
  { roster := roster
    message := FixedBytes.ofNat 32 9
    tweaks := [.plain 3, .xOnly 4, .taproot (some (FixedBytes.ofNat 32 6)), .taproot none]
    id := fun j => FixedBytes.ofNat 32 (j.val + 1)
    pair := fun i => Exponent.pair ([2, 5, 7].getD i.val 0)
    seed := fun i => FixedBytes.ofNat 32 (i.val + 20)
    home := home
    makers := inSession
    signers := inSession
    owns := by decide +kernel
    mem_makers := by
      intro j i
      simp [inSession]
    mem_signers := by
      intro j i
      simp [inSession]
    nodup_signers := fun _ => (List.nodup_finRange _).filter _ }

theorem isSome_prepare_threeInTwoSessions (j : Fin 2) :
    (prepare threeInTwoSessions.roster (threeInTwoSessions.id j) threeInTwoSessions.message
      threeInTwoSessions.tweaks).toOption.isSome = true := by
  revert j
  decide +kernel

def preparedSessions (j : Fin 2) : Session Exponent :=
  (prepare threeInTwoSessions.roster (threeInTwoSessions.id j) threeInTwoSessions.message
    threeInTwoSessions.tweaks).toOption.get (isSome_prepare_threeInTwoSessions j)

theorem prepares_preparedSessions : threeInTwoSessions.Prepares preparedSessions :=
  fun j => eq_ok_get_toOption (isSome_prepare_threeInTwoSessions j)

theorem yields_signature_threeInTwoSessions :
    threeInTwoSessions.Prepares preparedSessions ∧
      (exists i, (threeInTwoSessions.pair i).publicKey ≠ threeInTwoSessions.roster.keys[i]) ∧
      exists (signed : Session Exponent) (signature : Schnorr.Signature) (last : Session Exponent),
        signed.aggregate (List.ofFn (threeInTwoSessions.response preparedSessions)) =
            .ok (signature, last) ∧
          Schnorr.verify signed.aggregateXOnly threeInTwoSessions.message signature = true := by
  rcases yields_signature threeInTwoSessions prepares_preparedSessions 1 with
    ⟨_, signed, _, hyields⟩
  exact ⟨prepares_preparedSessions, by decide +kernel, signed, hyields (by decide +kernel)⟩

end Ceremony

end Musig
end Cosigning
