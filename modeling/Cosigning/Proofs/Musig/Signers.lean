import Cosigning.Proofs.Musig.PartialSignatures
import Cosigning.Proofs.Musig.Progress

/-!
# Signers

Whoever holds the secret of a participant's key or of its negative signs for the
participant, and everybody can check it.
-/

namespace Cosigning
namespace Musig

open Ciphersuite

variable {P : Type} [Ciphersuite P]

namespace Session

/-!
## Shares
-/

theorem participant?_of_nodup {session : Session P}
    (hnodup : (session.participants.map PublicKey.xOnly).Nodup) {key : PublicKey P}
    {index : Nat} (hkey : session.participants[index]? = some key) :
    session.participant? key.xOnly = some (key, index) := by
  cases hfound : session.participant? key.xOnly with
  | none =>
      have hmem : (key, index) ∈ session.participants.zipIdx :=
        List.mem_zipIdx_iff_getElem?.mpr hkey
      have hne := List.find?_eq_none.mp hfound (key, index) hmem
      simp at hne
  | some entry =>
      rcases entry with ⟨other, place⟩
      rcases participant?_eq_some hfound with ⟨hother, hx⟩
      have hlt : place < (session.participants.map PublicKey.xOnly).length := by
        rw [List.length_map]
        exact (List.getElem?_eq_some_iff.mp hother).1
      have hplace : place = index := by
        apply (List.getElem?_inj hlt hnodup).mp
        rw [List.getElem?_map, List.getElem?_map, hother, hkey, Option.map_some,
          Option.map_some, hx]
      rw [hplace, hkey] at hother
      cases hother
      rw [hplace]

def shareOf (key : PublicKey P) (index : Nat) (pair : KeyPair P) : SignerShare P :=
  { index := index
    key := key
    secret := Scalar.negateIf (decide (key ≠ pair.publicKey)) pair.secret }

section

variable [LawfulCiphersuite P]

theorem resolveSigner_eq_shareOf {session : Session P}
    (hnodup : (session.participants.map PublicKey.xOnly).Nodup) {key : PublicKey P}
    {index : Nat} (hkey : session.participants[index]? = some key) {pair : KeyPair P}
    (owns : pair.publicKey.point = key.point ∨ pair.publicKey.point = -key.point) :
    session.resolveSigner pair = .ok (shareOf key index pair) := by
  have hx : pair.xOnly = key.xOnly := PublicKey.xOnly_eq_iff.mpr owns
  rw [resolveSigner_eq_ok_iff, hx]
  exact ⟨participant?_of_nodup hnodup hkey, rfl⟩

theorem scale_secret_shareOf {key : PublicKey P} {index : Nat} {pair : KeyPair P}
    (owns : pair.publicKey.point = key.point ∨ pair.publicKey.point = -key.point) :
    scale (shareOf key index pair).secret base = key.point := by
  change scale (Scalar.negateIf (decide (key ≠ pair.publicKey)) pair.secret) base = key.point
  rw [scale_negateIf, pair.scale_base]
  by_cases hsame : key = pair.publicKey
  · simp [negateIf, hsame]
  · have hne : pair.publicKey.point ≠ key.point := fun h => hsame (PublicKey.ext h.symm)
    have hneg := owns.resolve_left hne
    simp [negateIf, hsame, hneg]

end

/-!
## Signing
-/

/-- Everything is in place for a participant to sign. -/
structure Ready (session : Session P) (share : SignerShare P) (pair : KeyPair P)
    (nonce : SigningNonce P) : Prop where
  resolves : session.resolveSigner pair = .ok share
  secret : scale share.secret base = share.key.point
  origin : nonce.session = session.id
  owner : share.index = nonce.signer
  slot : session.publicNonces[share.index]? = some nonce.toPublic
  unsigned : session.signed[share.index]? ≠ some true

def afterSigning (session : Session P) (index : Nat) : Session P :=
  { session with
    signed := session.signed.set index true
    phase := .partiallySigned }

theorem Ready.afterSigning {session : Session P} {share : SignerShare P} {pair : KeyPair P}
    {nonce : SigningNonce P} (h : session.Ready share pair nonce) {index : Nat}
    (hne : index ≠ share.index) : (session.afterSigning index).Ready share pair nonce := by
  refine ⟨h.resolves, h.secret, h.origin, h.owner, h.slot, ?_⟩
  change (session.signed.set index true)[share.index]? ≠ some true
  rw [List.getElem?_set_ne hne]
  exact h.unsigned

theorem sign_eq_ok [LawfulCiphersuite P] {session : Session P} {round : Round P}
    (hphase : session.phase ∈ Gate.signing.phases) (hround : session.round = .ok round)
    {share : SignerShare P} {pair : KeyPair P} {nonce : SigningNonce P}
    (h : session.Ready share pair nonce) :
    session.sign pair nonce =
      .ok (round.partialSignature share.secret share.key nonce.secret,
        session.afterSigning share.index) :=
  sign_eq_ok_iff.mpr
    ⟨hphase, h.origin, share, h.resolves, h.owner, h.unsigned, h.slot, round, hround, rfl,
      Round.verifyPartial_partialSignature h.secret, rfl⟩

/-!
## Checking
-/

theorem verifyPartial_eq_ok {session : Session P} {round : Round P} {key : PublicKey P}
    {index : Nat} {nonce : PublicNonce P} {response : Scalar}
    (hphase : session.phase ∈ Gate.fixedNonces.phases) (hround : session.round = .ok round)
    (hnodup : (session.participants.map PublicKey.xOnly).Nodup)
    (hkey : session.participants[index]? = some key)
    (h : round.verifyPartial key nonce response = true) :
    session.verifyPartial key nonce response = .ok () :=
  verifyPartial_eq_ok_iff.mpr
    ⟨hphase, key, index, round, participant?_of_nodup hnodup hkey, hround, h⟩

theorem verifyPartial_eq_error {session : Session P} {round : Round P} {key : PublicKey P}
    {index : Nat} {nonce : PublicNonce P} {response : Scalar}
    (hphase : session.phase ∈ Gate.fixedNonces.phases) (hround : session.round = .ok round)
    (hnodup : (session.participants.map PublicKey.xOnly).Nodup)
    (hkey : session.participants[index]? = some key)
    (h : ¬ round.verifyPartial key nonce response = true) :
    session.verifyPartial key nonce response = .error (.invalidPartial index) :=
  verifyPartial_of_not_verifyPartial hphase (participant?_of_nodup hnodup hkey) hround h

end Session

end Musig
end Cosigning
