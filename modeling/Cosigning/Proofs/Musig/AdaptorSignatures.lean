import Cosigning.Musig.Adaptor
import Cosigning.Proofs.Musig.PartialSignatures

/-!
# Completing adaptor signatures

Adding the secret makes a valid signature, and the difference of the two responses
gives the secret back with its sign, whether or not the adapted nonce is even.
-/

namespace Cosigning
namespace Musig

open Ciphersuite
open Fin.CommRing

variable {P : Type} [Ciphersuite P]

namespace AdaptorSignature

variable {incomplete : AdaptorSignature P} {pair : KeyPair P}

def adaptedNonce (incomplete : AdaptorSignature P) : P :=
  incomplete.nonce.point + incomplete.point.point

def adaptedKey (incomplete : AdaptorSignature P) (hfinite : incomplete.adaptedNonce ≠ 0) :
    PublicKey P :=
  { point := incomplete.adaptedNonce, finite := hfinite }

def adaptedResponse (incomplete : AdaptorSignature P) (pair : KeyPair P) : Scalar :=
  incomplete.response + Scalar.negateIf (isOdd incomplete.adaptedNonce) pair.secret

def completion (incomplete : AdaptorSignature P) (pair : KeyPair P) : Schnorr.Signature :=
  { nonce := xCoord incomplete.adaptedNonce
    response := (incomplete.adaptedResponse pair).toBytes }

theorem complete?_eq_completion (hpoint : pair.publicKey = incomplete.point)
    (hfinite : incomplete.adaptedNonce ≠ 0) :
    incomplete.complete? pair.secret = some (incomplete.completion pair) := by
  have hsum : incomplete.nonce.point + scale pair.secret base = incomplete.adaptedNonce := by
    rw [pair.scale_base, hpoint]
    rfl
  unfold complete? PublicKey.ofPoint?
  rw [hsum, dif_neg hfinite]
  rfl

theorem openSignature_completion (hfinite : incomplete.adaptedNonce ≠ 0) :
    openSignature (incomplete.completion pair) =
      .ok ((incomplete.adaptedKey hfinite).xOnly, incomplete.adaptedResponse pair) := by
  have hnonce : XOnlyKey.ofBytes? (xCoord incomplete.adaptedNonce) =
      some (incomplete.adaptedKey hfinite).xOnly :=
    XOnlyKey.ofBytes?_bytes (incomplete.adaptedKey hfinite).xOnly
  unfold openSignature completion
  simp only [Scalar.ofBytes?_toBytes, hnonce]

variable [LawfulCiphersuite P]

theorem difference?_completion (hpoint : pair.publicKey = incomplete.point)
    (hfinite : incomplete.adaptedNonce ≠ 0) :
    incomplete.difference? (incomplete.adaptedKey hfinite).xOnly
        (incomplete.adaptedResponse pair) =
      some pair.secret := by
  have hgap : incomplete.adaptedResponse pair - incomplete.response =
      Scalar.negateIf (isOdd incomplete.adaptedNonce) pair.secret :=
    add_sub_cancel_left _ _
  have hlift : (incomplete.adaptedKey hfinite).xOnly.lift.point =
      negateIf (isOdd incomplete.adaptedNonce)
        (incomplete.nonce.point + incomplete.point.point) :=
    XOnlyKey.lift_xOnly (incomplete.adaptedKey hfinite)
  unfold difference?
  simp only [hgap, hlift, scale_negateIf, pair.scale_base, hpoint]
  cases hodd : isOdd incomplete.adaptedNonce with
  | false =>
      -- The lifted nonce is the adapted one, so the first sign is right.
      rw [if_pos (by simp [negateIf])]
      rfl
  | true =>
      -- The lifted nonce is the negative; the first sign would make the nonce its own negative.
      have hfirst : negateIf true incomplete.point.point ≠
          negateIf true (incomplete.nonce.point + incomplete.point.point) +
            -incomplete.nonce.point := by
        intro h
        apply neg_ne_self incomplete.nonce.finite
        simp only [negateIf, if_true, neg_add] at h
        rw [add_right_comm, eq_comm, add_eq_right] at h
        rw [add_eq_zero_iff_eq_neg, neg_neg] at h
        exact h
      have hsecond : negateIf true incomplete.point.point =
          negateIf true (incomplete.nonce.point + incomplete.point.point) +
            incomplete.nonce.point := by
        simp [negateIf]
      rw [if_neg hfirst, if_pos hsecond]
      simp [Scalar.negateIf]

theorem reveal_completion (hpoint : pair.publicKey = incomplete.point)
    (hfinite : incomplete.adaptedNonce ≠ 0) :
    incomplete.reveal (incomplete.completion pair) = .ok pair := by
  unfold reveal
  refine bind_eq_ok_iff.mpr ⟨_, openSignature_completion hfinite, ?_⟩
  simp only [difference?_completion hpoint hfinite, KeyPair.ofScalar?_secret]
  exact ensure_bind_eq_ok_iff.mpr ⟨hpoint, rfl⟩

theorem verify_completion {context : KeyContext P} {nonce : AggregateNonce P}
    {message : Bytes32}
    (hincomplete : incomplete.nonce =
      (Round.ofNonce context nonce (some incomplete.point) message).finalNonce)
    (haccepts : (Round.ofNonce context nonce (some incomplete.point) message).accepts
      incomplete.response = true)
    (hpoint : pair.publicKey = incomplete.point) (hfinite : incomplete.adaptedNonce ≠ 0) :
    Schnorr.verify context.aggregate.xOnly message (incomplete.completion pair) = true := by
  have hadapted :
      (Round.ofNonce context nonce (some incomplete.point) message).adaptedNonce =
        incomplete.adaptedNonce := by
    unfold adaptedNonce
    rw [hincomplete]
    rfl
  have hanswers := Round.accepts_iff.mp haccepts
  unfold Round.negatesNonce at hanswers
  rw [hadapted, ← hincomplete] at hanswers
  have hchallenge :
      (Round.ofNonce context nonce (some incomplete.point) message).challenge =
        Schnorr.challenge (xCoord incomplete.adaptedNonce) context.aggregate.xOnly message := by
    rw [← hadapted]
    rfl
  rw [hchallenge] at hanswers
  have hsum : negateIf (isOdd incomplete.adaptedNonce) incomplete.adaptedNonce =
      negateIf (isOdd incomplete.adaptedNonce) incomplete.nonce.point +
        negateIf (isOdd incomplete.adaptedNonce) incomplete.point.point :=
    negateIf_add _ _ _
  apply Schnorr.verify_of_answers hfinite
  unfold adaptedResponse
  rw [LawfulCiphersuite.add_scale, scale_negateIf, pair.scale_base, hpoint, hanswers, hsum,
    add_right_comm]
  rfl

end AdaptorSignature

end Musig
end Cosigning
