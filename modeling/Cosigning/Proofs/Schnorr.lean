import Cosigning.Proofs.Lawful
import Cosigning.Schnorr

/-!
# Signatures are valid

A response that answers the challenge makes a valid signature, whatever the parities of the nonce
and of the key.  Signing with a secret gives such a response.
-/

namespace Cosigning

open Ciphersuite

variable {P : Type} [Ciphersuite P]

theorem KeyPair.ofScalar?_secret (pair : KeyPair P) : ofScalar? pair.secret = some pair := by
  have hfinite : scale pair.secret (base : P) ≠ 0 := by
    rw [pair.scale_base]
    exact pair.publicKey.finite
  unfold ofScalar?
  simp only [dif_neg hfinite, Option.some.injEq]
  exact KeyPair.ext rfl

namespace Schnorr

variable [LawfulCiphersuite P]

theorem verify_of_answers {nonce : P} {key : PublicKey P} {message : Bytes32} {response : Scalar}
    (hfinite : nonce ≠ 0)
    (h : scale response base =
      negateIf (isOdd nonce) nonce +
        scale (challenge (xCoord nonce) key.xOnly message) (negateIf key.isOdd key.point)) :
    verify key.xOnly message { nonce := xCoord nonce, response := response.toBytes } = true := by
  have hpoint :
      scale response base +
          -scale (challenge (xCoord nonce) key.xOnly message) key.xOnly.lift.point =
        negateIf (isOdd nonce) nonce := by
    rw [h, XOnlyKey.lift_xOnly, add_neg_cancel_right]
  unfold verify
  simp only [Scalar.ofBytes?_toBytes, hpoint]
  rw [isOdd_evened _ hfinite, xCoord_evened _ hfinite]
  simpa [negateIf_eq_zero_iff] using hfinite

theorem verify_sign (pair : KeyPair P) (aux message : Bytes32) :
    verify pair.xOnly message (sign pair aux message) = true := by
  apply verify_of_answers (deriveNonce pair _ aux message).publicKey.finite
  rw [LawfulCiphersuite.add_scale, mul_scale, scale_negateIf, scale_negateIf, pair.scale_base,
    KeyPair.scale_base]
  rfl

end Schnorr

end Cosigning
