import Cosigning.Musig.Round
import Cosigning.Proofs.Musig.KeyAggregation
import Cosigning.Proofs.Schnorr

/-!
# Partial signatures add up

The signs of the participants' keys, of the aggregate key and of the nonce cancel
out, first in every partial signature and then in their sum.
-/

namespace Cosigning
namespace Musig

open Ciphersuite

variable {P : Type} [Ciphersuite P] [LawfulCiphersuite P]

namespace Round

variable {round : Round P}

def effectiveNonce (round : Round P) (nonce : PublicNonce P) : P :=
  nonce.first.point + scale round.nonceFactor nonce.second.point

def effectiveKey (round : Round P) (signer : PublicKey P) : P :=
  scale round.challenge (scale (coefficient round.context.keys signer) signer.point)

theorem verifyPartial_iff {signer : PublicKey P} {nonce : PublicNonce P} {response : Scalar} :
    round.verifyPartial signer nonce response = true <->
      scale response base =
        negateIf round.negatesNonce (round.effectiveNonce nonce) +
          negateIf round.negatesKey (round.effectiveKey signer) := by
  unfold verifyPartial effectiveNonce effectiveKey
  rw [decide_eq_true_iff, mul_scale]

omit [LawfulCiphersuite P] in
theorem accepts_iff {response : Scalar} :
    round.accepts response = true <->
      scale response base =
        negateIf round.negatesNonce round.finalNonce.point +
          scale round.challenge
            (negateIf round.context.aggregate.isOdd round.context.aggregate.point) :=
  decide_eq_true_iff

theorem verifyPartial_partialSignature {secret : Scalar} {signer : PublicKey P}
    {nonce : SecretNonce P} (h : scale secret base = signer.point) :
    round.verifyPartial signer nonce.toPublic
      (round.partialSignature secret signer nonce) = true := by
  have hnonce :
      scale (nonce.first.secret + round.nonceFactor * nonce.second.secret) base =
        round.effectiveNonce nonce.toPublic := by
    rw [LawfulCiphersuite.add_scale, mul_scale, nonce.first.scale_base,
      nonce.second.scale_base]
    rfl
  have hkey :
      scale (round.challenge * coefficient round.context.keys signer *
          Scalar.negateIf round.negatesKey secret) base =
        negateIf round.negatesKey (round.effectiveKey signer) := by
    rw [mul_scale, mul_scale, scale_negateIf, h, ← negateIf_scale, ← negateIf_scale]
    rfl
  rw [verifyPartial_iff]
  unfold partialSignature
  rw [LawfulCiphersuite.add_scale, scale_negateIf, hnonce, hkey]

theorem eq_of_verifyPartial {signer : PublicKey P} {nonce : PublicNonce P}
    {response other : Scalar} (h : round.verifyPartial signer nonce response = true)
    (hother : round.verifyPartial signer nonce other = true) : response = other :=
  scale_base_inj.mp ((verifyPartial_iff.mp h).trans (verifyPartial_iff.mp hother).symm)

/-!
## The sum
-/

omit [LawfulCiphersuite P] in
open Fin.CommRing in
theorem combine_eq_iff {partials others : List Scalar} :
    round.combine partials = round.combine others <-> partials.sum = others.sum :=
  add_left_inj _

theorem eq_of_accepts {response other : Scalar} (h : round.accepts response = true)
    (hother : round.accepts other = true) : response = other :=
  scale_base_inj.mp ((accepts_iff.mp h).trans (accepts_iff.mp hother).symm)

theorem sum_effectiveNonce {ι : Type} (places : List ι) (nonces : ι -> PublicNonce P) :
    (places.map (fun i => round.effectiveNonce (nonces i))).sum =
      (AggregateNonce.ofList (places.map nonces)).first +
        scale round.nonceFactor (AggregateNonce.ofList (places.map nonces)).second := by
  unfold AggregateNonce.ofList effectiveNonce
  simp only [sum_eq, scale_sum, List.map_map]
  exact List.sum_map_add

theorem sum_effectiveKey {ι : Type} (places : List ι) (keys : ι -> PublicKey P)
    (hkeys : round.context.keys = places.map keys) :
    (places.map (fun i => round.effectiveKey (keys i))).sum =
      scale round.challenge (aggregatePoint round.context.keys) := by
  unfold aggregatePoint effectiveKey
  simp only [sum_eq, scale_sum, hkeys, List.map_map]
  rfl

theorem accepts_combine {ι : Type} (places : List ι) (keys : ι -> PublicKey P)
    (nonces : ι -> PublicNonce P) (responses : ι -> Scalar)
    (hkeys : round.context.keys = places.map keys)
    (hnonce : round.finalNonce.point =
      (AggregateNonce.ofList (places.map nonces)).first +
        scale round.nonceFactor (AggregateNonce.ofList (places.map nonces)).second)
    (accounts : round.context.Accounts)
    (hpartials : forall i, i ∈ places ->
      round.verifyPartial (keys i) (nonces i) (responses i) = true) :
    round.accepts (round.combine (places.map responses)) = true := by
  have hsum :
      scale ((places.map responses).sum) base =
        negateIf round.negatesNonce round.finalNonce.point +
          negateIf round.negatesKey
            (scale round.challenge (aggregatePoint round.context.keys)) := by
    rw [hnonce, ← sum_effectiveNonce, ← sum_effectiveKey places keys hkeys, negateIf_sum,
      negateIf_sum, sum_scale]
    simp only [List.map_map]
    rw [← List.sum_map_add]
    apply congrArg List.sum
    apply List.map_congr_left
    intro i hi
    exact verifyPartial_iff.mp (hpartials i hi)
  have hkey :
      scale round.challenge
          (negateIf round.context.aggregate.isOdd round.context.aggregate.point) =
        negateIf round.negatesKey
            (scale round.challenge (aggregatePoint round.context.keys)) +
          negateIf round.context.aggregate.isOdd
            (scale (round.challenge * round.context.offset) base) := by
    rw [accounts, negateIf_add, negateIf_negateIf, scale_add, ← negateIf_scale,
      ← negateIf_scale, mul_scale, Bool.xor_comm]
    rfl
  rw [accepts_iff]
  unfold combine
  rw [LawfulCiphersuite.add_scale, scale_negateIf, hkey, ← add_assoc, ← hsum]
  rfl

/-!
## The final nonce
-/

def nonceSum (context : KeyContext P) (nonce : AggregateNonce P) (message : Bytes32) : P :=
  nonce.first + scale (factorFor context nonce message) nonce.second

omit [LawfulCiphersuite P] in
theorem point_finiteOrBase {point : P} (h : point ≠ 0) : (finiteOrBase point).point = point := by
  unfold finiteOrBase PublicKey.ofPoint?
  rw [dif_neg h]
  rfl

omit [LawfulCiphersuite P] in
theorem finalNonce_ofNonce {context : KeyContext P} {nonce : AggregateNonce P}
    {adaptorPoint : Option (PublicKey P)} {message : Bytes32}
    (h : nonceSum context nonce message ≠ 0) :
    (ofNonce context nonce adaptorPoint message).finalNonce.point =
      nonceSum context nonce message :=
  point_finiteOrBase h

theorem accepts_ofFn {count : Nat} {keys : Fin count -> PublicKey P}
    {nonces : Fin count -> PublicNonce P} {responses : Fin count -> Scalar}
    {context : KeyContext P} {adaptorPoint : Option (PublicKey P)} {message : Bytes32}
    (hkeys : context.keys = List.ofFn keys) (accounts : context.Accounts)
    (hfinite : nonceSum context (AggregateNonce.ofList (List.ofFn nonces)) message ≠ 0)
    (hpartials : forall i,
      (ofNonce context (AggregateNonce.ofList (List.ofFn nonces)) adaptorPoint
        message).verifyPartial (keys i) (nonces i) (responses i) = true) :
    (ofNonce context (AggregateNonce.ofList (List.ofFn nonces)) adaptorPoint message).accepts
      ((ofNonce context (AggregateNonce.ofList (List.ofFn nonces)) adaptorPoint message).combine
        (List.ofFn responses)) = true := by
  have hfinal :
      (ofNonce context (AggregateNonce.ofList (List.ofFn nonces)) adaptorPoint
        message).finalNonce.point = _ :=
    finalNonce_ofNonce hfinite
  rw [List.ofFn_eq_map] at hkeys hfinal hpartials ⊢
  rw [List.ofFn_eq_map]
  exact accepts_combine (List.finRange count) keys nonces responses hkeys hfinal accounts
    (fun i _ => hpartials i)

end Round

/-!
## The signature
-/

theorem Round.verify_of_accepts {context : KeyContext P} {nonce : AggregateNonce P}
    {message : Bytes32} {response : Scalar}
    (h : (ofNonce context nonce none message).accepts response = true) :
    Schnorr.verify context.aggregate.xOnly message
      { nonce := xCoord (ofNonce context nonce none message).finalNonce.point
        response := response.toBytes } = true :=
  Schnorr.verify_of_answers (ofNonce context nonce none message).finalNonce.finite
    (Round.accepts_iff.mp h)

end Musig
end Cosigning
