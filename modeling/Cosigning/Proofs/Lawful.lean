import Cosigning.Key
import Mathlib.Algebra.Field.ZMod
import Mathlib.Algebra.Module.Basic
import Mathlib.Algebra.Module.BigOperators

/-!
# Lawful ciphersuites

A ciphersuite is lawful when its points are a group on which the scalars act, the
multiples of the base point are all different, and a finite point and its negative
differ in parity.
-/

namespace Cosigning

open Ciphersuite
open Fin.CommRing

/-- The laws of the group that signatures are made in. -/
class LawfulCiphersuite (P : Type) [Ciphersuite P] : Prop where
  add_assoc : forall p q r : P, p + q + r = p + (q + r)
  add_comm : forall p q : P, p + q = q + p
  zero_add : forall p : P, 0 + p = p
  neg_add_cancel : forall p : P, -p + p = 0
  one_scale : forall p : P, scale 1 p = p
  add_scale : forall (a b : Scalar) (p : P), scale (a + b) p = scale a p + scale b p
  eq_of_scale_base : forall a b : Scalar, scale a (base : P) = scale b base -> a = b
  isOdd_neg : forall p : P, p ≠ 0 -> isOdd (-p) = !isOdd p

namespace Ciphersuite

variable {P : Type} [Ciphersuite P] [LawfulCiphersuite P]

-- Statements are about the operations of the suite, whichever way they are reached.
attribute [instance (2000)] Ciphersuite.toZero Ciphersuite.toAdd Ciphersuite.toNeg

instance (priority := low) : AddCommGroup P where
  add_assoc := LawfulCiphersuite.add_assoc
  zero_add := LawfulCiphersuite.zero_add
  add_zero := fun p => by rw [LawfulCiphersuite.add_comm, LawfulCiphersuite.zero_add]
  neg_add_cancel := LawfulCiphersuite.neg_add_cancel
  add_comm := LawfulCiphersuite.add_comm
  nsmul := nsmulRec
  zsmul := zsmulRec

/-!
## Multiples of a point
-/

def multiples (p : P) : Scalar →+ P :=
  AddMonoidHom.mk' (fun a => scale a p) (fun a b => LawfulCiphersuite.add_scale a b p)

theorem scale_eq_nsmul (a : Scalar) (p : P) : scale a p = a.val • p := by
  have hone : a.val • (1 : Scalar) = a := by
    rw [nsmul_one]
    exact Fin.cast_val_eq_self a
  have h := map_nsmul (multiples p) a.val 1
  rw [hone] at h
  rw [show multiples p 1 = p from LawfulCiphersuite.one_scale p] at h
  exact h

theorem scale_add (a : Scalar) (p q : P) : scale a (p + q) = scale a p + scale a q := by
  rw [scale_eq_nsmul, scale_eq_nsmul, scale_eq_nsmul, nsmul_add]

theorem mul_scale (a b : Scalar) (p : P) : scale (a * b) p = scale a (scale b p) := by
  have hmul : a.val • b = a * b := by
    rw [nsmul_eq_mul]
    exact congrArg (fun c => c * b) (Fin.cast_val_eq_self a)
  have h := map_nsmul (multiples p) a.val b
  rw [hmul] at h
  rw [scale_eq_nsmul a]
  exact h

theorem zero_scale (p : P) : scale 0 p = 0 :=
  map_zero (multiples p)

theorem neg_scale (a : Scalar) (p : P) : scale (-a) p = -scale a p :=
  map_neg (multiples p) a

theorem scale_zero (a : Scalar) : scale a (0 : P) = 0 := by
  rw [scale_eq_nsmul, nsmul_zero]

theorem scale_neg (a : Scalar) (p : P) : scale a (-p) = -scale a p := by
  rw [scale_eq_nsmul, scale_eq_nsmul, neg_nsmul]

theorem scale_base_inj {a b : Scalar} : scale a (base : P) = scale b base <-> a = b :=
  ⟨LawfulCiphersuite.eq_of_scale_base a b, fun h => congrArg (fun c => scale c base) h⟩

/-!
## Signs
-/

@[simp] theorem negateIf_zero (flag : Bool) : negateIf flag (0 : P) = 0 := by
  cases flag <;> simp [negateIf]

theorem negateIf_add (flag : Bool) (p q : P) :
    negateIf flag (p + q) = negateIf flag p + negateIf flag q := by
  cases flag with
  | false => rfl
  | true => exact neg_add p q

theorem negateIf_negateIf (outer inner : Bool) (p : P) :
    negateIf outer (negateIf inner p) = negateIf (inner ^^ outer) p := by
  cases outer <;> cases inner <;> simp [negateIf]

theorem negateIf_scale (flag : Bool) (a : Scalar) (p : P) :
    negateIf flag (scale a p) = scale a (negateIf flag p) := by
  cases flag with
  | false => rfl
  | true => exact (scale_neg a p).symm

theorem scale_negateIf (flag : Bool) (a : Scalar) (p : P) :
    scale (Scalar.negateIf flag a) p = negateIf flag (scale a p) := by
  cases flag with
  | false => rfl
  | true => exact neg_scale a p

theorem negateIf_eq_zero_iff {flag : Bool} {p : P} : negateIf flag p = 0 <-> p = 0 := by
  cases flag with
  | false => rfl
  | true => exact neg_eq_zero

/-!
## Sums
-/

omit [LawfulCiphersuite P] in
theorem sum_eq (points : List P) : Ciphersuite.sum points = points.sum :=
  rfl

theorem scale_sum (a : Scalar) (points : List P) :
    scale a points.sum = (points.map (scale a)).sum := by
  induction points with
  | nil => exact scale_zero a
  | cons point rest ih => rw [List.sum_cons, scale_add, ih, List.map_cons, List.sum_cons]

theorem sum_scale (scalars : List Scalar) (p : P) :
    scale scalars.sum p = (scalars.map (fun a => scale a p)).sum := by
  induction scalars with
  | nil => exact zero_scale p
  | cons a rest ih =>
      rw [List.sum_cons, LawfulCiphersuite.add_scale, ih, List.map_cons, List.sum_cons]

theorem negateIf_sum (flag : Bool) (points : List P) :
    negateIf flag points.sum = (points.map (negateIf flag)).sum := by
  induction points with
  | nil => exact negateIf_zero flag
  | cons point rest ih => rw [List.sum_cons, negateIf_add, ih, List.map_cons, List.sum_cons]

/-!
## Parities and x coordinates
-/

theorem isOdd_negateIf {flag : Bool} {p : P} (hp : p ≠ 0) :
    isOdd (negateIf flag p) = (isOdd p ^^ flag) := by
  cases flag with
  | false => simp [negateIf]
  | true =>
      rw [Bool.xor_true]
      exact LawfulCiphersuite.isOdd_neg p hp

theorem neg_ne_self {p : P} (hp : p ≠ 0) : -p ≠ p := by
  intro h
  have hodd := LawfulCiphersuite.isOdd_neg p hp
  rw [h] at hodd
  cases hparity : isOdd p <;> simp [hparity] at hodd

theorem isOdd_evened (p : P) (hp : p ≠ 0) : isOdd (negateIf (isOdd p) p) = false := by
  rw [isOdd_negateIf hp, Bool.xor_self]

omit [LawfulCiphersuite P] in
theorem xCoord_evened (p : P) (hp : p ≠ 0) : xCoord (negateIf (isOdd p) p) = xCoord p :=
  (of_liftX? (liftX?_xCoord p hp)).2.1

theorem xCoord_neg (p : P) (hp : p ≠ 0) : xCoord (-p) = xCoord p := by
  -- One of the two is the even one, with the x coordinate of the other.
  cases hodd : isOdd p with
  | true =>
      have h := xCoord_evened p hp
      rw [hodd] at h
      exact h
  | false =>
      have h := xCoord_evened (-p) (neg_ne_zero.mpr hp)
      rw [LawfulCiphersuite.isOdd_neg p hp, hodd] at h
      exact (congrArg xCoord (neg_neg p)).symm.trans h |>.symm

theorem xCoord_eq_iff {p q : P} (hp : p ≠ 0) (hq : q ≠ 0) :
    xCoord p = xCoord q <-> p = q ∨ p = -q := by
  constructor
  · intro h
    have hlift := liftX?_xCoord p hp
    rw [h, liftX?_xCoord q hq] at hlift
    have heven : negateIf (isOdd q) q = negateIf (isOdd p) p := Option.some.inj hlift
    cases hodd : isOdd p <;> cases hoddq : isOdd q <;>
      simp only [hodd, hoddq, negateIf, Bool.false_eq_true, if_true, if_false] at heven
    · exact Or.inl heven.symm
    · exact Or.inr heven.symm
    · exact Or.inr (neg_eq_iff_eq_neg.mp heven.symm)
    · exact Or.inl (neg_injective heven.symm)
  · intro h
    rcases h with rfl | rfl
    · rfl
    · exact xCoord_neg q hq

end Ciphersuite

namespace XOnlyKey

variable {P : Type} [Ciphersuite P]

theorem lift_xOnly (key : PublicKey P) :
    key.xOnly.lift.point = negateIf key.isOdd key.point := by
  have h := liftX?_xCoord key.point key.finite
  exact Option.get_of_eq_some _ h

theorem xOnly_lift (key : XOnlyKey P) : key.lift.xOnly = key :=
  ext (of_liftX? (Option.some_get key.lifts).symm).2.1

end XOnlyKey

namespace PublicKey

variable {P : Type} [Ciphersuite P] [LawfulCiphersuite P]

theorem xOnly_eq_iff {a b : PublicKey P} :
    a.xOnly = b.xOnly <-> a.point = b.point ∨ a.point = -b.point := by
  rw [← xCoord_eq_iff a.finite b.finite]
  exact ⟨fun h => congrArg XOnlyKey.bytes h, fun h => XOnlyKey.ext h⟩

end PublicKey

end Cosigning
