import Cosigning.Proofs.Lawful

/-!
# The suite of exponents

In this suite a point is its own discrete logarithm.  It has all the laws and none
of the secrecy, so that runs can be followed by evaluation.
-/

namespace Cosigning

open Ciphersuite

/-- A multiple of the base point, named by its scalar. -/
structure Exponent where
  value : Scalar
deriving DecidableEq

namespace Exponent

theorem groupOrder_mod_two : groupOrder % 2 = 1 := by
  decide

theorem val_neg {a : Scalar} (h : a ≠ 0) : (-a).val = groupOrder - a.val := by
  have hpos : 0 < a.val := Nat.pos_of_ne_zero (fun hzero => h (Fin.ext hzero))
  rw [Fin.val_neg', Nat.mod_eq_of_lt (by omega)]

def IsEven (a : Scalar) : Prop :=
  a.val % 2 = 0

instance (a : Scalar) : Decidable (IsEven a) :=
  inferInstanceAs (Decidable (_ = _))

theorem isEven_neg {a : Scalar} (h : a ≠ 0) : IsEven (-a) <-> ¬ IsEven a := by
  have horder := groupOrder_mod_two
  have hlt := a.isLt
  unfold IsEven
  rw [val_neg h]
  omega

def evenOf (a : Scalar) : Scalar :=
  if IsEven a then a else -a

theorem isEven_evenOf {a : Scalar} (h : a ≠ 0) : IsEven (evenOf a) := by
  unfold evenOf
  split
  · assumption
  · rename_i hodd
    exact (isEven_neg h).mpr hodd

def liftX? (x : Bytes32) : Option Exponent :=
  (Scalar.ofBytes? x).bind (fun a => if a ≠ 0 ∧ IsEven a then some ⟨a⟩ else none)

def digest (bytes : List UInt8) : Bytes32 :=
  FixedBytes.ofNat 32 (bytes.foldl (fun total byte => 257 * total + byte.toNat) 1)

instance : Zero Exponent :=
  ⟨⟨0⟩⟩

instance : Add Exponent :=
  ⟨fun p q => ⟨p.value + q.value⟩⟩

instance : Neg Exponent :=
  ⟨fun p => ⟨-p.value⟩⟩

theorem value_ne_zero {p : Exponent} (h : p ≠ 0) : p.value ≠ 0 := by
  intro hzero
  apply h
  rcases p with ⟨a⟩
  cases hzero
  rfl

theorem liftX?_toBytes_evenOf (p : Exponent) (h : p ≠ 0) :
    liftX? (evenOf p.value).toBytes = some (if IsEven p.value then p else -p) := by
  have hvalue := value_ne_zero h
  have hne : evenOf p.value ≠ 0 := by
    unfold evenOf
    split
    · exact hvalue
    · exact neg_ne_zero.mpr hvalue
  unfold liftX?
  rw [Scalar.ofBytes?_toBytes, Option.bind_some, if_pos ⟨hne, isEven_evenOf hvalue⟩]
  unfold evenOf
  split <;> rfl

theorem of_liftX? {x : Bytes32} {p : Exponent} (h : liftX? x = some p) :
    p ≠ 0 ∧ (evenOf p.value).toBytes = x ∧ IsEven p.value := by
  rcases Option.bind_eq_some_iff.mp h with ⟨a, ha, hp⟩
  split at hp
  · rename_i hgood
    cases hp
    refine ⟨fun hzero => hgood.1 (congrArg Exponent.value hzero), ?_, hgood.2⟩
    rw [evenOf, if_pos hgood.2]
    exact (Scalar.eq_toBytes_of_ofBytes? ha).symm
  · cases hp

end Exponent

instance : Ciphersuite Exponent where
  decEq := inferInstance
  base := ⟨1⟩
  scale := fun a p => ⟨a * p.value⟩
  xCoord := fun p => (Exponent.evenOf p.value).toBytes
  yCoord := fun p => p.value.toBytes
  isOdd := fun p => !decide (Exponent.IsEven p.value)
  liftX? := Exponent.liftX?
  hash := fun _ bytes => Exponent.digest bytes
  liftX?_xCoord := fun p h => by
    rw [Exponent.liftX?_toBytes_evenOf p h]
    by_cases heven : Exponent.IsEven p.value <;> simp [heven]
  of_liftX? := fun h => by
    rcases Exponent.of_liftX? h with ⟨hne, hx, heven⟩
    exact ⟨hne, hx, by simp [heven]⟩
  scale_one_base := by decide +kernel

open Fin.CommRing in
instance : LawfulCiphersuite Exponent where
  add_assoc := fun p q r => congrArg Exponent.mk (add_assoc p.value q.value r.value)
  add_comm := fun p q => congrArg Exponent.mk (add_comm p.value q.value)
  zero_add := fun p => congrArg Exponent.mk (zero_add p.value)
  neg_add_cancel := fun p => congrArg Exponent.mk (neg_add_cancel p.value)
  one_scale := fun p => congrArg Exponent.mk (one_mul p.value)
  add_scale := fun a b p => congrArg Exponent.mk (add_mul a b p.value)
  eq_of_scale_base := fun a b h => by
    have hvalue : a * 1 = b * 1 := congrArg Exponent.value h
    rwa [mul_one, mul_one] at hvalue
  isOdd_neg := fun p h => by
    have hneg := Exponent.isEven_neg (Exponent.value_ne_zero h)
    change (!decide (Exponent.IsEven (-p.value))) = !!decide (Exponent.IsEven p.value)
    rw [decide_eq_decide.mpr hneg, decide_not]

namespace Exponent

def pair (value : Nat) : KeyPair Exponent :=
  KeyPair.ofScalarOrOne (Fin.ofNat groupOrder value)

end Exponent

end Cosigning
