import Cosigning.Ciphersuite
import Cosigning.Secp256k1.Field

/-!
# The points of secp256k1

A finite point carries the evidence that its x coordinate lifts to it or to its
negative, so that the x coordinate of a point is always a well formed key.
Points are added in projective coordinates by formulas that have no exceptional
cases on this curve.
-/

namespace Cosigning
namespace Secp256k1

/-- That `(x, y)` is a finite point: `x` lifts to the even one of `y` and its negative. -/
def OnCurve (x y : Nat) : Prop :=
  (0 < y ∧ y < fieldOrder) ∧ evenRoot? x = some (evenOf y)

instance (x y : Nat) : Decidable (OnCurve x y) :=
  inferInstanceAs (Decidable (_ ∧ _))

theorem OnCurve.neg {x y : Nat} (h : OnCurve x y) : OnCurve x (fieldOrder - y) := by
  obtain ⟨⟨hpos, hlt⟩, hroot⟩ := h
  refine ⟨⟨Nat.sub_pos_of_lt hlt, Nat.sub_lt fieldOrder_pos hpos⟩, ?_⟩
  rw [evenOf_sub hlt]
  exact hroot

theorem onCurve_of_evenRoot? {x y : Nat} (h : evenRoot? x = some y) : OnCurve x y := by
  obtain ⟨_, hpos, hlt, heven⟩ := evenRoot?_eq_some h
  refine ⟨⟨hpos, hlt⟩, ?_⟩
  rw [h, show evenOf y = if y % 2 = 0 then y else _ from rfl, if_pos heven]

inductive Point where
  | infinity
  | finite (x y : Nat) (onCurve : OnCurve x y)
deriving DecidableEq

namespace Point

/-- The point with given coordinates; infinity stands for coordinates off the curve. -/
def ofCoordinates (x y : Nat) : Point :=
  if h : OnCurve x y then finite x y h else infinity

def neg : Point -> Point
  | infinity => infinity
  | finite x y h => finite x (fieldOrder - y) h.neg

end Point

/-- Coordinates up to a common factor: `(x / z, y / z)`, and infinity where `z` is zero. -/
structure Projective where
  x : Nat
  y : Nat
  z : Nat

namespace Projective

def infinity : Projective :=
  { x := 0, y := 1, z := 0 }

def ofPoint : Point -> Projective
  | Point.infinity => infinity
  | Point.finite x y _ => { x := x, y := y, z := 1 }

/-- The sum of two points, by the complete formulas for curves `y ^ 2 = x ^ 3 + 7`. -/
def add (p q : Projective) : Projective :=
  let xx := mul p.x q.x
  let yy := mul p.y q.y
  let zz21 := mul 21 (mul p.z q.z)
  let xy := Secp256k1.add (mul p.x q.y) (mul q.x p.y)
  let xz := Secp256k1.add (mul p.x q.z) (mul q.x p.z)
  let yz := Secp256k1.add (mul p.y q.z) (mul q.y p.z)
  let minus := sub yy zz21
  let plus := Secp256k1.add yy zz21
  let xz21 := mul 21 xz
  let xx3 := mul 3 xx
  { x := sub (mul xy minus) (mul xz21 yz)
    y := Secp256k1.add (mul plus minus) (mul xz21 xx3)
    z := Secp256k1.add (mul yz plus) (mul xx3 xy) }

def scale (factor : Nat) (p : Projective) : Projective :=
  (Scalar.bits 256 factor).foldr
    (fun bit total => if bit then add (add total total) p else add total total) infinity

def toPoint (p : Projective) : Point :=
  if p.z = 0 then Point.infinity
  else
    let factor := inverse p.z
    Point.ofCoordinates (mul p.x factor) (mul p.y factor)

end Projective

namespace Point

def base : Point :=
  ofCoordinates
    0x79be667ef9dcbbac55a06295ce870b07029bfcdb2dce28d959f2815b16f81798
    0x483ada7726a3c4655da4fbfc0e1108a8fd17b448a68554199c47d08ffb10d4b8

def add : Point -> Point -> Point
  | infinity, q => q
  | p, infinity => p
  | p, q => ((Projective.ofPoint p).add (Projective.ofPoint q)).toPoint

def scale (factor : Scalar) (p : Point) : Point :=
  ((Projective.ofPoint p).scale factor.val).toPoint

def xCoord : Point -> Bytes32
  | infinity => FixedBytes.ofNat 32 0
  | finite x _ _ => FixedBytes.ofNat 32 x

def yCoord : Point -> Bytes32
  | infinity => FixedBytes.ofNat 32 0
  | finite _ y _ => FixedBytes.ofNat 32 y

def isOdd : Point -> Bool
  | infinity => false
  | finite _ y _ => y % 2 == 1

def liftX? (x : Bytes32) : Option Point :=
  match h : evenRoot? x.toNat with
  | some y => some (finite x.toNat y (onCurve_of_evenRoot? h))
  | none => none

theorem liftX?_eq_some {x : Bytes32} {y : Nat} (h : evenRoot? x.toNat = some y) :
    liftX? x = some (finite x.toNat y (onCurve_of_evenRoot? h)) := by
  unfold liftX?
  split
  case h_1 root hroot =>
    rw [h] at hroot
    cases hroot
    rfl
  case h_2 hnone =>
    rw [h] at hnone
    cases hnone

theorem toNat_xCoord {x y : Nat} (h : OnCurve x y) : (xCoord (finite x y h)).toNat = x := by
  have hx : x < fieldOrder := (evenRoot?_eq_some h.2).1
  exact FixedBytes.toNat_ofNat_of_lt (Nat.lt_trans hx fieldOrder_lt)

theorem liftX?_xCoord (p : Point) (hp : p ≠ infinity) :
    liftX? (xCoord p) = some (if isOdd p then neg p else p) := by
  cases p with
  | infinity => exact absurd rfl hp
  | finite x y h =>
      have hroot : evenRoot? (xCoord (finite x y h)).toNat = some (evenOf y) := by
        rw [toNat_xCoord]
        exact h.2
      rw [liftX?_eq_some hroot]
      by_cases heven : y % 2 = 0
      · simp [isOdd, toNat_xCoord, evenOf, heven]
      · have hodd : y % 2 = 1 := by omega
        simp [isOdd, neg, toNat_xCoord, evenOf, hodd]

theorem of_liftX? {x : Bytes32} {p : Point} (h : liftX? x = some p) :
    p ≠ infinity ∧ xCoord p = x ∧ isOdd p = false := by
  unfold liftX? at h
  split at h
  case h_2 => cases h
  case h_1 y hroot =>
    cases h
    obtain ⟨_, _, _, heven⟩ := evenRoot?_eq_some hroot
    refine ⟨Point.noConfusion, ?_, ?_⟩
    · simp [xCoord]
    · simp [isOdd, heven]

end Point

instance : Zero Point :=
  ⟨Point.infinity⟩

instance : Ciphersuite Point where
  add := Point.add
  neg := Point.neg
  decEq := inferInstance
  base := Point.base
  scale := Point.scale
  xCoord := Point.xCoord
  yCoord := Point.yCoord
  isOdd := Point.isOdd
  liftX? := Point.liftX?
  hash := taggedSha256
  liftX?_xCoord := Point.liftX?_xCoord
  of_liftX? := Point.of_liftX?
  scale_one_base := by decide +kernel

end Secp256k1
end Cosigning
