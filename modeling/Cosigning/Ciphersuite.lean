import Cosigning.Hash.Tagged
import Cosigning.Scalar

/-!
# Ciphersuites

A ciphersuite is what Schnorr signatures with x-only keys are built on: a group
of points generated by a base point, in which a finite point is named up to its
sign by an x coordinate and told from its negative by a parity, and a hash for
each purpose.  The group laws themselves are not part of the class; it asks only
for what makes keys well formed.
-/

namespace Cosigning

/-- A group of points with x coordinates and parities, and a tagged hash. -/
class Ciphersuite (P : Type) extends Zero P, Add P, Neg P where
  decEq : DecidableEq P
  base : P
  scale : Scalar -> P -> P
  /-- The x coordinate; all zeros for the point at infinity. -/
  xCoord : P -> Bytes32
  yCoord : P -> Bytes32
  /-- Whether the y coordinate is odd; the point at infinity counts as even. -/
  isOdd : P -> Bool
  liftX? : Bytes32 -> Option P
  hash : Tag -> List UInt8 -> Bytes32
  liftX?_xCoord : forall point : P, point ≠ 0 ->
    liftX? (xCoord point) = some (if isOdd point then -point else point)
  of_liftX? : forall {x : Bytes32} {point : P}, liftX? x = some point ->
    point ≠ 0 ∧ xCoord point = x ∧ isOdd point = false
  scale_one_base : scale 1 base ≠ 0

namespace Ciphersuite

variable {P : Type} [Ciphersuite P]

instance (priority := low) : DecidableEq P :=
  Ciphersuite.decEq

def negateIf (flag : Bool) (point : P) : P :=
  if flag then -point else point

def sum (points : List P) : P :=
  points.foldr (fun point total => point + total) 0

/-- A point in thirty-three bytes: a parity byte and the x coordinate, or all zeros for infinity. -/
def compress (point : P) : List UInt8 :=
  if point = 0 then List.replicate 33 0
  else (if isOdd point then 3 else 2) :: (xCoord point).toList

end Ciphersuite

end Cosigning
