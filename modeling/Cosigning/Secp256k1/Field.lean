import Cosigning.Scalar

/-!
# The field of secp256k1

Field elements are numbers below `fieldOrder`.  A number `x` is the x coordinate
of a finite point when `x ^ 3 + 7` has a nonzero square root; `evenRoot?` finds
the even one of the two roots.
-/

namespace Cosigning
namespace Secp256k1

def fieldOrder : Nat :=
  0xfffffffffffffffffffffffffffffffffffffffffffffffffffffffefffffc2f

theorem fieldOrder_pos : 0 < fieldOrder := by
  decide

theorem fieldOrder_lt : fieldOrder < Nat.pow 256 32 := by
  decide

theorem fieldOrder_mod_two : fieldOrder % 2 = 1 := by
  decide

def add (a b : Nat) : Nat :=
  (a + b) % fieldOrder

def sub (a b : Nat) : Nat :=
  (a + (fieldOrder - b)) % fieldOrder

def mul (a b : Nat) : Nat :=
  a * b % fieldOrder

def power (a exponent : Nat) : Nat :=
  (Scalar.bits 256 exponent).foldr
    (fun bit total => if bit then mul (mul total total) a else mul total total) 1

def inverse (a : Nat) : Nat :=
  power a (fieldOrder - 2)

def curveRight (x : Nat) : Nat :=
  add (mul (mul x x) x) 7

def root? (a : Nat) : Option Nat :=
  let candidate := power a ((fieldOrder + 1) / 4)
  if mul candidate candidate = a then some candidate else none

def evenOf (y : Nat) : Nat :=
  if y % 2 = 0 then y else fieldOrder - y

def evenRoot? (x : Nat) : Option Nat :=
  if x < fieldOrder then
    match root? (curveRight x) with
    | some y => if 0 < y ∧ y < fieldOrder then some (evenOf y) else none
    | none => none
  else none

theorem evenOf_pos {y : Nat} (hpos : 0 < y) (hlt : y < fieldOrder) : 0 < evenOf y := by
  unfold evenOf
  split
  · exact hpos
  · exact Nat.sub_pos_of_lt hlt

theorem evenOf_lt {y : Nat} (hpos : 0 < y) (hlt : y < fieldOrder) :
    evenOf y < fieldOrder := by
  unfold evenOf
  split
  · exact hlt
  · exact Nat.sub_lt fieldOrder_pos hpos

theorem evenOf_mod_two {y : Nat} (hlt : y < fieldOrder) : evenOf y % 2 = 0 := by
  have hodd := fieldOrder_mod_two
  unfold evenOf
  split
  · assumption
  · omega

theorem evenOf_sub {y : Nat} (hlt : y < fieldOrder) :
    evenOf (fieldOrder - y) = evenOf y := by
  have hodd := fieldOrder_mod_two
  unfold evenOf
  split <;> split <;> omega

theorem evenRoot?_eq_some {x y : Nat} (h : evenRoot? x = some y) :
    x < fieldOrder ∧ 0 < y ∧ y < fieldOrder ∧ y % 2 = 0 := by
  unfold evenRoot? at h
  split at h
  case isFalse => cases h
  case isTrue hx =>
    split at h
    case h_2 => cases h
    case h_1 root hroot =>
      split at h
      case isFalse => cases h
      case isTrue hbounds =>
        cases h
        exact ⟨hx, evenOf_pos hbounds.1 hbounds.2, evenOf_lt hbounds.1 hbounds.2,
          evenOf_mod_two hbounds.2⟩

end Secp256k1
end Cosigning
