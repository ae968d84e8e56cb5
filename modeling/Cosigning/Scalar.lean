import Cosigning.Bytes

/-!
# Scalars

Scalars are the integers modulo the order of the group that signatures are made
in.  They are written as thirty-two bytes, big-endian.
-/

namespace Cosigning

def groupOrder : Nat :=
  0xfffffffffffffffffffffffffffffffebaaedce6af48a03bbfd25e8cd0364141

instance : @NeZero Nat Zero.ofOfNat0 groupOrder :=
  ⟨by decide⟩

abbrev Scalar := Fin groupOrder

theorem groupOrder_lt : groupOrder < Nat.pow 256 32 := by
  decide

namespace Scalar

def toBytes (a : Scalar) : Bytes32 :=
  FixedBytes.ofNat 32 a.val

def ofBytes? (bytes : Bytes32) : Option Scalar :=
  if h : bytes.toNat < groupOrder then some ⟨bytes.toNat, h⟩ else none

def reduce (bytes : Bytes32) : Scalar :=
  Fin.ofNat groupOrder bytes.toNat

@[simp] theorem ofBytes?_toBytes (a : Scalar) : ofBytes? (toBytes a) = some a := by
  have hlt : a.val < Nat.pow 256 32 := Nat.lt_trans a.isLt groupOrder_lt
  have hval : (toBytes a).toNat = a.val := FixedBytes.toNat_ofNat_of_lt hlt
  simp [ofBytes?, hval]

theorem eq_toBytes_of_ofBytes? {bytes : Bytes32} {a : Scalar}
    (h : ofBytes? bytes = some a) : bytes = toBytes a := by
  unfold ofBytes? at h
  split at h
  · cases h
    simp [toBytes]
  · cases h

def negateIf (flag : Bool) (a : Scalar) : Scalar :=
  if flag then -a else a

def bits : Nat -> Nat -> List Bool
  | 0, _ => []
  | count + 1, value => (value % 2 == 1) :: bits count (value / 2)

end Scalar

end Cosigning
