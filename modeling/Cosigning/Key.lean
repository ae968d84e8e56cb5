import Cosigning.Ciphersuite
import Cosigning.Text.Hex

/-!
# Keys

A public key is a finite point.  Most of the library names it by its x coordinate
alone, as an x-only key, which stands for the even one of two points.  A key pair
holds a secret scalar with its public key.
-/

namespace Cosigning

open Ciphersuite

variable {P : Type} [Ciphersuite P]

structure PublicKey (P : Type) [Ciphersuite P] where
  point : P
  finite : point ≠ 0

structure XOnlyKey (P : Type) [Ciphersuite P] where
  bytes : Bytes32
  lifts : (liftX? (P := P) bytes).isSome = true

namespace PublicKey

@[ext] theorem ext {a b : PublicKey P} (h : a.point = b.point) : a = b := by
  cases a
  cases b
  cases h
  rfl

instance : DecidableEq (PublicKey P) := fun a b =>
  if h : a.point = b.point then isTrue (ext h) else isFalse (fun hab => h (by rw [hab]))

def ofPoint? (point : P) : Option (PublicKey P) :=
  if h : point = 0 then none else some { point := point, finite := h }

theorem ofPoint?_eq_some_iff {point : P} {key : PublicKey P} :
    ofPoint? point = some key <-> key.point = point := by
  unfold ofPoint?
  by_cases h : point = 0
  · rw [dif_pos h]
    constructor
    · intro hnone
      cases hnone
    · intro hpoint
      exact absurd (hpoint.trans h) key.finite
  · rw [dif_neg h]
    constructor
    · intro hsome
      cases hsome
      rfl
    · intro hpoint
      exact congrArg some (ext hpoint.symm)

def isOdd (key : PublicKey P) : Bool :=
  Ciphersuite.isOdd key.point

def xOnly (key : PublicKey P) : XOnlyKey P :=
  { bytes := xCoord key.point
    lifts := by rw [liftX?_xCoord key.point key.finite]; rfl }

def toBytes (key : PublicKey P) : List UInt8 :=
  compress key.point

def toHex (key : PublicKey P) : String :=
  Hex.encode key.toBytes

def ofCoordinate? (odd : Bool) (x : Bytes32) : Option (PublicKey P) :=
  (liftX? x).bind (fun point => ofPoint? (negateIf odd point))

def ofCoordinates? (x y : Bytes32) : Option (PublicKey P) :=
  (liftX? x).bind (fun point =>
    if yCoord point = y then ofPoint? point
    else if yCoord (-point) = y then ofPoint? (-point)
    else none)

def ofCompressed? : List UInt8 -> Option (PublicKey P)
  | head :: rest =>
      if head = 2 ∨ head = 3 then
        (FixedBytes.ofList? 32 rest).bind (ofCoordinate? (head = 3))
      else none
  | [] => none

/-- Read sixty-five bytes: a form byte and both coordinates; two of the forms also say the parity. -/
def ofUncompressed? : List UInt8 -> Option (PublicKey P)
  | head :: rest =>
      match FixedBytes.ofList? 32 (rest.take 32), FixedBytes.ofList? 32 (rest.drop 32) with
      | some x, some y =>
          (ofCoordinates? x y).filter (fun key =>
            head = 4 || (head = 6 && !key.isOdd) || (head = 7 && key.isOdd))
      | _, _ => none
  | [] => none

def ofBytes? (bytes : List UInt8) : Option (PublicKey P) :=
  if bytes.length = 33 then ofCompressed? bytes
  else if bytes.length = 65 then ofUncompressed? bytes
  else none

def ofHex? (text : String) : Option (PublicKey P) :=
  match Hex.decode text with
  | .ok bytes => ofBytes? bytes
  | .error _ => none

end PublicKey

namespace XOnlyKey

@[ext] theorem ext {a b : XOnlyKey P} (h : a.bytes = b.bytes) : a = b := by
  cases a
  cases b
  cases h
  rfl

instance : DecidableEq (XOnlyKey P) := fun a b =>
  if h : a.bytes = b.bytes then isTrue (ext h) else isFalse (fun hab => h (by rw [hab]))

def ofBytes? (bytes : Bytes32) : Option (XOnlyKey P) :=
  if h : (liftX? (P := P) bytes).isSome = true then some { bytes := bytes, lifts := h } else none

@[simp] theorem ofBytes?_bytes (key : XOnlyKey P) : ofBytes? key.bytes = some key := by
  simp [ofBytes?, key.lifts]

theorem ofBytes?_eq_some_iff {bytes : Bytes32} {key : XOnlyKey P} :
    ofBytes? bytes = some key <-> bytes = key.bytes := by
  constructor
  · intro h
    unfold ofBytes? at h
    split at h
    · cases h
      rfl
    · cases h
  · intro h
    subst h
    simp

def ofList? (bytes : List UInt8) : Option (XOnlyKey P) :=
  (FixedBytes.ofList? 32 bytes).bind ofBytes?

def ofHex? (text : String) : Option (XOnlyKey P) :=
  (Hex.decodeFixed? 32 text).bind ofBytes?

def toHex (key : XOnlyKey P) : String :=
  key.bytes.toHex

def lift (key : XOnlyKey P) : PublicKey P :=
  { point := (liftX? key.bytes).get key.lifts
    finite := (of_liftX? (Option.some_get key.lifts).symm).1 }

end XOnlyKey

structure KeyPair (P : Type) [Ciphersuite P] where
  secret : Scalar
  publicKey : PublicKey P
  scale_base : scale secret base = publicKey.point

namespace KeyPair

@[ext] theorem ext {a b : KeyPair P} (h : a.secret = b.secret) : a = b := by
  obtain ⟨_, pa, ha⟩ := a
  obtain ⟨_, pb, hb⟩ := b
  cases h
  have hpoint : pa = pb := PublicKey.ext (ha.symm.trans hb)
  cases hpoint
  rfl

def ofScalar? (secret : Scalar) : Option (KeyPair P) :=
  let point : P := scale secret base
  if h : point = 0 then none
  else some { secret := secret, publicKey := { point := point, finite := h }, scale_base := rfl }

def one : KeyPair P :=
  { secret := 1
    publicKey := { point := scale 1 base, finite := scale_one_base }
    scale_base := rfl }

/-- The key pair of a scalar; a scalar without one, which is zero, counts as one. -/
def ofScalarOrOne (secret : Scalar) : KeyPair P :=
  (ofScalar? secret).getD one

def ofBytes? (bytes : Bytes32) : Option (KeyPair P) :=
  (Scalar.ofBytes? bytes).bind ofScalar?

def ofHex? (text : String) : Option (KeyPair P) :=
  (Hex.decodeFixed? 32 text).bind ofBytes?

def secretHex (pair : KeyPair P) : String :=
  (Scalar.toBytes pair.secret).toHex

def xOnly (pair : KeyPair P) : XOnlyKey P :=
  pair.publicKey.xOnly

end KeyPair

end Cosigning
