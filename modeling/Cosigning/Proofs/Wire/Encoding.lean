import Cosigning.Ensure
import Cosigning.Proofs.Lawful
import Cosigning.Secp256k1.Point
import Cosigning.Wire.Encoding

/-!
# One form for each value

A nonce and a partial signature each have one encoding: decoding accepts nothing else,
and gives back what was encoded.  For points this rests on the parity, which tells a
point from its negative, and for scalars on the bound.
-/

namespace Cosigning

open Ciphersuite

variable {P : Type} [Ciphersuite P]

/-!
## Points and their negatives
-/

/-- A finite point is the negative of its negative, and the two differ in parity. -/
class ParityCiphersuite (P : Type) [Ciphersuite P] : Prop where
  neg_neg : forall p : P, p ≠ 0 -> - -p = p
  isOdd_neg : forall p : P, p ≠ 0 -> isOdd (-p) = !isOdd p

instance (priority := low) [LawfulCiphersuite P] : ParityCiphersuite P where
  neg_neg := fun p _ => neg_neg p
  isOdd_neg := LawfulCiphersuite.isOdd_neg

namespace Secp256k1

theorem Point.neg_neg (p : Point) : p.neg.neg = p := by
  cases p with
  | infinity => rfl
  | finite x y h =>
      have hlt : y < fieldOrder := h.1.2
      simp only [Point.neg, Point.finite.injEq, true_and]
      omega

theorem Point.isOdd_neg (p : Point) (hp : p ≠ infinity) : p.neg.isOdd = !p.isOdd := by
  cases p with
  | infinity => exact absurd rfl hp
  | finite x y h =>
      have hlt : y < fieldOrder := h.1.2
      have horder := fieldOrder_mod_two
      simp only [Point.neg, Point.isOdd]
      by_cases heven : y % 2 = 0
      · have hodd : (fieldOrder - y) % 2 = 1 := by omega
        simp [heven, hodd]
      · have hodd : y % 2 = 1 := by omega
        have hneg : (fieldOrder - y) % 2 = 0 := by omega
        simp [hodd, hneg]

/-- The laws of a group are not needed for this, which is evaluated coordinate by coordinate. -/
instance : ParityCiphersuite Point where
  neg_neg := fun p _ => Point.neg_neg p
  isOdd_neg := Point.isOdd_neg

end Secp256k1

/-!
## Compressed points
-/

namespace PublicKey

theorem toBytes_eq (key : PublicKey P) :
    key.toBytes = (if key.isOdd then 3 else 2) :: (xCoord key.point).toList :=
  if_neg key.finite

@[simp] theorem length_toBytes (key : PublicKey P) : key.toBytes.length = 33 := by
  rw [toBytes_eq, List.length_cons, (xCoord key.point).length_toList]

theorem ofCompressed?_cons {head : UInt8} {x : Bytes32} (hhead : head = 2 ∨ head = 3) :
    ofCompressed? (P := P) (head :: x.toList) = ofCoordinate? (head = 3) x := by
  rw [ofCompressed?, if_pos hhead, FixedBytes.ofList?_toList, Option.bind_some]

variable [ParityCiphersuite P]

theorem ofCoordinate?_xCoord (key : PublicKey P) :
    ofCoordinate? key.isOdd (xCoord key.point) = some key := by
  unfold ofCoordinate?
  rw [liftX?_xCoord key.point key.finite, Option.bind_some, ofPoint?_eq_some_iff]
  change key.point = negateIf (Ciphersuite.isOdd key.point) _
  cases Ciphersuite.isOdd key.point with
  | false => rfl
  | true => exact (ParityCiphersuite.neg_neg key.point key.finite).symm

theorem of_ofCoordinate? {odd : Bool} {x : Bytes32} {key : PublicKey P}
    (h : ofCoordinate? odd x = some key) : xCoord key.point = x ∧ key.isOdd = odd := by
  rcases Option.bind_eq_some_iff.mp h with ⟨point, hlift, hkey⟩
  rcases of_liftX? hlift with ⟨hfinite, hx, heven⟩
  rw [ofPoint?_eq_some_iff] at hkey
  unfold isOdd
  cases odd with
  | false =>
      rw [hkey]
      exact ⟨hx, heven⟩
  | true =>
      change key.point = -point at hkey
      have hodd : Ciphersuite.isOdd (-point) = true := by
        rw [ParityCiphersuite.isOdd_neg point hfinite, heven, Bool.not_false]
      -- The negative has an x coordinate that lifts to the point again.
      have hback := liftX?_xCoord key.point key.finite
      rw [hkey, hodd, if_pos rfl, ParityCiphersuite.neg_neg point hfinite] at hback
      rw [hkey]
      exact ⟨(of_liftX? hback).2.1.symm.trans hx, hodd⟩

theorem ofCompressed?_eq_some_iff {bytes : List UInt8} {key : PublicKey P} :
    ofCompressed? bytes = some key <-> bytes = key.toBytes := by
  constructor
  · intro h
    cases bytes with
    | nil => cases h
    | cons head rest =>
        rw [ofCompressed?] at h
        split at h
        · rename_i hhead
          rcases Option.bind_eq_some_iff.mp h with ⟨x, hrest, hkey⟩
          rcases of_ofCoordinate? hkey with ⟨hx, hodd⟩
          rw [FixedBytes.ofList?_eq_some_iff.mp hrest, toBytes_eq, hx, hodd]
          rcases hhead with rfl | rfl <;> rfl
        · cases h
  · rintro rfl
    have hhead : (if key.isOdd then 3 else 2 : UInt8) = 2 ∨
        (if key.isOdd then 3 else 2 : UInt8) = 3 := by
      cases key.isOdd <;> decide
    have hodd : decide ((if key.isOdd then 3 else 2 : UInt8) = 3) = key.isOdd := by
      cases key.isOdd <;> decide
    rw [toBytes_eq, ofCompressed?_cons hhead, hodd]
    exact ofCoordinate?_xCoord key

end PublicKey

/-!
## Nonces and scalars
-/

namespace Musig

@[simp] theorem PublicNonce.length_toBytes (nonce : PublicNonce P) :
    nonce.toBytes.length = 66 := by
  rw [toBytes, List.length_append, PublicKey.length_toBytes, PublicKey.length_toBytes]

theorem PublicNonce.ofBytes?_eq_some_iff [ParityCiphersuite P] {bytes : List UInt8}
    {nonce : PublicNonce P} : ofBytes? bytes = some nonce <-> bytes = nonce.toBytes := by
  have hparts : ofBytes? bytes = some nonce <->
      PublicKey.ofCompressed? (bytes.take 33) = some nonce.first ∧
        PublicKey.ofCompressed? (bytes.drop 33) = some nonce.second := by
    unfold ofBytes?
    simp only [Option.bind_eq_bind, Option.bind_eq_some_iff, Option.pure_def, Option.some.injEq]
    constructor
    · rintro ⟨first, hfirst, second, hsecond, rfl⟩
      exact ⟨hfirst, hsecond⟩
    · rintro ⟨hfirst, hsecond⟩
      exact ⟨_, hfirst, _, hsecond, rfl⟩
  rw [hparts, PublicKey.ofCompressed?_eq_some_iff, PublicKey.ofCompressed?_eq_some_iff]
  constructor
  · rintro ⟨hfirst, hsecond⟩
    rw [toBytes, ← hfirst, ← hsecond, List.take_append_drop]
  · rintro rfl
    exact ⟨List.take_left' nonce.first.length_toBytes,
      List.drop_left' nonce.first.length_toBytes⟩

end Musig

theorem Scalar.ofList?_bind_ofBytes?_eq_some_iff {bytes : List UInt8} {a : Scalar} :
    (FixedBytes.ofList? 32 bytes).bind ofBytes? = some a <-> bytes = a.toBytes.toList := by
  rw [Option.bind_eq_some_iff]
  constructor
  · rintro ⟨fixed, hfixed, ha⟩
    rw [FixedBytes.ofList?_eq_some_iff.mp hfixed, Scalar.eq_toBytes_of_ofBytes? ha]
  · rintro rfl
    exact ⟨a.toBytes, FixedBytes.ofList?_toList _, Scalar.ofBytes?_toBytes a⟩

/-!
## On the wire
-/

namespace Wire

open Musig

/-- Every value has exactly one encoding, of a fixed length, and nothing else is decoded. -/
structure Canonical {α : Type} (length : Nat) (encode : α -> List UInt8)
    (decode : List UInt8 -> Except Error α) : Prop where
  length_eq : forall bytes value, decode bytes = .ok value -> bytes.length = length
  encode_eq : forall bytes value, decode bytes = .ok value -> encode value = bytes
  decode_encode : forall value, decode (encode value) = .ok value
  decode_injective : forall first second value,
    decode first = .ok value -> decode second = .ok value -> first = second
  encode_injective : forall first second, encode first = encode second <-> first = second
  refuses : forall bytes cause, decode bytes = .error cause -> cause.kind = .encoding

theorem Canonical.of_decode_eq_ok_iff {α : Type} {length : Nat} {encode : α -> List UInt8}
    {decode : List UInt8 -> Except Error α}
    (hdecode : forall bytes value, decode bytes = .ok value <-> bytes = encode value)
    (hlength : forall value, (encode value).length = length)
    (hrefuses : forall bytes cause, decode bytes = .error cause -> cause.kind = .encoding) :
    Canonical length encode decode := by
  have hback : forall value, decode (encode value) = .ok value :=
    fun value => (hdecode _ value).mpr rfl
  constructor
  case length_eq =>
    intro bytes value h
    rw [(hdecode bytes value).mp h, hlength]
  case encode_eq => exact fun bytes value h => ((hdecode bytes value).mp h).symm
  case decode_encode => exact hback
  case decode_injective =>
    intro first second value hfirst hsecond
    exact ((hdecode first value).mp hfirst).trans ((hdecode second value).mp hsecond).symm
  case encode_injective =>
    intro first second
    refine ⟨fun h => ?_, fun h => congrArg encode h⟩
    have hfirst := hback first
    rw [h, hback second] at hfirst
    exact (Except.ok.inj hfirst).symm
  case refuses => exact hrefuses

def checkLength {α : Type} (length : Nat) (bytes : List UInt8) (parsed : Option α)
    (wrongLength malformed : Error) : Except Error α :=
  if bytes.length ≠ length then .error wrongLength
  else
    match parsed with
    | some value => .ok value
    | none => .error malformed

section

variable {α : Type} {length : Nat} {bytes : List UInt8} {parsed : Option α}
  {wrongLength malformed : Error}

theorem checkLength_eq_ok_iff {value : α}
    (hlength : parsed = some value -> bytes.length = length) :
    checkLength length bytes parsed wrongLength malformed = .ok value <->
      parsed = some value := by
  unfold checkLength
  constructor
  · intro h
    split at h
    · cases h
    · split at h <;> cases h
      rfl
  · intro h
    rw [if_neg (not_not_intro (hlength h))]
    simp only [h]

theorem kind_of_checkLength_eq_error {cause : Error}
    (hlength : wrongLength.kind = .encoding) (hmalformed : malformed.kind = .encoding)
    (h : checkLength length bytes parsed wrongLength malformed = .error cause) :
    cause.kind = .encoding := by
  unfold checkLength at h
  split at h
  · cases h
    exact hlength
  · split at h <;> cases h
    exact hmalformed

end

theorem decodeNonce_eq_checkLength (bytes : List UInt8) :
    decodeNonce (P := P) bytes =
      checkLength nonceLength bytes (PublicNonce.ofBytes? bytes) (.nonceLength bytes.length)
        .malformedNonce := by
  unfold decodeNonce checkLength
  cases PublicNonce.ofBytes? (P := P) bytes <;> rfl

theorem decodePartial_eq_checkLength (bytes : List UInt8) :
    decodePartial bytes =
      checkLength partialLength bytes ((FixedBytes.ofList? 32 bytes).bind Scalar.ofBytes?)
        (.partialLength bytes.length) .malformedPartial := by
  unfold decodePartial checkLength
  cases (FixedBytes.ofList? 32 bytes).bind Scalar.ofBytes? <;> rfl

theorem length_encodeNonce (nonce : PublicNonce P) :
    (encodeNonce nonce).length = nonceLength :=
  nonce.length_toBytes

theorem length_encodePartial (response : Scalar) :
    (encodePartial response).length = partialLength :=
  response.toBytes.length_toList

theorem decodeNonce_eq_ok_iff [ParityCiphersuite P] {bytes : List UInt8}
    {nonce : PublicNonce P} : decodeNonce bytes = .ok nonce <-> bytes = encodeNonce nonce := by
  rw [decodeNonce_eq_checkLength, checkLength_eq_ok_iff, PublicNonce.ofBytes?_eq_some_iff]
  · rfl
  · intro h
    rw [PublicNonce.ofBytes?_eq_some_iff.mp h]
    exact length_encodeNonce nonce

theorem decodePartial_eq_ok_iff {bytes : List UInt8} {response : Scalar} :
    decodePartial bytes = .ok response <-> bytes = encodePartial response := by
  rw [decodePartial_eq_checkLength, checkLength_eq_ok_iff,
    Scalar.ofList?_bind_ofBytes?_eq_some_iff]
  · rfl
  · intro h
    rw [Scalar.ofList?_bind_ofBytes?_eq_some_iff.mp h]
    exact length_encodePartial response

theorem kind_of_decodeNonce_eq_error {bytes : List UInt8} {cause : Error}
    (h : decodeNonce (P := P) bytes = .error cause) : cause.kind = .encoding := by
  rw [decodeNonce_eq_checkLength] at h
  exact kind_of_checkLength_eq_error rfl rfl h

theorem kind_of_decodePartial_eq_error {bytes : List UInt8} {cause : Error}
    (h : decodePartial bytes = .error cause) : cause.kind = .encoding := by
  rw [decodePartial_eq_checkLength] at h
  exact kind_of_checkLength_eq_error rfl rfl h

/-- Nonces and partial signatures, whichever session made them, have one encoding each. -/
theorem encodings_canonical [ParityCiphersuite P] :
    Canonical nonceLength (encodeNonce (P := P)) decodeNonce ∧
      Canonical partialLength encodePartial decodePartial :=
  ⟨Canonical.of_decode_eq_ok_iff (fun _ _ => decodeNonce_eq_ok_iff) length_encodeNonce
      (fun _ _ => kind_of_decodeNonce_eq_error),
    Canonical.of_decode_eq_ok_iff (fun _ _ => decodePartial_eq_ok_iff) length_encodePartial
      (fun _ _ => kind_of_decodePartial_eq_error)⟩

def oppositePoints : List UInt8 :=
  let x := bigEndian 32 0x79be667ef9dcbbac55a06295ce870b07029bfcdb2dce28d959f2815b16f81798
  2 :: x ++ 3 :: x

theorem isSome_decodeNonce_oppositePoints :
    (decodeNonce (P := Secp256k1.Point) oppositePoints).toOption.isSome = true := by
  decide +kernel

theorem encodings_canonical_oppositePoints :
    exists nonce : PublicNonce Secp256k1.Point,
      decodeNonce oppositePoints = .ok nonce ∧
        nonce.second.point = -nonce.first.point ∧
        encodeNonce nonce = oppositePoints ∧
        decodeNonce (encodeNonce nonce) = .ok nonce ∧
        decodePartial (bigEndian 32 groupOrder) = .error .malformedPartial ∧
        decodePartial (encodePartial (-1)) = .ok (-1) := by
  rcases encodings_canonical (P := Secp256k1.Point) with ⟨hnonces, hpartials⟩
  have hnonce := eq_ok_get_toOption isSome_decodeNonce_oppositePoints
  exact ⟨_, hnonce, by decide +kernel, hnonces.encode_eq _ _ hnonce, hnonces.decode_encode _,
    by decide +kernel, hpartials.decode_encode (-1)⟩

end Wire

end Cosigning
