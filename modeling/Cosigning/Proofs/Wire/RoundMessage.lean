import Cosigning.Proofs.Json.Reading
import Cosigning.Proofs.Text.Hex
import Cosigning.Proofs.Wire.Encoding
import Cosigning.Wire.RoundMessage

/-!
# Messages that arrive

A round message is read back from its JSON text whatever it holds.  A receiver who checks
the digest accepts it for one signing only, and finds in it the nonce or the partial
signature that was sent, and not the other of the two.
-/

namespace Cosigning
namespace Wire
namespace RoundMessage

open Musig

variable {P : Type} [Ciphersuite P]

/-!
## Through JSON
-/

theorem toNat?_ofNat {n bound : Nat} (h : n < bound) :
    (Json.Number.ofNat n).toNat? bound = some n := by
  have hvalue : Text.ofDigits 10 (Json.Number.ofNat n).whole = n := Text.ofDigits_decimalDigits n
  simp only [Json.Number.toNat?, hvalue, if_pos h]
  rfl

theorem readable_toJson (sent : RoundMessage) : sent.toJson.Readable Json.maxNesting := by
  have hindex := sent.signerIndex.toNat_lt
  have hversion := sent.version.toNat_lt
  refine .object (fun member hmember => ?_)
  simp only [List.mem_cons, List.not_mem_nil, or_false] at hmember
  rcases hmember with rfl | rfl | rfl | rfl | rfl
  · exact .number _ (Json.Number.readable_ofNat (by omega))
  · exact .string _ _
  · exact .number _ (Json.Number.readable_ofNat (by omega))
  · exact .string _ _
  · exact .string _ _

theorem ofJson?_toJson (sent : RoundMessage) : ofJson? sent.toJson = some sent := by
  rcases sent with ⟨version, message, signerIndex, payload⟩
  have hversion := toNat?_ofNat version.toNat_lt
  have hindex := toNat?_ofNat signerIndex.toNat_lt
  cases payload <;>
    simp [ofJson?, toJson, payload?, naturalMember?, stringMember?, member?, Payload.name,
      Payload.digits, Json.Value.ofNat, hversion, hindex]

theorem deserialize?_serialize (sent : RoundMessage) :
    deserialize? sent.serialize = some sent := by
  rw [deserialize?, serialize, Json.Value.read?_compact sent.readable_toJson, Option.bind_some,
    ofJson?_toJson]

/-!
## On arrival
-/

theorem check_eq_ok_iff {received : RoundMessage} {message : Bytes32}
    (hversion : received.version = currentVersion) (hmessage : received.message = message.toHex)
    (other : Bytes32) : received.check other = .ok () <-> other = message := by
  have hdigest : received.message = other.toHex <-> other = message := by
    rw [hmessage, FixedBytes.toHex_inj, eq_comm]
  rw [check, if_neg (not_not_intro hversion), ← hdigest]
  split <;> simp_all

theorem decodeDigits_encode (bytes : List UInt8) : decodeDigits (Hex.encode bytes) = .ok bytes := by
  rw [decodeDigits, Hex.decode_encode]
  rfl

theorem decodeNonce_ofNonce [ParityCiphersuite P] (message : Bytes32) (signerIndex : UInt64)
    (nonce : PublicNonce P) : (ofNonce message signerIndex nonce).decodeNonce = .ok nonce := by
  change (decodeDigits (Hex.encode (encodeNonce nonce))).bind Wire.decodeNonce = _
  rw [decodeDigits_encode, Except.bind, decodeNonce_eq_ok_iff]

theorem decodePartial_ofPartial (message : Bytes32) (signerIndex : UInt64) (response : Scalar) :
    (ofPartial message signerIndex response).decodePartial = .ok response := by
  change (decodeDigits (Hex.encode (encodePartial response))).bind Wire.decodePartial = _
  rw [decodeDigits_encode, Except.bind, decodePartial_eq_ok_iff]

/-- A message of either round is read back, is accepted for its own digest and no other, and
gives what was sent and not what belongs to the other round. -/
theorem survives_and_is_bound [ParityCiphersuite P] :
    (forall sent : RoundMessage, deserialize? sent.serialize = some sent) ∧
      (forall (message : Bytes32) (signerIndex : UInt64) (nonce : PublicNonce P),
        exists received cause,
          deserialize? (ofNonce message signerIndex nonce).serialize = some received ∧
            received.signerIndex = signerIndex ∧
            (forall other, received.check other = .ok () <-> other = message) ∧
            received.decodeNonce = .ok nonce ∧
            received.decodePartial = .error cause ∧ cause.kind = .encoding) ∧
      (forall (message : Bytes32) (signerIndex : UInt64) (response : Scalar),
        exists received cause,
          deserialize? (ofPartial message signerIndex response).serialize = some received ∧
            received.signerIndex = signerIndex ∧
            (forall other, received.check other = .ok () <-> other = message) ∧
            received.decodePartial = .ok response ∧
            received.decodeNonce (P := P) = .error cause ∧ cause.kind = .encoding) := by
  refine ⟨deserialize?_serialize, fun message signerIndex nonce => ?_,
    fun message signerIndex response => ?_⟩
  · exact ⟨_, .partialExpected, deserialize?_serialize _, rfl, check_eq_ok_iff rfl rfl,
      decodeNonce_ofNonce message signerIndex nonce, rfl, rfl⟩
  · exact ⟨_, .nonceExpected, deserialize?_serialize _, rfl, check_eq_ok_iff rfl rfl,
      decodePartial_ofPartial message signerIndex response, rfl, rfl⟩

def awkward : RoundMessage :=
  { version := 255
    message := "\"\\/\n\x01é"
    signerIndex := 0xffffffffffffffff
    payload := .partialSignature "\x7b\"round\":\"nonce\"\x7d" }

theorem survives_and_is_bound_awkward :
    deserialize? awkward.serialize = some awkward ∧
      exists (nonce : PublicNonce Secp256k1.Point) (received : RoundMessage),
        Wire.decodeNonce oppositePoints = .ok nonce ∧
          deserialize? (ofNonce (FixedBytes.ofNat 32 0) 7 nonce).serialize = some received ∧
          received.check (FixedBytes.ofNat 32 0) = .ok () ∧
          received.check (FixedBytes.ofNat 32 1) ≠ .ok () ∧
          received.decodeNonce = .ok nonce := by
  rcases survives_and_is_bound (P := Secp256k1.Point) with ⟨hsent, hnonces, _⟩
  have hnonce := eq_ok_get_toOption isSome_decodeNonce_oppositePoints
  rcases hnonces (FixedBytes.ofNat 32 0) 7 _ with ⟨received, _, hread, _, hcheck, hdecode, _⟩
  exact ⟨hsent awkward, _, received, hnonce, hread, (hcheck _).mpr rfl,
    fun hother => absurd ((hcheck _).mp hother) (by decide +kernel), hdecode⟩

end RoundMessage
end Wire
end Cosigning
