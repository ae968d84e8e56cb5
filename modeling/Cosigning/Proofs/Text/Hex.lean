import Cosigning.Proofs.Text.Digit
import Cosigning.Text.Hex
import Mathlib.Data.List.Basic

/-!
# Reading hexadecimal text back

The digits of a byte string are characters of one byte each, so that the text is read
code by code.  What was written is read back, and different byte strings have different
texts.
-/

namespace Cosigning
namespace Hex

open Text

/-!
## Characters of one byte
-/

theorem utf8EncodeChar_of_lt {c : Char} (h : c.toNat < 128) :
    String.utf8EncodeChar c = [c.toUInt8] := by
  apply String.utf8EncodeChar_eq_singleton
  rw [Char.utf8Size_eq_one_iff, UInt32.le_iff_toNat_le]
  exact Nat.le_of_lt_succ h

theorem toUTF8_ofList {cs : List Char} (h : forall c, c ∈ cs -> c.toNat < 128) :
    (String.ofList cs).toUTF8.data.toList = cs.map Char.toUInt8 := by
  have hcodes : cs.flatMap String.utf8EncodeChar = cs.map Char.toUInt8 := by
    rw [List.map_eq_flatMap]
    exact List.flatMap_congr (fun c hc => utf8EncodeChar_of_lt (h c hc))
  rw [String.toUTF8_eq_toByteArray, String.toByteArray_ofList, List.utf8Encode,
    List.toList_data_toByteArray, hcodes]

theorem digitValue?_toUInt8 {c : Char} (h : c.toNat < 128) :
    digitValue? c.toUInt8 = hexDigit? c := by
  have hcode : c.toUInt8.toNat = c.toNat := Nat.mod_eq_of_lt (Nat.lt_trans h (by decide))
  rw [digitValue?, hcode, Char.ofNat_toNat]

/-!
## Digits
-/

theorem digitValue?_hexChar (value : Nat) (h : value < 16) :
    digitValue? (hexChar value).toUInt8 = some value := by
  rw [digitValue?_toUInt8 (toNat_hexChar_lt value h), hexDigit?_hexChar value h]

theorem digits_cons (byte : UInt8) (rest : List UInt8) :
    digits (byte :: rest) =
      hexChar (byte.toNat / 16) :: hexChar (byte.toNat % 16) :: digits rest :=
  rfl

theorem toNat_lt_of_mem_digits {bytes : List UInt8} {c : Char} (h : c ∈ digits bytes) :
    c.toNat < 128 := by
  rcases List.mem_flatMap.mp h with ⟨byte, _, hc⟩
  have hbyte := byte.toNat_lt
  simp only [List.mem_cons, List.not_mem_nil, or_false] at hc
  rcases hc with rfl | rfl
  · exact toNat_hexChar_lt _ (by omega)
  · exact toNat_hexChar_lt _ (by omega)

theorem length_digits (bytes : List UInt8) : (digits bytes).length = 2 * bytes.length := by
  induction bytes with
  | nil => rfl
  | cons byte rest ih =>
      rw [digits_cons, List.length_cons, List.length_cons, ih, List.length_cons]
      omega

theorem decodeCodes_digits (index : Nat) (bytes : List UInt8) :
    decodeCodes index ((digits bytes).map Char.toUInt8) = .ok bytes := by
  induction bytes generalizing index with
  | nil => rfl
  | cons byte rest ih =>
      have hbyte := byte.toNat_lt
      have hvalue : UInt8.ofNat (16 * (byte.toNat / 16) + byte.toNat % 16) = byte := by
        rw [Nat.div_add_mod, UInt8.ofNat_toNat]
      rw [digits_cons, List.map_cons, List.map_cons, decodeCodes,
        digitValue?_hexChar _ (by omega), digitValue?_hexChar _ (by omega)]
      simp only [ih, Except.map, hvalue]

/-!
## Texts
-/

theorem decode_encode (bytes : List UInt8) : decode (encode bytes) = .ok bytes := by
  have heven : ¬ ((digits bytes).map Char.toUInt8).length % 2 = 1 := by
    rw [List.length_map, length_digits]
    omega
  simp only [decode, encode, toUTF8_ofList (fun _ => toNat_lt_of_mem_digits), heven, if_false]
  exact decodeCodes_digits 0 bytes

theorem encode_inj {first second : List UInt8} :
    encode first = encode second <-> first = second := by
  refine ⟨fun h => ?_, fun h => congrArg encode h⟩
  have hfirst := decode_encode first
  rw [h, decode_encode second] at hfirst
  exact (Except.ok.inj hfirst).symm

end Hex

theorem FixedBytes.toHex_inj {width : Nat} {first second : FixedBytes width} :
    first.toHex = second.toHex <-> first = second := by
  unfold toHex
  rw [Hex.encode_inj]
  exact ⟨ext, congrArg toList⟩

end Cosigning
