import Cosigning.Text.Digit
import Mathlib.Tactic.Common

/-!
# Digits

A hexadecimal digit is one character, which is read back.  The last decimal digit of a
number is its remainder by ten, and the others are those of the quotient.  What is proved
about decimal digits is proved by induction along this.
-/

namespace Cosigning
namespace Text

/-!
## Hexadecimal digits
-/

theorem hexDigit?_hexChar (value : Nat) (h : value < 16) :
    hexDigit? (hexChar value) = some value := by
  revert value
  decide

theorem toNat_hexChar_lt (value : Nat) (h : value < 16) : (hexChar value).toNat < 128 := by
  revert value
  decide

/-!
## Decimal digits
-/

theorem toNat_digitChar_sub (value : Nat) (h : value < 10) :
    (Nat.digitChar value).toNat - 48 = value := by
  revert value
  decide

theorem decimalDigits_of_lt {n : Nat} (h : n < 10) : decimalDigits n = [n] := by
  rw [decimalDigits, Nat.toDigits_of_lt_base h, List.map_singleton, toNat_digitChar_sub n h]

theorem decimalDigits_of_le {n : Nat} (h : 10 <= n) :
    decimalDigits n = decimalDigits (n / 10) ++ [n % 10] := by
  rw [decimalDigits, Nat.toDigits_of_base_le (by decide) h, List.map_append, List.map_singleton,
    toNat_digitChar_sub (n % 10) (Nat.mod_lt n (by decide))]
  rfl

theorem decimal_induction {motive : Nat -> Prop} (single : forall n, n < 10 -> motive n)
    (append : forall n, 10 <= n -> motive (n / 10) -> motive n) (n : Nat) : motive n := by
  induction n using Nat.strongRecOn with
  | ind n ih =>
      by_cases hsmall : n < 10
      · exact single n hsmall
      · exact append n (by omega) (ih (n / 10) (by omega))

theorem decimalDigits_ne_nil (n : Nat) : decimalDigits n ≠ [] := by
  rw [decimalDigits, ne_eq, List.map_eq_nil_iff]
  exact Nat.toDigits_ne_nil

theorem lt_of_mem_decimalDigits {n digit : Nat} (h : digit ∈ decimalDigits n) : digit < 10 := by
  induction n using decimal_induction with
  | single n hsmall =>
      rw [decimalDigits_of_lt hsmall, List.mem_singleton] at h
      omega
  | append n hlarge ih =>
      rw [decimalDigits_of_le hlarge, List.mem_append, List.mem_singleton] at h
      rcases h with h | rfl
      · exact ih h
      · omega

theorem eq_zero_of_head?_decimalDigits {n : Nat} (h : (decimalDigits n).head? = some 0) :
    n = 0 := by
  induction n using decimal_induction with
  | single n hsmall =>
      rw [decimalDigits_of_lt hsmall, List.head?_singleton] at h
      exact Option.some.inj h
  | append n hlarge ih =>
      have hhead : (decimalDigits (n / 10)).head? = some 0 := by
        rw [decimalDigits_of_le hlarge, List.head?_append] at h
        rcases List.exists_cons_of_ne_nil (decimalDigits_ne_nil (n / 10)) with ⟨_, _, hcons⟩
        rw [hcons] at h ⊢
        exact h
      have hquotient := ih hhead
      omega

theorem ofDigits_append_singleton (base : Nat) (digits : List Nat) (digit : Nat) :
    ofDigits base (digits ++ [digit]) = base * ofDigits base digits + digit := by
  simp only [ofDigits, List.foldl_append, List.foldl_cons, List.foldl_nil]

theorem ofDigits_decimalDigits (n : Nat) : ofDigits 10 (decimalDigits n) = n := by
  induction n using decimal_induction with
  | single n hsmall => simp [decimalDigits_of_lt hsmall, ofDigits]
  | append n hlarge ih =>
      rw [decimalDigits_of_le hlarge, ofDigits_append_singleton, ih, Nat.div_add_mod]

end Text
end Cosigning
