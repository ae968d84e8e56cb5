import Cosigning.Json.Token
import Cosigning.Json.Writer
import Cosigning.Proofs.Text.Digit

/-!
# Strings and numbers read back

A string is read back whatever its characters are.  A number is read back if it has no
superfluous zero and stays within double precision.
-/

namespace Cosigning
namespace Json

open Text

/-!
## Strings
-/

namespace Token

theorem hex4?_control {code : Nat} (h : code < 0x20) :
    hex4? '0' '0' (hexChar (code / 16)) (hexChar (code % 16)) = some code := by
  have hzero : hexDigit? '0' = some 0 := by decide
  simp only [hex4?, hzero, hexDigit?_hexChar (code / 16) (by omega),
    hexDigit?_hexChar (code % 16) (by omega), Option.bind_eq_bind, Option.bind_some,
    Option.pure_def, Option.some.injEq]
  omega

theorem escapeChar_cases (c : Char) :
    (exists letter, escapeChar c = ['\\', letter] ∧ letter ≠ 'u' ∧ shortEscape? letter = some c) ∨
      (escapeChar c =
          ['\\', 'u', '0', '0', hexChar (c.toNat / 16), hexChar (c.toNat % 16)] ∧
        c.toNat < 0x20) ∨
      (escapeChar c = [c] ∧ c ≠ '\"' ∧ c ≠ '\\' ∧ ¬ c.toNat < 0x20) := by
  unfold escapeChar
  split_ifs with hquote hbackslash hback hfeed hline hreturn htab hcontrol
  case neg => exact .inr (.inr ⟨rfl, hquote, hbackslash, hcontrol⟩)
  case pos => exact .inl ⟨_, rfl, by decide, (congrArg some hquote).symm⟩
  case pos => exact .inl ⟨_, rfl, by decide, (congrArg some hbackslash).symm⟩
  case pos => exact .inl ⟨_, rfl, by decide, (congrArg some hback).symm⟩
  case pos => exact .inl ⟨_, rfl, by decide, (congrArg some hfeed).symm⟩
  case pos => exact .inl ⟨_, rfl, by decide, (congrArg some hline).symm⟩
  case pos => exact .inl ⟨_, rfl, by decide, (congrArg some hreturn).symm⟩
  case pos => exact .inl ⟨_, rfl, by decide, (congrArg some htab).symm⟩
  case pos => exact .inr (.inl ⟨rfl, hcontrol⟩)

theorem exists_piece (c : Char) :
    exists piece,
      (forall more, pieces? (escapeChar c ++ more) =
        (pieces? more).map (fun found => (piece :: found.1, found.2))) ∧
      forall pieces, join? (piece :: pieces) = (join? pieces).map (fun cs => c :: cs) := by
  rcases escapeChar_cases c with
    ⟨letter, hescape, hu, hletter⟩ | ⟨hescape, hcontrol⟩ | ⟨hescape, hquote, hbackslash, hplain⟩
  · refine ⟨.char c, fun more => ?_, fun _ => rfl⟩
    rw [hescape, List.cons_append, List.cons_append, List.nil_append, pieces?, hletter]
    · simp only [Option.bind_eq_bind, Option.bind_some, Option.pure_def, Option.map_eq_bind,
        Function.comp_def]
    · exact fun _ _ _ _ _ hletter _ => hu hletter
  · refine ⟨.code c.toNat, fun more => ?_, fun pieces => ?_⟩
    · rw [hescape]
      simp only [List.cons_append, List.nil_append, pieces?, hex4?_control hcontrol,
        Option.bind_eq_bind, Option.bind_some, Option.pure_def, Option.map_eq_bind,
        Function.comp_def]
    · have hpaired : isSurrogate c.toNat = false := by
        simp only [isSurrogate, Bool.and_eq_false_iff, decide_eq_false_iff_not]
        omega
      rw [join?.eq_def]
      simp only [hpaired, Bool.not_false, if_true, Char.ofNat_toNat]
  · refine ⟨.char c, fun more => ?_, fun _ => rfl⟩
    rw [hescape, List.singleton_append, pieces?, if_neg hplain]
    · exact hquote
    · exact fun _ _ _ _ _ hslash _ => hbackslash hslash
    · exact fun _ _ hslash _ => hbackslash hslash

theorem string?_escaped (body rest : List Char) :
    string? (body.flatMap escapeChar ++ '\"' :: rest) = some (String.ofList body, rest) := by
  have hpieces : exists pieces,
      pieces? (body.flatMap escapeChar ++ '\"' :: rest) = some (pieces, rest) ∧
        join? pieces = some body := by
    induction body with
    | nil => exact ⟨[], rfl, rfl⟩
    | cons c body ih =>
        rcases exists_piece c with ⟨piece, hpiece, hjoin⟩
        rcases ih with ⟨pieces, hread, hbody⟩
        refine ⟨piece :: pieces, ?_, ?_⟩
        · rw [List.flatMap_cons, List.append_assoc, hpiece, hread]
          rfl
        · rw [hjoin, hbody]
          rfl
  rcases hpieces with ⟨pieces, hread, hbody⟩
  simp only [string?, hread, hbody, Option.bind_eq_bind, Option.bind_some, Option.pure_def]

/-!
## Parts of numbers
-/

theorem of_digit (digit : Nat) (h : digit < 10) :
    digit? 10 (hexChar digit) = some digit ∧ isNumberChar (hexChar digit) = true ∧
      hexChar digit ∉ ['-', '+', '.', 'e', 'E'] := by
  revert digit
  decide

section

variable {digits : List Nat}

theorem of_mem_digitChars (hlt : forall digit, digit ∈ digits -> digit < 10) {c : Char}
    (hc : c ∈ Number.digitChars digits) :
    isNumberChar c = true ∧ c ∉ ['-', '+', '.', 'e', 'E'] := by
  rcases List.mem_map.mp hc with ⟨digit, hdigit, rfl⟩
  exact (of_digit digit (hlt digit hdigit)).2

theorem digits?_digitChars (hne : digits ≠ [])
    (hlt : forall digit, digit ∈ digits -> digit < 10) :
    digits? (Number.digitChars digits) = some digits := by
  have hread : (Number.digitChars digits).mapM (digit? 10) = some digits := by
    clear hne
    induction digits with
    | nil => rfl
    | cons digit rest ih =>
        rw [Number.digitChars, List.map_cons, List.mapM_cons,
          (of_digit digit (hlt digit List.mem_cons_self)).1]
        change (Number.digitChars rest).mapM (digit? 10) >>= _ = _
        rw [ih (fun other hother => hlt other (List.mem_cons_of_mem digit hother))]
        rfl
  rw [digits?, if_neg, hread]
  rw [Bool.not_eq_true, List.isEmpty_eq_false_iff, Number.digitChars, ne_eq, List.map_eq_nil_iff]
  exact hne

end

theorem splitAt?_eq_none {stop : Char -> Bool} {cs : List Char}
    (h : forall c, c ∈ cs -> stop c = false) : splitAt? stop cs = (cs, none) := by
  induction cs with
  | nil => rfl
  | cons c rest ih =>
      rw [splitAt?, h c List.mem_cons_self,
        ih (fun other hother => h other (List.mem_cons_of_mem c hother))]
      rfl

theorem splitAt?_append_cons {stop : Char -> Bool} {before after : List Char} {mark : Char}
    (h : forall c, c ∈ before -> stop c = false) (hmark : stop mark = true) :
    splitAt? stop (before ++ mark :: after) = (before, some after) := by
  induction before with
  | nil => rw [List.nil_append, splitAt?, if_pos hmark]
  | cons c rest ih =>
      rw [List.cons_append, splitAt?, h c List.mem_cons_self,
        ih (fun other hother => h other (List.mem_cons_of_mem c hother))]
      rfl

end Token

/-!
## Numbers
-/

namespace Number

open Token

structure Readable (number : Number) : Prop where
  whole_ne_nil : number.whole ≠ []
  whole_lt : forall digit, digit ∈ number.whole -> digit < 10
  length_whole : number.whole.head? = some 0 -> number.whole.length = 1
  fraction_lt : forall digit, digit ∈ number.fraction -> digit < 10
  isFinite : number.isFinite = true

def fractionChars (number : Number) : List Char :=
  if number.fraction.isEmpty then [] else '.' :: digitChars number.fraction

def signedChars (power : Int) : List Char :=
  (if power < 0 then ['-'] else []) ++ digitChars (decimalDigits power.natAbs)

def powerChars (number : Number) : List Char :=
  match number.exponent with
  | none => []
  | some power => 'e' :: signedChars power

theorem write_eq (number : Number) (rest : List Char) :
    number.write rest =
      (if number.negative then ['-'] else []) ++
        (digitChars number.whole ++ number.fractionChars ++ number.powerChars) ++ rest := by
  unfold write fractionChars powerChars signedChars
  cases number.exponent <;> simp only [List.append_assoc]

theorem write_eq_append (number : Number) (rest : List Char) :
    number.write rest = number.write [] ++ rest := by
  rw [write_eq, write_eq number [], List.append_nil]

theorem power?_signedChars (power : Int) : power? (signedChars power) = some power := by
  have hdigits : digits? (digitChars (decimalDigits power.natAbs)) =
      some (decimalDigits power.natAbs) :=
    digits?_digitChars (decimalDigits_ne_nil _) (fun _ => lt_of_mem_decimalDigits)
  unfold signedChars
  by_cases hnegative : power < 0
  · rw [if_pos hnegative, List.singleton_append, power?, hdigits, Option.map_some,
      ofDigits_decimalDigits, Option.some.injEq]
    omega
  · have hsign : forall sign rest, sign ∈ ['-', '+', '.', 'e', 'E'] ->
        digitChars (decimalDigits power.natAbs) ≠ sign :: rest := by
      intro sign rest hsign hcons
      have hmem : sign ∈ digitChars (decimalDigits power.natAbs) := by
        rw [hcons]
        exact List.mem_cons_self
      exact (of_mem_digitChars (fun _ => lt_of_mem_decimalDigits) hmem).2 hsign
    rw [if_neg hnegative, List.nil_append, power?, hdigits, Option.map_some,
      ofDigits_decimalDigits, Option.some.injEq]
    · omega
    · exact fun rest => hsign '-' rest (by decide)
    · exact fun rest => hsign '+' rest (by decide)

namespace Readable

variable {number : Number}

theorem of_mem_mantissa (h : number.Readable) {c : Char}
    (hc : c ∈ digitChars number.whole ++ number.fractionChars) :
    isNumberChar c = true ∧ c ∉ ['-', '+', 'e', 'E'] := by
  have hdigit : forall digits, (forall digit, digit ∈ digits -> digit < 10) ->
      c ∈ digitChars digits -> isNumberChar c = true ∧ c ∉ ['-', '+', 'e', 'E'] := by
    intro digits hlt hc
    have hmarks := of_mem_digitChars hlt hc
    simp_all
  unfold fractionChars at hc
  rcases List.mem_append.mp hc with hc | hc
  · exact hdigit _ h.whole_lt hc
  · split at hc
    · cases hc
    · rcases List.mem_cons.mp hc with rfl | hc
      · decide
      · exact hdigit _ h.fraction_lt hc

theorem splitAt?_power (h : number.Readable) :
    splitAt? (fun c => c = 'e' || c = 'E')
        (digitChars number.whole ++ number.fractionChars ++ number.powerChars) =
      (digitChars number.whole ++ number.fractionChars, number.exponent.map signedChars) := by
  have hmarks : forall c, c ∈ digitChars number.whole ++ number.fractionChars ->
      (decide (c = 'e') || decide (c = 'E')) = false := by
    intro c hc
    have hmark := (h.of_mem_mantissa hc).2
    simp_all
  unfold powerChars
  cases number.exponent with
  | none => rw [List.append_nil, splitAt?_eq_none hmarks, Option.map_none]
  | some power => rw [splitAt?_append_cons hmarks (by decide), Option.map_some]

theorem splitAt?_point (h : number.Readable) :
    splitAt? (fun c => c = '.') (digitChars number.whole ++ number.fractionChars) =
      (digitChars number.whole,
        if number.fraction.isEmpty then none else some (digitChars number.fraction)) := by
  have hmarks : forall c, c ∈ digitChars number.whole -> decide (c = '.') = false := by
    intro c hc
    have hmark := (of_mem_digitChars h.whole_lt hc).2
    simp_all
  unfold fractionChars
  by_cases hempty : number.fraction.isEmpty = true
  · rw [if_pos hempty, if_pos hempty, List.append_nil, splitAt?_eq_none hmarks]
  · rw [if_neg hempty, if_neg hempty, splitAt?_append_cons hmarks (by decide)]

theorem unsigned?_eq (h : number.Readable) :
    unsigned? number.negative
        (digitChars number.whole ++ number.fractionChars ++ number.powerChars) =
      some number := by
  have hzero : ¬ (number.whole.head? = some 0 ∧ number.whole.length ≠ 1) :=
    fun hzero => hzero.2 (h.length_whole hzero.1)
  have hwhole := digits?_digitChars h.whole_ne_nil h.whole_lt
  have hfraction : number.fraction ≠ [] ->
      digits? (digitChars number.fraction) = some number.fraction :=
    fun hne => digits?_digitChars hne h.fraction_lt
  have hfinite := h.isFinite
  unfold unsigned?
  simp only [h.splitAt?_power, h.splitAt?_point, hwhole, hzero, if_false, Option.bind_eq_bind,
    Option.bind_some]
  rcases number with ⟨negative, whole, fraction, exponent⟩
  cases fraction with
  | nil =>
      cases exponent with
      | none => exact if_pos hfinite
      | some power =>
          simp only [Option.map_some, power?_signedChars, Option.bind_some]
          exact if_pos hfinite
  | cons digit rest =>
      simp only [List.isEmpty_cons, Bool.false_eq_true, if_false,
        hfraction (List.cons_ne_nil digit rest), Option.bind_some]
      cases exponent with
      | none => exact if_pos hfinite
      | some power =>
          simp only [Option.map_some, power?_signedChars, Option.bind_some]
          exact if_pos hfinite

theorem number?_write (h : number.Readable) : number? (number.write []) = some number := by
  rw [write_eq, List.append_nil]
  cases hnegative : number.negative with
  | true =>
      rw [if_pos rfl, List.singleton_append, number?, ← hnegative]
      exact h.unsigned?_eq
  | false =>
      rw [if_neg (by decide), List.nil_append, number?, ← hnegative]
      · exact h.unsigned?_eq
      · intro rest hcons
        rcases List.exists_cons_of_ne_nil h.whole_ne_nil with ⟨digit, others, hwhole⟩
        rw [hwhole] at hcons
        have hsign : hexChar digit = '-' := (List.cons.inj hcons).1
        have hdigit := (of_digit digit (h.whole_lt digit (hwhole ▸ List.mem_cons_self))).2.2
        rw [hsign] at hdigit
        exact hdigit (by decide)

theorem isNumberChar_of_mem_powerChars {c : Char} (hc : c ∈ number.powerChars) :
    isNumberChar c = true := by
  unfold powerChars at hc
  split at hc
  · cases hc
  · rcases List.mem_cons.mp hc with rfl | hc
    · decide
    · rcases List.mem_append.mp hc with hc | hc
      · split at hc
        · rw [List.mem_singleton.mp hc]
          decide
        · cases hc
      · exact (of_mem_digitChars (fun _ => lt_of_mem_decimalDigits) hc).1

theorem isNumberChar_of_mem_write (h : number.Readable) {c : Char} (hc : c ∈ number.write []) :
    isNumberChar c = true := by
  rw [write_eq, List.append_nil, List.mem_append, List.mem_append] at hc
  rcases hc with hc | hc | hc
  · split at hc
    · rw [List.mem_singleton.mp hc]
      decide
    · cases hc
  · exact (h.of_mem_mantissa hc).1
  · exact isNumberChar_of_mem_powerChars hc

theorem write_ne_nil (h : number.Readable) : number.write [] ≠ [] := by
  intro hnil
  have hread := h.number?_write
  rw [hnil] at hread
  cases hread

end Readable

/-!
## Natural numbers
-/

theorem le_foldl_digits (value : Nat) (digits : List Nat) :
    value <= digits.foldl (fun value digit => 10 * value + digit) value := by
  induction digits generalizing value with
  | nil => exact Nat.le_refl value
  | cons digit rest ih =>
      have hrest := ih (10 * value + digit)
      rw [List.foldl_cons]
      omega

theorem leadingDigits_eq {value : Nat} {digits : List Nat}
    (h : digits.foldl (fun value digit => 10 * value + digit) value < 0x10000000000000000) :
    leadingDigits value digits =
      (digits.foldl (fun value digit => 10 * value + digit) value, []) := by
  induction digits generalizing value with
  | nil => rfl
  | cons digit rest ih =>
      rw [List.foldl_cons] at h
      have hle := le_foldl_digits (10 * value + digit) rest
      rw [leadingDigits, if_pos (by omega), ih h, List.foldl_cons]

theorem roundTo53Bits_le {n : Nat} (h : n < 0x10000000000000000) :
    roundTo53Bits n <= n + 0x800 := by
  have hlog : n.log2 + 1 - 53 <= 11 := by
    have hlog : n.log2 < 64 ∨ n = 0 := by
      by_cases hzero : n = 0
      · exact .inr hzero
      · exact .inl ((Nat.log2_lt hzero).mpr h)
    rcases hlog with hlog | rfl
    · omega
    · decide
  have hunit : Nat.pow 2 (n.log2 + 1 - 53) <= 0x800 := Nat.pow_le_pow_right (by decide) hlog
  have hdiv : n / Nat.pow 2 (n.log2 + 1 - 53) * Nat.pow 2 (n.log2 + 1 - 53) <= n :=
    Nat.div_mul_le_self n _
  unfold roundTo53Bits
  dsimp only
  split
  · rw [Nat.add_mul, Nat.one_mul]
    omega
  · omega

theorem readable_ofNat {n : Nat} (h : n < 0x10000000000000000) : (ofNat n).Readable := by
  constructor
  case whole_ne_nil => exact decimalDigits_ne_nil n
  case whole_lt => exact fun _ => lt_of_mem_decimalDigits
  case length_whole =>
    intro hzero
    rw [eq_zero_of_head?_decimalDigits hzero]
    rfl
  case fraction_lt => exact fun _ hdigit => absurd hdigit List.not_mem_nil
  case isFinite =>
    have hdigits : leadingDigits 0 (decimalDigits n) = (n, []) := by
      have hvalue := ofDigits_decimalDigits n
      unfold ofDigits at hvalue
      rw [leadingDigits_eq (by rw [hvalue]; exact h), hvalue]
    -- Without fraction and power, the digits stand for themselves.
    have hpower : ((0 : Nat) : Int) - ((0 - 0 : Nat) : Int) + (none : Option Int).getD 0 = 0 := rfl
    have hone : roundTo53Bits (Nat.pow 10 (0 : Int).toNat) = 1 := by decide
    have hlimit : 0x10000000000000800 < Nat.pow 2 1024 - Nat.pow 2 970 := by decide +kernel
    have hbound := roundTo53Bits_le h
    unfold isFinite ofNat
    simp only [hdigits, List.isEmpty_nil, if_true, leadingDigits, List.length_nil, hpower]
    split
    · rfl
    · rw [if_neg (by decide), hone, Nat.mul_one]
      exact decide_eq_true (Nat.lt_trans (by omega) hlimit)

end Number
end Json
end Cosigning
