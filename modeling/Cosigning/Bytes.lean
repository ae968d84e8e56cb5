/-!
# Byte strings and numbers

A byte string is a list of bytes, and a byte string whose length matters is a
`FixedBytes`.  Numbers are written big-endian; the two conversions are
inverse to each other on the numbers that fit.
-/

namespace Cosigning

def littleEndian : Nat -> Nat -> List UInt8
  | 0, _ => []
  | width + 1, value => UInt8.ofNat value :: littleEndian width (value / 256)

def ofLittleEndian : List UInt8 -> Nat
  | [] => 0
  | digit :: rest => digit.toNat + 256 * ofLittleEndian rest

@[simp] theorem length_littleEndian (width value : Nat) :
    (littleEndian width value).length = width := by
  induction width generalizing value with
  | zero => rfl
  | succ width ih => simp [littleEndian, ih]

theorem ofLittleEndian_littleEndian (width value : Nat) :
    ofLittleEndian (littleEndian width value) = value % Nat.pow 256 width := by
  induction width generalizing value with
  | zero => simp [littleEndian, ofLittleEndian, Nat.mod_one]
  | succ width ih =>
      simp only [littleEndian, ofLittleEndian, ih, Nat.pow_eq]
      have hdigit : (UInt8.ofNat value).toNat = value % 256 := by
        simp
      rw [hdigit, Nat.pow_succ', Nat.mod_mul]

theorem littleEndian_ofLittleEndian (digits : List UInt8) :
    littleEndian digits.length (ofLittleEndian digits) = digits := by
  induction digits with
  | nil => rfl
  | cons digit rest ih =>
      have hlt : digit.toNat < 256 := digit.toNat_lt
      have hdiv :
          (digit.toNat + 256 * ofLittleEndian rest) / 256 =
            ofLittleEndian rest := by
        omega
      have hmod :
          (digit.toNat + 256 * ofLittleEndian rest) % 256 = digit.toNat := by
        omega
      have hdigit :
          UInt8.ofNat (digit.toNat + 256 * ofLittleEndian rest) = digit := by
        apply UInt8.toNat_inj.mp
        simp only [UInt8.toNat_ofNat']
        exact hmod
      simp only [List.length_cons, littleEndian, ofLittleEndian, hdigit, hdiv, ih]

theorem ofLittleEndian_lt (digits : List UInt8) :
    ofLittleEndian digits < Nat.pow 256 digits.length := by
  induction digits with
  | nil => simp [ofLittleEndian]
  | cons digit rest ih =>
      have hlt : digit.toNat < 256 := digit.toNat_lt
      simp only [Nat.pow_eq] at ih
      simp only [ofLittleEndian, List.length_cons, Nat.pow_eq, Nat.pow_succ']
      omega

def bigEndian (width value : Nat) : List UInt8 :=
  (littleEndian width value).reverse

def ofBigEndian (digits : List UInt8) : Nat :=
  ofLittleEndian digits.reverse

@[simp] theorem length_bigEndian (width value : Nat) :
    (bigEndian width value).length = width := by
  simp [bigEndian]

theorem ofBigEndian_bigEndian (width value : Nat) :
    ofBigEndian (bigEndian width value) = value % Nat.pow 256 width := by
  simp [ofBigEndian, bigEndian, ofLittleEndian_littleEndian]

theorem bigEndian_ofBigEndian (digits : List UInt8) :
    bigEndian digits.length (ofBigEndian digits) = digits := by
  have h := littleEndian_ofLittleEndian digits.reverse
  rw [List.length_reverse] at h
  simp [bigEndian, ofBigEndian, h]

theorem ofBigEndian_lt (digits : List UInt8) :
    ofBigEndian digits < Nat.pow 256 digits.length := by
  have h := ofLittleEndian_lt digits.reverse
  rwa [List.length_reverse] at h

structure FixedBytes (width : Nat) where
  toList : List UInt8
  length_toList : toList.length = width
deriving DecidableEq

namespace FixedBytes

variable {width : Nat}

@[ext] theorem ext {a b : FixedBytes width} (h : a.toList = b.toList) : a = b := by
  cases a
  cases b
  cases h
  rfl

def ofList? (width : Nat) (bytes : List UInt8) : Option (FixedBytes width) :=
  if h : bytes.length = width then some { toList := bytes, length_toList := h } else none

@[simp] theorem ofList?_toList (a : FixedBytes width) :
    ofList? width a.toList = some a := by
  simp [ofList?, a.length_toList]

theorem ofList?_eq_some_iff {bytes : List UInt8} {a : FixedBytes width} :
    ofList? width bytes = some a <-> bytes = a.toList := by
  constructor
  · intro h
    unfold ofList? at h
    split at h
    · cases h
      rfl
    · cases h
  · intro h
    subst h
    simp

def ofNat (width value : Nat) : FixedBytes width :=
  { toList := bigEndian width value
    length_toList := length_bigEndian width value }

def toNat (a : FixedBytes width) : Nat :=
  ofBigEndian a.toList

theorem toNat_lt (a : FixedBytes width) : a.toNat < Nat.pow 256 width := by
  have h := ofBigEndian_lt a.toList
  rwa [a.length_toList] at h

theorem toNat_ofNat (width value : Nat) :
    (ofNat width value).toNat = value % Nat.pow 256 width :=
  ofBigEndian_bigEndian width value

theorem toNat_ofNat_of_lt {value : Nat} (h : value < Nat.pow 256 width) :
    (ofNat width value).toNat = value := by
  rw [toNat_ofNat, Nat.mod_eq_of_lt h]

@[simp] theorem ofNat_toNat (a : FixedBytes width) : ofNat width a.toNat = a := by
  apply ext
  have h := bigEndian_ofBigEndian a.toList
  rw [a.length_toList] at h
  exact h

def xor (a b : FixedBytes width) : FixedBytes width :=
  { toList := List.zipWith (fun x y => x ^^^ y) a.toList b.toList
    length_toList := by simp [a.length_toList, b.length_toList] }

end FixedBytes

abbrev Bytes32 := FixedBytes 32

end Cosigning
