import Cosigning.Ensure
import Cosigning.Leaf

/-!
# Scripts of different signers differ

Every key takes up thirty-four bytes of a script of separate signature checks, so
the length of the script tells the number of keys and its bytes tell the keys.
-/

namespace Cosigning

variable {P : Type} [Ciphersuite P]

namespace Script

theorem length_pushKey (key : XOnlyKey P) : (pushKey key).length = 33 := by
  rw [pushKey, List.length_cons, key.bytes.length_toList]

theorem pushKey_append_inj {a b : XOnlyKey P} {s t : List UInt8}
    (h : pushKey a ++ s = pushKey b ++ t) : a = b ∧ s = t := by
  have hlength : (pushKey a).length = (pushKey b).length := by
    rw [length_pushKey, length_pushKey]
  rcases List.append_inj h hlength with ⟨hkey, htail⟩
  rw [pushKey, pushKey, List.cons_inj_right] at hkey
  exact ⟨XOnlyKey.ext (FixedBytes.ext hkey), htail⟩

def laterChecks (keys : List (XOnlyKey P)) : List UInt8 :=
  keys.flatMap (fun key => pushKey key ++ [checkSignatureAdd])

theorem laterChecks_cons (key : XOnlyKey P) (keys : List (XOnlyKey P)) :
    laterChecks (key :: keys) = pushKey key ++ checkSignatureAdd :: laterChecks keys := by
  simp [laterChecks]

theorem keyChecks_cons (key : XOnlyKey P) (keys : List (XOnlyKey P)) :
    keyChecks (key :: keys) = pushKey key ++ checkSignature :: laterChecks keys :=
  rfl

theorem length_laterChecks (keys : List (XOnlyKey P)) :
    (laterChecks keys).length = 34 * keys.length := by
  induction keys with
  | nil => rfl
  | cons key rest ih =>
      rw [laterChecks_cons, List.length_append, length_pushKey, List.length_cons, ih,
        List.length_cons]
      omega

theorem length_keyChecks (keys : List (XOnlyKey P)) :
    (keyChecks keys).length = 34 * keys.length := by
  cases keys with
  | nil => rfl
  | cons key rest =>
      rw [keyChecks_cons, List.length_append, length_pushKey, List.length_cons,
        length_laterChecks, List.length_cons]
      omega

theorem laterChecks_injective {a b : List (XOnlyKey P)} (h : laterChecks a = laterChecks b) :
    a = b := by
  induction a generalizing b with
  | nil =>
      have hlength := congrArg List.length h
      rw [length_laterChecks, length_laterChecks, List.length_nil] at hlength
      exact (List.eq_nil_of_length_eq_zero (by omega)).symm
  | cons x rest ih =>
      cases b with
      | nil =>
          have hlength := congrArg List.length h
          rw [length_laterChecks, length_laterChecks, List.length_cons, List.length_nil]
            at hlength
          omega
      | cons y others =>
          rw [laterChecks_cons, laterChecks_cons] at h
          rcases pushKey_append_inj h with ⟨hkey, htail⟩
          rw [List.cons_inj_right] at htail
          rw [hkey, ih htail]

theorem keyChecks_injective {a b : List (XOnlyKey P)} (h : keyChecks a = keyChecks b) :
    a = b := by
  have hlength := congrArg List.length h
  rw [length_keyChecks, length_keyChecks] at hlength
  cases a with
  | nil =>
      rw [List.length_nil] at hlength
      exact (List.eq_nil_of_length_eq_zero (by omega)).symm
  | cons x rest =>
      cases b with
      | nil =>
          rw [List.length_cons, List.length_nil] at hlength
          omega
      | cons y others =>
          rw [keyChecks_cons, keyChecks_cons] at h
          rcases pushKey_append_inj h with ⟨hkey, htail⟩
          rw [List.cons_inj_right] at htail
          rw [hkey, laterChecks_injective htail]

theorem allSign_injective {a b : List (XOnlyKey P)} (h : allSign a = allSign b) : a = b := by
  have hlength := congrArg List.length h
  simp only [allSign, List.length_append, length_keyChecks, List.length_cons,
    List.length_nil] at hlength
  have hkeys : (keyChecks a).length = (keyChecks b).length := by
    rw [length_keyChecks, length_keyChecks]
    omega
  exact keyChecks_injective (List.append_inj h hkeys).1

theorem compileChecks_eq_ok_iff {keys : List (XOnlyKey P)} {script : List UInt8} :
    compileChecks keys = .ok script <->
      keys ≠ [] ∧ keys.length <= maxKeys ∧ script = allSign keys := by
  unfold compileChecks
  split
  · rename_i hsize
    rw [List.isEmpty_iff] at hsize
    constructor
    · intro h
      cases h
    · intro h
      rcases hsize with hempty | hmany
      · exact absurd hempty h.1
      · exact absurd h.2.1 (Nat.not_le.mpr hmany)
  · rename_i hsize
    rw [List.isEmpty_iff, not_or, Nat.not_lt] at hsize
    rw [Except.ok.injEq, eq_comm]
    exact ⟨fun h => ⟨hsize.1, hsize.2, h⟩, fun h => h.2.2⟩

end Script

theorem Leaf.compile_separateChecks_eq_ok_iff {keys : List (XOnlyKey P)} {weight : UInt32}
    {leaf : Leaf P} :
    Leaf.compile keys .separateChecks weight = .ok leaf <->
      keys ≠ [] ∧ keys.length <= maxKeys ∧
        leaf =
          { weight := weight
            requiredKeys := keys
            script := Script.allSign keys
            kind := .multi } := by
  unfold Leaf.compile
  simp only [map_eq_ok_iff, Script.compileChecks_eq_ok_iff]
  constructor
  · intro h
    rcases h with ⟨_, ⟨hne, hle, rfl⟩, rfl⟩
    exact ⟨hne, hle, rfl⟩
  · intro h
    rcases h with ⟨hne, hle, rfl⟩
    exact ⟨_, ⟨hne, hle, rfl⟩, rfl⟩

end Cosigning
