import Cosigning.Key
import Cosigning.Policy.Error
import Cosigning.Repeat

/-!
# Threshold policies

A policy names the signers' keys in order, how many of them must cooperate, and
the internal key that the script tree is committed to.  It holds between two and
sixteen distinct keys, and its threshold is at least two.
-/

namespace Cosigning

open Ciphersuite

variable {P : Type} [Ciphersuite P]

inductive InternalKey (P : Type) [Ciphersuite P] where
  | owner (key : XOnlyKey P)
  | unspendable
deriving DecidableEq

def unspendableCoordinate : Bytes32 :=
  FixedBytes.ofNat 32 0x50929b74c1a04954b78b4b6035e97a5e078a5a0f28ec96d547bfee9ace803ac0

namespace InternalKey

/-- The x-only key; nothing if the suite has no point over the unspendable coordinate. -/
def xOnly? : InternalKey P -> Option (XOnlyKey P)
  | owner key => some key
  | unspendable => XOnlyKey.ofBytes? unspendableCoordinate

def isSpendable : InternalKey P -> Bool
  | owner _ => true
  | unspendable => false

def ofText (text : String) : Except PolicyError (InternalKey P) :=
  if text.toList.map Char.toLower = "unspendable".toList then .ok unspendable
  else
    match XOnlyKey.ofHex? text with
    | some key => .ok (owner key)
    | none => .error (.malformedInternalKey text)

def text : InternalKey P -> String
  | owner key => key.toHex
  | unspendable => "unspendable"

end InternalKey

def minThreshold : Nat := 2

def maxKeys : Nat := 16

structure ThresholdPolicy (P : Type) [Ciphersuite P] where
  keys : List (XOnlyKey P)
  threshold : Nat
  internalKey : InternalKey P
  length_le : keys.length <= maxKeys
  min_le_threshold : minThreshold <= threshold
  threshold_le : threshold <= keys.length
  nodup : keys.Nodup

namespace ThresholdPolicy

def ofKeys (keys : List (XOnlyKey P)) (threshold : Nat) (internalKey : InternalKey P) :
    Except PolicyError (ThresholdPolicy P) :=
  if keys.isEmpty then .error .noKeys
  else if hcount : maxKeys < keys.length then .error (.tooManyKeys keys.length)
  else if hrange : threshold < minThreshold ∨ keys.length < threshold then
    .error (.thresholdRange threshold keys.length)
  else
    match hrepeat : firstRepeat? keys with
    | some key => .error (.duplicateKey key.bytes)
    | none =>
        .ok
          { keys := keys
            threshold := threshold
            internalKey := internalKey
            length_le := Nat.not_lt.mp hcount
            min_le_threshold := Nat.not_lt.mp (fun h => hrange (Or.inl h))
            threshold_le := Nat.not_lt.mp (fun h => hrange (Or.inr h))
            nodup := (firstRepeat?_eq_none_iff keys).mp hrepeat }

def sortKeys (keys : List (XOnlyKey P)) : List (XOnlyKey P) :=
  keys.mergeSort (fun a b => decide (a.bytes.toList <= b.bytes.toList))

def sorted (policy : ThresholdPolicy P) : ThresholdPolicy P :=
  { keys := sortKeys policy.keys
    threshold := policy.threshold
    internalKey := policy.internalKey
    length_le := by
      rw [sortKeys, List.length_mergeSort]
      exact policy.length_le
    min_le_threshold := policy.min_le_threshold
    threshold_le := by
      rw [sortKeys, List.length_mergeSort]
      exact policy.threshold_le
    nodup := (List.mergeSort_perm policy.keys _).nodup_iff.mpr policy.nodup }

end ThresholdPolicy

end Cosigning
