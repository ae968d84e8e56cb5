import Cosigning.Proofs.Policy.Quorums

/-!
# Sorted policies

Whether keys make a policy does not depend on their order, and neither does the policy once its keys
are sorted: the keys of a policy are distinct, so that there is one way only to put them in
ascending order.
-/

namespace Cosigning

variable {P : Type} [Ciphersuite P]

namespace ThresholdPolicy

theorem ext {a b : ThresholdPolicy P} (hkeys : a.keys = b.keys)
    (hthreshold : a.threshold = b.threshold) (hinternal : a.internalKey = b.internalKey) :
    a = b := by
  cases a
  cases b
  cases hkeys
  cases hthreshold
  cases hinternal
  rfl

/-!
## The order of keys
-/

theorem sortKeys_perm (keys : List (XOnlyKey P)) : (sortKeys keys).Perm keys :=
  List.mergeSort_perm keys _

theorem pairwise_sortKeys (keys : List (XOnlyKey P)) :
    (sortKeys keys).Pairwise (fun a b => a.bytes.toList <= b.bytes.toList) := by
  have hsorted : (sortKeys keys).Pairwise
      (fun a b => decide (a.bytes.toList <= b.bytes.toList) = true) := by
    apply List.pairwise_mergeSort
    · intro a b c hab hbc
      exact decide_eq_true (List.le_trans (of_decide_eq_true hab) (of_decide_eq_true hbc))
    · intro a b
      simpa only [Bool.or_eq_true, decide_eq_true_iff] using List.le_total _ _
  exact hsorted.imp of_decide_eq_true

theorem sortKeys_eq_of_perm {keys others : List (XOnlyKey P)} (h : keys.Perm others) :
    sortKeys keys = sortKeys others := by
  apply List.Perm.eq_of_pairwise _ (pairwise_sortKeys keys) (pairwise_sortKeys others)
  · exact (sortKeys_perm keys).trans (h.trans (sortKeys_perm others).symm)
  · -- A key is determined by its bytes, so no two keys can change places.
    intro a b _ _ hab hba
    exact XOnlyKey.ext (FixedBytes.ext (List.le_antisymm hab hba))

/-!
## The order of a policy's keys
-/

theorem exists_ofKeys_iff {keys : List (XOnlyKey P)} {threshold : Nat}
    {internalKey : InternalKey P} :
    (exists policy, ofKeys keys threshold internalKey = .ok policy) <->
      keys.length <= maxKeys ∧ minThreshold <= threshold ∧ threshold <= keys.length ∧
        keys.Nodup := by
  constructor
  · intro h
    rcases h with ⟨policy, h⟩
    rcases ofKeys_eq_ok_iff.mp h with ⟨rfl, rfl, _⟩
    exact ⟨policy.length_le, policy.min_le_threshold, policy.threshold_le, policy.nodup⟩
  · intro h
    rcases h with ⟨hlength, hmin, hmax, hnodup⟩
    exact ⟨⟨keys, threshold, internalKey, hlength, hmin, hmax, hnodup⟩,
      ofKeys_eq_ok_iff.mpr ⟨rfl, rfl, rfl⟩⟩

section

variable {keys others : List (XOnlyKey P)} {threshold : Nat} {internalKey : InternalKey P}

theorem exists_ofKeys_of_perm (h : keys.Perm others) :
    (exists policy, ofKeys keys threshold internalKey = .ok policy) <->
      exists policy, ofKeys others threshold internalKey = .ok policy := by
  rw [exists_ofKeys_iff, exists_ofKeys_iff, h.length_eq, h.nodup_iff]

theorem sorted_eq_of_perm {policy other : ThresholdPolicy P} (h : keys.Perm others)
    (hpolicy : ofKeys keys threshold internalKey = .ok policy)
    (hother : ofKeys others threshold internalKey = .ok other) : policy.sorted = other.sorted := by
  rcases ofKeys_eq_ok_iff.mp hpolicy with ⟨rfl, rfl, rfl⟩
  rcases ofKeys_eq_ok_iff.mp hother with ⟨rfl, hthreshold, hinternal⟩
  exact ext (sortKeys_eq_of_perm h) hthreshold.symm hinternal.symm

end

theorem sorted_sorted (policy : ThresholdPolicy P) : policy.sorted.sorted = policy.sorted :=
  ext (sortKeys_eq_of_perm (sortKeys_perm policy.keys)) rfl rfl

theorem pairwise_keys_sorted (policy : ThresholdPolicy P) :
    policy.sorted.keys.Pairwise (fun a b => a.bytes.toList < b.bytes.toList) := by
  -- No key is repeated, which makes the order of the sorted keys a strict one.
  have hdistinct : policy.sorted.keys.Pairwise (fun a b => a ≠ b) := policy.sorted.nodup
  apply ((pairwise_sortKeys policy.keys).and hdistinct).imp
  intro a b h
  have hne : a.bytes.toList ≠ b.bytes.toList :=
    fun heq => h.2 (XOnlyKey.ext (FixedBytes.ext heq))
  exact Std.lt_of_le_of_ne h.1 hne

/-- A policy that differs from another in the order of its keys, which ascends.  Its keys make it
again, and there is nothing left to sort. -/
structure SortsTo (policy sorted : ThresholdPolicy P) : Prop where
  keys_perm : sorted.keys.Perm policy.keys
  threshold : sorted.threshold = policy.threshold
  internalKey : sorted.internalKey = policy.internalKey
  ascending : sorted.keys.Pairwise (fun a b => a.bytes.toList < b.bytes.toList)
  accepted : ofKeys sorted.keys sorted.threshold sorted.internalKey = .ok sorted
  settled : sorted.sorted = sorted

theorem sortsTo_sorted (policy : ThresholdPolicy P) : policy.SortsTo policy.sorted where
  keys_perm := sortKeys_perm policy.keys
  threshold := rfl
  internalKey := rfl
  ascending := policy.pairwise_keys_sorted
  accepted := policy.sorted.ofKeys_self
  settled := policy.sorted_sorted

end ThresholdPolicy

end Cosigning
