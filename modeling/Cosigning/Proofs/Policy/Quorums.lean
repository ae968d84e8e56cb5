import Cosigning.Leaf
import Cosigning.Proofs.Traversal
import Mathlib.Data.List.Sublists

/-!
# The quorums of a policy

The subsets of a fixed size are the sublists of that length, each of them once
when no element repeats.  A policy compiles one leaf for each of them, in their
order.
-/

namespace Cosigning

variable {α : Type}

/-!
## Sublists of a fixed size
-/

theorem sublistsOfSize_perm_sublistsLen (size : Nat) (items : List α) :
    (sublistsOfSize size items).Perm (items.sublistsLen size) := by
  induction items generalizing size with
  | nil =>
      cases size with
      | zero => simp [sublistsOfSize]
      | succ size => simp [sublistsOfSize]
  | cons x rest ih =>
      cases size with
      | zero => simp [sublistsOfSize]
      | succ size =>
          rw [sublistsOfSize, List.sublistsLen_succ_cons]
          by_cases hshort : rest.length < size
          · rw [if_pos hshort, List.sublistsLen_of_length_lt hshort,
              List.sublistsLen_of_length_lt (Nat.lt_succ_of_lt hshort)]
            exact List.Perm.nil
          · rw [if_neg hshort]
            have hwith := (ih size).map (fun chosen => x :: chosen)
            have hwithout := ih (size + 1)
            exact (hwith.append hwithout).trans List.perm_append_comm

theorem mem_sublistsOfSize {size : Nat} {items chosen : List α} :
    chosen ∈ sublistsOfSize size items <-> chosen.Sublist items ∧ chosen.length = size := by
  rw [(sublistsOfSize_perm_sublistsLen size items).mem_iff]
  exact List.mem_sublistsLen

theorem nodup_sublistsOfSize (size : Nat) {items : List α} (h : items.Nodup) :
    (sublistsOfSize size items).Nodup :=
  (sublistsOfSize_perm_sublistsLen size items).nodup_iff.mpr (List.nodup_sublistsLen size h)

theorem length_sublistsOfSize (size : Nat) (items : List α) :
    (sublistsOfSize size items).length = items.length.choose size := by
  rw [(sublistsOfSize_perm_sublistsLen size items).length_eq, List.length_sublistsLen]

theorem subsets_eq_ok_sublistsOfSize {items : List α} (hne : items ≠ []) {size : Nat}
    (h : ¬ (size = 0 ∨ items.length < size)) :
    subsets items size = .ok (sublistsOfSize size items) := by
  unfold subsets
  rw [if_neg (by simpa using hne), if_neg h]

theorem subsets_eq_ok {items : List α} {size : Nat} {chosen : List (List α)}
    (h : subsets items size = .ok chosen) : chosen = sublistsOfSize size items := by
  unfold subsets at h
  split at h
  · cases h
  · split at h
    · cases h
    · cases h
      rfl

theorem sublist_eq_filter [DecidableEq α] {chosen items : List α} (hnodup : items.Nodup)
    (h : chosen.Sublist items) : chosen = items.filter (fun x => decide (x ∈ chosen)) := by
  induction h with
  | slnil => rfl
  | @cons sub rest x hsub ih =>
      have hfresh := (List.nodup_cons.mp hnodup).1
      have hx : x ∉ sub := fun hmem => hfresh (hsub.subset hmem)
      rw [List.filter_cons_of_neg (by simpa using hx)]
      exact ih (List.nodup_cons.mp hnodup).2
  | @cons_cons sub rest x hsub ih =>
      have hfresh := (List.nodup_cons.mp hnodup).1
      rw [List.filter_cons_of_pos (by simp)]
      have hrest : forall y, y ∈ rest ->
          decide (y ∈ x :: sub) = decide (y ∈ sub) := by
        intro y hy
        have hne : y ≠ x := fun heq => hfresh (heq ▸ hy)
        simp [hne]
      rw [List.filter_congr hrest, ← ih (List.nodup_cons.mp hnodup).2]

/-!
## The leaves of a policy
-/

variable {P : Type} [Ciphersuite P]

theorem ThresholdPolicy.ofKeys_self (policy : ThresholdPolicy P) :
    ThresholdPolicy.ofKeys policy.keys policy.threshold policy.internalKey = .ok policy := by
  have hmin := policy.min_le_threshold
  have hmax := policy.threshold_le
  have hcount := policy.length_le
  have hempty : policy.keys.isEmpty = false := by
    rw [List.isEmpty_eq_false_iff_exists_mem]
    apply List.exists_mem_of_length_pos
    unfold minThreshold at hmin
    omega
  unfold ThresholdPolicy.ofKeys
  rw [if_neg (by rw [hempty]; exact Bool.false_ne_true), dif_neg (Nat.not_lt.mpr hcount),
    dif_neg (by omega)]
  split
  · rename_i key hrepeat
    rw [(firstRepeat?_eq_none_iff policy.keys).mpr policy.nodup] at hrepeat
    cases hrepeat
  · rfl

theorem ThresholdPolicy.ofKeys_eq_ok_iff {keys : List (XOnlyKey P)} {threshold : Nat}
    {internalKey : InternalKey P} {policy : ThresholdPolicy P} :
    ThresholdPolicy.ofKeys keys threshold internalKey = .ok policy <->
      policy.keys = keys ∧ policy.threshold = threshold ∧
        policy.internalKey = internalKey := by
  constructor
  · intro h
    unfold ThresholdPolicy.ofKeys at h
    split at h
    · cases h
    · split at h
      · cases h
      · split at h
        · cases h
        · split at h
          · cases h
          · cases h
            exact ⟨rfl, rfl, rfl⟩
  · intro h
    rcases h with ⟨rfl, rfl, rfl⟩
    exact policy.ofKeys_self

theorem Leaf.compile_eq_ok {keys : List (XOnlyKey P)} {strategy : Strategy} {weight : UInt32}
    {leaf : Leaf P} (h : Leaf.compile keys strategy weight = .ok leaf) :
    leaf.requiredKeys = keys ∧ leaf.weight = weight := by
  cases strategy with
  | separateChecks =>
      cases hscript : Script.compileChecks keys with
      | error cause =>
          simp only [Leaf.compile, hscript] at h
          cases h
      | ok script =>
          simp only [Leaf.compile, hscript] at h
          cases h
          exact ⟨rfl, rfl⟩
  | jointCheck =>
      cases hscript : compileJoint keys with
      | error cause =>
          simp only [Leaf.compile, hscript] at h
          cases h
      | ok compiled =>
          simp only [Leaf.compile, hscript] at h
          cases h
          exact ⟨rfl, rfl⟩

theorem WeightRule.length_weights (rule : WeightRule) (count : Nat) :
    (rule.weights count).length = count := by
  rw [weights, List.length_map, List.length_range]

theorem ThresholdPolicy.forall₂_zip_leaves {policy : ThresholdPolicy P} {strategy : Strategy}
    {rule : WeightRule} {leaves : List (Leaf P)}
    (h : policy.leaves strategy rule = .ok leaves) :
    List.Forall₂ (fun entry leaf => Leaf.compile entry.1 strategy entry.2 = .ok leaf)
      ((sublistsOfSize policy.threshold policy.keys).zip
        (rule.weights (sublistsOfSize policy.threshold policy.keys).length)) leaves := by
  rcases bind_eq_ok_iff.mp h with ⟨quorums, hquorums, h⟩
  rw [← subsets_eq_ok hquorums]
  exact forall₂_of_mapM_eq_ok h

theorem ThresholdPolicy.forall₂_leaves {policy : ThresholdPolicy P} {strategy : Strategy}
    {rule : WeightRule} {leaves : List (Leaf P)}
    (h : policy.leaves strategy rule = .ok leaves) :
    List.Forall₂ (fun quorum leaf => exists weight, Leaf.compile quorum strategy weight = .ok leaf)
      (sublistsOfSize policy.threshold policy.keys) leaves := by
  have hlength : (rule.weights (sublistsOfSize policy.threshold policy.keys).length).length =
      (sublistsOfSize policy.threshold policy.keys).length :=
    WeightRule.length_weights rule _
  rw [← List.map_fst_zip (Nat.le_of_eq hlength.symm), List.forall₂_map_left_iff]
  exact (ThresholdPolicy.forall₂_zip_leaves h).imp (fun entry leaf hcompile => ⟨entry.2, hcompile⟩)

theorem ThresholdPolicy.map_requiredKeys_of_leaves {policy : ThresholdPolicy P}
    {strategy : Strategy} {rule : WeightRule} {leaves : List (Leaf P)}
    (h : policy.leaves strategy rule = .ok leaves) :
    leaves.map Leaf.requiredKeys = sublistsOfSize policy.threshold policy.keys := by
  have hkeys : List.Forall₂ Eq (sublistsOfSize policy.threshold policy.keys)
      (leaves.map Leaf.requiredKeys) := by
    rw [List.forall₂_map_right_iff]
    apply (ThresholdPolicy.forall₂_leaves h).imp
    intro quorum leaf hcompile
    rcases hcompile with ⟨weight, hcompile⟩
    exact (Leaf.compile_eq_ok hcompile).1.symm
  rw [List.forall₂_eq_eq_eq] at hkeys
  exact hkeys.symm

theorem ThresholdPolicy.map_weight_of_leaves {policy : ThresholdPolicy P}
    {strategy : Strategy} {rule : WeightRule} {leaves : List (Leaf P)}
    (h : policy.leaves strategy rule = .ok leaves) :
    leaves.map Leaf.weight = rule.weights leaves.length := by
  have hlength := congrArg List.length (ThresholdPolicy.map_requiredKeys_of_leaves h)
  rw [List.length_map] at hlength
  have hweights : List.Forall₂ Eq (rule.weights leaves.length) (leaves.map Leaf.weight) := by
    rw [← List.map_snd_zip (Nat.le_of_eq ((WeightRule.length_weights rule _).trans hlength)),
      List.forall₂_map_left_iff, List.forall₂_map_right_iff]
    rw [hlength]
    exact (ThresholdPolicy.forall₂_zip_leaves h).imp
      (fun entry leaf hcompile => (Leaf.compile_eq_ok hcompile).2.symm)
  rw [List.forall₂_eq_eq_eq] at hweights
  exact hweights.symm

end Cosigning
