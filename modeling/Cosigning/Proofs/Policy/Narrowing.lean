import Cosigning.Matching
import Cosigning.Proofs.Policy.Quorums
import Cosigning.Secp256k1.Point
import Mathlib.Data.Finset.Card

/-!
# Narrowing to the leaf of a quorum

Narrowing keeps the leaves whose required keys are, as a set, the signers.  Over
the leaves of a policy that is one leaf for a quorum and none for any other group
of signers.
-/

namespace Cosigning

variable {P : Type} [Ciphersuite P]

/-!
## Narrowing as one selection
-/

def Leaf.requiresExactly (leaf : Leaf P) (signers : List (XOnlyKey P)) : Prop :=
  forall key, key ∈ leaf.requiredKeys <-> key ∈ signers

theorem leavesRequiringAll_eq_filter (leaves : List (Leaf P)) (signers : List (XOnlyKey P)) :
    leavesRequiringAll leaves signers =
      leaves.filter (fun leaf => signers.all (fun key => leaf.requires key)) := by
  unfold leavesRequiringAll
  induction signers generalizing leaves with
  | nil => simp
  | cons key rest ih =>
      rw [List.foldl_cons, ih, leavesRequiring, List.filter_filter]
      apply List.filter_congr
      intro leaf _
      rw [List.all_cons, Bool.and_comm]

theorem Leaf.requiresExactly_iff_subset {leaf : Leaf P} {signers : List (XOnlyKey P)} :
    leaf.requiresExactly signers <->
      leaf.requiredKeys.all (fun key => signers.contains key) = true ∧
        signers.all (fun key => leaf.requires key) = true := by
  simp only [List.all_eq_true, Leaf.requires, List.contains_iff_mem]
  exact ⟨fun h => ⟨fun key => (h key).mp, fun key => (h key).mpr⟩,
    fun h key => ⟨h.1 key, h.2 key⟩⟩

theorem mem_leavesMatching {leaves : List (Leaf P)} {signers : List (XOnlyKey P)}
    {leaf : Leaf P} :
    leaf ∈ leavesMatching leaves signers <->
      leaf ∈ leaves ∧ leaf.requiresExactly signers := by
  unfold leavesMatching
  rw [leavesRequiringAll_eq_filter, List.filter_filter, List.mem_filter, Bool.and_eq_true,
    Leaf.requiresExactly_iff_subset]

theorem leavesMatching_sublist (leaves : List (Leaf P)) (signers : List (XOnlyKey P)) :
    (leavesMatching leaves signers).Sublist leaves := by
  unfold leavesMatching
  rw [leavesRequiringAll_eq_filter]
  exact List.filter_sublist.trans List.filter_sublist

theorem narrowToLeaf_of_leavesMatching_singleton {leaves : List (Leaf P)}
    {signers : List (XOnlyKey P)} {leaf : Leaf P} (hsigners : signers ≠ [])
    (h : leavesMatching leaves signers = [leaf]) :
    narrowToLeaf leaves signers = .ok leaf := by
  unfold narrowToLeaf
  rw [if_neg (by simpa using hsigners), h]

theorem leavesMatching_of_narrowToLeaf {leaves : List (Leaf P)} {signers : List (XOnlyKey P)}
    {leaf : Leaf P} (h : narrowToLeaf leaves signers = .ok leaf) :
    leavesMatching leaves signers = [leaf] := by
  unfold narrowToLeaf at h
  dsimp only at h
  split at h
  · cases h
  · split at h
    · rename_i found hfound
      rw [hfound, Except.ok.inj h]
    · cases h

theorem narrowToLeaf_of_leavesMatching_nil {leaves : List (Leaf P)}
    {signers : List (XOnlyKey P)} (h : leavesMatching leaves signers = []) :
    narrowToLeaf leaves signers = .error (.noUniqueLeaf (signers.map XOnlyKey.bytes) 0) := by
  unfold narrowToLeaf
  rw [h]
  split <;> rfl

/-!
## Quorums
-/

/-- A group of signers is a quorum when, as a set, it is a subset of the keys with as many elements
as the threshold says. -/
def IsQuorum (keys : List (XOnlyKey P)) (threshold : Nat) (signers : List (XOnlyKey P)) : Prop :=
  signers.toFinset ⊆ keys.toFinset ∧ signers.toFinset.card = threshold

def quorumOf (keys signers : List (XOnlyKey P)) : List (XOnlyKey P) :=
  keys.filter (fun key => decide (key ∈ signers))

theorem mem_quorumOf {keys signers : List (XOnlyKey P)} {key : XOnlyKey P} :
    key ∈ quorumOf keys signers <-> key ∈ keys ∧ key ∈ signers := by
  simp [quorumOf]

theorem isQuorum_iff {keys signers : List (XOnlyKey P)} {threshold : Nat}
    (hnodup : keys.Nodup) :
    IsQuorum keys threshold signers <->
      (forall key, key ∈ signers -> key ∈ keys) ∧
        (quorumOf keys signers).length = threshold := by
  have hsubset : signers.toFinset ⊆ keys.toFinset <->
      forall key, key ∈ signers -> key ∈ keys := by
    simp [Finset.subset_iff]
  have hcard : (forall key, key ∈ signers -> key ∈ keys) ->
      signers.toFinset.card = (quorumOf keys signers).length := by
    intro hmem
    have hset : signers.toFinset = (quorumOf keys signers).toFinset := by
      ext key
      rw [List.mem_toFinset, List.mem_toFinset, mem_quorumOf]
      exact ⟨fun hkey => ⟨hmem key hkey, hkey⟩, And.right⟩
    rw [hset]
    exact List.toFinset_card_of_nodup (hnodup.filter _)
  unfold IsQuorum
  rw [hsubset]
  exact and_congr_right (fun hmem => by rw [hcard hmem])

theorem mem_sublistsOfSize_and_iff {keys signers chosen : List (XOnlyKey P)} {threshold : Nat}
    (hnodup : keys.Nodup) :
    (chosen ∈ sublistsOfSize threshold keys ∧ forall key, key ∈ chosen <-> key ∈ signers) <->
      IsQuorum keys threshold signers ∧ chosen = quorumOf keys signers := by
  rw [mem_sublistsOfSize, isQuorum_iff hnodup]
  constructor
  · intro h
    rcases h with ⟨⟨hsub, hlength⟩, hexact⟩
    have hchosen : chosen = quorumOf keys signers := by
      rw [sublist_eq_filter hnodup hsub]
      apply List.filter_congr
      intro key _
      simp [hexact key]
    refine ⟨⟨fun key hkey => hsub.subset ((hexact key).mpr hkey), ?_⟩, hchosen⟩
    rw [← hchosen]
    exact hlength
  · intro h
    rcases h with ⟨⟨hmem, hlength⟩, rfl⟩
    refine ⟨⟨List.filter_sublist, hlength⟩, ?_⟩
    intro key
    rw [mem_quorumOf]
    exact ⟨And.right, fun hkey => ⟨hmem key hkey, hkey⟩⟩

/-!
## The leaves of a policy
-/

theorem map_requiredKeys_leavesMatching {policy : ThresholdPolicy P} {strategy : Strategy}
    {rule : WeightRule} {leaves : List (Leaf P)}
    (h : policy.leaves strategy rule = .ok leaves) (signers : List (XOnlyKey P))
    [Decidable (IsQuorum policy.keys policy.threshold signers)] :
    (leavesMatching leaves signers).map Leaf.requiredKeys =
      if IsQuorum policy.keys policy.threshold signers then [quorumOf policy.keys signers]
      else [] := by
  have hkeys := ThresholdPolicy.map_requiredKeys_of_leaves h
  have hnodup : ((leavesMatching leaves signers).map Leaf.requiredKeys).Nodup := by
    apply ((leavesMatching_sublist leaves signers).map Leaf.requiredKeys).nodup
    rw [hkeys]
    exact nodup_sublistsOfSize policy.threshold policy.nodup
  have hmem : forall chosen,
      chosen ∈ (leavesMatching leaves signers).map Leaf.requiredKeys <->
        IsQuorum policy.keys policy.threshold signers ∧
          chosen = quorumOf policy.keys signers := by
    intro chosen
    rw [← mem_sublistsOfSize_and_iff policy.nodup, ← hkeys, List.mem_map, List.mem_map]
    constructor
    · intro hchosen
      rcases hchosen with ⟨leaf, hleaf, rfl⟩
      rcases mem_leavesMatching.mp hleaf with ⟨hleaf, hexact⟩
      exact ⟨⟨leaf, hleaf, rfl⟩, hexact⟩
    · intro hchosen
      rcases hchosen with ⟨⟨leaf, hleaf, rfl⟩, hexact⟩
      exact ⟨leaf, mem_leavesMatching.mpr ⟨hleaf, hexact⟩, rfl⟩
  split
  · rename_i hquorum
    rw [← List.perm_singleton]
    apply (List.perm_ext_iff_of_nodup hnodup (List.nodup_singleton _)).mpr
    intro chosen
    rw [hmem, List.mem_singleton]
    exact and_iff_right hquorum
  · rename_i hquorum
    apply List.eq_nil_iff_forall_not_mem.mpr
    intro chosen hchosen
    exact hquorum ((hmem chosen).mp hchosen).1

/-- Every quorum of a policy has exactly one leaf, the one of its members in the order of the
policy's keys, and no other group of signers has a leaf. -/
theorem narrowToLeaf_policy_leaves {keys : List (XOnlyKey P)} {threshold : Nat}
    {internalKey : InternalKey P} {policy : ThresholdPolicy P} {strategy : Strategy}
    {rule : WeightRule} {leaves : List (Leaf P)}
    (hpolicy : ThresholdPolicy.ofKeys keys threshold internalKey = .ok policy)
    (hleaves : policy.leaves strategy rule = .ok leaves) (signers : List (XOnlyKey P)) :
    (IsQuorum keys threshold signers ->
      exists leaf, leaf ∈ leaves ∧ leaf.requiredKeys = quorumOf keys signers ∧
        narrowToLeaf leaves signers = .ok leaf) ∧
    (¬ IsQuorum keys threshold signers ->
      narrowToLeaf leaves signers =
        .error (.noUniqueLeaf (signers.map XOnlyKey.bytes) 0)) := by
  classical
  rcases ThresholdPolicy.ofKeys_eq_ok_iff.mp hpolicy with ⟨hkeys, hthreshold, _⟩
  have hmatch := map_requiredKeys_leavesMatching hleaves signers
  rw [hkeys, hthreshold] at hmatch
  constructor
  · intro hquorum
    rw [if_pos hquorum] at hmatch
    rcases List.map_eq_singleton_iff.mp hmatch with ⟨leaf, hsingle, hrequired⟩
    have hleaf : leaf ∈ leavesMatching leaves signers := by
      rw [hsingle]
      exact List.mem_singleton_self leaf
    have hsigners : signers ≠ [] := by
      intro hempty
      have hmin := policy.min_le_threshold
      rw [hthreshold, ← hquorum.2, hempty] at hmin
      simp [minThreshold] at hmin
    exact ⟨leaf, (mem_leavesMatching.mp hleaf).1, hrequired,
      narrowToLeaf_of_leavesMatching_singleton hsigners hsingle⟩
  · intro hquorum
    rw [if_neg hquorum] at hmatch
    exact narrowToLeaf_of_leavesMatching_nil (List.map_eq_nil_iff.mp hmatch)

def threeKeys : List (XOnlyKey Secp256k1.Point) :=
  [{ bytes :=
      FixedBytes.ofNat 32 0x79be667ef9dcbbac55a06295ce870b07029bfcdb2dce28d959f2815b16f81798
     lifts := by decide +kernel },
   { bytes :=
      FixedBytes.ofNat 32 0xc6047f9441ed7d6d3045406e95c07cd85c778e4b8cef3ca7abac09b95c709ee5
     lifts := by decide +kernel },
   { bytes :=
      FixedBytes.ofNat 32 0xf9308a019258c31049344f85f89d5229b531c845836f99b08601f113bce036f9
     lifts := by decide +kernel }]

def twoOfThree : ThresholdPolicy Secp256k1.Point :=
  { keys := threeKeys
    threshold := 2
    internalKey := .unspendable
    length_le := by decide
    min_le_threshold := by decide
    threshold_le := by decide
    nodup := by decide +kernel }

theorem narrowToLeaf_two_of_three :
    ThresholdPolicy.ofKeys threeKeys 2 .unspendable = .ok twoOfThree ∧
    exists leaves, twoOfThree.leaves .separateChecks Weighting.standard.weight = .ok leaves ∧
      leaves.length = 3 ∧
      exists leaf, leaf ∈ leaves ∧
        leaf.requiredKeys = [threeKeys[0], threeKeys[2]] ∧
        narrowToLeaf leaves [threeKeys[2], threeKeys[0], threeKeys[2]] = .ok leaf ∧
        narrowToLeaf leaves [threeKeys[1]] =
          .error (.noUniqueLeaf [threeKeys[1].bytes] 0) := by
  have hpolicy : ThresholdPolicy.ofKeys threeKeys 2 .unspendable = .ok twoOfThree :=
    twoOfThree.ofKeys_self
  have hcompiled : exists leaves,
      twoOfThree.leaves .separateChecks Weighting.standard.weight = .ok leaves ∧
        leaves.length = 3 :=
    ⟨_, rfl, rfl⟩
  rcases hcompiled with ⟨leaves, hleaves, hlength⟩
  refine ⟨hpolicy, leaves, hleaves, hlength, ?_⟩
  have hquorum :=
    narrowToLeaf_policy_leaves hpolicy hleaves [threeKeys[2], threeKeys[0], threeKeys[2]]
  have hsingle := narrowToLeaf_policy_leaves hpolicy hleaves [threeKeys[1]]
  rcases hquorum.1 ⟨by decide +kernel, by decide +kernel⟩ with ⟨leaf, hmem, hrequired, hleaf⟩
  refine ⟨leaf, hmem, ?_, hleaf, hsingle.2 (fun hsize => ?_)⟩
  · rw [hrequired]
    decide +kernel
  · exact absurd hsize.2 (by decide +kernel)

end Cosigning
