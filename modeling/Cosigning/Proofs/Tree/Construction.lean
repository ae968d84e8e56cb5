import Cosigning.Proofs.Script.JointLeaf
import Cosigning.Proofs.Tree.Height
import Mathlib.Data.Nat.Choose.Bounds

/-!
# Every policy has a tree

A policy admits only what the steps from its keys to its tree accept, so that nothing
but the group can stand in the way of the tree, by a point at infinity.  Each leaf of the tree
then has a control block and a miniscript.
-/

namespace Cosigning

open Ciphersuite

variable {P : Type} [Ciphersuite P]

theorem InternalKey.exists_xOnly? (internalKey : InternalKey P)
    (hunspendable : (XOnlyKey.ofBytes? (P := P) unspendableCoordinate).isSome = true) :
    exists key, internalKey.xOnly? = some key := by
  cases internalKey with
  | owner key => exact ⟨key, rfl⟩
  | unspendable => exact Option.isSome_iff_exists.mp hunspendable

/-!
## Leaves
-/

theorem Leaf.exists_compile {keys : List (XOnlyKey P)} {strategy : Strategy} (hne : keys ≠ [])
    (hle : keys.length <= maxKeys) (hnodup : keys.Nodup)
    (hfinite : strategy = .jointCheck ->
      Musig.aggregatePoint (keys.map XOnlyKey.lift) ≠ 0) (weight : UInt32) :
    exists leaf, Leaf.compile keys strategy weight = .ok leaf := by
  cases strategy with
  | separateChecks =>
      exact ⟨_, Leaf.compile_separateChecks_eq_ok_iff.mpr ⟨hne, hle, rfl⟩⟩
  | jointCheck =>
      rcases Musig.exists_aggregateXOnly hne hnodup (hfinite rfl) with ⟨aggregate, haggregate⟩
      have hscript := compileJoint_eq_ok (List.length_pos_iff.mpr hne) hle haggregate
      exact ⟨_, Leaf.compile_jointCheck_eq_ok_iff.mpr ⟨_, aggregate, hscript, rfl⟩⟩

theorem Leaf.exists_miniscript {leaf : Leaf P} (h : leaf.requiredKeys.Nodup) :
    exists fragment, leaf.miniscript = .ok fragment := by
  unfold Leaf.miniscript
  cases leaf.kind with
  | multi =>
      refine ⟨_, if_pos ?_⟩
      exact decide_eq_true h
  | musig aggregate => exact ⟨_, rfl⟩

theorem mem_of_narrowToLeaf_eq_ok {leaves : List (Leaf P)} {signers : List (XOnlyKey P)}
    {leaf : Leaf P} (h : narrowToLeaf leaves signers = .ok leaf) : leaf ∈ leaves := by
  apply (leavesMatching_sublist leaves signers).subset
  rw [leavesMatching_of_narrowToLeaf h]
  exact List.mem_singleton_self leaf

namespace ThresholdPolicy

variable {policy : ThresholdPolicy P} {strategy : Strategy} {rule : WeightRule}
  {leaves : List (Leaf P)}

theorem subsets_keys (policy : ThresholdPolicy P) :
    subsets policy.keys policy.threshold =
      .ok (sublistsOfSize policy.threshold policy.keys) := by
  have hle := policy.threshold_le
  have hpos : 0 < policy.threshold := Nat.lt_of_lt_of_le (by decide) policy.min_le_threshold
  have hne : policy.keys ≠ [] := List.ne_nil_of_length_pos (Nat.lt_of_lt_of_le hpos hle)
  exact subsets_eq_ok_sublistsOfSize hne (by omega)

theorem bounds_of_mem_sublistsOfSize {quorum : List (XOnlyKey P)}
    (h : quorum ∈ sublistsOfSize policy.threshold policy.keys) :
    quorum ≠ [] ∧ quorum.length <= maxKeys ∧ quorum.Nodup := by
  rcases mem_sublistsOfSize.mp h with ⟨hsub, hlength⟩
  have hmin := policy.min_le_threshold
  refine ⟨?_, hsub.length_le.trans policy.length_le, hsub.nodup policy.nodup⟩
  intro hnil
  rw [hnil] at hlength
  rw [← hlength, List.length_nil] at hmin
  exact absurd hmin (by decide)

theorem exists_leaves (policy : ThresholdPolicy P) (strategy : Strategy) (rule : WeightRule)
    (hfinite : strategy = .jointCheck -> forall quorum,
      quorum ∈ sublistsOfSize policy.threshold policy.keys ->
        Musig.aggregatePoint (quorum.map XOnlyKey.lift) ≠ 0) :
    exists leaves, policy.leaves strategy rule = .ok leaves := by
  unfold ThresholdPolicy.leaves
  rw [policy.subsets_keys]
  have hcompiled : forall entry, entry ∈ (sublistsOfSize policy.threshold policy.keys).zip
      (rule.weights (sublistsOfSize policy.threshold policy.keys).length) ->
      exists leaf, Leaf.compile entry.1 strategy entry.2 = .ok leaf := by
    intro entry hentry
    have hquorum := (List.of_mem_zip (a := entry.1) (b := entry.2) hentry).1
    rcases bounds_of_mem_sublistsOfSize hquorum with ⟨hne, hle, hnodup⟩
    exact Leaf.exists_compile hne hle hnodup (fun hjoint => hfinite hjoint _ hquorum) entry.2
  exact exists_mapM_eq_ok hcompiled

theorem length_leaves (h : policy.leaves strategy rule = .ok leaves) :
    leaves ≠ [] ∧ leaves.length <= 2 ^ maxKeys := by
  have hkeys := map_requiredKeys_of_leaves h
  have hlength : leaves.length = (sublistsOfSize policy.threshold policy.keys).length := by
    rw [← hkeys, List.length_map]
  constructor
  · intro hnil
    have hmem : policy.keys.take policy.threshold ∈
        sublistsOfSize policy.threshold policy.keys := by
      rw [mem_sublistsOfSize, List.length_take, Nat.min_eq_left policy.threshold_le]
      exact ⟨List.take_sublist _ _, rfl⟩
    rw [← hkeys, hnil] at hmem
    cases hmem
  · rw [hlength, length_sublistsOfSize]
    exact (Nat.choose_le_two_pow _ _).trans (Nat.pow_le_pow_right Nat.two_pos policy.length_le)

theorem nodup_requiredKeys_of_mem_leaves (h : policy.leaves strategy rule = .ok leaves)
    {leaf : Leaf P} (hleaf : leaf ∈ leaves) : leaf.requiredKeys.Nodup := by
  have hmem := List.mem_map_of_mem (f := Leaf.requiredKeys) hleaf
  rw [map_requiredKeys_of_leaves h] at hmem
  exact (bounds_of_mem_sublistsOfSize hmem).2.2

/-!
## The tree
-/

/-- The points that the tree of a policy calls for are finite: the aggregate of each quorum that signs
jointly, and the internal key with its tweak for the root over the leaves. -/
structure Realizable (policy : ThresholdPolicy P) (strategy : Strategy) (rule : WeightRule) :
    Prop where
  aggregate : strategy = .jointCheck -> forall quorum,
    quorum ∈ sublistsOfSize policy.threshold policy.keys ->
      Musig.aggregatePoint (quorum.map XOnlyKey.lift) ≠ 0
  output : forall leaves shape key, policy.leaves strategy rule = .ok leaves ->
    HuffmanTree.ofItems? (fun entry => entry.1.weight) leaves.zipIdx = some shape ->
    policy.internalKey.xOnly? = some key -> (tweakedKey key shape.subtree.digest).isSome = true

end ThresholdPolicy

namespace ScriptTree

variable {policy : ThresholdPolicy P} {strategy : Strategy} {rule : WeightRule}
  {tree : ScriptTree P}

theorem exists_ofPolicy
    (hunspendable : (XOnlyKey.ofBytes? (P := P) unspendableCoordinate).isSome = true)
    (h : policy.Realizable strategy rule) :
    exists tree, ofPolicy policy strategy rule = .ok tree := by
  rcases policy.exists_leaves strategy rule h.aggregate with ⟨leaves, hleaves⟩
  rcases ThresholdPolicy.length_leaves hleaves with ⟨hne, hlength⟩
  have hitems : leaves.zipIdx.length <= 2 ^ 32 := by
    rw [List.length_zipIdx]
    exact hlength.trans (by decide)
  have hnumbered : leaves.zipIdx ≠ [] := by
    simpa using hne
  rcases HuffmanTree.exists_ofItems?_le_maxDepth (fun entry => entry.1.weight) hnumbered hitems
    with ⟨shape, hshape, hheight⟩
  rcases policy.internalKey.exists_xOnly? hunspendable with ⟨key, hkey⟩
  rcases Option.isSome_iff_exists.mp (h.output leaves shape key hleaves hshape hkey) with
    ⟨output, houtput⟩
  have htree := ofLeaves_eq_ok_iff.mpr
    ⟨shape, key, output, hshape, hheight, hkey, houtput, rfl⟩
  exact ⟨_, ofPolicy_eq_ok_iff.mpr ⟨leaves, hleaves, htree⟩⟩

theorem exists_block_and_fragment (h : ofPolicy policy strategy rule = .ok tree) {leaf : Leaf P}
    (hleaf : leaf ∈ tree.leaves) :
    exists block fragment, tree.controlBlock leaf = .ok block ∧
      leaf.miniscript = .ok fragment := by
  rcases ofPolicy_eq_ok_iff.mp h with ⟨leaves, hleaves, htree⟩
  rw [leaves_of_ofLeaves htree] at hleaf
  rcases controlBlock_of_script_mem htree ⟨leaf, hleaf, rfl⟩ with ⟨block, hblock⟩
  rcases Leaf.exists_miniscript
    (ThresholdPolicy.nodup_requiredKeys_of_mem_leaves hleaves hleaf) with ⟨fragment, hfragment⟩
  exact ⟨block, fragment, hblock, hfragment⟩

end ScriptTree

end Cosigning
