import Cosigning.Proofs.Tree.Assembly

/-!
# Paths to the root of a script tree

Each leaf of a tree keeps one path: the siblings on its way up, as many as the leaf
is deep.  Climbing a path from its script, with the siblings in whatever order
a node hashes its children, arrives at the digest of the tree.
-/

namespace Cosigning

variable {P : Type} [Ciphersuite P]

theorem branchDigest_comm (a b : Bytes32) : branchDigest P a b = branchDigest P b a := by
  unfold branchDigest
  by_cases hab : a.toList <= b.toList
  · by_cases hba : b.toList <= a.toList
    · have heq : a.toList = b.toList := List.le_antisymm hab hba
      rw [if_pos hab, if_pos hba, heq]
    · rw [if_pos hab, if_neg hba]
  · have hba : b.toList <= a.toList := (List.le_total b.toList a.toList).resolve_right hab
    rw [if_neg hab, if_pos hba]

/-!
## The paths of a Huffman tree
-/

theorem paths_perm_layoutFrom (tree : HuffmanTree (Leaf P × Nat)) (depth : Nat) :
    (tree.subtree.paths.map (fun path => (path.script, depth + path.siblings.length))).Perm
      ((tree.layoutFrom depth).map (fun entry => (entry.1.1.script, entry.2))) := by
  induction tree generalizing depth with
  | leaf entry => exact List.Perm.refl _
  | branch left right ihleft ihright =>
      have hunder : forall (sibling : Bytes32) (paths : List ScriptPath),
          (paths.map (ScriptPath.under sibling)).map
              (fun path => (path.script, depth + path.siblings.length)) =
            paths.map (fun path => (path.script, depth + 1 + path.siblings.length)) := by
        intro sibling paths
        rw [List.map_map]
        apply List.map_congr_left
        intro path _
        simp only [Function.comp_apply, ScriptPath.under, List.length_append,
          List.length_singleton, Prod.mk.injEq, true_and]
        omega
      rw [HuffmanTree.subtree, Subtree.combine, HuffmanTree.layoutFrom, List.map_append,
        List.map_append, hunder, hunder]
      exact ((ihright (depth + 1)).append (ihleft (depth + 1))).trans List.perm_append_comm

/-!
## The shortest path
-/

namespace ScriptTree

theorem shortestPath?_eq_none_iff {tree : ScriptTree P} {script : List UInt8} :
    tree.shortestPath? script = none <->
      forall path, path ∈ tree.root.paths -> path.script ≠ script := by
  unfold shortestPath?
  rw [List.head?_eq_none_iff, ← List.length_eq_zero_iff, List.length_mergeSort,
    List.length_eq_zero_iff, List.map_eq_nil_iff, List.filter_eq_nil_iff]
  simp

end ScriptTree

end Cosigning
