import Cosigning.Proofs.Tree.Arena
import Cosigning.Proofs.Tree.Commitment

/-!
# The layout rebuilds the Huffman tree

The depths in a layout are all that is handed over to the builder, leaf by leaf.  It finds
nothing to object to and ends with one root, whose digest is the one of the tree that comes from
merging the two least nodes again and again.
-/

namespace Cosigning

variable {P : Type} [Ciphersuite P]

namespace HuffmanTree

def merkleRoot : HuffmanTree (Leaf P × Nat) -> Bytes32
  | leaf entry => entry.1.digest
  | branch left right => branchDigest P left.merkleRoot right.merkleRoot

theorem digest_subtree (tree : HuffmanTree (Leaf P × Nat)) :
    tree.subtree.digest = tree.merkleRoot := by
  induction tree with
  | leaf entry => rfl
  | branch left right ihleft ihright =>
      rw [merkleRoot, ← ihleft, ← ihright, branchDigest_comm]
      rfl

end HuffmanTree

namespace ScriptTree

open HuffmanTree

/-- What a layout of leaves is and what becomes of it.  It lists every leaf once; an arena with a heap
and a stack gives the same one; the builder takes it and ends with one root; and this root has
the digest of the one tree that comes from merging the two least nodes again and again, the lighter
or else the older first and the leaves created in their order. -/
theorem layout_rebuilds_tree {leaves : List (Leaf P)} {layout : List ((Leaf P × Nat) × Nat)}
    (h : huffmanLayout (fun entry => entry.1.weight) leaves.zipIdx = .ok layout) :
    (layout.map Prod.fst).Perm leaves.zipIdx ∧
      Arena.layout? (leaves.map Leaf.weight) =
        some (.ok (layout.map (fun entry => (entry.1.2, entry.2)))) ∧
      exists (shape : HuffmanTree (Leaf P × Nat)) (root : Subtree),
        (forall other,
          Merges leaves.length (created (fun entry => entry.1.weight) leaves.zipIdx) other <->
            other = shape) ∧
        addLeaves [] layout = .ok [some root] ∧
        Builder.root? [some root] = some root ∧
        root.digest = shape.merkleRoot ∧
        forall (internalKey : InternalKey P) (key : XOnlyKey P) (output : PublicKey P),
          internalKey.xOnly? = some key ->
          tweakedKey key shape.merkleRoot = some output ->
          exists tree, ofLeaves internalKey leaves = .ok tree ∧
            tree.merkleRoot = shape.merkleRoot ∧ tree.outputKey = output := by
  have harena := Arena.layout?_eq (fun entry : Leaf P × Nat => entry.1.weight) Prod.snd
    (snd_of_getElem?_zipIdx leaves)
  rw [map_zipIdx_fst Leaf.weight leaves, h] at harena
  rcases huffmanLayout_eq_ok_iff.mp h with ⟨shape, hshape, hheight, rfl⟩
  have hmerges := merges_of_ofItems? hshape
  rw [List.length_zipIdx] at hmerges
  refine ⟨map_fst_layout_of_ofItems? hshape, harena, shape, shape.subtree, ?_,
    addLeaves_layout hheight, rfl, digest_subtree shape, ?_⟩
  · intro other
    constructor
    · exact hmerges.eq
    · intro hother
      rw [hother]
      exact hmerges
  · intro internalKey key output hkey houtput
    rw [← digest_subtree] at houtput ⊢
    exact ⟨_, ofLeaves_eq_ok_iff.mpr ⟨shape, key, output, hshape, hheight, hkey, houtput, rfl⟩,
      rfl, rfl⟩

theorem layout_rebuilds_tree_pairLeaves :
    exists layout,
      huffmanLayout (fun entry => entry.1.weight) pairLeaves.zipIdx = .ok layout ∧
      layout.map (fun entry => (entry.1.2, entry.2)) = [(2, 1), (0, 2), (1, 2)] ∧
      exists root, addLeaves [] layout = .ok [some root] ∧
        root.digest = pairShape.merkleRoot := by
  have hlayout : huffmanLayout (fun entry => entry.1.weight) pairLeaves.zipIdx =
      .ok pairShape.layout :=
    huffmanLayout_eq_ok_iff.mpr ⟨pairShape, ofItems?_pairLeaves, by decide, rfl⟩
  rcases layout_rebuilds_tree hlayout with ⟨_, _, shape, root, hunique, hadd, _, hdigest, _⟩
  have hshape : pairShape = shape := (hunique pairShape).mp (merges_of_ofItems? ofItems?_pairLeaves)
  rw [← hshape] at hdigest
  exact ⟨_, hlayout, rfl, root, hadd, hdigest⟩

end ScriptTree

end Cosigning
