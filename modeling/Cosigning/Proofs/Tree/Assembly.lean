import Cosigning.Proofs.Tree.HuffmanItems
import Cosigning.Tree.ScriptTree

/-!
# Assembling a script tree

Handing over the layout of a Huffman tree from left to right makes the builder
assemble that very tree: whatever waits above, the leaves of a subtree settle like
the finished subtree.
-/

namespace Cosigning

variable {P : Type} [Ciphersuite P]

def HuffmanTree.subtree : HuffmanTree (Leaf P × Nat) -> Subtree
  | leaf entry => Subtree.ofScript P entry.1.script
  | branch left right => Subtree.combine P right.subtree left.subtree

/-!
## Settling
-/

namespace Builder

theorem length_place {subtree : Subtree} {depth : Nat} {waiting : Builder}
    (h : waiting.length <= depth) : (place subtree depth waiting).length = depth + 1 := by
  simp only [place, List.length_cons, List.length_append, List.length_replicate]
  omega

theorem settle_of_length_le {subtree : Subtree} {depth : Nat} {waiting : Builder}
    (h : waiting.length <= depth) :
    settle P subtree depth waiting = .ok (place subtree depth waiting) := by
  cases waiting with
  | nil => rw [settle]
  | cons first rest =>
      have hdepth : rest.length ≠ depth := by
        rw [List.length_cons] at h
        omega
      cases first with
      | none => rw [settle, if_neg hdepth]
      | some sibling => rw [settle, if_neg hdepth]

theorem settle_replicate_append {subtree : Subtree} {depth : Nat} {waiting : Builder}
    (h : waiting.length <= depth + 1) :
    settle P subtree depth
        (List.replicate (depth + 1 - waiting.length) none ++ waiting) =
      settle P subtree depth waiting := by
  rcases Nat.lt_or_eq_of_le h with hlt | heq
  · have hpad : depth + 1 - waiting.length = (depth - waiting.length) + 1 := by omega
    have hrest :
        (List.replicate (depth - waiting.length) none ++ waiting).length = depth := by
      rw [List.length_append, List.length_replicate]
      omega
    rw [hpad, List.replicate_succ, List.cons_append, settle, if_pos hrest,
      settle_of_length_le (by omega)]
    simp only [place]
    rw [hrest, Nat.sub_self, List.replicate_zero, List.nil_append]
  · rw [heq, Nat.sub_self, List.replicate_zero, List.nil_append]

theorem settle_place {left right : Subtree} {depth : Nat} {waiting : Builder}
    (h : waiting.length <= depth + 1) :
    settle P right (depth + 1) (place left (depth + 1) waiting) =
      settle P (Subtree.combine P right left) depth waiting := by
  have hrest :
      (List.replicate (depth + 1 - waiting.length) none ++ waiting).length = depth + 1 := by
    rw [List.length_append, List.length_replicate]
    omega
  rw [place, settle, if_pos hrest, if_neg (Nat.succ_ne_zero depth), Nat.add_sub_cancel,
    settle_replicate_append h]

theorem add_eq_settle {builder : Builder} {depth : Nat} {script : List UInt8}
    (hdepth : depth <= maxDepth) (h : builder.length <= depth + 1) :
    builder.add P depth script = settle P (Subtree.ofScript P script) depth builder := by
  unfold maxDepth at hdepth
  rw [add, if_neg (Nat.not_lt.mpr hdepth), if_neg (Nat.not_lt.mpr h)]

end Builder

/-!
## Handing over a layout
-/

theorem addLeaves_append {builder middle : Builder}
    {first second : List ((Leaf P × Nat) × Nat)}
    (h : addLeaves builder first = .ok middle) :
    addLeaves builder (first ++ second) = addLeaves middle second := by
  induction first generalizing builder with
  | nil =>
      cases h
      rfl
  | cons entry rest ih =>
      rcases entry with ⟨⟨leaf, index⟩, depth⟩
      rw [addLeaves] at h
      rw [List.cons_append, addLeaves]
      cases hadd : builder.add P depth leaf.script with
      | error fault =>
          rw [hadd] at h
          cases h
      | ok next =>
          rw [hadd] at h
          exact ih h

/-- Handing over the leaves of a subtree does what settling the finished subtree does. -/
theorem addLeaves_layoutFrom {tree : HuffmanTree (Leaf P × Nat)} {depth : Nat}
    {builder result : Builder} (hheight : depth + tree.height <= maxDepth)
    (hwaiting : builder.length <= depth + 1)
    (h : builder.settle P tree.subtree depth = .ok result) :
    addLeaves builder (tree.layoutFrom depth) = .ok result := by
  induction tree generalizing depth builder result with
  | leaf entry =>
      rcases entry with ⟨leaf, index⟩
      rw [HuffmanTree.layoutFrom, addLeaves,
        Builder.add_eq_settle (Nat.le_trans (Nat.le_add_right _ _) hheight) hwaiting]
      rw [HuffmanTree.subtree] at h
      rw [h]
      rfl
  | branch left right ihleft ihright =>
      rw [HuffmanTree.height] at hheight
      have hleft :
          addLeaves builder (left.layoutFrom (depth + 1)) =
            .ok (Builder.place left.subtree (depth + 1) builder) :=
        ihleft (by omega) (by omega) (Builder.settle_of_length_le hwaiting)
      rw [HuffmanTree.layoutFrom, addLeaves_append hleft]
      apply ihright
      · omega
      · exact Nat.le_of_eq (Builder.length_place hwaiting)
      · rw [Builder.settle_place hwaiting]
        exact h

theorem addLeaves_layout {tree : HuffmanTree (Leaf P × Nat)}
    (hheight : tree.height <= maxDepth) :
    addLeaves [] tree.layout = .ok [some tree.subtree] := by
  apply addLeaves_layoutFrom
  · rwa [Nat.zero_add]
  · exact Nat.zero_le _
  · rfl

theorem ScriptTree.ofLeaves_eq_ok_iff {internalKey : InternalKey P} {leaves : List (Leaf P)}
    {tree : ScriptTree P} :
    ScriptTree.ofLeaves internalKey leaves = .ok tree <->
      exists (shape : HuffmanTree (Leaf P × Nat)) (key : XOnlyKey P) (output : PublicKey P),
        HuffmanTree.ofItems? (fun entry => entry.1.weight) leaves.zipIdx = some shape ∧
        shape.height <= maxDepth ∧
        internalKey.xOnly? = some key ∧
        tweakedKey key shape.subtree.digest = some output ∧
        tree =
          { internalKey := internalKey
            internalXOnly := key
            leaves := leaves
            depths := depthsInOrder Prod.snd shape.layout
            root := shape.subtree
            outputKey := output } := by
  constructor
  · intro h
    unfold ScriptTree.ofLeaves at h
    cases hlayout : huffmanLayout (fun entry : Leaf P × Nat => entry.1.weight) leaves.zipIdx with
    | error cause =>
        rw [hlayout] at h
        cases h
    | ok layout =>
        rcases huffmanLayout_eq_ok_iff.mp hlayout with ⟨shape, hshape, hheight, rfl⟩
        have hadd := addLeaves_layout hheight
        rw [hlayout] at h
        simp only [bind, Except.bind, hadd, Builder.root?] at h
        cases hkey : internalKey.xOnly? with
        | none =>
            rw [hkey] at h
            cases h
        | some key =>
            cases houtput : tweakedKey key shape.subtree.digest with
            | none =>
                simp only [hkey, houtput] at h
                cases h
            | some output =>
                simp only [hkey, houtput] at h
                cases h
                exact ⟨shape, key, output, hshape, hheight, rfl, houtput, rfl⟩
  · intro h
    rcases h with ⟨shape, key, output, hshape, hheight, hkey, houtput, rfl⟩
    have hlayout : huffmanLayout (fun entry : Leaf P × Nat => entry.1.weight) leaves.zipIdx =
        .ok shape.layout :=
      huffmanLayout_eq_ok_iff.mpr ⟨shape, hshape, hheight, rfl⟩
    have hadd := addLeaves_layout hheight
    unfold ScriptTree.ofLeaves
    simp only [hlayout, bind, Except.bind, hadd, Builder.root?, hkey, houtput]
    rfl

theorem ScriptTree.exists_ofLeaves_singleton {internalKey : InternalKey P} {leaf : Leaf P}
    {key : XOnlyKey P} {output : PublicKey P} (hkey : internalKey.xOnly? = some key)
    (houtput : tweakedKey key leaf.digest = some output) :
    exists tree, ScriptTree.ofLeaves internalKey [leaf] = .ok tree := by
  have hshape : HuffmanTree.ofItems? (fun entry : Leaf P × Nat => entry.1.weight) [leaf].zipIdx =
      some (.leaf (leaf, 0)) := by
    simp [HuffmanTree.ofItems?, HuffmanTree.forest, HuffmanTree.merge]
  exact ⟨_, ScriptTree.ofLeaves_eq_ok_iff.mpr
    ⟨_, key, output, hshape, Nat.zero_le _, hkey, houtput, rfl⟩⟩

end Cosigning
