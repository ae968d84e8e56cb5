import Cosigning.Proofs.Policy.Narrowing
import Cosigning.Proofs.Script.LeafScripts
import Cosigning.Proofs.Traversal
import Cosigning.Proofs.Tree.Paths
import Mathlib.Order.Bounds.Basic

/-!
# Every leaf is provably committed

The control block of a leaf leads from its script to the root that the output key
commits to, by the shortest way that the tree has for the script.
-/

namespace Cosigning

open Ciphersuite

variable {P : Type} [Ciphersuite P]

theorem tweakedKey_eq_some {key : XOnlyKey P} {root : Bytes32} {output : PublicKey P}
    (h : tweakedKey key root = some output) :
    exists tweak, tapTweak? key (some root) = some tweak ∧
      output.point = key.lift.point + scale tweak base := by
  unfold tweakedKey at h
  rcases Option.bind_eq_some_iff.mp h with ⟨tweak, htweak, hpoint⟩
  exact ⟨tweak, htweak, PublicKey.ofPoint?_eq_some_iff.mp hpoint⟩

theorem HuffmanTree.depth_le_of_mem_layoutFrom {α : Type} {tree : HuffmanTree α} {depth : Nat}
    {entry : α × Nat} (h : entry ∈ tree.layoutFrom depth) :
    entry.2 <= depth + tree.height := by
  induction tree generalizing depth with
  | leaf item =>
      rcases List.mem_singleton.mp h with rfl
      exact Nat.le_add_right _ _
  | branch left right ihleft ihright =>
      rw [HuffmanTree.height]
      rcases List.mem_append.mp h with hmem | hmem
      · have hle := ihleft hmem
        omega
      · have hle := ihright hmem
        omega

namespace ScriptTree

/-!
## Leaves, depths and paths
-/

section

variable {internalKey : InternalKey P} {leaves : List (Leaf P)} {tree : ScriptTree P}

theorem leaves_of_ofLeaves (h : ofLeaves internalKey leaves = .ok tree) :
    tree.leaves = leaves := by
  rcases ofLeaves_eq_ok_iff.mp h with ⟨_, _, _, _, _, _, _, rfl⟩
  rfl

theorem length_depths_of_ofLeaves (h : ofLeaves internalKey leaves = .ok tree) :
    tree.depths.length = leaves.length := by
  rcases ofLeaves_eq_ok_iff.mp h with ⟨shape, _, _, hshape, _, _, _, rfl⟩
  exact length_depthsInOrder (HuffmanTree.map_fst_layout_of_ofItems? hshape)

theorem paths_perm_of_ofLeaves (h : ofLeaves internalKey leaves = .ok tree) :
    (tree.root.paths.map (fun path => (path.script, path.siblings.length))).Perm
      ((leaves.zip tree.depths).map (fun entry => (entry.1.script, entry.2))) := by
  rcases ofLeaves_eq_ok_iff.mp h with ⟨shape, _, _, hshape, _, _, _, rfl⟩
  have hpaths := paths_perm_layoutFrom shape 0
  simp only [Nat.zero_add] at hpaths
  have hzip := (zip_depthsInOrder_perm (HuffmanTree.map_fst_layout_of_ofItems? hshape)).map
    (fun entry : Leaf P × Nat => (entry.1.script, entry.2))
  rw [List.map_map] at hzip
  exact hpaths.trans hzip.symm

theorem exists_path_iff (h : ofLeaves internalKey leaves = .ok tree) {script : List UInt8}
    {depth : Nat} :
    (exists path, path ∈ tree.root.paths ∧ path.script = script ∧
        path.siblings.length = depth) <->
      exists leaf, (leaf, depth) ∈ leaves.zip tree.depths ∧ leaf.script = script := by
  have hmem := (paths_perm_of_ofLeaves h).mem_iff (a := (script, depth))
  simp only [List.mem_map, Prod.mk.injEq] at hmem
  rw [hmem]
  constructor
  · intro hleaf
    rcases hleaf with ⟨⟨leaf, _⟩, hzip, hscript, rfl⟩
    exact ⟨leaf, hzip, hscript⟩
  · intro hleaf
    rcases hleaf with ⟨leaf, hzip, hscript⟩
    exact ⟨(leaf, depth), hzip, hscript, rfl⟩

theorem exists_depth_of_mem (h : ofLeaves internalKey leaves = .ok tree) {leaf : Leaf P}
    (hleaf : leaf ∈ leaves) : exists depth, (leaf, depth) ∈ leaves.zip tree.depths := by
  have hfst : (leaves.zip tree.depths).map Prod.fst = leaves :=
    List.map_fst_zip (Nat.le_of_eq (length_depths_of_ofLeaves h).symm)
  rw [← hfst] at hleaf
  rcases List.mem_map.mp hleaf with ⟨⟨_, depth⟩, hmem, rfl⟩
  exact ⟨depth, hmem⟩

end

/-!
## Control blocks
-/

section

variable {internalKey : InternalKey P} {leaves : List (Leaf P)} {tree : ScriptTree P}
  {leaf : Leaf P} {block : ControlBlock P}

theorem controlBlock_of_script_mem (h : ofLeaves internalKey leaves = .ok tree)
    (hmem : exists member, member ∈ leaves ∧ member.script = leaf.script) :
    exists block, tree.controlBlock leaf = .ok block := by
  rcases hmem with ⟨member, hmember, hscript⟩
  rcases exists_depth_of_mem h hmember with ⟨depth, hdepth⟩
  rcases (exists_path_iff h).mpr ⟨member, hdepth, hscript⟩ with ⟨path, hpath, hsame, _⟩
  unfold controlBlock
  cases hshortest : tree.shortestPath? leaf.script with
  | none => exact absurd hsame (shortestPath?_eq_none_iff.mp hshortest path hpath)
  | some siblings => exact ⟨_, rfl⟩

theorem outputKey_of_ofLeaves (h : ofLeaves internalKey leaves = .ok tree) :
    internalKey.xOnly? = some tree.internalXOnly ∧
      tweakedKey tree.internalXOnly tree.merkleRoot = some tree.outputKey := by
  rcases ofLeaves_eq_ok_iff.mp h with ⟨_, _, _, _, _, hkey, houtput, rfl⟩
  exact ⟨hkey, houtput⟩

end

/-!
## Trees of policies
-/

section

variable {internalKey : InternalKey P} {leaves : List (Leaf P)} {tree : ScriptTree P}
  {leaf : Leaf P} {block : ControlBlock P}

end

theorem ofPolicy_eq_ok_iff {policy : ThresholdPolicy P} {strategy : Strategy} {rule : WeightRule}
    {tree : ScriptTree P} :
    ofPolicy policy strategy rule = .ok tree <->
      exists leaves, policy.leaves strategy rule = .ok leaves ∧
        ofLeaves policy.internalKey leaves = .ok tree := by
  unfold ofPolicy
  constructor
  · intro h
    cases hleaves : policy.leaves strategy rule with
    | error cause =>
        rw [hleaves] at h
        cases h
    | ok leaves =>
        rw [hleaves] at h
        exact ⟨leaves, rfl, h⟩
  · intro h
    rcases h with ⟨leaves, hleaves, htree⟩
    rw [hleaves]
    exact htree

def thirdLeaf (keys : List (XOnlyKey Secp256k1.Point)) : Leaf Secp256k1.Point :=
  { weight := 33, requiredKeys := keys, script := Script.allSign keys, kind := .multi }

def pairLeaves : List (Leaf Secp256k1.Point) :=
  [thirdLeaf [threeKeys[0], threeKeys[1]], thirdLeaf [threeKeys[0], threeKeys[2]],
    thirdLeaf [threeKeys[1], threeKeys[2]]]

/-- The first two of three equally heavy leaves are merged, so the last one stays near the root. -/
def pairShape : HuffmanTree (Leaf Secp256k1.Point × Nat) :=
  .branch (.leaf (thirdLeaf [threeKeys[1], threeKeys[2]], 2))
    (.branch (.leaf (thirdLeaf [threeKeys[0], threeKeys[1]], 0))
      (.leaf (thirdLeaf [threeKeys[0], threeKeys[2]], 1)))

theorem ofItems?_pairLeaves :
    HuffmanTree.ofItems? (fun entry => entry.1.weight) pairLeaves.zipIdx = some pairShape := by
  have hforest : HuffmanTree.forest (fun entry => entry.1.weight) pairLeaves.zipIdx =
      pairLeaves.zipIdx.map (fun entry =>
        { weight := 33, order := entry.2, tree := .leaf entry }) := by
    unfold HuffmanTree.forest
    rw [List.mergeSort_of_pairwise]
    · simp [pairLeaves, thirdLeaf]
    · simp [pairLeaves, thirdLeaf, HuffmanTree.Candidate.precedes]
  rw [HuffmanTree.ofItems?, hforest]
  simp [pairLeaves, pairShape, HuffmanTree.merge, HuffmanTree.Candidate.insert,
    HuffmanTree.Candidate.precedes, HuffmanTree.Candidate.join]

theorem leaves_twoOfThree :
    twoOfThree.leaves .separateChecks Weighting.standard.weight = .ok pairLeaves := by
  have hquorums : subsets twoOfThree.keys twoOfThree.threshold =
      .ok [[threeKeys[0], threeKeys[1]], [threeKeys[0], threeKeys[2]],
        [threeKeys[1], threeKeys[2]]] := rfl
  -- For any two keys, so that the keys themselves need not be evaluated.
  have hcompile : forall first second : XOnlyKey Secp256k1.Point,
      Leaf.compile [first, second] .separateChecks 33 = .ok (thirdLeaf [first, second]) :=
    fun _ _ => rfl
  unfold ThresholdPolicy.leaves
  rw [hquorums]
  refine mapM_eq_ok_of_forall₂ (.cons ?_ (.cons ?_ (.cons ?_ .nil)))
  · exact hcompile threeKeys[0] threeKeys[1]
  · exact hcompile threeKeys[0] threeKeys[2]
  · exact hcompile threeKeys[1] threeKeys[2]

theorem exists_tree_pairLeaves :
    exists tree, ofPolicy twoOfThree .separateChecks Weighting.standard.weight = .ok tree ∧
      ofLeaves .unspendable pairLeaves = .ok tree := by
  have hkey : ((InternalKey.unspendable : InternalKey Secp256k1.Point).xOnly?.bind
      (fun key => tweakedKey key pairShape.subtree.digest)).isSome = true := by
    decide +kernel
  rcases Option.isSome_iff_exists.mp hkey with ⟨output, houtput⟩
  rcases Option.bind_eq_some_iff.mp houtput with ⟨key, hkey, houtput⟩
  have htree := ofLeaves_eq_ok_iff.mpr
    ⟨pairShape, key, output, ofItems?_pairLeaves, by decide, hkey, houtput, rfl⟩
  exact ⟨_, ofPolicy_eq_ok_iff.mpr ⟨pairLeaves, leaves_twoOfThree, htree⟩, htree⟩

end ScriptTree

end Cosigning
