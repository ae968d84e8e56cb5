import Cosigning.Ensure
import Cosigning.Proofs.Tree.Kraft
import Cosigning.Proofs.Tree.Merging
import Mathlib.Data.List.Permutation

/-!
# Huffman trees are optimal

Merging the two least trees of a forest puts the two lightest items next to each other at the
bottom, where they may be in any arrangement that adds nothing.  So no depths that leave room
for each other have less weighted depth than those of the Huffman tree.
-/

namespace Cosigning

variable {α : Type}

namespace HuffmanTree

variable {weight : α -> Nat}

def totalWeight (weight : α -> Nat) (tree : HuffmanTree α) : Nat :=
  (tree.items.map weight).sum

theorem totalWeight_branch (left right : HuffmanTree α) :
    (branch left right).totalWeight weight =
      left.totalWeight weight + right.totalWeight weight := by
  rw [totalWeight, items, List.map_append, List.sum_append]
  rfl

theorem weightedDepth_layoutFrom (tree : HuffmanTree α) (depth : Nat) :
    weightedDepth weight (tree.layoutFrom depth) =
      tree.totalWeight weight * depth + weightedDepth weight tree.layout := by
  induction tree generalizing depth with
  | leaf item =>
      rw [layout, layoutFrom, layoutFrom, weightedDepth_cons, weightedDepth_cons]
      simp [totalWeight, items]
  | branch left right ihleft ihright =>
      rw [layout, layoutFrom, layoutFrom, weightedDepth_append, weightedDepth_append,
        ihleft (depth + 1), ihright (depth + 1), ihleft (0 + 1), ihright (0 + 1),
        totalWeight_branch]
      ring

theorem weightedDepth_layout_branch (left right : HuffmanTree α) :
    weightedDepth weight (branch left right).layout =
      weightedDepth weight left.layout + weightedDepth weight right.layout +
        (left.totalWeight weight + right.totalWeight weight) := by
  rw [layout, layoutFrom, weightedDepth_append, weightedDepth_layoutFrom,
    weightedDepth_layoutFrom]
  ring

theorem kraftSum_layoutFrom (tree : HuffmanTree α) (depth : Nat) :
    kraftSum ((tree.layoutFrom depth).map Prod.snd) = (1 / 2) ^ depth := by
  induction tree generalizing depth with
  | leaf item =>
      rw [layoutFrom, List.map_cons, List.map_nil, kraftSum_cons]
      simp [kraftSum]
  | branch left right ihleft ihright =>
      rw [layoutFrom, List.map_append, kraftSum_append, ihleft, ihright, pow_succ]
      ring

theorem kraftSum_layout (tree : HuffmanTree α) : kraftSum (tree.layout.map Prod.snd) = 1 := by
  rw [layout, kraftSum_layoutFrom, pow_zero]

/-!
## Merging
-/

def Weighed (weight : α -> Nat) (forest : List (Candidate α)) : Prop :=
  forall candidate, candidate ∈ forest -> candidate.weight = candidate.tree.totalWeight weight

theorem weighed_created (weight : α -> UInt32) (xs : List α) :
    Weighed (fun item => (weight item).toNat) (created weight xs) := by
  intro candidate hcandidate
  rcases List.mem_map.mp hcandidate with ⟨entry, _, rfl⟩
  simp [totalWeight, items]

theorem Weighed.of_perm {forest others : List (Candidate α)} (h : Weighed weight forest)
    (hperm : forest.Perm others) : Weighed weight others :=
  fun candidate hcandidate => h candidate (hperm.mem_iff.mpr hcandidate)

theorem Weighed.join {first second : Candidate α} {rest : List (Candidate α)}
    (h : Weighed weight (first :: second :: rest)) (next : Nat) :
    Weighed weight (Candidate.join next first second :: rest) := by
  intro candidate hcandidate
  rcases List.mem_cons.mp hcandidate with rfl | hrest
  · rw [Candidate.join, totalWeight_branch, ← h first List.mem_cons_self,
      ← h second (List.mem_cons_of_mem _ List.mem_cons_self)]
  · exact h candidate (List.mem_cons_of_mem _ (List.mem_cons_of_mem _ hrest))

theorem exists_perm_map_fst_eq {β : Type} {placed : List (α × β)} {items : List α}
    (h : (placed.map Prod.fst).Perm items) :
    exists listed : List (α × β), listed.Perm placed ∧ listed.map Prod.fst = items := by
  have hentries : List.Forall₂ (fun item (entry : α × β) => item = entry.1)
      (placed.map Prod.fst) placed := by
    rw [List.forall₂_map_left_iff, List.forall₂_same]
    exact fun _ _ => rfl
  rcases List.perm_comp_forall₂ h.symm hentries with ⟨listed, hlisted, hperm⟩
  refine ⟨listed, hperm, ?_⟩
  rw [← List.forall₂_eq_eq_eq, List.forall₂_map_left_iff]
  exact hlisted.flip.imp (fun _ _ heq => heq.symm)

/-- Whatever depths the trees of a forest are put at, if these leave room for each other: the tree
that the forest is merged to has no more weighted depth. -/
theorem Merges.weightedDepth_le {next : Nat} {forest : List (Candidate α)}
    {tree : HuffmanTree α} (h : Merges next forest tree) (hweighed : Weighed weight forest)
    {placed : List (Candidate α × Nat)} (hplaced : (placed.map Prod.fst).Perm forest)
    (hroom : kraftSum (placed.map Prod.snd) <= 1) :
    weightedDepth weight tree.layout <=
      (forest.map (fun candidate => weightedDepth weight candidate.tree.layout)).sum +
        weightedDepth Candidate.weight placed := by
  induction h generalizing placed with
  | last next last =>
      rw [List.map_singleton, List.sum_singleton]
      exact Nat.le_add_right _ _
  | step next forest others rest first second tree hfirst hsecond _ ih =>
      have hperm := hfirst.perm_pair hsecond
      rcases exists_perm_map_fst_eq (hplaced.trans hperm) with ⟨listed, hlisted, hitems⟩
      rcases List.map_eq_cons_iff.mp hitems with ⟨⟨_, depth⟩, _, rfl, hsame, hothers⟩
      rcases List.map_eq_cons_iff.mp hothers with ⟨⟨_, other⟩, placedRest, rfl, hsame', hrest⟩
      rcases hsame.symm with rfl
      rcases hsame'.symm with rfl
      rw [← kraftSum_perm (hlisted.map Prod.snd)] at hroom
      rw [← weightedDepth_perm _ hlisted, (hperm.map _).sum_eq]
      have hlightest : forall entry, entry ∈ placedRest -> second.weight <= entry.1.weight := by
        intro entry hentry
        apply Candidate.weight_le_of_rank_lt
        apply hsecond.lt
        rw [← hrest]
        exact List.mem_map_of_mem hentry
      have hfirstSecond : first.weight <= second.weight :=
        Candidate.weight_le_of_rank_lt (hfirst.pair_lt hsecond)
      -- The two trees that are merged may be siblings; the merged tree takes their parent's place.
      rcases exists_siblings hfirstSecond hlightest hroom with
        ⟨parent, below, hbelow, hroom, hcost⟩
      have hitems : (((Candidate.join next first second, parent) :: below).map Prod.fst).Perm
          (Candidate.join next first second :: rest) :=
        List.Perm.of_eq (by rw [List.map_cons, hbelow, hrest])
      have hweighed := hweighed.of_perm hperm
      have hjoined := ih (hweighed.join next) hitems hroom
      have hbranch : weightedDepth weight (Candidate.join next first second).tree.layout =
          weightedDepth weight first.tree.layout + weightedDepth weight second.tree.layout +
            (first.weight + second.weight) := by
        rw [hweighed first List.mem_cons_self,
          hweighed second (List.mem_cons_of_mem _ List.mem_cons_self)]
        exact weightedDepth_layout_branch first.tree second.tree
      have hweight : (Candidate.join next first second).weight = first.weight + second.weight := rfl
      simp only [weightedDepth_cons, List.map_cons, List.sum_cons, hbranch, hweight, Nat.add_mul,
        Nat.mul_add_one] at hjoined hcost ⊢
      omega

end HuffmanTree

open HuffmanTree

/-!
## Depths in the order of the input
-/

theorem weightedDepth_zip (weight : α -> Nat) (xs : List α) (depths : List Nat) :
    weightedDepth weight (xs.zip depths) =
      (List.zipWith (fun share depth => share * depth) (xs.map weight) depths).sum := by
  rw [weightedDepth, List.zip, List.map_zipWith, List.zipWith_map_left]

theorem HuffmanTree.weightedDepth_le_of_ofItems? {weight : α -> UInt32} {xs : List α}
    {tree : HuffmanTree α} (h : ofItems? weight xs = some tree) {depths : List Nat}
    (hlength : depths.length = xs.length) (hroom : kraftSum depths <= 1) :
    weightedDepth (fun item => (weight item).toNat) tree.layout <=
      weightedDepth (fun item => (weight item).toNat) (xs.zip depths) := by
  have hcreated : (created weight xs).length = depths.length := by
    rw [length_created, hlength]
  have hitems : (((created weight xs).zip depths).map Prod.fst).Perm (created weight xs) :=
    List.Perm.of_eq (List.map_fst_zip (Nat.le_of_eq hcreated))
  have hplaced := (merges_of_ofItems? h).weightedDepth_le (weighed_created weight xs) hitems
    (by rwa [List.map_snd_zip (Nat.le_of_eq hcreated.symm)])
  have hsingle : ((created weight xs).map (fun candidate =>
      weightedDepth (fun item => (weight item).toNat) candidate.tree.layout)).sum = 0 := by
    apply List.sum_eq_zero
    intro cost hcost
    rcases List.mem_map.mp hcost with ⟨candidate, hcandidate, rfl⟩
    rcases List.mem_map.mp hcandidate with ⟨entry, _, rfl⟩
    simp [layout, layoutFrom, weightedDepth]
  have hweights : (created weight xs).map Candidate.weight =
      xs.map (fun item => (weight item).toNat) := by
    rw [created, List.map_map]
    exact map_zipIdx_fst (fun item => (weight item).toNat) xs
  rwa [hsingle, Nat.zero_add, weightedDepth_zip Candidate.weight, hweights,
    ← weightedDepth_zip] at hplaced

section

variable {xs : List α} {layout : List ((α × Nat) × Nat)}

theorem kraftSum_depthsInOrder : kraftSum (depthsInOrder Prod.snd layout) =
    kraftSum (layout.map Prod.snd) :=
  kraftSum_perm ((List.mergeSort_perm layout _).map Prod.snd)

theorem weightedDepth_depthsInOrder (weight : α -> Nat)
    (h : (layout.map Prod.fst).Perm xs.zipIdx) :
    weightedDepth weight (xs.zip (depthsInOrder Prod.snd layout)) =
      weightedDepth (fun item => weight item.1) layout := by
  rw [weightedDepth_perm weight (zip_depthsInOrder_perm h), weightedDepth, List.map_map]
  rfl

end

theorem huffmanDepths_eq_ok {weights : List UInt32} {depths : List Nat}
    (h : huffmanDepths weights = .ok depths) :
    exists tree, ofItems? Prod.fst weights.zipIdx = some tree ∧ tree.height <= maxDepth ∧
      depths = depthsInOrder Prod.snd tree.layout := by
  rcases map_eq_ok_iff.mp h with ⟨layout, hlayout, rfl⟩
  rcases huffmanLayout_eq_ok_iff.mp hlayout with ⟨tree, htree, hheight, rfl⟩
  exact ⟨tree, htree, hheight, rfl⟩

/-- The depths that are found for weights take up a whole binary tree, and no other depths for the
same weights that leave room for each other, such as those in any other binary tree over them, have
less weighted depth. -/
theorem huffmanDepths_optimal {weights : List UInt32} {depths : List Nat}
    (h : huffmanDepths weights = .ok depths) :
    depths.length = weights.length ∧ kraftSum depths = 1 ∧
      (forall others : List Nat, others.length = weights.length -> kraftSum others <= 1 ->
        weightedDepth UInt32.toNat (weights.zip depths) <=
          weightedDepth UInt32.toNat (weights.zip others)) ∧
      (forall other : HuffmanTree (UInt32 × Nat), other.items.Perm weights.zipIdx ->
        weightedDepth UInt32.toNat (weights.zip depths) <=
          weightedDepth (fun entry => entry.1.toNat) other.layout) := by
  rcases huffmanDepths_eq_ok h with ⟨tree, htree, _, rfl⟩
  have hitems := map_fst_layout_of_ofItems? htree
  have hleast : forall others : List Nat, others.length = weights.length -> kraftSum others <= 1 ->
      weightedDepth UInt32.toNat (weights.zip (depthsInOrder Prod.snd tree.layout)) <=
        weightedDepth UInt32.toNat (weights.zip others) := by
    intro others hlength hroom
    have hle := weightedDepth_le_of_ofItems? htree (by rw [hlength, List.length_zipIdx]) hroom
    rw [weightedDepth_zip, map_zipIdx_fst UInt32.toNat weights, ← weightedDepth_zip] at hle
    rwa [weightedDepth_depthsInOrder UInt32.toNat hitems]
  refine ⟨length_depthsInOrder hitems, kraftSum_depthsInOrder.trans (kraftSum_layout tree),
    hleast, ?_⟩
  -- The depths in any other tree leave room for each other.
  intro other hother
  have hplaced : (other.layout.map Prod.fst).Perm weights.zipIdx := by
    rwa [layout, map_fst_layoutFrom]
  have hle := hleast (depthsInOrder Prod.snd other.layout) (length_depthsInOrder hplaced)
    (kraftSum_depthsInOrder.trans (kraftSum_layout other)).le
  rwa [weightedDepth_depthsInOrder UInt32.toNat hplaced] at hle

theorem huffmanDepths_optimal_two_zeros :
    huffmanDepths [0, 3, 0, 1, 5] = .ok [4, 2, 4, 3, 1] ∧
      kraftSum [3, 2, 3, 2, 2] <= 1 ∧
      weightedDepth UInt32.toNat ([0, 3, 0, 1, 5].zip [4, 2, 4, 3, 1]) <=
        weightedDepth UInt32.toNat ([0, 3, 0, 1, 5].zip [3, 2, 3, 2, 2]) := by
  have hdepths : huffmanDepths [0, 3, 0, 1, 5] = .ok [4, 2, 4, 3, 1] := by cbv
  have hroom : kraftSum [3, 2, 3, 2, 2] <= 1 := by norm_num [kraftSum]
  rcases huffmanDepths_optimal hdepths with ⟨_, _, hleast, _⟩
  exact ⟨hdepths, hroom, hleast [3, 2, 3, 2, 2] rfl hroom⟩

end Cosigning
