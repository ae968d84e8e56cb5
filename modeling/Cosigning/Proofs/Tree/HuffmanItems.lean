import Cosigning.Tree.Huffman
import Mathlib.Data.List.Basic

/-!
# The items of a Huffman tree

Merging only moves items around, so a Huffman tree holds exactly the items that it
was made from.  The layout lists them with their depths, and sorting the layout by
the items' numbers recovers the input with a depth beside each item.
-/

namespace Cosigning

variable {α : Type}

namespace HuffmanTree

def items : HuffmanTree α -> List α
  | leaf item => [item]
  | branch left right => left.items ++ right.items

theorem map_fst_layoutFrom (tree : HuffmanTree α) (depth : Nat) :
    (tree.layoutFrom depth).map Prod.fst = tree.items := by
  induction tree generalizing depth with
  | leaf item => rfl
  | branch left right ihleft ihright =>
      rw [layoutFrom, List.map_append, ihleft, ihright, items]

theorem Candidate.insert_perm (new : Candidate α) (forest : List (Candidate α)) :
    (insert new forest).Perm (new :: forest) := by
  induction forest with
  | nil => exact List.Perm.refl _
  | cons first rest ih =>
      rw [insert]
      split
      · exact List.Perm.refl _
      · exact (ih.cons first).trans (List.Perm.swap new first rest)

theorem items_of_merge {next : Nat} {forest : List (Candidate α)} {tree : HuffmanTree α}
    (h : merge next forest = some tree) :
    tree.items.Perm (forest.flatMap (fun candidate => candidate.tree.items)) := by
  induction next, forest using merge.induct with
  | case1 next =>
      rw [merge] at h
      cases h
  | case2 next last =>
      rw [merge] at h
      cases h
      simp
  | case3 next a b rest ih =>
      rw [merge] at h
      have hinsert := (Candidate.insert_perm (Candidate.join next a b) rest).flatMap_right
        (fun candidate => candidate.tree.items)
      refine ((ih h).trans hinsert).trans (List.Perm.of_eq ?_)
      simp [Candidate.join, items, List.append_assoc]

theorem items_forest (weight : α -> UInt32) (xs : List α) :
    ((forest weight xs).flatMap (fun candidate => candidate.tree.items)).Perm xs := by
  unfold forest
  refine ((List.mergeSort_perm _ _).flatMap_right _).trans (List.Perm.of_eq ?_)
  rw [List.flatMap_map]
  simp only [items]
  rw [← List.map_eq_flatMap, List.zipIdx_map_fst]

theorem items_of_ofItems? {weight : α -> UInt32} {xs : List α} {tree : HuffmanTree α}
    (h : ofItems? weight xs = some tree) : tree.items.Perm xs :=
  (items_of_merge h).trans (items_forest weight xs)

theorem map_fst_layout_of_ofItems? {weight : α -> UInt32} {xs : List α} {tree : HuffmanTree α}
    (h : ofItems? weight xs = some tree) : (tree.layout.map Prod.fst).Perm xs := by
  rw [layout, map_fst_layoutFrom]
  exact items_of_ofItems? h

end HuffmanTree

theorem huffmanLayout_eq_ok_iff {weight : α -> UInt32} {xs : List α}
    {layout : List (α × Nat)} :
    huffmanLayout weight xs = .ok layout <->
      exists tree, HuffmanTree.ofItems? weight xs = some tree ∧
        tree.height <= maxDepth ∧ layout = tree.layout := by
  unfold huffmanLayout
  cases htree : HuffmanTree.ofItems? weight xs with
  | none => simp
  | some tree =>
      by_cases hheight : tree.height <= maxDepth
      · simp [hheight, eq_comm]
      · simp [hheight]

/-!
## Depths in the order of the input
-/

theorem pairwise_zipIdx (xs : List α) :
    xs.zipIdx.Pairwise (fun a b => a.2 <= b.2) := by
  have hnumbers : (xs.zipIdx.map Prod.snd).Pairwise (fun i j => i <= j) := by
    rw [List.zipIdx_map_snd]
    exact List.pairwise_le_range'
  exact List.pairwise_map.mp hnumbers

theorem map_zipIdx_fst {β : Type} (f : α -> β) (xs : List α) :
    xs.zipIdx.map (fun entry => f entry.1) = xs.map f := by
  have hfst := congrArg (List.map f) (List.zipIdx_map_fst 0 xs)
  rwa [List.map_map] at hfst

theorem snd_of_getElem?_zipIdx (xs : List α) (place : Nat) (entry : α × Nat)
    (h : xs.zipIdx[place]? = some entry) : entry.2 = place := by
  rw [List.getElem?_zipIdx] at h
  rcases Option.map_eq_some_iff.mp h with ⟨item, _, rfl⟩
  exact Nat.zero_add place

theorem eq_of_mem_zipIdx {xs : List α} {a b : α × Nat} (ha : a ∈ xs.zipIdx)
    (hb : b ∈ xs.zipIdx) (h : a.2 = b.2) : a = b := by
  rw [List.mem_zipIdx_iff_getElem?] at ha hb
  rw [h, hb] at ha
  exact Prod.ext (Option.some.inj ha.symm) h

theorem map_fst_mergeSort_layout {xs : List α} {layout : List ((α × Nat) × Nat)}
    (h : (layout.map Prod.fst).Perm xs.zipIdx) :
    (layout.mergeSort (fun a b => decide (a.1.2 <= b.1.2))).map Prod.fst = xs.zipIdx := by
  have hperm : ((layout.mergeSort (fun a b => decide (a.1.2 <= b.1.2))).map Prod.fst).Perm
      xs.zipIdx :=
    ((List.mergeSort_perm layout _).map Prod.fst).trans h
  have hsorted : ((layout.mergeSort (fun a b => decide (a.1.2 <= b.1.2))).map
      Prod.fst).Pairwise (fun a b => a.2 <= b.2) := by
    rw [List.pairwise_map]
    have hpairwise : (layout.mergeSort (fun a b => decide (a.1.2 <= b.1.2))).Pairwise
        (fun a b => decide (a.1.2 <= b.1.2) = true) := by
      apply List.pairwise_mergeSort
      · intro a b c hab hbc
        rw [decide_eq_true_iff] at hab hbc ⊢
        exact Nat.le_trans hab hbc
      · intro a b
        rw [Bool.or_eq_true, decide_eq_true_iff, decide_eq_true_iff]
        exact Nat.le_total a.1.2 b.1.2
    exact hpairwise.imp (fun hab => of_decide_eq_true hab)
  refine List.Perm.eq_of_pairwise ?_ hsorted (pairwise_zipIdx xs) hperm
  intro a b ha hb hab hba
  exact eq_of_mem_zipIdx (hperm.mem_iff.mp ha) hb (Nat.le_antisymm hab hba)

theorem zip_depthsInOrder_perm {xs : List α} {layout : List ((α × Nat) × Nat)}
    (h : (layout.map Prod.fst).Perm xs.zipIdx) :
    (xs.zip (depthsInOrder Prod.snd layout)).Perm
      (layout.map (fun entry => (entry.1.1, entry.2))) := by
  have hfst := map_fst_mergeSort_layout h
  have hxs : xs = (layout.mergeSort (fun a b => decide (a.1.2 <= b.1.2))).map
      (fun entry => entry.1.1) := by
    rw [← List.zipIdx_map_fst 0 xs, ← hfst, List.map_map]
    rfl
  have hzip : xs.zip (depthsInOrder Prod.snd layout) =
      (layout.mergeSort (fun a b => decide (a.1.2 <= b.1.2))).map
        (fun entry => (entry.1.1, entry.2)) := by
    unfold depthsInOrder
    conv => lhs; arg 1; rw [hxs]
    rw [List.zip_map']
  rw [hzip]
  exact (List.mergeSort_perm layout _).map _

theorem length_depthsInOrder {xs : List α} {layout : List ((α × Nat) × Nat)}
    (h : (layout.map Prod.fst).Perm xs.zipIdx) :
    (depthsInOrder Prod.snd layout).length = xs.length := by
  have hlength := h.length_eq
  rw [List.length_map, List.length_zipIdx] at hlength
  rw [depthsInOrder, List.length_map, List.length_mergeSort, hlength]

end Cosigning
