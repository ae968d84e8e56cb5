import Cosigning.Proofs.Tree.Merging
import Mathlib.Data.List.MinMax

/-!
# Huffman trees in an arena

The tree can be grown without building a tree: its nodes stand in a list and name their
children by place, a heap tells which two nodes come next, and the layout is read off by walking
down from the last node with a stack of the nodes to visit.  Both ways give the same layout, and
the walk ends.
-/

namespace Cosigning
namespace Arena

inductive Node where
  | leaf (number : Nat)
  | branch (left right : Nat)

abbrev Entry := Nat ×ₗ Nat

/-!
## Growing
-/

def pop? (heap : List Entry) : Option (Entry × List Entry) :=
  heap.min?.map (fun least => (least, heap.erase least))

theorem length_of_pop? {heap rest : List Entry} {least : Entry}
    (h : pop? heap = some (least, rest)) : heap.length = rest.length + 1 := by
  rcases Option.map_eq_some_iff.mp h with ⟨_, hmin, heq⟩
  cases heq
  have hmem := List.min?_mem hmin
  rw [List.length_erase_of_mem hmem]
  have hpos := List.length_pos_of_mem hmem
  omega

def grow (nodes : List Node) (heap : List Entry) : List Node :=
  match _hfirst : pop? heap with
  | none => nodes
  | some (first, others) =>
      match _hsecond : pop? others with
      | none => nodes
      | some (second, rest) =>
          grow (nodes ++ [.branch (ofLex first).2 (ofLex second).2])
            (toLex ((ofLex first).1 + (ofLex second).1, nodes.length) :: rest)
termination_by heap.length
decreasing_by
  have hfirst := length_of_pop? _hfirst
  have hsecond := length_of_pop? _hsecond
  simp only [List.length_cons]
  omega

theorem grow_singleton (nodes : List Node) (entry : Entry) : grow nodes [entry] = nodes := by
  have hpop : pop? [entry] = some (entry, []) := by
    simp [pop?]
  rw [grow]
  split
  · rfl
  · rename_i first others hfirst
    rw [hpop] at hfirst
    cases hfirst
    rfl

theorem grow_of_pop? {nodes : List Node} {heap others rest : List Entry} {first second : Entry}
    (hfirst : pop? heap = some (first, others)) (hsecond : pop? others = some (second, rest)) :
    grow nodes heap =
      grow (nodes ++ [.branch (ofLex first).2 (ofLex second).2])
        (toLex ((ofLex first).1 + (ofLex second).1, nodes.length) :: rest) := by
  rw [grow]
  split
  · rename_i hnone
    rw [hfirst] at hnone
    cases hnone
  · rename_i least remaining hsome
    rw [hfirst] at hsome
    cases hsome
    split
    · rename_i hnone
      rw [hsecond] at hnone
      cases hnone
    · rename_i least remaining hsome
      rw [hsecond] at hsome
      cases hsome
      rfl

/-!
## Walking
-/

/-- Visit the nodes on a stack with their depths, each before what is below it on the stack, and add
the leaves to the layout.  Nothing comes out if there are too few rounds or a place has no node. -/
def walk (nodes : List Node) :
    Nat -> List (Nat × Nat) -> List (Nat × Nat) -> Option (Except PolicyError (List (Nat × Nat)))
  | 0, _, _ => none
  | _ + 1, [], layout => some (.ok layout)
  | rounds + 1, (place, depth) :: stack, layout =>
      if maxDepth < depth then some (.error (.depthLimit depth))
      else
        match nodes[place]? with
        | none => none
        | some (.leaf number) => walk nodes rounds stack (layout ++ [(number, depth)])
        | some (.branch left right) =>
            walk nodes rounds ((left, depth + 1) :: (right, depth + 1) :: stack) layout

def layout? (weights : List UInt32) : Option (Except PolicyError (List (Nat × Nat))) :=
  if weights.isEmpty then some (.error .emptyTree)
  else
    let leaves := (List.range weights.length).map Node.leaf
    let heap := weights.zipIdx.map (fun entry => toLex (entry.1.toNat, entry.2))
    let nodes := grow leaves heap
    walk nodes (2 * weights.length) [(nodes.length - 1, 0)] []

end Arena

open Arena

namespace HuffmanTree

variable {α : Type}

/-!
## Trees that stand in an arena
-/

/-- A tree stands at a place: its nodes name each other as it is built, and its leaves have the
items' numbers. -/
def StandsAt (number : α -> Nat) (nodes : List Node) : Nat -> HuffmanTree α -> Prop
  | place, leaf item => nodes[place]? = some (.leaf (number item))
  | place, branch left right =>
      exists leftPlace rightPlace, nodes[place]? = some (.branch leftPlace rightPlace) ∧
        left.StandsAt number nodes leftPlace ∧ right.StandsAt number nodes rightPlace

variable {number : α -> Nat} {nodes : List Node}

theorem StandsAt.append {tree : HuffmanTree α} {place : Nat}
    (h : tree.StandsAt number nodes place) (further : List Node) :
    tree.StandsAt number (nodes ++ further) place := by
  induction tree generalizing place with
  | leaf item =>
      rw [StandsAt] at h ⊢
      rw [List.getElem?_append_left (List.getElem?_eq_some_iff.mp h).1, h]
  | branch left right ihleft ihright =>
      rw [StandsAt] at h ⊢
      rcases h with ⟨leftPlace, rightPlace, hplace, hleft, hright⟩
      refine ⟨leftPlace, rightPlace, ?_, ihleft hleft, ihright hright⟩
      rw [List.getElem?_append_left (List.getElem?_eq_some_iff.mp hplace).1, hplace]

def size : HuffmanTree α -> Nat
  | leaf _ => 1
  | branch left right => 1 + left.size + right.size

theorem size_add_one (tree : HuffmanTree α) : tree.size + 1 = 2 * tree.items.length := by
  induction tree with
  | leaf item => rfl
  | branch left right ihleft ihright =>
      rw [size, items, List.length_append]
      omega

theorem StandsAt.walk_eq {tree : HuffmanTree α} {place : Nat}
    (h : tree.StandsAt number nodes place) {depth : Nat} (hdepth : depth <= maxDepth + 1)
    (rounds : Nat) (stack layout : List (Nat × Nat)) :
    walk nodes (tree.size + rounds) ((place, depth) :: stack) layout =
      if depth + tree.height <= maxDepth then
        walk nodes rounds stack
          (layout ++ (tree.layoutFrom depth).map (fun entry => (number entry.1, entry.2)))
      else some (.error (.depthLimit (maxDepth + 1))) := by
  -- Depths grow by one from node to node, so the first one that is too deep is the limit's successor.
  induction tree generalizing place depth rounds stack layout with
  | leaf item =>
      rw [StandsAt] at h
      rw [size, Nat.add_comm, walk, height]
      by_cases hdeep : maxDepth < depth
      · have heq : depth = maxDepth + 1 := by omega
        rw [if_pos hdeep, if_neg (by omega), heq]
      · rw [if_neg hdeep, if_pos (by omega), h]
        rfl
  | branch left right ihleft ihright =>
      rw [StandsAt] at h
      rcases h with ⟨leftPlace, rightPlace, hplace, hleft, hright⟩
      have hsize : (branch left right).size + rounds = left.size + (right.size + rounds) + 1 := by
        rw [size]
        omega
      rw [hsize, walk, height]
      by_cases hdeep : maxDepth < depth
      · have heq : depth = maxDepth + 1 := by omega
        rw [if_pos hdeep, if_neg (by omega), heq]
      · rw [if_neg hdeep, hplace]
        dsimp only
        rw [ihleft hleft (by omega)]
        by_cases hleftDeep : depth + 1 + left.height <= maxDepth
        · rw [if_pos hleftDeep, ihright hright (by omega)]
          by_cases hrightDeep : depth + 1 + right.height <= maxDepth
          · rw [if_pos hrightDeep, if_pos (by omega), layoutFrom, List.map_append,
              List.append_assoc]
          · rw [if_neg hrightDeep, if_neg (by omega)]
        · rw [if_neg hleftDeep, if_neg (by omega)]

/-!
## Growing merges
-/

/-- A heap and an arena hold a forest: an entry for each tree, the tree at its place, and the last
node of the arena on the heap. -/
structure Holds (number : α -> Nat) (nodes : List Node) (heap : List Entry)
    (forest : List (Candidate α)) : Prop where
  heap : heap.Perm (forest.map Candidate.rank)
  trees : forall candidate, candidate ∈ forest ->
    candidate.tree.StandsAt number nodes candidate.order
  last : exists candidate, candidate ∈ forest ∧ candidate.order + 1 = nodes.length

theorem pop?_of_takesLeast {heap : List Entry} {forest rest : List (Candidate α)}
    {first : Candidate α} (hheap : heap.Perm (forest.map Candidate.rank))
    (h : TakesLeast Candidate.rank forest first rest) :
    exists others, pop? heap = some (first.rank, others) ∧
      others.Perm (rest.map Candidate.rank) := by
  have hperm : heap.Perm (first.rank :: rest.map Candidate.rank) :=
    hheap.trans (h.perm.map Candidate.rank)
  have hmin : heap.min? = some first.rank := by
    rw [List.min?_eq_some_iff]
    refine ⟨hperm.mem_iff.mpr List.mem_cons_self, ?_⟩
    intro entry hentry
    rcases List.mem_cons.mp (hperm.mem_iff.mp hentry) with rfl | hrest
    · exact le_refl _
    · rcases List.mem_map.mp hrest with ⟨other, hother, rfl⟩
      exact (h.lt other hother).le
  refine ⟨heap.erase first.rank, ?_, ?_⟩
  · rw [pop?, hmin]
    rfl
  · have herase := hperm.erase first.rank
    rw [List.erase_cons_head] at herase
    exact herase

theorem Merges.standsAt_grow {next : Nat} {forest : List (Candidate α)} {tree : HuffmanTree α}
    (h : Merges next forest tree) {heap : List Entry} (hnext : next = nodes.length)
    (hholds : Holds number nodes heap forest) :
    tree.StandsAt number (grow nodes heap) ((grow nodes heap).length - 1) := by
  induction h generalizing nodes heap with
  | last next only =>
      have hheap : heap = [only.rank] := List.perm_singleton.mp hholds.heap
      rcases hholds.last with ⟨candidate, hcandidate, hlast⟩
      rcases List.mem_singleton.mp hcandidate with rfl
      rw [hheap, grow_singleton, ← hlast]
      exact hholds.trees candidate List.mem_cons_self
  | step next forest others rest first second tree hfirst hsecond _ ih =>
      rcases pop?_of_takesLeast hholds.heap hfirst with ⟨fewer, hpop, hfewer⟩
      rcases pop?_of_takesLeast hfewer hsecond with ⟨left, hpop', hleft⟩
      have hsub : forall candidate, candidate ∈ second :: rest -> candidate ∈ forest := by
        intro candidate hcandidate
        apply hfirst.perm.mem_iff.mpr
        exact List.mem_cons_of_mem first (hsecond.perm.mem_iff.mpr hcandidate)
      -- The new branch is the last node of the arena, and its children stand where they stood.
      rw [grow_of_pop? hpop hpop']
      apply ih
      · rw [hnext, List.length_append]
        rfl
      · constructor
        case heap =>
          rw [hnext]
          exact hleft.cons _
        case trees =>
          intro candidate hcandidate
          rcases List.mem_cons.mp hcandidate with rfl | hrest
          · refine ⟨first.order, second.order, ?_, ?_, ?_⟩
            · rw [Candidate.join, hnext, List.getElem?_append_right (Nat.le_refl _), Nat.sub_self]
              rfl
            · exact (hholds.trees first (hfirst.perm.mem_iff.mpr List.mem_cons_self)).append _
            · exact (hholds.trees second (hsub second List.mem_cons_self)).append _
          · exact (hholds.trees candidate (hsub candidate (List.mem_cons_of_mem second hrest))).append
              _
        case last =>
          refine ⟨_, List.mem_cons_self, ?_⟩
          rw [Candidate.join, hnext, List.length_append]
          rfl

theorem holds_created (weight : α -> UInt32) {xs : List α} (hne : xs ≠ [])
    (hnumber : forall place item, xs[place]? = some item -> number item = place) :
    Holds number ((List.range xs.length).map Node.leaf)
      ((xs.map weight).zipIdx.map (fun entry => toLex (entry.1.toNat, entry.2)))
      (created weight xs) := by
  constructor
  case heap =>
    apply List.Perm.of_eq
    rw [List.zipIdx_map, List.map_map, created, List.map_map]
    rfl
  case trees =>
    intro candidate hcandidate
    rcases List.mem_map.mp hcandidate with ⟨⟨item, place⟩, hentry, rfl⟩
    have hitem := List.mem_zipIdx_iff_getElem?.mp hentry
    have hlt := (List.getElem?_eq_some_iff.mp hitem).1
    rw [StandsAt, List.getElem?_map, List.getElem?_range hlt, hnumber place item hitem]
    rfl
  case last =>
    have hpos := List.length_pos_iff.mpr hne
    have hmem : xs.length - 1 ∈ (created weight xs).map Candidate.order := by
      rw [map_order_created, List.mem_range]
      omega
    rcases List.mem_map.mp hmem with ⟨candidate, hcandidate, horder⟩
    refine ⟨candidate, hcandidate, ?_⟩
    rw [horder, List.length_map, List.length_range]
    omega

end HuffmanTree

/-- Growing a Huffman tree in an arena and walking over it gives the layout of the Huffman tree, or
the failure to make one, in no more than two rounds for each item. -/
theorem Arena.layout?_eq {α : Type} (weight : α -> UInt32) (number : α -> Nat) {xs : List α}
    (hnumber : forall place item, xs[place]? = some item -> number item = place) :
    Arena.layout? (xs.map weight) =
      some ((huffmanLayout weight xs).map (fun layout =>
        layout.map (fun entry => (number entry.1, entry.2)))) := by
  by_cases hnil : xs = []
  · rw [hnil]
    simp [layout?, huffmanLayout, HuffmanTree.ofItems?, HuffmanTree.forest, HuffmanTree.merge,
      Except.map]
  · rcases HuffmanTree.exists_ofItems? weight hnil with ⟨tree, htree⟩
    have hstands := (HuffmanTree.merges_of_ofItems? htree).standsAt_grow (by simp)
      (HuffmanTree.holds_created weight hnil hnumber)
    have hrounds : 2 * xs.length = tree.size + 1 := by
      rw [tree.size_add_one, (HuffmanTree.items_of_ofItems? htree).length_eq]
    have hsome : (xs.map weight).isEmpty = false := by
      rw [List.isEmpty_map, List.isEmpty_eq_false_iff]
      exact hnil
    have hwalk := hstands.walk_eq (Nat.zero_le _) 1 [] []
    rw [Nat.zero_add] at hwalk
    simp only [layout?, hsome, Bool.false_eq_true, if_false, List.length_map]
    rw [hrounds, hwalk, huffmanLayout, htree]
    by_cases hheight : tree.height <= maxDepth
    · simp only [if_pos hheight, Except.map]
      rfl
    · simp only [if_neg hheight, Except.map]

end Cosigning
