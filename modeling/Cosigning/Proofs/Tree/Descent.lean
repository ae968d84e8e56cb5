import Cosigning.Proofs.Tree.Optimality

/-!
# Lighter and earlier leaves are never shallower

The trees of a forest end up inside the tree that the forest is merged to, at
depths that can be told by their numbers.  No tree ends up deeper than one that is
taken before it.  A merged tree may be taken long after its parts, but it weighs at
most twice as much as any tree that was left beside it, and so none of these ends up
more than one step deeper.
-/

namespace Cosigning

variable {α : Type}

namespace HuffmanTree

/-!
## The depths of a forest's trees
-/

/-- A tree is made up of the trees of a forest, each at the depth given for its number. -/
def Places (depthAt : Nat -> Nat) (forest : List (Candidate α)) (tree : HuffmanTree α) : Prop :=
  tree.layout.Perm
    (forest.flatMap (fun candidate => candidate.tree.layoutFrom (depthAt candidate.order)))

section

variable {depthAt depthAt' : Nat -> Nat} {forest others rest : List (Candidate α)}
  {first second last : Candidate α} {next : Nat} {tree : HuffmanTree α}

theorem Places.of_perm (h : Places depthAt forest tree) (hperm : forest.Perm others) :
    Places depthAt others tree :=
  h.trans (hperm.flatMap_right _)

theorem Places.congr (h : Places depthAt forest tree)
    (hsame : forall candidate, candidate ∈ forest ->
      depthAt' candidate.order = depthAt candidate.order) : Places depthAt' forest tree := by
  refine h.trans (List.Perm.of_eq (List.flatMap_congr ?_))
  intro candidate hmem
  rw [hsame candidate hmem]

theorem places_singleton (h : depthAt last.order = 0) : Places depthAt [last] last.tree := by
  rw [Places, List.flatMap_singleton, h]
  exact List.Perm.refl _

theorem Places.split (h : Places depthAt (Candidate.join next first second :: rest) tree)
    (hfirst : depthAt first.order = depthAt next + 1)
    (hsecond : depthAt second.order = depthAt next + 1) :
    Places depthAt (first :: second :: rest) tree := by
  refine h.trans (List.Perm.of_eq ?_)
  rw [List.flatMap_cons, List.flatMap_cons, List.flatMap_cons, hfirst, hsecond,
    ← List.append_assoc]
  rfl

theorem Places.layout_created {weight : α -> UInt32} {xs : List α}
    (h : Places depthAt (created weight xs) tree) :
    tree.layout.Perm (xs.zipIdx.map (fun entry => (entry.1, depthAt entry.2))) := by
  rw [Places, created, List.flatMap_map] at h
  rw [List.map_eq_flatMap]
  exact h

end

theorem Places.depthsInOrder_eq {depthAt : Nat -> Nat} {weight : α × Nat -> UInt32}
    {xs : List α} {tree : HuffmanTree (α × Nat)}
    (h : Places depthAt (created weight xs.zipIdx) tree) :
    depthsInOrder Prod.snd tree.layout = (List.range xs.length).map depthAt := by
  have hdepth : forall entry, entry ∈ tree.layout -> entry.2 = depthAt entry.1.2 := by
    intro entry hentry
    rcases List.mem_map.mp (h.layout_created.mem_iff.mp hentry) with ⟨numbered, hnumbered, rfl⟩
    rw [snd_of_getElem?_zipIdx xs _ _ (List.mem_zipIdx_iff_getElem?.mp hnumbered)]
  have hitems : (tree.layout.map Prod.fst).Perm xs.zipIdx := by
    have hmap := h.layout_created.map Prod.fst
    rw [List.map_map] at hmap
    exact hmap.trans (List.Perm.of_eq (List.zipIdx_map_fst 0 xs.zipIdx))
  have hsorted := congrArg (List.map (fun entry => depthAt entry.2))
    (map_fst_mergeSort_layout hitems)
  rw [List.map_map] at hsorted
  have hnumbers := congrArg (List.map depthAt) (List.zipIdx_map_snd 0 xs)
  rw [List.map_map, ← List.range_eq_range'] at hnumbers
  rw [depthsInOrder]
  refine (List.map_congr_left ?_).trans (hsorted.trans hnumbers)
  intro entry hentry
  exact hdepth entry (List.mem_mergeSort.mp hentry)

/-!
## Descent
-/

structure Numbered (next : Nat) (forest : List (Candidate α)) : Prop where
  lt : forall candidate, candidate ∈ forest -> candidate.order < next
  nodup : (forest.map Candidate.order).Nodup

/-- No tree of a forest ends up deeper than one that is taken before it, and none ends up more than
one step deeper than a tree that weighs at most twice as much as any other. -/
structure Descends (depthAt : Nat -> Nat) (forest : List (Candidate α)) : Prop where
  antitone : forall a, a ∈ forest -> forall b, b ∈ forest -> a.rank < b.rank ->
    depthAt b.order <= depthAt a.order
  le_succ : forall light, light ∈ forest ->
    (forall other, other ∈ forest -> other.order ≠ light.order ->
      light.weight <= 2 * other.weight) ->
    forall other, other ∈ forest -> depthAt other.order <= depthAt light.order + 1

section

variable {depthAt depthAt' : Nat -> Nat} {forest others rest : List (Candidate α)}
  {first second : Candidate α} {next : Nat} {tree : HuffmanTree α}

theorem Numbered.of_perm (h : Numbered next forest) (hperm : forest.Perm others) :
    Numbered next others where
  lt candidate hmem := h.lt candidate (hperm.mem_iff.mpr hmem)
  nodup := (hperm.map Candidate.order).nodup_iff.mp h.nodup

theorem Numbered.join (h : Numbered next (first :: second :: rest)) :
    Numbered (next + 1) (Candidate.join next first second :: rest) := by
  refine ⟨fun _ => order_lt_join h.lt, List.nodup_cons.mpr ⟨?_, ?_⟩⟩
  · intro hmem
    rcases List.mem_map.mp hmem with ⟨other, hother, horder⟩
    have hlt := h.lt other (List.mem_cons_of_mem _ (List.mem_cons_of_mem _ hother))
    exact absurd horder (Nat.ne_of_lt hlt)
  · exact (List.nodup_cons.mp (List.nodup_cons.mp h.nodup).2).2

theorem Numbered.order_ne (h : Numbered next (first :: second :: rest)) {candidate : Candidate α}
    (hmem : candidate ∈ Candidate.join next first second :: rest) :
    ¬ (candidate.order = first.order ∨ candidate.order = second.order) := by
  rcases List.nodup_cons.mp h.nodup with ⟨hfirst, hnodup⟩
  rcases List.mem_cons.mp hmem with rfl | hrest
  · have hltFirst := h.lt first List.mem_cons_self
    have hltSecond := h.lt second (List.mem_cons_of_mem _ List.mem_cons_self)
    show ¬ (next = first.order ∨ next = second.order)
    omega
  · intro horder
    rcases horder with heq | heq
    · exact hfirst (heq ▸ List.mem_map_of_mem (List.mem_cons_of_mem _ hrest))
    · exact (List.nodup_cons.mp hnodup).1 (heq ▸ List.mem_map_of_mem hrest)

theorem numbered_created (weight : α -> UInt32) (xs : List α) :
    Numbered xs.length (created weight xs) := by
  refine ⟨fun _ => order_lt_of_mem_created, ?_⟩
  rw [map_order_created]
  exact List.nodup_range

theorem Descends.of_perm (h : Descends depthAt forest) (hperm : forest.Perm others) :
    Descends depthAt others where
  antitone a ha b hb := h.antitone a (hperm.mem_iff.mpr ha) b (hperm.mem_iff.mpr hb)
  le_succ light hlight hweight other hother :=
    h.le_succ light (hperm.mem_iff.mpr hlight)
      (fun candidate hmem => hweight candidate (hperm.mem_iff.mp hmem)) other
      (hperm.mem_iff.mpr hother)

theorem Descends.congr (h : Descends depthAt forest)
    (hsame : forall candidate, candidate ∈ forest ->
      depthAt' candidate.order = depthAt candidate.order) : Descends depthAt' forest where
  antitone a ha b hb hrank := by
    rw [hsame a ha, hsame b hb]
    exact h.antitone a ha b hb hrank
  le_succ light hlight hweight other hother := by
    rw [hsame light hlight, hsame other hother]
    exact h.le_succ light hlight hweight other hother

theorem Descends.split (h : Descends depthAt (Candidate.join next first second :: rest))
    (hnumbered : Numbered next (first :: second :: rest)) (hrank : first.rank < second.rank)
    (hrest : forall other, other ∈ rest -> second.rank < other.rank)
    (hfirst : depthAt first.order = depthAt next + 1)
    (hsecond : depthAt second.order = depthAt next + 1) :
    Descends depthAt (first :: second :: rest) := by
  have hjoin : Candidate.join next first second ∈ Candidate.join next first second :: rest :=
    List.mem_cons_self
  have hfirstSecond := Candidate.weight_le_of_rank_lt hrank
  -- The two parts are the least, so together they weigh at most twice as much as any other tree.
  have hbelow : forall other, other ∈ rest -> depthAt other.order <= depthAt next + 1 := by
    intro other hother
    refine h.le_succ _ hjoin ?_ other (List.mem_cons_of_mem _ hother)
    intro candidate hmem hne
    rcases List.mem_cons.mp hmem with rfl | hmem
    · exact absurd rfl hne
    · have hsecondWeight := Candidate.weight_le_of_rank_lt (hrest candidate hmem)
      show first.weight + second.weight <= 2 * candidate.weight
      omega
  have hdeepest : forall other, other ∈ first :: second :: rest ->
      depthAt other.order <= depthAt next + 1 := by
    intro other hother
    rcases List.mem_cons.mp hother with rfl | hother
    · exact Nat.le_of_eq hfirst
    · rcases List.mem_cons.mp hother with rfl | hother
      · exact Nat.le_of_eq hsecond
      · exact hbelow other hother
  constructor
  · intro a ha b hb hlt
    rcases List.mem_cons.mp ha with rfl | hlater
    · rw [hfirst]
      exact hdeepest b hb
    · rcases List.mem_cons.mp hlater with rfl | haRest
      · rw [hsecond]
        exact hdeepest b hb
      · have hsecondA := hrest a haRest
        rcases List.mem_cons.mp hb with rfl | hlater
        · exact absurd (hrank.trans hsecondA) (lt_asymm hlt)
        · rcases List.mem_cons.mp hlater with rfl | hbRest
          · exact absurd hsecondA (lt_asymm hlt)
          · exact h.antitone a (List.mem_cons_of_mem _ haRest) b (List.mem_cons_of_mem _ hbRest)
              hlt
  · intro light hlight hweight other hother
    refine (hdeepest other hother).trans (Nat.succ_le_succ ?_)
    rcases List.mem_cons.mp hlight with rfl | hlater
    · rw [hfirst]
      exact Nat.le_succ _
    · rcases List.mem_cons.mp hlater with rfl | hlightRest
      · rw [hsecond]
        exact Nat.le_succ _
      -- What is this light is taken before the merged tree.
      have hmem := List.mem_cons_of_mem (Candidate.join next first second) hlightRest
      have hne := hnumbered.order_ne hmem
      have hle := hweight first List.mem_cons_self (fun heq => hne (Or.inl heq.symm))
      have hweightJoin : light.weight <= first.weight + second.weight := by omega
      exact h.antitone light hmem _ hjoin
        (Candidate.rank_lt_of_le hweightJoin (hnumbered.lt light hlight))

/-- Whatever a forest is merged to, its trees end up in it in the order in which they are taken. -/
theorem Merges.exists_descends (h : Merges next forest tree) (hnumbered : Numbered next forest) :
    exists depthAt, Places depthAt forest tree ∧ Descends depthAt forest := by
  induction h with
  | last next last =>
      refine ⟨fun _ => 0, places_singleton rfl, ?_, ?_⟩
      · intro _ _ _ _ _
        exact Nat.le_refl 0
      · intro _ _ _ _ _
        exact Nat.zero_le _
  | step next forest others rest first second tree hfirst hsecond _ ih =>
      have hperm := hfirst.perm_pair hsecond
      have hnumbered := hnumbered.of_perm hperm
      rcases ih hnumbered.join with ⟨depthAt, hplaces, hdescends⟩
      let below : Nat -> Nat := fun order =>
        if order = first.order ∨ order = second.order then depthAt next + 1 else depthAt order
      have hbelowFirst : below first.order = depthAt next + 1 := if_pos (Or.inl rfl)
      have hbelowSecond : below second.order = depthAt next + 1 := if_pos (Or.inr rfl)
      have hsame : forall candidate, candidate ∈ Candidate.join next first second :: rest ->
          below candidate.order = depthAt candidate.order :=
        fun candidate hmem => if_neg (hnumbered.order_ne hmem)
      have hbelowNext : below next = depthAt next :=
        hsame (Candidate.join next first second) List.mem_cons_self
      rw [← hbelowNext] at hbelowFirst hbelowSecond
      exact ⟨below, ((hplaces.congr hsame).split hbelowFirst hbelowSecond).of_perm hperm.symm,
        ((hdescends.congr hsame).split hnumbered (hfirst.pair_lt hsecond) hsecond.lt hbelowFirst
          hbelowSecond).of_perm hperm.symm⟩

end

end HuffmanTree

open HuffmanTree

theorem HuffmanTree.mem_created_zipIdx {xs : List UInt32} {index : Nat} {share : UInt32}
    (h : xs[index]? = some share) :
    { weight := share.toNat, order := index, tree := leaf (share, index) } ∈
      created Prod.fst xs.zipIdx := by
  refine List.mem_map.mpr ⟨((share, index), index), ?_, rfl⟩
  rw [List.mem_zipIdx_iff_getElem?, List.getElem?_zipIdx, h, Nat.zero_add]
  rfl

/-- The lighter of two weights is never less deep than the other, and neither is the earlier of two
equal ones. -/
theorem huffmanDepths_descend {weights : List UInt32} {depths : List Nat}
    (h : huffmanDepths weights = .ok depths) :
    depths.length = weights.length ∧
      forall (i j : Nat) (share other : UInt32) (depth below : Nat),
        weights[i]? = some share -> weights[j]? = some other ->
        depths[i]? = some depth -> depths[j]? = some below ->
        (share < other ∨ share = other ∧ i < j) -> below <= depth := by
  rcases huffmanDepths_eq_ok h with ⟨tree, htree, _, rfl⟩
  rcases (merges_of_ofItems? htree).exists_descends (numbered_created _ _) with
    ⟨depthAt, hplaces, hdescends⟩
  rw [hplaces.depthsInOrder_eq]
  refine ⟨by rw [List.length_map, List.length_range], ?_⟩
  intro i j share other depth below hi hj hdepth hbelow hbefore
  rw [List.getElem?_map, List.getElem?_range (List.getElem?_eq_some_iff.mp hi).1] at hdepth
  rw [List.getElem?_map, List.getElem?_range (List.getElem?_eq_some_iff.mp hj).1] at hbelow
  cases hdepth
  cases hbelow
  refine hdescends.antitone _ (mem_created_zipIdx hi) _ (mem_created_zipIdx hj) ?_
  rw [Candidate.rank_lt_iff]
  rcases hbefore with hlt | ⟨heq, hlt⟩
  · exact Or.inl (UInt32.lt_iff_toNat_lt.mp hlt)
  · exact Or.inr ⟨congrArg UInt32.toNat heq, hlt⟩

theorem huffmanDepths_descend_with_ties :
    huffmanDepths [1, 0, 3, 0, 1, 5] = .ok [4, 5, 2, 5, 3, 1] ∧ 2 <= 5 ∧ 3 <= 4 := by
  have hdepths : huffmanDepths [1, 0, 3, 0, 1, 5] = .ok [4, 5, 2, 5, 3, 1] := by cbv
  rcases huffmanDepths_descend hdepths with ⟨_, hdescend⟩
  exact ⟨hdepths, hdescend 1 2 0 3 5 2 rfl rfl rfl rfl (Or.inl (by decide)),
    hdescend 0 4 1 1 4 3 rfl rfl rfl rfl (Or.inr ⟨rfl, by decide⟩)⟩

end Cosigning
