import Cosigning.Proofs.Tree.Commitment
import Cosigning.Proofs.Tree.Descent
import Cosigning.Proofs.Tree.Height
import Mathlib.Data.Nat.Log

/-!
# Equal weights give a complete tree

Trees of the same weight wait in a queue.  The two oldest of them are merged to the
youngest, which is at least as heavy as every other one, also when a tree is left over
or when nothing weighs anything.  Counted from the root the nodes of the tree that
comes of this are numbered like those of a complete binary tree, and the depth of a
node is the logarithm of its number there.
-/

namespace Cosigning

variable {α : Type}

/-- The depths of the leaves of a complete binary tree, from the deepest level on. -/
def completeDepths (count : Nat) : List Nat :=
  (List.range count).map (fun index => (2 * count - 1 - index).log2)

theorem log2_mono {m n : Nat} (h : m <= n) : m.log2 <= n.log2 := by
  rw [Nat.log2_eq_log_two, Nat.log2_eq_log_two]
  exact Nat.log_mono_right h

theorem pairwise_completeDepths (count : Nat) :
    (completeDepths count).Pairwise (fun earlier later => later <= earlier) := by
  refine List.pairwise_map.mpr (List.pairwise_lt_range.imp ?_)
  intro i j hlt
  exact log2_mono (by omega)

theorem le_add_one_of_mem_completeDepths {count depth other : Nat}
    (hdepth : depth ∈ completeDepths count) (hother : other ∈ completeDepths count) :
    depth <= other + 1 := by
  rcases List.mem_map.mp hdepth with ⟨i, _, rfl⟩
  rcases List.mem_map.mp hother with ⟨j, hj, rfl⟩
  have hlt := List.mem_range.mp hj
  calc (2 * count - 1 - i).log2
    _ <= (2 * count).log2 := log2_mono (by omega)
    _ = count.log2 + 1 := Nat.log2_two_mul (by omega)
    _ <= (2 * count - 1 - j).log2 + 1 := Nat.succ_le_succ (log2_mono (by omega))

namespace HuffmanTree

/-- The depth of the node with a number in a tree whose nodes are numbered up to the root, level by
level. -/
def depthBelow (root number : Nat) : Nat :=
  (root + 1 - number).log2

theorem depthBelow_self (root : Nat) : depthBelow root root = 0 := by
  rw [depthBelow, Nat.add_sub_cancel_left]
  decide

theorem depthBelow_of_parent {root number parent : Nat} (hparent : parent < root + 1)
    (h : (root + 1 - number) / 2 = root + 1 - parent) :
    depthBelow root number = depthBelow root parent + 1 := by
  rw [depthBelow, depthBelow, Nat.log2_def, if_pos (by omega), h]

/-!
## The queue
-/

/-- The trees of a forest in a row: numbered without gaps, the older no heavier than the younger,
and none more than twice as heavy as any other. -/
structure Queued (start : Nat) (queue : List (Candidate α)) : Prop where
  numbers : queue.map Candidate.order = List.range' start queue.length
  weight_mono : queue.Pairwise (fun older younger => older.weight <= younger.weight)
  le_double : forall a, a ∈ queue -> forall b, b ∈ queue -> a.weight <= 2 * b.weight

section

variable {start next count : Nat} {queue rest : List (Candidate α)} {first second : Candidate α}
  {tree : HuffmanTree α}

theorem Queued.ordered (h : Queued start queue) : Ordered queue := by
  have hnumbers : queue.Pairwise (fun older younger => older.order < younger.order) := by
    rw [← List.pairwise_map, h.numbers]
    exact List.pairwise_lt_range'
  exact (h.weight_mono.and hnumbers).imp (fun hboth => Candidate.rank_lt_of_le hboth.1 hboth.2)

theorem Queued.orders (h : Queued start (first :: second :: rest)) :
    first.order = start ∧ second.order = start + 1 ∧
      rest.map Candidate.order = List.range' (start + 2) rest.length := by
  have hnumbers := h.numbers
  simp only [List.map_cons, List.length_cons, List.range'_succ, List.cons.injEq] at hnumbers
  exact hnumbers

theorem Queued.join (h : Queued start (first :: second :: rest)) :
    Queued (start + 2) (rest ++ [Candidate.join (start + 2 + rest.length) first second]) := by
  have hfirst : first ∈ first :: second :: rest := List.mem_cons_self
  have hrest : forall other, other ∈ rest -> other ∈ first :: second :: rest :=
    fun other hmem => List.mem_cons_of_mem _ (List.mem_cons_of_mem _ hmem)
  rcases List.pairwise_cons.mp h.weight_mono with ⟨hfirstLe, hlater⟩
  rcases List.pairwise_cons.mp hlater with ⟨hsecondLe, hmono⟩
  have hpair := hfirstLe second List.mem_cons_self
  -- The two oldest weigh at least as much as any tree, and at most twice as much.
  have hle : forall other, other ∈ rest -> other.weight <= first.weight + second.weight := by
    intro other hmem
    have hdouble := h.le_double other (hrest other hmem) first hfirst
    omega
  have hdouble : forall other, other ∈ rest ->
      first.weight + second.weight <= 2 * other.weight := by
    intro other hmem
    have hsecond := hsecondLe other hmem
    omega
  constructor
  case numbers =>
    rw [List.map_append, h.orders.2.2, List.length_append, List.length_singleton,
      List.range'_concat, Nat.one_mul]
    rfl
  case weight_mono =>
    refine List.pairwise_append.mpr ⟨hmono, List.pairwise_singleton _ _, ?_⟩
    intro older holder younger hyounger
    rcases List.mem_singleton.mp hyounger with rfl
    exact hle older holder
  case le_double =>
    intro a ha b hb
    rcases List.mem_append.mp ha with ha | ha
    · rcases List.mem_append.mp hb with hb | hb
      · exact h.le_double a (hrest a ha) b (hrest b hb)
      · rcases List.mem_singleton.mp hb with rfl
        exact (hle a ha).trans (Nat.le_mul_of_pos_left _ Nat.two_pos)
    · rcases List.mem_singleton.mp ha with rfl
      rcases List.mem_append.mp hb with hb | hb
      · exact hdouble b hb
      · rcases List.mem_singleton.mp hb with rfl
        exact Nat.le_mul_of_pos_left _ Nat.two_pos

theorem Merges.merged (h : Merges next (first :: second :: rest) tree)
    (hordered : Ordered (first :: second :: rest)) :
    Merges (next + 1) (Candidate.join next first second :: rest) tree := by
  have hlater : Ordered (second :: rest) := (List.pairwise_cons.mp hordered).2
  cases h with
  | step _ _ others left first' second' _ hfirst hsecond h =>
      rcases hfirst.eq hordered.takesLeast with rfl
      have hothers := hfirst.rest_perm hordered.takesLeast
      rcases (hsecond.of_perm hothers.symm).eq hlater.takesLeast with rfl
      have hleft := (hsecond.of_perm hothers.symm).rest_perm hlater.takesLeast
      exact h.of_perm (hleft.symm.cons _)

theorem Queued.places (hqueue : Queued start queue) (hlength : queue.length = count + 1)
    (h : Merges (start + count + 1) queue tree) :
    Places (depthBelow (start + 2 * count)) queue tree := by
  -- A merge takes two trees off the front, puts one at the end and moves the numbers on by two.
  induction count generalizing start queue with
  | zero =>
      rcases List.length_eq_one_iff.mp hlength with ⟨last, rfl⟩
      have hlast : last.order = start := by
        have hnumbers := hqueue.numbers
        simpa using hnumbers
      rcases Merges.eq (.last _ last) h with rfl
      apply places_singleton
      rw [hlast]
      exact depthBelow_self start
  | succ count ih =>
      rcases queue with _ | ⟨first, _ | ⟨second, rest⟩⟩
      · cases hlength
      · cases hlength
      · have hrest : rest.length = count := by
          simpa using hlength
        rcases hqueue.orders with ⟨hfirst, hsecond, _⟩
        have hmerged := h.merged hqueue.ordered
        have hjoin := hqueue.join
        have hnext : start + (count + 1) + 1 = start + 2 + count := by omega
        have hroot : start + 2 * (count + 1) = start + 2 + 2 * count := by omega
        rw [hrest] at hjoin
        rw [hnext] at hmerged
        rw [hroot]
        have hperm : (rest ++ [Candidate.join (start + 2 + count) first second]).Perm
            (Candidate.join (start + 2 + count) first second :: rest) :=
          List.perm_append_singleton _ _
        have hplaces := ih hjoin (by simp [hrest]) (hmerged.of_perm hperm)
        refine (hplaces.of_perm hperm).split ?_ ?_
        · rw [hfirst]
          exact depthBelow_of_parent (by omega) (by omega)
        · rw [hsecond]
          exact depthBelow_of_parent (by omega) (by omega)

theorem queued_created {weight : α -> UInt32} {xs : List α} {share : UInt32}
    (hsame : forall item, item ∈ xs -> weight item = share) : Queued 0 (created weight xs) := by
  have hweight : forall candidate, candidate ∈ created weight xs ->
      candidate.weight = share.toNat := by
    intro candidate hmem
    rcases List.mem_map.mp hmem with ⟨entry, hentry, rfl⟩
    rw [hsame entry.1 (List.fst_mem_of_mem_zipIdx hentry)]
  constructor
  case numbers =>
    rw [map_order_created, length_created]
    exact List.range_eq_range'
  case weight_mono =>
    apply List.pairwise_of_forall_mem_list
    intro older holder younger hyounger
    rw [hweight older holder, hweight younger hyounger]
  case le_double =>
    intro a ha b hb
    rw [hweight a ha, hweight b hb]
    exact Nat.le_mul_of_pos_left _ Nat.two_pos

end

theorem depthsInOrder_of_equal_weights {weight : α × Nat -> UInt32} {xs : List α}
    {share : UInt32} {tree : HuffmanTree (α × Nat)}
    (hsame : forall item, item ∈ xs.zipIdx -> weight item = share)
    (h : ofItems? weight xs.zipIdx = some tree) :
    depthsInOrder Prod.snd tree.layout = completeDepths xs.length := by
  cases hcount : xs.length with
  | zero =>
      rw [List.length_eq_zero_iff.mp hcount] at h
      simp [ofItems?, forest, merge] at h
  | succ count =>
      have hlength : (created weight xs.zipIdx).length = count + 1 := by
        rw [length_created, List.length_zipIdx, hcount]
      have hmerges := merges_of_ofItems? h
      rw [List.length_zipIdx, hcount] at hmerges
      have hplaces := (queued_created hsame).places hlength
        (by rwa [Nat.zero_add])
      rw [hplaces.depthsInOrder_eq, hcount]
      apply List.map_congr_left
      intro index _
      rw [depthBelow]
      congr 1
      omega

end HuffmanTree

open HuffmanTree

theorem huffmanDepths_replicate (share : UInt32) {count : Nat} (hpos : 1 <= count)
    (hle : count <= 2 ^ 32) :
    huffmanDepths (List.replicate count share) = .ok (completeDepths count) := by
  have hlength : (List.replicate count share).zipIdx.length = count := by
    rw [List.length_zipIdx, List.length_replicate]
  have hne : (List.replicate count share).zipIdx ≠ [] := by
    rw [← List.length_pos_iff, hlength]
    exact hpos
  rcases exists_ofItems?_le_maxDepth Prod.fst hne (hlength.symm ▸ hle) with
    ⟨tree, htree, hheight⟩
  have hsame : forall item, item ∈ (List.replicate count share).zipIdx -> item.1 = share :=
    fun item hitem => List.eq_of_mem_replicate (List.fst_mem_of_mem_zipIdx hitem)
  have hdepths := depthsInOrder_of_equal_weights hsame htree
  rw [List.length_replicate] at hdepths
  rw [← hdepths]
  exact map_eq_ok_iff.mpr ⟨_, huffmanLayout_eq_ok_iff.mpr ⟨tree, htree, hheight, rfl⟩, rfl⟩

section

variable {P : Type} [Ciphersuite P]

theorem weight_of_standard {policy : ThresholdPolicy P} {strategy : Strategy}
    {leaves : List (Leaf P)}
    (h : policy.leaves strategy Weighting.standard.weight = .ok leaves) {leaf : Leaf P}
    (hleaf : leaf ∈ leaves) :
    leaf.weight = UInt32.ofNat (100 / leaves.length) := by
  have hmem := List.mem_map_of_mem (f := Leaf.weight) hleaf
  rw [ThresholdPolicy.map_weight_of_leaves h] at hmem
  rcases List.mem_map.mp hmem with ⟨index, _, hindex⟩
  exact hindex.symm

theorem ScriptTree.depths_of_standard {policy : ThresholdPolicy P} {strategy : Strategy}
    {tree : ScriptTree P} (h : ofPolicy policy strategy Weighting.standard.weight = .ok tree) :
    tree.depths = completeDepths tree.leaves.length := by
  rcases ofPolicy_eq_ok_iff.mp h with ⟨leaves, hleaves, htree⟩
  rcases ofLeaves_eq_ok_iff.mp htree with ⟨shape, key, output, hshape, _, _, _, rfl⟩
  exact depthsInOrder_of_equal_weights
    (fun item hitem => weight_of_standard hleaves (List.fst_mem_of_mem_zipIdx hitem)) hshape

end

/-- Equal weights, zero or not, give the depths of a complete binary tree.  So does the standard
weighting, which gives each leaf its whole part of one hundred: no two leaves are more than one step
apart, and the earliest leaves are the deepest. -/
theorem equal_weights_complete (P : Type) [Ciphersuite P] (share : UInt32) {count : Nat}
    (hpos : 1 <= count) (hle : count <= 2 ^ 32) :
    huffmanDepths (List.replicate count share) = .ok (completeDepths count) ∧
    forall (policy : ThresholdPolicy P) (strategy : Strategy) (tree : ScriptTree P),
      ScriptTree.ofPolicy policy strategy Weighting.standard.weight = .ok tree ->
        (forall leaf, leaf ∈ tree.leaves -> leaf.weight.toNat = 100 / tree.leaves.length) ∧
        tree.depths = completeDepths tree.leaves.length ∧
        tree.depths.Pairwise (fun earlier later => later <= earlier) ∧
        forall depth other, depth ∈ tree.depths -> other ∈ tree.depths -> depth <= other + 1 := by
  refine ⟨huffmanDepths_replicate share hpos hle, ?_⟩
  intro policy strategy tree htree
  have hdepths := ScriptTree.depths_of_standard htree
  rcases ScriptTree.ofPolicy_eq_ok_iff.mp htree with ⟨leaves, hleaves, hbuilt⟩
  rw [hdepths, ScriptTree.leaves_of_ofLeaves hbuilt]
  refine ⟨?_, rfl, pairwise_completeDepths _, fun _ _ => le_add_one_of_mem_completeDepths⟩
  intro leaf hleaf
  rw [weight_of_standard hleaves hleaf]
  apply UInt32.toNat_ofNat_of_lt'
  exact (Nat.div_le_self 100 _).trans_lt (by decide)

theorem equal_weights_complete_two_of_three :
    huffmanDepths [0, 0, 0, 0, 0] = .ok [3, 3, 2, 2, 2] ∧
      exists tree,
        ScriptTree.ofPolicy twoOfThree .separateChecks Weighting.standard.weight = .ok tree ∧
        tree.depths = [2, 2, 1] := by
  have hpos : 1 <= 5 := by
    decide
  rcases equal_weights_complete Secp256k1.Point 0 hpos (by decide) with ⟨hzeros, htrees⟩
  rcases ScriptTree.exists_tree_pairLeaves with ⟨tree, hpolicy, htree⟩
  refine ⟨hzeros, tree, hpolicy, ?_⟩
  rw [(htrees _ _ _ hpolicy).2.1, ScriptTree.leaves_of_ofLeaves htree]
  rfl

end Cosigning
