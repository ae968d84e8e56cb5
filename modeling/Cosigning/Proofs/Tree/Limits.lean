import Cosigning.Proofs.Tree.Arena
import Cosigning.Proofs.Tree.Construction
import Mathlib.Computability.StateTransition

/-!
# No limit is exceeded

A Huffman tree is grown in an arena and walked over, one step at a time.  Merging keeps the weight
on the heap, so no sum outgrows sixty-four bits, and a tree of as many items as thirty-two bits
can count is not so high that a visit comes too deep.  No policy has so many leaves that the depth
limit could fail its tree.
-/

namespace Cosigning

open StateTransition

namespace Arena

/-!
## Growing step by step
-/

theorem perm_of_pop? {heap rest : List Entry} {least : Entry} (h : pop? heap = some (least, rest)) :
    heap.Perm (least :: rest) := by
  rcases Option.map_eq_some_iff.mp h with ⟨_, hmin, heq⟩
  cases heq
  exact List.perm_cons_erase (List.min?_mem hmin)

structure Growth where
  nodes : List Node
  heap : List Entry

namespace Growth

def start (weights : List UInt32) : Growth :=
  { nodes := (List.range weights.length).map Node.leaf
    heap := weights.zipIdx.map (fun entry => toLex (entry.1.toNat, entry.2)) }

def next? (growth : Growth) : Option Growth :=
  match pop? growth.heap with
  | none => none
  | some (first, others) =>
      match pop? others with
      | none => none
      | some (second, rest) =>
          some
            { nodes := growth.nodes ++ [.branch (ofLex first).2 (ofLex second).2]
              heap :=
                toLex ((ofLex first).1 + (ofLex second).1, growth.nodes.length) :: rest }

def grown (growth : Growth) : List Node :=
  grow growth.nodes growth.heap

def total (growth : Growth) : Nat :=
  (growth.heap.map (fun entry => (ofLex entry).1)).sum

variable {growth later : Growth}

theorem next?_eq_some (h : growth.next? = some later) :
    exists first second others rest, pop? growth.heap = some (first, others) ∧
      pop? others = some (second, rest) ∧
      later =
        { nodes := growth.nodes ++ [.branch (ofLex first).2 (ofLex second).2]
          heap := toLex ((ofLex first).1 + (ofLex second).1, growth.nodes.length) :: rest } := by
  unfold next? at h
  split at h
  · cases h
  · rename_i first others hfirst
    split at h
    · cases h
    · rename_i second rest hsecond
      cases h
      exact ⟨first, second, others, rest, hfirst, hsecond, rfl⟩

theorem total_of_next? (h : growth.next? = some later) : later.total = growth.total := by
  rcases next?_eq_some h with ⟨first, second, others, rest, hfirst, hsecond, rfl⟩
  have hperm := (perm_of_pop? hfirst).trans ((perm_of_pop? hsecond).cons first)
  unfold total
  rw [(hperm.map _).sum_eq]
  simp only [List.map_cons, List.sum_cons, ofLex_toLex]
  exact Nat.add_assoc _ _ _

theorem total_of_reaches (h : Reaches next? growth later) : later.total = growth.total := by
  induction h with
  | refl => rfl
  | tail _ hstep ih => exact (total_of_next? hstep).trans ih

theorem weight_le_total {entry : Entry} (h : entry ∈ growth.heap) :
    (ofLex entry).1 <= growth.total :=
  List.le_sum_of_mem (List.mem_map_of_mem h)

theorem total_start (weights : List UInt32) :
    (start weights).total = (weights.map UInt32.toNat).sum := by
  unfold total start
  rw [List.map_map]
  exact congrArg List.sum (map_zipIdx_fst UInt32.toNat weights)

theorem grown_of_next?_eq_none (h : growth.next? = none) : growth.grown = growth.nodes := by
  unfold next? at h
  rw [grown, grow]
  split
  · rfl
  · rename_i first others hfirst
    rw [hfirst] at h
    split
    · rfl
    · rename_i second rest hsecond
      simp only [hsecond] at h
      cases h

theorem length_heap_of_next? (h : growth.next? = some later) :
    later.heap.length < growth.heap.length := by
  rcases next?_eq_some h with ⟨first, second, others, rest, hfirst, hsecond, rfl⟩
  rw [length_of_pop? hfirst, length_of_pop? hsecond]
  exact Nat.lt_succ_self _

theorem grown_of_next? (h : growth.next? = some later) : growth.grown = later.grown := by
  rcases next?_eq_some h with ⟨first, second, others, rest, hfirst, hsecond, rfl⟩
  exact grow_of_pop? hfirst hsecond

theorem exists_grown_mem_eval (growth : Growth) :
    exists heap, ⟨growth.grown, heap⟩ ∈ eval next? growth := by
  induction hlength : growth.heap.length using Nat.strong_induction_on generalizing growth with
  | _ length ih =>
      cases hnext : growth.next? with
      | none =>
          refine ⟨growth.heap, ?_⟩
          rw [grown_of_next?_eq_none hnext]
          exact mem_eval.mpr ⟨Relation.ReflTransGen.refl, hnext⟩
      | some later =>
          rcases ih _ (hlength ▸ length_heap_of_next? hnext) later rfl with ⟨heap, heval⟩
          refine ⟨heap, ?_⟩
          rw [reaches_eval (Relation.ReflTransGen.single hnext), grown_of_next? hnext]
          exact heval

end Growth

/-!
## Walking step by step
-/

structure Walk where
  stack : List (Nat × Nat)
  layout : List (Nat × Nat)

namespace Walk

def start (nodes : List Node) : Walk :=
  { stack := [(nodes.length - 1, 0)], layout := [] }

def next? (nodes : List Node) (walk : Walk) : Option Walk :=
  match walk.stack with
  | [] => none
  | (place, depth) :: stack =>
      match nodes[place]? with
      | none => none
      | some (.leaf number) =>
          some { stack := stack, layout := walk.layout ++ [(number, depth)] }
      | some (.branch left right) =>
          some
            { stack := (left, depth + 1) :: (right, depth + 1) :: stack
              layout := walk.layout }

variable {nodes : List Node}

theorem mem_eval_of_walk {rounds : Nat} {stack layout result : List (Nat × Nat)}
    (h : Arena.walk nodes rounds stack layout = some (.ok result)) :
    ⟨[], result⟩ ∈ eval (next? nodes) ⟨stack, layout⟩ := by
  -- Each round of the walk is one visit, and the test of the depth was passed in all of them.
  induction rounds generalizing stack layout with
  | zero =>
      rw [Arena.walk] at h
      cases h
  | succ rounds ih =>
      cases stack with
      | nil =>
          rw [Arena.walk] at h
          cases h
          exact mem_eval.mpr ⟨Relation.ReflTransGen.refl, rfl⟩
      | cons visit stack =>
          rcases visit with ⟨place, depth⟩
          rw [Arena.walk] at h
          split at h
          · cases h
          · split at h
            · cases h
            · rename_i number hnode
              have hstep : next? nodes ⟨(place, depth) :: stack, layout⟩ =
                  some ⟨stack, layout ++ [(number, depth)]⟩ := by
                simp only [next?, hnode]
              rw [reaches_eval (Relation.ReflTransGen.single hstep)]
              exact ih h
            · rename_i left right hnode
              have hstep : next? nodes ⟨(place, depth) :: stack, layout⟩ =
                  some ⟨(left, depth + 1) :: (right, depth + 1) :: stack, layout⟩ := by
                simp only [next?, hnode]
              rw [reaches_eval (Relation.ReflTransGen.single hstep)]
              exact ih h

/-- Below every node that is to be visited stands a tree that ends within the depth limit. -/
def Shallow {α : Type} (number : α -> Nat) (nodes : List Node) (walk : Walk) : Prop :=
  forall visit, visit ∈ walk.stack -> exists tree : HuffmanTree α,
    tree.StandsAt number nodes visit.1 ∧ visit.2 + tree.height <= maxDepth

variable {α : Type} {number : α -> Nat} {walk later : Walk}

theorem Shallow.next? (h : walk.Shallow number nodes) (hstep : walk.next? nodes = some later) :
    later.Shallow number nodes := by
  rcases walk with ⟨stack, layout⟩
  cases stack with
  | nil => cases hstep
  | cons visit stack =>
      rcases visit with ⟨place, depth⟩
      rcases h (place, depth) List.mem_cons_self with ⟨tree, hstands, hheight⟩
      have hrest : forall visit, visit ∈ stack -> exists tree : HuffmanTree α,
          tree.StandsAt number nodes visit.1 ∧ visit.2 + tree.height <= maxDepth :=
        fun visit hvisit => h visit (List.mem_cons_of_mem _ hvisit)
      cases tree with
      | leaf item =>
          rw [HuffmanTree.StandsAt] at hstands
          simp only [Walk.next?, hstands] at hstep
          cases hstep
          exact hrest
      | branch left right =>
          rcases hstands with ⟨leftPlace, rightPlace, hplace, hleft, hright⟩
          simp only [Walk.next?, hplace] at hstep
          cases hstep
          rw [HuffmanTree.height] at hheight
          intro visit hvisit
          rcases List.mem_cons.mp hvisit with rfl | hvisit
          · exact ⟨left, hleft, by dsimp only; omega⟩
          · rcases List.mem_cons.mp hvisit with rfl | hvisit
            · exact ⟨right, hright, by dsimp only; omega⟩
            · exact hrest visit hvisit

theorem Shallow.reaches (h : walk.Shallow number nodes)
    (hreaches : Reaches (Walk.next? nodes) walk later) : later.Shallow number nodes := by
  induction hreaches with
  | refl => exact h
  | tail _ hstep ih => exact ih.next? hstep

end Walk

theorem layout?_eq_walk {weights : List UInt32} (hne : weights ≠ []) :
    layout? weights =
      walk (Growth.start weights).grown (2 * weights.length)
        (Walk.start (Growth.start weights).grown).stack [] := by
  unfold layout?
  rw [if_neg (by simpa using hne)]
  rfl

/-- Weights are arranged: the loop grows an arena of nodes, the walk over it meets the leaves of a
layout, and what comes up on the way stays within sixty-four bits and within the depth limit, so
that the limit stops nothing and a byte holds each depth. -/
structure Arranges (weights : List UInt32) (nodes : List Node) (layout : List (Nat × Nat)) :
    Prop where
  grown : exists heap, ⟨nodes, heap⟩ ∈ eval Growth.next? (Growth.start weights)
  weight_lt : forall growth, Reaches Growth.next? (Growth.start weights) growth ->
    forall entry, entry ∈ growth.heap -> (ofLex entry).1 < 2 ^ 64
  walked : ⟨[], layout⟩ ∈ eval (Walk.next? nodes) (Walk.start nodes)
  depth_le : forall walk, Reaches (Walk.next? nodes) (Walk.start nodes) walk ->
    forall visit, visit ∈ walk.stack -> visit.2 <= maxDepth
  layout?_eq_ok : layout? weights = some (.ok layout)
  huffmanLayout_eq_ok : (huffmanLayout Prod.fst weights.zipIdx).map
    (fun placed => placed.map (fun entry => (entry.1.2, entry.2))) = .ok layout
  toUInt8_depth : forall entry, entry ∈ layout -> entry.2.toUInt8.toNat = entry.2

end Arena

open Arena

section

variable {weights : List UInt32} {tree : HuffmanTree (UInt32 × Nat)}

theorem Arena.Walk.shallow_start (hne : weights ≠ [])
    (h : HuffmanTree.ofItems? Prod.fst weights.zipIdx = some tree)
    (hheight : tree.height <= maxDepth) :
    (Walk.start (Growth.start weights).grown).Shallow (α := UInt32 × Nat) Prod.snd
      (Growth.start weights).grown := by
  have hnumbered : weights.zipIdx ≠ [] := by
    simpa using hne
  have hholds := HuffmanTree.holds_created Prod.fst hnumbered
    (snd_of_getElem?_zipIdx weights)
  rw [List.zipIdx_map_fst, List.length_zipIdx] at hholds
  have hroot := (HuffmanTree.merges_of_ofItems? h).standsAt_grow (by simp) hholds
  intro visit hvisit
  rcases List.mem_singleton.mp hvisit with rfl
  exact ⟨tree, hroot, by rwa [Nat.zero_add]⟩

end

theorem Arena.Growth.total_start_lt {weights : List UInt32} (hlength : weights.length <= 2 ^ 32) :
    (start weights).total < 2 ^ 64 := by
  rw [total_start]
  exact (sum_toNat_le (fun share => share) hlength).trans_lt (by norm_num)

theorem Arena.exists_arranges {weights : List UInt32} (hne : weights ≠ [])
    (hlength : weights.length <= 2 ^ 32) :
    exists nodes layout, Arranges weights nodes layout := by
  have hnumbered : weights.zipIdx ≠ [] := by
    simpa using hne
  have hitems : weights.zipIdx.length <= 2 ^ 32 := by
    rwa [List.length_zipIdx]
  rcases HuffmanTree.exists_ofItems?_le_maxDepth Prod.fst hnumbered hitems with
    ⟨tree, htree, hheight⟩
  have hlayout : huffmanLayout Prod.fst weights.zipIdx = .ok tree.layout :=
    huffmanLayout_eq_ok_iff.mpr ⟨tree, htree, hheight, rfl⟩
  have harena := Arena.layout?_eq Prod.fst Prod.snd
    (snd_of_getElem?_zipIdx weights)
  rw [List.zipIdx_map_fst, hlayout] at harena
  rcases Growth.exists_grown_mem_eval (Growth.start weights) with ⟨heap, hgrown⟩
  refine ⟨_, _, ⟨heap, hgrown⟩, ?_, ?_, ?_, harena, ?_, ?_⟩
  · intro growth hreaches entry hentry
    have htotal := Growth.total_of_reaches hreaches
    have hweight := Growth.weight_le_total hentry
    have hstart := Growth.total_start_lt hlength
    omega
  · rw [layout?_eq_walk hne] at harena
    exact Walk.mem_eval_of_walk harena
  · intro walk hreaches visit hvisit
    have hshallow := Walk.shallow_start hne htree hheight
    rcases hshallow.reaches hreaches visit hvisit with ⟨below, _, hbelow⟩
    omega
  · rw [hlayout]
    rfl
  · intro entry hentry
    rcases List.mem_map.mp hentry with ⟨placed, hplaced, rfl⟩
    have hdepth := HuffmanTree.depth_le_of_mem_layoutFrom hplaced
    unfold maxDepth at hheight
    exact UInt8.toNat_ofNat_of_lt' (show placed.2 < 256 by omega)

/-!
## Policies
-/

section

variable {P : Type} [Ciphersuite P]

theorem huffmanLayout_ne_depthLimit {α : Type} {weight : α -> UInt32} {xs : List α}
    (hlength : xs.length <= 2 ^ 32) (depth : Nat) :
    huffmanLayout weight xs ≠ .error (.depthLimit depth) := by
  intro h
  unfold huffmanLayout at h
  cases htree : HuffmanTree.ofItems? weight xs with
  | none =>
      rw [htree] at h
      cases h
  | some tree =>
      simp only [htree, if_pos (HuffmanTree.height_le_maxDepth htree hlength)] at h
      cases h

theorem ScriptTree.ofLeaves_ne_depthLimit {internalKey : InternalKey P} {leaves : List (Leaf P)}
    (hlength : leaves.length <= 2 ^ 32) (depth : Nat) :
    ofLeaves internalKey leaves ≠ .error (.depthLimit depth) := by
  intro h
  rcases bind_eq_error_iff.mp h with h | ⟨layout, hlayout, h⟩
  · exact huffmanLayout_ne_depthLimit (by rwa [List.length_zipIdx]) depth h
  · rcases huffmanLayout_eq_ok_iff.mp hlayout with ⟨shape, _, hheight, rfl⟩
    rw [addLeaves_layout hheight] at h
    -- What is left to fail is the root or its tweak.
    simp only [bind, Except.bind] at h
    split at h
    · split at h
      · cases h
      · cases h
    · cases h

theorem Leaf.kind_of_compile_eq_error {keys : List (XOnlyKey P)} {strategy : Strategy}
    {weight : UInt32} {cause : PolicyError} (h : Leaf.compile keys strategy weight = .error cause) :
    cause.kind ≠ .taproot := by
  cases strategy with
  | separateChecks =>
      have hscript := map_eq_error_iff.mp h
      unfold Script.compileChecks at hscript
      split at hscript
      · cases hscript
        exact PolicyErrorKind.noConfusion
      · cases hscript
  | jointCheck =>
      have hscript := map_eq_error_iff.mp h
      unfold compileJoint at hscript
      split at hscript
      · cases hscript
        exact PolicyErrorKind.noConfusion
      · split at hscript
        · cases hscript
          exact PolicyErrorKind.noConfusion
        · cases hscript

namespace ThresholdPolicy

variable {policy : ThresholdPolicy P} {strategy : Strategy} {rule : WeightRule}

theorem length_leaves_eq_choose {leaves : List (Leaf P)}
    (h : policy.leaves strategy rule = .ok leaves) :
    leaves.length = policy.keys.length.choose policy.threshold := by
  have hlength := congrArg List.length (map_requiredKeys_of_leaves h)
  rw [List.length_map, length_sublistsOfSize] at hlength
  exact hlength

theorem length_leaves_le_choose {leaves : List (Leaf P)}
    (h : policy.leaves strategy rule = .ok leaves) : leaves.length <= Nat.choose 16 8 := by
  rw [length_leaves_eq_choose h]
  exact (Nat.choose_le_choose _ policy.length_le).trans (Nat.choose_le_middle _ _)

theorem kind_of_leaves_eq_error {cause : PolicyError}
    (h : policy.leaves strategy rule = .error cause) : cause.kind ≠ .taproot := by
  unfold leaves at h
  rw [policy.subsets_keys] at h
  rcases exists_mem_of_mapM_eq_error h with ⟨entry, _, hentry⟩
  exact Leaf.kind_of_compile_eq_error hentry

end ThresholdPolicy

theorem ScriptTree.ofPolicy_ne_depthLimit (policy : ThresholdPolicy P) (strategy : Strategy)
    (rule : WeightRule) (depth : Nat) :
    ofPolicy policy strategy rule ≠ .error (.depthLimit depth) := by
  intro h
  rcases bind_eq_error_iff.mp h with h | ⟨leaves, hleaves, h⟩
  · exact ThresholdPolicy.kind_of_leaves_eq_error h rfl
  · have hlength := ThresholdPolicy.length_leaves_le_choose hleaves
    exact ofLeaves_ne_depthLimit (hlength.trans (by decide)) depth h

end

/-- The depth limit and the sixty-four bits of a sum are out of reach.  Weights that thirty-two bits
can count are arranged within both, so that leaves of these weights never fail for the limit; and a
policy has at most 12870 leaves, so that its tree never does, whatever weighs the leaves. -/
theorem arranges_within_limits (P : Type) [Ciphersuite P] {weights : List UInt32}
    (hne : weights ≠ []) (hlength : weights.length <= 2 ^ 32) :
    (exists nodes layout, Arranges weights nodes layout) ∧
    (forall (internalKey : InternalKey P) (leaves : List (Leaf P)) (depth : Nat),
      leaves.map Leaf.weight = weights ->
        ScriptTree.ofLeaves internalKey leaves ≠ .error (.depthLimit depth)) ∧
    (forall (policy : ThresholdPolicy P) (strategy : Strategy) (rule : WeightRule),
      (forall leaves, policy.leaves strategy rule = .ok leaves -> leaves.length <= 12870) ∧
      forall depth, ScriptTree.ofPolicy policy strategy rule ≠ .error (.depthLimit depth)) := by
  refine ⟨exists_arranges hne hlength, ?_, ?_⟩
  · intro internalKey leaves depth hweights
    apply ScriptTree.ofLeaves_ne_depthLimit
    rwa [← hweights, List.length_map] at hlength
  · intro policy strategy rule
    refine ⟨?_, ScriptTree.ofPolicy_ne_depthLimit policy strategy rule⟩
    intro leaves hleaves
    exact (ThresholdPolicy.length_leaves_le_choose hleaves).trans (by decide)

theorem arranges_within_limits_two_zeros :
    exists nodes layout, Arranges [0, 3, 0, 1, 5] nodes layout ∧
      layout = [(0, 4), (2, 4), (3, 3), (1, 2), (4, 1)] ∧
      forall depth, ScriptTree.ofPolicy twoOfThree .separateChecks (WeightRule.ofTable [0, 3, 0]) ≠
        .error (.depthLimit depth) := by
  have hne : ([0, 3, 0, 1, 5] : List UInt32) ≠ [] := by
    decide
  rcases arranges_within_limits Secp256k1.Point hne (by decide) with
    ⟨⟨nodes, layout, harranges⟩, _, hpolicy⟩
  refine ⟨nodes, layout, harranges, ?_, (hpolicy _ _ _).2⟩
  have hlayout : (huffmanLayout Prod.fst [0, 3, 0, 1, 5].zipIdx).map
      (fun placed => placed.map (fun entry => (entry.1.2, entry.2))) =
        .ok [(0, 4), (2, 4), (3, 3), (1, 2), (4, 1)] := by
    cbv
  rw [harranges.huffmanLayout_eq_ok] at hlayout
  exact Except.ok.inj hlayout

end Cosigning
