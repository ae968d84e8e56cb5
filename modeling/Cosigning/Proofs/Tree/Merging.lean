import Cosigning.Proofs.Tree.HuffmanItems
import Mathlib.Data.Prod.Lex

/-!
# Merging the two least trees

A Huffman tree is what is left when the two least trees of a forest are merged again and
again, the least by weight and then by the number of creation.  This does not depend on how the
forest is listed, and there is only one such tree.
-/

namespace Cosigning

/-- The least of a list by rank, and what is left without it. -/
structure TakesLeast {α ρ : Type} [LT ρ] (rank : α -> ρ) (items : List α) (least : α)
    (rest : List α) : Prop where
  perm : items.Perm (least :: rest)
  lt : forall other, other ∈ rest -> rank least < rank other

namespace TakesLeast

variable {α ρ : Type} [Preorder ρ] {rank : α -> ρ} {items others rest rest' : List α}
  {least least' : α}

theorem of_perm (h : TakesLeast rank items least rest) (perm : others.Perm items) :
    TakesLeast rank others least rest :=
  ⟨perm.trans h.perm, h.lt⟩

theorem eq (h : TakesLeast rank items least rest) (h' : TakesLeast rank items least' rest') :
    least' = least := by
  have hmem : least' ∈ least :: rest := h.perm.mem_iff.mp (h'.perm.mem_iff.mpr List.mem_cons_self)
  have hmem' : least ∈ least' :: rest' := h'.perm.mem_iff.mp (h.perm.mem_iff.mpr List.mem_cons_self)
  rcases List.mem_cons.mp hmem with heq | hrest
  · exact heq
  · rcases List.mem_cons.mp hmem' with heq | hrest'
    · exact heq.symm
    · exact absurd (h'.lt least hrest') (lt_asymm (h.lt least' hrest))

theorem rest_perm (h : TakesLeast rank items least rest)
    (h' : TakesLeast rank items least rest') : rest.Perm rest' :=
  (h.perm.symm.trans h'.perm).cons_inv

section

variable {first second : α}

theorem perm_pair (hfirst : TakesLeast rank items first others)
    (hsecond : TakesLeast rank others second rest) : items.Perm (first :: second :: rest) :=
  hfirst.perm.trans (hsecond.perm.cons first)

theorem pair_lt (hfirst : TakesLeast rank items first others)
    (hsecond : TakesLeast rank others second rest) : rank first < rank second :=
  hfirst.lt second (hsecond.perm.mem_iff.mpr List.mem_cons_self)

end

end TakesLeast

namespace HuffmanTree

variable {α : Type}

namespace Candidate

def rank (candidate : Candidate α) : Nat ×ₗ Nat :=
  toLex (candidate.weight, candidate.order)

theorem rank_lt_iff {a b : Candidate α} :
    a.rank < b.rank <-> a.weight < b.weight ∨ a.weight = b.weight ∧ a.order < b.order :=
  Prod.Lex.toLex_lt_toLex

theorem rank_lt_of_le {a b : Candidate α} (hweight : a.weight <= b.weight)
    (horder : a.order < b.order) : a.rank < b.rank :=
  rank_lt_iff.mpr ((Nat.lt_or_eq_of_le hweight).imp_right (fun heq => ⟨heq, horder⟩))

theorem weight_le_of_rank_lt {a b : Candidate α} (h : a.rank < b.rank) :
    a.weight <= b.weight := by
  rcases rank_lt_iff.mp h with hlt | ⟨heq, _⟩
  · exact Nat.le_of_lt hlt
  · exact Nat.le_of_eq heq

theorem order_lt_of_rank_lt {a b : Candidate α} (h : a.rank < b.rank)
    (hweight : a.weight = b.weight) : a.order < b.order := by
  rcases rank_lt_iff.mp h with hlt | ⟨_, hlt⟩
  · exact absurd hweight (Nat.ne_of_lt hlt)
  · exact hlt

theorem precedes_iff {a b : Candidate α} : a.precedes b = true <-> a.rank < b.rank := by
  rw [rank_lt_iff, precedes]
  simp

theorem rank_lt_or_lt {a b : Candidate α} (h : a.order ≠ b.order) :
    a.rank < b.rank ∨ b.rank < a.rank := by
  apply lt_or_gt_of_ne
  intro hrank
  exact h (congrArg (fun pair => (ofLex pair).2) hrank)

end Candidate

/-- Merge the two least trees of a forest until one is left; `next` is the number of the next tree
created. -/
inductive Merges : Nat -> List (Candidate α) -> HuffmanTree α -> Prop where
  | last (next : Nat) (last : Candidate α) : Merges next [last] last.tree
  | step (next : Nat) (forest others rest : List (Candidate α)) (first second : Candidate α)
      (tree : HuffmanTree α) (hfirst : TakesLeast Candidate.rank forest first others)
      (hsecond : TakesLeast Candidate.rank others second rest)
      (h : Merges (next + 1) (Candidate.join next first second :: rest) tree) :
      Merges next forest tree

section

variable {next : Nat} {forest other : List (Candidate α)} {tree tree' : HuffmanTree α}

theorem Merges.of_perm (h : Merges next forest tree) (perm : other.Perm forest) :
    Merges next other tree := by
  cases h with
  | last _ last =>
      rw [List.perm_singleton.mp perm]
      exact .last next last
  | step _ _ others rest first second _ hfirst hsecond h =>
      exact .step next other others rest first second tree (hfirst.of_perm perm) hsecond h

theorem Merges.eq (h : Merges next forest tree) (h' : Merges next forest tree') :
    tree' = tree := by
  induction h generalizing tree' with
  | last next last =>
      cases h' with
      | last => rfl
      -- A step needs two trees, and there is only one.
      | step _ _ others rest first second _ hfirst hsecond _ =>
          have hlength := hfirst.perm.length_eq
          have hlength' := hsecond.perm.length_eq
          simp only [List.length_cons, List.length_nil] at hlength hlength'
          omega
  | step next forest others rest first second tree hfirst hsecond _ ih =>
      cases h' with
      | last =>
          have hlength := hfirst.perm.length_eq
          have hlength' := hsecond.perm.length_eq
          simp only [List.length_cons, List.length_nil] at hlength hlength'
          omega
      | step _ _ others' rest' first' second' _ hfirst' hsecond' h' =>
          rcases hfirst.eq hfirst' with rfl
          have hothers := hfirst.rest_perm hfirst'
          have hsecond' := hsecond'.of_perm hothers
          rcases hsecond.eq hsecond' with rfl
          have hrest := hsecond.rest_perm hsecond'
          exact ih (h'.of_perm (hrest.cons _))

end

/-!
## Ordered forests
-/

def Ordered (forest : List (Candidate α)) : Prop :=
  forest.Pairwise (fun a b => a.rank < b.rank)

theorem ordered_insert {new : Candidate α} {forest : List (Candidate α)}
    (h : Ordered forest) (hnew : forall other, other ∈ forest -> new.order ≠ other.order) :
    Ordered (Candidate.insert new forest) := by
  induction forest with
  | nil => exact List.pairwise_singleton _ new
  | cons first rest ih =>
      rcases List.pairwise_cons.mp h with ⟨hfirst, hrest⟩
      rw [Candidate.insert]
      split
      · rename_i hprecedes
        rw [Candidate.precedes_iff] at hprecedes
        refine List.pairwise_cons.mpr ⟨?_, h⟩
        intro other hother
        rcases List.mem_cons.mp hother with rfl | hother
        · exact hprecedes
        · exact lt_trans hprecedes (hfirst other hother)
      · rename_i hprecedes
        rw [Candidate.precedes_iff] at hprecedes
        have hlt : first.rank < new.rank :=
          (Candidate.rank_lt_or_lt (hnew first List.mem_cons_self)).resolve_left hprecedes
        refine List.pairwise_cons.mpr ⟨?_, ih hrest fun other hother =>
          hnew other (List.mem_cons_of_mem first hother)⟩
        intro other hother
        rcases List.mem_cons.mp ((Candidate.insert_perm new rest).mem_iff.mp hother) with
          rfl | hother
        · exact hlt
        · exact hfirst other hother

theorem Ordered.takesLeast {first : Candidate α} {rest : List (Candidate α)}
    (h : Ordered (first :: rest)) : TakesLeast Candidate.rank (first :: rest) first rest :=
  ⟨List.Perm.refl _, (List.pairwise_cons.mp h).1⟩

theorem order_lt_join {next : Nat} {first second : Candidate α} {rest : List (Candidate α)}
    (h : forall candidate, candidate ∈ first :: second :: rest -> candidate.order < next)
    {candidate : Candidate α} (hmem : candidate ∈ Candidate.join next first second :: rest) :
    candidate.order < next + 1 := by
  rcases List.mem_cons.mp hmem with rfl | hmem
  · exact Nat.lt_succ_self next
  · exact Nat.lt_succ_of_lt
      (h candidate (List.mem_cons_of_mem first (List.mem_cons_of_mem second hmem)))

theorem merges_of_merge {next : Nat} {forest : List (Candidate α)} {tree : HuffmanTree α}
    (hordered : Ordered forest)
    (hnumbers : forall candidate, candidate ∈ forest -> candidate.order < next)
    (h : merge next forest = some tree) : Merges next forest tree := by
  induction next, forest using merge.induct with
  | case1 next =>
      rw [merge] at h
      cases h
  | case2 next last =>
      rw [merge] at h
      cases h
      exact .last next last
  | case3 next first second rest ih =>
      rw [merge] at h
      have hrest := (List.pairwise_cons.mp hordered).2
      have hperm := Candidate.insert_perm (Candidate.join next first second) rest
      refine .step next _ _ rest first second tree hordered.takesLeast
        (Ordered.takesLeast hrest) ((ih ?_ ?_ h).of_perm hperm.symm)
      · apply ordered_insert (List.pairwise_cons.mp hrest).2
        intro other hother
        exact Nat.ne_of_gt
          (hnumbers other (List.mem_cons_of_mem first (List.mem_cons_of_mem second hother)))
      · exact fun candidate hmem => order_lt_join hnumbers (hperm.mem_iff.mp hmem)

def created (weight : α -> UInt32) (xs : List α) : List (Candidate α) :=
  xs.zipIdx.map (fun entry =>
    { weight := (weight entry.1).toNat, order := entry.2, tree := leaf entry.1 })

theorem forest_perm_created (weight : α -> UInt32) (xs : List α) :
    (forest weight xs).Perm (created weight xs) :=
  List.mergeSort_perm _ _

theorem map_order_created (weight : α -> UInt32) (xs : List α) :
    (created weight xs).map Candidate.order = List.range xs.length := by
  unfold created
  rw [List.map_map]
  exact (List.zipIdx_map_snd 0 xs).trans List.range_eq_range'.symm

theorem length_created (weight : α -> UInt32) (xs : List α) :
    (created weight xs).length = xs.length := by
  rw [created, List.length_map, List.length_zipIdx]

theorem order_lt_of_mem_created {weight : α -> UInt32} {xs : List α} {candidate : Candidate α}
    (h : candidate ∈ created weight xs) : candidate.order < xs.length := by
  rw [← List.mem_range, ← map_order_created weight xs]
  exact List.mem_map_of_mem h

theorem ordered_forest (weight : α -> UInt32) (xs : List α) : Ordered (forest weight xs) := by
  have hle : (forest weight xs).Pairwise (fun a b => (!b.precedes a) = true) := by
    apply List.pairwise_mergeSort
    · intro a b c hab hbc
      rw [Bool.not_eq_true', ← Bool.not_eq_true, Candidate.precedes_iff, not_lt] at hab hbc ⊢
      exact le_trans hab hbc
    · intro a b
      rw [Bool.or_eq_true, Bool.not_eq_true', ← Bool.not_eq_true, Bool.not_eq_true',
        ← Bool.not_eq_true, Candidate.precedes_iff, Candidate.precedes_iff, not_lt, not_lt]
      exact le_total _ _
  have hne : (forest weight xs).Pairwise (fun a b => a.order ≠ b.order) := by
    rw [← List.pairwise_map]
    have hperm := (forest_perm_created weight xs).map Candidate.order
    rw [map_order_created] at hperm
    exact hperm.nodup_iff.mpr List.nodup_range
  refine (hle.and hne).imp ?_
  intro a b h
  rw [Bool.not_eq_true', ← Bool.not_eq_true, Candidate.precedes_iff] at h
  exact (Candidate.rank_lt_or_lt h.2).resolve_right h.1

theorem merges_of_ofItems? {weight : α -> UInt32} {xs : List α} {tree : HuffmanTree α}
    (h : ofItems? weight xs = some tree) : Merges xs.length (created weight xs) tree := by
  have hperm := forest_perm_created weight xs
  refine (merges_of_merge (ordered_forest weight xs) ?_ h).of_perm hperm.symm
  exact fun candidate hmem => order_lt_of_mem_created (hperm.mem_iff.mp hmem)

theorem isSome_merge {next : Nat} {forest : List (Candidate α)} (h : forest ≠ []) :
    (merge next forest).isSome = true := by
  induction next, forest using merge.induct with
  | case1 next => exact absurd rfl h
  | case2 next last =>
      rw [merge]
      rfl
  | case3 next first second rest ih =>
      rw [merge]
      apply ih
      intro hnil
      have hlength := Candidate.length_insert (Candidate.join next first second) rest
      rw [hnil] at hlength
      cases hlength

theorem exists_ofItems? (weight : α -> UInt32) {xs : List α} (h : xs ≠ []) :
    exists tree, ofItems? weight xs = some tree := by
  apply Option.isSome_iff_exists.mp
  apply isSome_merge
  intro hnil
  have hlength := (forest_perm_created weight xs).length_eq
  rw [hnil, length_created] at hlength
  exact h (List.length_eq_zero_iff.mp hlength.symm)

end HuffmanTree

end Cosigning
