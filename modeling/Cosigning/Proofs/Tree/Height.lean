import Cosigning.Proofs.Tree.Optimality
import Mathlib.Data.Nat.Fib.Basic
import Mathlib.Tactic.NormNum.NatFib

/-!
# Huffman trees are not deep

What stands beside a tree weighs no less than either child of that tree, so the weights on the
way up grow like the Fibonacci numbers.  Trees that weigh nothing escape this, but they are taken
in turn, the oldest first, and grow evenly.
-/

namespace Cosigning

variable {α : Type}

namespace HuffmanTree

variable {weight : α -> Nat} {low : Nat}

def children : HuffmanTree α -> List (HuffmanTree α)
  | leaf _ => []
  | branch left right => [left, right]

/-- No child of a subtree outweighs what stands beside the subtree, and a subtree that weighs nothing
is at most `low` high. -/
def Tapers (weight : α -> Nat) (low : Nat) : HuffmanTree α -> Prop
  | leaf _ => True
  | branch left right =>
      left.Tapers weight low ∧ right.Tapers weight low ∧
        (forall child, child ∈ left.children ->
          child.totalWeight weight <= right.totalWeight weight) ∧
        (forall child, child ∈ right.children ->
          child.totalWeight weight <= left.totalWeight weight) ∧
        ((branch left right).totalWeight weight = 0 -> (branch left right).height <= low)

/-!
## The height of a tapering tree
-/

/-- A tree weighs at least the Fibonacci number of its height above `low`, and one of its children
that of its own. -/
def Grows (weight : α -> Nat) (low : Nat) (tree : HuffmanTree α) : Prop :=
  Nat.fib (tree.height - low) <= tree.totalWeight weight ∧
    (0 < tree.height -> exists child, child ∈ tree.children ∧
      Nat.fib (tree.height - 1 - low) <= child.totalWeight weight)

theorem Grows.fib_le_add {tree beside : HuffmanTree α} (h : tree.Grows weight low)
    (hbeside : forall child, child ∈ tree.children ->
      child.totalWeight weight <= beside.totalWeight weight)
    (hpos : low < tree.height + 1 -> tree.totalWeight weight + beside.totalWeight weight ≠ 0) :
    Nat.fib (tree.height + 1 - low) <=
      tree.totalWeight weight + beside.totalWeight weight := by
  rcases Nat.lt_trichotomy tree.height low with hlow | hlow | hlow
  · rw [Nat.sub_eq_zero_of_le hlow, Nat.fib_zero]
    exact Nat.zero_le _
  · rw [hlow, Nat.add_sub_cancel_left, Nat.fib_one]
    exact Nat.one_le_iff_ne_zero.mpr (hpos (by omega))
  · rcases h.2 (by omega) with ⟨child, hchild, hfib⟩
    have hheight : tree.height + 1 - low = (tree.height - 1 - low) + 2 := by omega
    have hbelow : tree.height - 1 - low + 1 = tree.height - low := by omega
    rw [hheight, Nat.fib_add_two, hbelow, Nat.add_comm]
    exact Nat.add_le_add h.1 (hfib.trans (hbeside child hchild))

theorem Tapers.grows {tree : HuffmanTree α} (h : tree.Tapers weight low) :
    tree.Grows weight low := by
  induction tree with
  | leaf item =>
      constructor
      · rw [height, Nat.zero_sub, Nat.fib_zero]
        exact Nat.zero_le _
      · intro hpos
        cases hpos
  | branch left right ihleft ihright =>
      rcases h with ⟨hleft, hright, hbesideLeft, hbesideRight, hlow⟩
      have hpos : low < (branch left right).height ->
          (branch left right).totalWeight weight ≠ 0 := fun hlt hzero =>
        absurd (hlow hzero) (Nat.not_le.mpr hlt)
      unfold Grows
      rw [totalWeight_branch] at hpos ⊢
      rcases Nat.le_total left.height right.height with hle | hle
      · rw [height, Nat.max_eq_right hle] at hpos ⊢
        rw [Nat.add_comm (left.totalWeight weight)] at hpos ⊢
        refine ⟨(ihright hright).fib_le_add hbesideRight hpos, fun _ => ⟨right, ?_, ?_⟩⟩
        · exact List.mem_cons_of_mem _ List.mem_cons_self
        · exact (ihright hright).1
      · rw [height, Nat.max_eq_left hle] at hpos ⊢
        refine ⟨(ihleft hleft).fib_le_add hbesideLeft hpos, fun _ => ⟨left, ?_, ?_⟩⟩
        · exact List.mem_cons_self
        · exact (ihleft hleft).1

theorem Tapers.height_lt {tree : HuffmanTree α} (h : tree.Tapers weight low) {k : Nat}
    (hweight : tree.totalWeight weight < Nat.fib k) : tree.height < low + k := by
  by_contra hheight
  have hmono : Nat.fib k <= Nat.fib (tree.height - low) := Nat.fib_mono (by omega)
  exact absurd (hmono.trans h.grows.1) (Nat.not_le.mpr hweight)

/-!
## Trees that weigh nothing
-/

namespace Candidate

/-- The room that a tree which weighs nothing would take up if all of it were as deep as its deepest
item. -/
def span (candidate : Candidate α) : Nat :=
  if candidate.weight = 0 then 2 ^ candidate.tree.height else 0

theorem span_of_weight_eq_zero {candidate : Candidate α} (h : candidate.weight = 0) :
    candidate.span = 2 ^ candidate.tree.height :=
  if_pos h

theorem span_of_weight_ne_zero {candidate : Candidate α} (h : candidate.weight ≠ 0) :
    candidate.span = 0 :=
  if_neg h

end Candidate

/-- The trees that weigh nothing have one of two adjacent heights, no tree is higher than a younger
one, and together they span little more than `2 ^ low`. -/
structure Level (low base : Nat) (forest : List (Candidate α)) : Prop where
  le_height : forall candidate, candidate ∈ forest -> candidate.weight = 0 ->
    base <= candidate.tree.height
  height_le : forall candidate, candidate ∈ forest -> candidate.weight = 0 ->
    candidate.tree.height <= base + 1
  height_mono : forall older, older ∈ forest -> forall younger, younger ∈ forest ->
    older.weight = 0 -> younger.weight = 0 -> older.order < younger.order ->
    older.tree.height <= younger.tree.height
  span_lt : (forest.map Candidate.span).sum < 2 ^ low + 2 ^ base

section

variable {base next : Nat} {forest others rest : List (Candidate α)}
  {first second : Candidate α}

theorem Level.of_perm (h : Level low base forest) (hperm : forest.Perm others) :
    Level low base others where
  le_height candidate hmem := h.le_height candidate (hperm.mem_iff.mpr hmem)
  height_le candidate hmem := h.height_le candidate (hperm.mem_iff.mpr hmem)
  height_mono older holder younger hyounger :=
    h.height_mono older (hperm.mem_iff.mpr holder) younger (hperm.mem_iff.mpr hyounger)
  span_lt := by
    rw [← (hperm.map Candidate.span).sum_eq]
    exact h.span_lt

theorem Level.height_lt (h : Level low base (first :: second :: rest))
    (hfirst : first.weight = 0) (hsecond : second.weight = 0) : second.tree.height < low := by
  have hspan := h.span_lt
  have hbase : 2 ^ base <= 2 ^ first.tree.height :=
    Nat.pow_le_pow_right Nat.two_pos (h.le_height first List.mem_cons_self hfirst)
  rw [List.map_cons, List.map_cons, List.sum_cons, List.sum_cons,
    Candidate.span_of_weight_eq_zero hfirst, Candidate.span_of_weight_eq_zero hsecond] at hspan
  exact (Nat.pow_lt_pow_iff_right Nat.one_lt_two).mp (by omega)

theorem Level.join_weightless (h : Level low base (first :: second :: rest))
    (hfirst : first.weight = 0) (hsecond : second.weight = 0) (horder : first.order < second.order)
    (hrest : forall other, other ∈ rest -> other.weight = 0 -> second.order < other.order)
    (hnext : forall other, other ∈ rest -> other.order < next) :
    Level low second.tree.height (Candidate.join next first second :: rest) := by
  have hmemFirst : first ∈ first :: second :: rest := List.mem_cons_self
  have hmemSecond : second ∈ first :: second :: rest := List.mem_cons_of_mem _ List.mem_cons_self
  have hmemRest : forall other, other ∈ rest -> other ∈ first :: second :: rest :=
    fun other hmem => List.mem_cons_of_mem _ (List.mem_cons_of_mem _ hmem)
  have hbase := h.le_height second hmemSecond hsecond
  have hheight : (Candidate.join next first second).tree.height = second.tree.height + 1 := by
    have hle := h.height_mono first hmemFirst second hmemSecond hfirst hsecond horder
    rw [Candidate.join, height, Nat.max_eq_right hle]
  have hweight : (Candidate.join next first second).weight = 0 := by
    rw [Candidate.join, hfirst, hsecond]
  have hle : forall other, other ∈ rest -> other.weight = 0 ->
      other.tree.height <= second.tree.height + 1 := by
    intro other hmem hzero
    have hother := h.height_le other (hmemRest other hmem) hzero
    omega
  constructor
  · intro candidate hmem hzero
    rcases List.mem_cons.mp hmem with rfl | hmem
    · rw [hheight]
      exact Nat.le_succ _
    · exact h.height_mono second hmemSecond candidate (hmemRest candidate hmem) hsecond hzero
        (hrest candidate hmem hzero)
  · intro candidate hmem hzero
    rcases List.mem_cons.mp hmem with rfl | hmem
    · exact Nat.le_of_eq hheight
    · exact hle candidate hmem hzero
  · intro older holder younger hyounger hzero hzero' hlt
    rcases List.mem_cons.mp hyounger with rfl | hyounger
    · rcases List.mem_cons.mp holder with rfl | holder
      · exact Nat.le_refl _
      · rw [hheight]
        exact hle older holder hzero
    · rcases List.mem_cons.mp holder with rfl | holder
      · exact absurd hlt (Nat.lt_asymm (hnext younger hyounger))
      · exact h.height_mono older (hmemRest older holder) younger (hmemRest younger hyounger)
          hzero hzero' hlt
  · -- The span of the second tree is counted twice and that of the first one, which is at least
    -- the old base's, is given up.
    have hspan := h.span_lt
    have hpow : 2 ^ base <= 2 ^ first.tree.height :=
      Nat.pow_le_pow_right Nat.two_pos (h.le_height first hmemFirst hfirst)
    simp only [List.map_cons, List.sum_cons, Candidate.span_of_weight_eq_zero hfirst,
      Candidate.span_of_weight_eq_zero hsecond, Candidate.span_of_weight_eq_zero hweight,
      hheight, Nat.pow_succ] at hspan ⊢
    omega

theorem Level.join_heavy (h : Level low base (first :: second :: rest))
    (hsecond : second.weight ≠ 0) : Level low base (Candidate.join next first second :: rest) := by
  have hweight : (Candidate.join next first second).weight ≠ 0 := by
    show first.weight + second.weight ≠ 0
    omega
  have hold : forall candidate, candidate ∈ Candidate.join next first second :: rest ->
      candidate.weight = 0 -> candidate ∈ first :: second :: rest := by
    intro candidate hmem hzero
    rcases List.mem_cons.mp hmem with rfl | hmem
    · exact absurd hzero hweight
    · exact List.mem_cons_of_mem _ (List.mem_cons_of_mem _ hmem)
  constructor
  · intro candidate hmem hzero
    exact h.le_height candidate (hold candidate hmem hzero) hzero
  · intro candidate hmem hzero
    exact h.height_le candidate (hold candidate hmem hzero) hzero
  · intro older holder younger hyounger hzero hzero'
    exact h.height_mono older (hold older holder hzero) younger (hold younger hyounger hzero')
      hzero hzero'
  · have hspan := h.span_lt
    simp only [List.map_cons, List.sum_cons, Candidate.span_of_weight_ne_zero hweight]
      at hspan ⊢
    omega

theorem level_created (weight : α -> UInt32) {xs : List α} (h : xs.length <= 2 ^ low) :
    Level low 0 (created weight xs) := by
  have hheight : forall candidate, candidate ∈ created weight xs -> candidate.tree.height = 0 := by
    intro candidate hmem
    rcases List.mem_map.mp hmem with ⟨entry, _, rfl⟩
    rfl
  constructor
  · intro candidate _ _
    exact Nat.zero_le _
  · intro candidate hmem _
    rw [hheight candidate hmem]
    exact Nat.zero_le _
  · intro older holder younger _ _ _ _
    rw [hheight older holder]
    exact Nat.zero_le _
  · have hspan := List.sum_le_card_nsmul ((created weight xs).map Candidate.span) 1 (by
      intro span hspan
      rcases List.mem_map.mp hspan with ⟨candidate, hmem, rfl⟩
      unfold Candidate.span
      rw [hheight candidate hmem]
      split <;> simp)
    rw [List.length_map, length_created] at hspan
    rw [Nat.pow_zero]
    exact Nat.lt_succ_of_le (hspan.trans (by simpa using h))

end

/-!
## Merging a forest
-/

/-- What merging keeps: no child of a tree outweighs any tree of the forest, so that whatever is
merged next tapers. -/
structure Growing (weight : α -> Nat) (low next : Nat) (forest : List (Candidate α)) : Prop where
  weighed : Weighed weight forest
  order_lt : forall candidate, candidate ∈ forest -> candidate.order < next
  tapers : forall candidate, candidate ∈ forest -> candidate.tree.Tapers weight low
  child_le : forall candidate, candidate ∈ forest -> forall child,
    child ∈ candidate.tree.children -> forall other, other ∈ forest ->
    child.totalWeight weight <= other.weight
  level : exists base, Level low base forest

theorem growing_created (weight : α -> UInt32) {xs : List α} (h : xs.length <= 2 ^ low) :
    Growing (fun item => (weight item).toNat) low xs.length (created weight xs) := by
  refine ⟨weighed_created weight xs, fun _ => order_lt_of_mem_created, ?_, ?_, 0,
    level_created weight h⟩
  · intro candidate hmem
    rcases List.mem_map.mp hmem with ⟨entry, _, rfl⟩
    exact trivial
  · intro candidate hmem child hchild
    rcases List.mem_map.mp hmem with ⟨entry, _, rfl⟩
    cases hchild

section

variable {next : Nat} {forest others rest : List (Candidate α)} {first second : Candidate α}

theorem Growing.of_perm (h : Growing weight low next forest) (hperm : forest.Perm others) :
    Growing weight low next others := by
  rcases h.level with ⟨base, hlevel⟩
  constructor
  · exact h.weighed.of_perm hperm
  · exact fun candidate hmem => h.order_lt candidate (hperm.mem_iff.mpr hmem)
  · exact fun candidate hmem => h.tapers candidate (hperm.mem_iff.mpr hmem)
  · intro candidate hmem child hchild other hother
    exact h.child_le candidate (hperm.mem_iff.mpr hmem) child hchild other
      (hperm.mem_iff.mpr hother)
  · exact ⟨base, hlevel.of_perm hperm⟩

theorem Growing.tapers_join (h : Growing weight low next (first :: second :: rest))
    (hrank : first.rank < second.rank) :
    (Candidate.join next first second).tree.Tapers weight low := by
  have hmemFirst : first ∈ first :: second :: rest := List.mem_cons_self
  have hmemSecond : second ∈ first :: second :: rest := List.mem_cons_of_mem _ List.mem_cons_self
  refine ⟨h.tapers first hmemFirst, h.tapers second hmemSecond, ?_, ?_, ?_⟩
  · intro child hchild
    rw [← h.weighed second hmemSecond]
    exact h.child_le first hmemFirst child hchild second hmemSecond
  · intro child hchild
    rw [← h.weighed first hmemFirst]
    exact h.child_le second hmemSecond child hchild first hmemFirst
  · intro hzero
    have hsum : first.weight + second.weight = 0 :=
      (h.weighed.join next _ List.mem_cons_self).trans hzero
    have hzeroFirst : first.weight = 0 := by omega
    have hzeroSecond : second.weight = 0 := by omega
    rcases h.level with ⟨base, hlevel⟩
    have hmono := hlevel.height_mono first hmemFirst second hmemSecond hzeroFirst hzeroSecond
      (Candidate.order_lt_of_rank_lt hrank (hzeroFirst.trans hzeroSecond.symm))
    rw [height, Nat.max_eq_right hmono]
    exact hlevel.height_lt hzeroFirst hzeroSecond

theorem Growing.child_le_second (h : Growing weight low next (first :: second :: rest))
    (hrank : first.rank < second.rank) {candidate : Candidate α}
    (hmem : candidate ∈ Candidate.join next first second :: rest) {child : HuffmanTree α}
    (hchild : child ∈ candidate.tree.children) :
    child.totalWeight weight <= second.weight := by
  have hmemSecond : second ∈ first :: second :: rest := List.mem_cons_of_mem _ List.mem_cons_self
  rcases List.mem_cons.mp hmem with rfl | hmem
  · rcases List.mem_cons.mp hchild with rfl | hchild
    · rw [← h.weighed first List.mem_cons_self]
      exact Candidate.weight_le_of_rank_lt hrank
    · rcases List.mem_singleton.mp hchild with rfl
      exact Nat.le_of_eq (h.weighed second hmemSecond).symm
  · exact h.child_le candidate (List.mem_cons_of_mem _ (List.mem_cons_of_mem _ hmem)) child hchild
      second hmemSecond

theorem Growing.level_join (h : Growing weight low next (first :: second :: rest))
    (hrank : first.rank < second.rank)
    (hrest : forall other, other ∈ rest -> second.rank < other.rank) :
    exists base, Level low base (Candidate.join next first second :: rest) := by
  rcases h.level with ⟨base, hlevel⟩
  by_cases hzero : second.weight = 0
  · have hzeroFirst : first.weight = 0 :=
      Nat.eq_zero_of_le_zero (hzero ▸ Candidate.weight_le_of_rank_lt hrank)
    refine ⟨_, hlevel.join_weightless hzeroFirst hzero
      (Candidate.order_lt_of_rank_lt hrank (hzeroFirst.trans hzero.symm)) ?_ ?_⟩
    · intro other hmem hother
      exact Candidate.order_lt_of_rank_lt (hrest other hmem) (hzero.trans hother.symm)
    · intro other hmem
      exact h.order_lt other (List.mem_cons_of_mem _ (List.mem_cons_of_mem _ hmem))
  · exact ⟨base, hlevel.join_heavy hzero⟩

theorem Growing.join (h : Growing weight low next (first :: second :: rest))
    (hrank : first.rank < second.rank)
    (hrest : forall other, other ∈ rest -> second.rank < other.rank) :
    Growing weight low (next + 1) (Candidate.join next first second :: rest) := by
  have hmemRest : forall other, other ∈ rest -> other ∈ first :: second :: rest :=
    fun other hmem => List.mem_cons_of_mem _ (List.mem_cons_of_mem _ hmem)
  refine ⟨h.weighed.join next, fun _ => order_lt_join h.order_lt, ?_, ?_,
    h.level_join hrank hrest⟩
  · intro candidate hmem
    rcases List.mem_cons.mp hmem with rfl | hmem
    · exact h.tapers_join hrank
    · exact h.tapers candidate (hmemRest candidate hmem)
  · intro candidate hmem child hchild other hother
    refine (h.child_le_second hrank hmem hchild).trans ?_
    rcases List.mem_cons.mp hother with rfl | hother
    · exact Nat.le_add_left _ _
    · exact Candidate.weight_le_of_rank_lt (hrest other hother)

end

theorem Merges.tapers {next : Nat} {forest : List (Candidate α)} {tree : HuffmanTree α}
    (h : Merges next forest tree) (hgrowing : Growing weight low next forest) :
    tree.Tapers weight low := by
  -- Along the merging, with the invariant of the forest; in the end it is about the one tree.
  induction h with
  | last next last => exact hgrowing.tapers last (List.mem_singleton_self last)
  | step next forest others rest first second tree hfirst hsecond _ ih =>
      have hgrowing := hgrowing.of_perm (hfirst.perm_pair hsecond)
      exact ih (hgrowing.join (hfirst.pair_lt hsecond) hsecond.lt)

end HuffmanTree

open HuffmanTree

theorem HuffmanTree.totalWeight_of_ofItems? {weight : α -> UInt32} {xs : List α}
    {tree : HuffmanTree α} (h : ofItems? weight xs = some tree) :
    tree.totalWeight (fun item => (weight item).toNat) =
      (xs.map (fun item => (weight item).toNat)).sum :=
  ((items_of_ofItems? h).map _).sum_eq

/-- The height of a Huffman tree is bounded by the number of its items together with their weight. -/
theorem HuffmanTree.height_lt_of_ofItems? {weight : α -> UInt32} {xs : List α}
    {tree : HuffmanTree α} (h : ofItems? weight xs = some tree) {low k : Nat}
    (hlength : xs.length <= 2 ^ low)
    (hweight : (xs.map (fun item => (weight item).toNat)).sum < Nat.fib k) :
    tree.height < low + k := by
  apply ((merges_of_ofItems? h).tapers (growing_created weight hlength)).height_lt
  rwa [totalWeight_of_ofItems? h]

theorem sum_toNat_le (weight : α -> UInt32) {xs : List α} (hlength : xs.length <= 2 ^ 32) :
    (xs.map (fun item => (weight item).toNat)).sum <= 2 ^ 32 * (2 ^ 32 - 1) := by
  have hweight := List.sum_le_card_nsmul (xs.map (fun item => (weight item).toNat)) (2 ^ 32 - 1)
    (by
      intro share hshare
      rcases List.mem_map.mp hshare with ⟨item, _, rfl⟩
      exact Nat.le_pred_of_lt (weight item).toNat_lt)
  rw [List.length_map, smul_eq_mul] at hweight
  exact hweight.trans (Nat.mul_le_mul_right _ hlength)

theorem HuffmanTree.height_le_maxDepth {weight : α -> UInt32} {xs : List α}
    {tree : HuffmanTree α} (h : ofItems? weight xs = some tree) (hlength : xs.length <= 2 ^ 32) :
    tree.height <= maxDepth := by
  have hfib : 2 ^ 32 * (2 ^ 32 - 1) < Nat.fib 94 := by norm_num
  have hheight := height_lt_of_ofItems? h hlength
    ((sum_toNat_le weight hlength).trans_lt hfib)
  unfold maxDepth
  omega

theorem HuffmanTree.exists_ofItems?_le_maxDepth (weight : α -> UInt32) {xs : List α}
    (hne : xs ≠ []) (hlength : xs.length <= 2 ^ 32) :
    exists tree, ofItems? weight xs = some tree ∧ tree.height <= maxDepth := by
  rcases exists_ofItems? weight hne with ⟨tree, htree⟩
  exact ⟨tree, htree, height_le_maxDepth htree hlength⟩

end Cosigning
