import Mathlib.Algebra.Order.BigOperators.Group.List
import Mathlib.Algebra.Order.Field.Rat
import Mathlib.Tactic.Linarith
import Mathlib.Tactic.LinearCombination
import Mathlib.Tactic.Positivity
import Mathlib.Tactic.Ring

/-!
# Depths that leave room for each other

Depths can be those of the leaves of a binary tree as long as the halves that they stand for add
up to at most one.  If they do, the two lightest items may as well be siblings at the bottom: moving
them there leaves room and adds no weighted depth.
-/

namespace Cosigning

/-!
## Kraft sums
-/

/-- How much of a binary tree is taken up by leaves of the given depths. -/
def kraftSum (depths : List Nat) : ℚ :=
  (depths.map (fun depth => (1 / 2 : ℚ) ^ depth)).sum

theorem kraftSum_cons (depth : Nat) (depths : List Nat) :
    kraftSum (depth :: depths) = (1 / 2) ^ depth + kraftSum depths := by
  rw [kraftSum, List.map_cons, List.sum_cons]
  rfl

theorem kraftSum_append (depths others : List Nat) :
    kraftSum (depths ++ others) = kraftSum depths + kraftSum others := by
  rw [kraftSum, List.map_append, List.sum_append]
  rfl

theorem kraftSum_perm {depths others : List Nat} (h : depths.Perm others) :
    kraftSum depths = kraftSum others :=
  (h.map _).sum_eq

theorem kraftSum_nonneg (depths : List Nat) : 0 <= kraftSum depths := by
  apply List.sum_nonneg
  intro share hshare
  rcases List.mem_map.mp hshare with ⟨depth, _, rfl⟩
  positivity

theorem exists_kraftSum_eq {depths : List Nat} {limit : Nat}
    (h : forall depth, depth ∈ depths -> depth <= limit) :
    exists count : Nat, kraftSum depths = count * (1 / 2) ^ limit := by
  induction depths with
  | nil => exact ⟨0, by simp [kraftSum]⟩
  | cons depth rest ih =>
      rcases ih (fun other hother => h other (List.mem_cons_of_mem depth hother)) with
        ⟨count, hcount⟩
      rcases Nat.exists_eq_add_of_le (h depth List.mem_cons_self) with ⟨further, rfl⟩
      refine ⟨2 ^ further + count, ?_⟩
      have hshare : (2 : ℚ) ^ further * (1 / 2) ^ further = 1 := by
        rw [← mul_pow]
        norm_num
      rw [kraftSum_cons, hcount, pow_add]
      push_cast
      linear_combination (-(1 / 2 : ℚ) ^ depth) * hshare

theorem kraftSum_raise {depths : List Nat} {deepest depth : Nat}
    (h : forall other, other ∈ depths -> other <= depth)
    (hroom : kraftSum (deepest :: depths) <= 1) : kraftSum (depth :: depths) <= 1 := by
  rcases exists_kraftSum_eq h with ⟨count, hcount⟩
  have hunit : (2 : ℚ) ^ depth * (1 / 2) ^ depth = 1 := by
    rw [← mul_pow]
    norm_num
  have hpos : (0 : ℚ) < (1 / 2) ^ depth := by positivity
  have hdeepest : (0 : ℚ) < (1 / 2) ^ deepest := by positivity
  rw [kraftSum_cons, hcount] at hroom ⊢
  -- The others leave less than everything, so at least one step of the limit's share is free.
  have hless : (count : ℚ) < 2 ^ depth := by
    by_contra hge
    have hmul := mul_le_mul_of_nonneg_right (not_lt.mp hge) hpos.le
    linarith
  have hstep : (count : ℚ) + 1 <= 2 ^ depth := by
    exact_mod_cast hless
  have hmul := mul_le_mul_of_nonneg_right hstep hpos.le
  linarith

theorem kraftSum_siblings (parent : Nat) (depths : List Nat) :
    kraftSum ((parent + 1) :: (parent + 1) :: depths) = kraftSum (parent :: depths) := by
  rw [kraftSum_cons, kraftSum_cons, kraftSum_cons, pow_succ]
  ring

theorem exists_parent {depths : List Nat} {deepest depth : Nat}
    (h : forall other, other ∈ depths -> other <= depth)
    (hroom : kraftSum (deepest :: depth :: depths) <= 1) :
    exists parent, depth = parent + 1 ∧ kraftSum (parent :: depths) <= 1 := by
  have hmem : forall other, other ∈ depth :: depths -> other <= depth := by
    intro other hother
    rcases List.mem_cons.mp hother with rfl | hother
    · exact Nat.le_refl _
    · exact h other hother
  have hraised := kraftSum_raise hmem hroom
  cases depth with
  | zero =>
      have hnonneg := kraftSum_nonneg depths
      rw [kraftSum_cons, kraftSum_cons, pow_zero] at hraised
      linarith
  | succ parent =>
      rw [kraftSum_siblings] at hraised
      exact ⟨parent, rfl, hraised⟩

/-!
## Weighted depths
-/

section

variable {α : Type}

def weightedDepth (weight : α -> Nat) (placed : List (α × Nat)) : Nat :=
  (placed.map (fun entry => weight entry.1 * entry.2)).sum

theorem weightedDepth_cons (weight : α -> Nat) (item : α) (depth : Nat)
    (placed : List (α × Nat)) :
    weightedDepth weight ((item, depth) :: placed) =
      weight item * depth + weightedDepth weight placed := by
  rw [weightedDepth, List.map_cons, List.sum_cons]
  rfl

theorem weightedDepth_append (weight : α -> Nat) (placed others : List (α × Nat)) :
    weightedDepth weight (placed ++ others) =
      weightedDepth weight placed + weightedDepth weight others := by
  rw [weightedDepth, List.map_append, List.sum_append]
  rfl

theorem weightedDepth_perm (weight : α -> Nat) {placed others : List (α × Nat)}
    (h : placed.Perm others) : weightedDepth weight placed = weightedDepth weight others :=
  (h.map _).sum_eq

variable {weight : α -> Nat}

theorem exchange_le {light heavy : Nat} (h : light <= heavy) (depth other : Nat) :
    light * max depth other + heavy * min depth other <= light * depth + heavy * other := by
  rcases Nat.le_total depth other with hle | hle
  · rw [Nat.max_eq_right hle, Nat.min_eq_left hle]
    nlinarith
  · rw [Nat.max_eq_left hle, Nat.min_eq_right hle]

theorem exists_deepest {item : α} {placed : List (α × Nat)}
    (h : forall entry, entry ∈ placed -> weight item <= weight entry.1) (depth : Nat) :
    exists (deepest : Nat) (others : List (α × Nat)),
      others.map Prod.fst = placed.map Prod.fst ∧
        (deepest :: others.map Prod.snd).Perm (depth :: placed.map Prod.snd) ∧
        (forall entry, entry ∈ others -> entry.2 <= deepest) ∧
        weightedDepth weight ((item, deepest) :: others) <=
          weightedDepth weight ((item, depth) :: placed) := by
  induction placed generalizing depth with
  | nil => exact ⟨depth, [], rfl, List.Perm.refl _, by simp, Nat.le_refl _⟩
  | cons entry rest ih =>
      rcases entry with ⟨heavy, other⟩
      -- The item takes the greater of the two depths along and leaves the other one behind.
      rcases ih (fun entry hentry => h entry (List.mem_cons_of_mem _ hentry)) (max depth other) with
        ⟨deepest, others, hitems, hdepths, hle, hcost⟩
      have hmax : max depth other <= deepest := by
        rcases List.mem_cons.mp (hdepths.mem_iff.mpr List.mem_cons_self) with heq | hmem
        · exact Nat.le_of_eq heq
        · rcases List.mem_map.mp hmem with ⟨entry, hentry, heq⟩
          exact heq ▸ hle entry hentry
      have hswap : [max depth other, min depth other].Perm [depth, other] := by
        rcases Nat.le_total depth other with horder | horder
        · rw [Nat.max_eq_right horder, Nat.min_eq_left horder]
          exact List.Perm.swap _ _ _
        · rw [Nat.max_eq_left horder, Nat.min_eq_right horder]
      refine ⟨deepest, (heavy, min depth other) :: others, ?_, ?_, ?_, ?_⟩
      · rw [List.map_cons, List.map_cons, hitems]
      · rw [List.map_cons, List.map_cons]
        refine (List.Perm.swap _ _ _).trans ((hdepths.cons _).trans ?_)
        exact (List.Perm.swap _ _ _).trans (hswap.append_right (rest.map Prod.snd))
      · intro entry hentry
        rcases List.mem_cons.mp hentry with rfl | hentry
        · exact Nat.le_trans (Nat.le_trans (Nat.min_le_left _ _) (Nat.le_max_left _ _)) hmax
        · exact hle entry hentry
      · have hexchange := exchange_le (h _ List.mem_cons_self) depth other
        simp only [weightedDepth_cons] at hcost hexchange ⊢
        omega

/-- The two lightest items may be siblings below all others. -/
theorem exists_siblings {first second : α} {depth other : Nat} {placed : List (α × Nat)}
    (hfirst : weight first <= weight second)
    (hsecond : forall entry, entry ∈ placed -> weight second <= weight entry.1)
    (hroom : kraftSum (depth :: other :: placed.map Prod.snd) <= 1) :
    exists (parent : Nat) (others : List (α × Nat)),
      others.map Prod.fst = placed.map Prod.fst ∧
        kraftSum (parent :: others.map Prod.snd) <= 1 ∧
        weightedDepth weight ((first, parent + 1) :: (second, parent + 1) :: others) <=
          weightedDepth weight ((first, depth) :: (second, other) :: placed) := by
  have hlightest : forall entry, entry ∈ (second, other) :: placed ->
      weight first <= weight entry.1 := by
    intro entry hentry
    rcases List.mem_cons.mp hentry with rfl | hentry
    · exact hfirst
    · exact Nat.le_trans hfirst (hsecond entry hentry)
  -- The lightest item is put at the greatest depth, and the next one at the greatest that is left.
  rcases exists_deepest hlightest depth with
    ⟨deepest, around, hitems, hdepths, hle, hcost⟩
  rcases List.map_eq_cons_iff.mp hitems with ⟨⟨_, beside⟩, below, rfl, hsame, hbelow⟩
  rcases hsame.symm with rfl
  have hheavier : forall entry, entry ∈ below -> weight second <= weight entry.1 := by
    intro entry hentry
    have hmem := List.mem_map_of_mem (f := Prod.fst) hentry
    rw [hbelow] at hmem
    rcases List.mem_map.mp hmem with ⟨old, hold, heq⟩
    rw [← heq]
    exact hsecond old hold
  rcases exists_deepest hheavier beside with
    ⟨level, others, hothers, hlevels, hbelowLevel, hcost'⟩
  have hroom' : kraftSum (deepest :: level :: others.map Prod.snd) <= 1 := by
    rw [kraftSum_perm ((hlevels.cons deepest).trans hdepths)]
    exact hroom
  have hlimit : forall entry, entry ∈ others.map Prod.snd -> entry <= level := by
    intro entry hentry
    rcases List.mem_map.mp hentry with ⟨placed, hplaced, rfl⟩
    exact hbelowLevel placed hplaced
  have hdeeper : level <= deepest := by
    rcases List.mem_cons.mp (hlevels.mem_iff.mp List.mem_cons_self) with heq | hmem
    · rw [heq]
      exact hle _ List.mem_cons_self
    · rcases List.mem_map.mp hmem with ⟨entry, hentry, rfl⟩
      exact hle _ (List.mem_cons_of_mem _ hentry)
  rcases exists_parent hlimit hroom' with ⟨parent, rfl, hparent⟩
  refine ⟨parent, others, hothers.trans hbelow, hparent, ?_⟩
  have hless := Nat.mul_le_mul_left (weight first) hdeeper
  simp only [weightedDepth_cons] at hcost hcost' ⊢
  omega

end

end Cosigning
