import Cosigning.Proofs.Policy.Quorums
import Mathlib.Algebra.Order.BigOperators.Group.List
import Mathlib.Algebra.Order.Ring.Nat

/-!
# Sharing one hundred among the leaves

A total is shared out in whole units.  Each share is the whole part, and the units that remain are
dropped, or go one by one to the first shares.  The second way loses nothing, and it is the only
one to do so with shares that never grow from one to the next and are at most one unit apart.
-/

namespace Cosigning

/-- A total shared out to the last unit, as evenly as in whole units it can be, the larger shares
first. -/
structure SharesEvenly (total count : Nat) (shares : List Nat) : Prop where
  length_eq : shares.length = count
  sum_eq : shares.sum = total
  descending : shares.Pairwise (fun earlier later => later <= earlier)
  within_one : forall share, share ∈ shares -> forall other, other ∈ shares -> share <= other + 1

/-- A total shared out in equal parts, without the units that are left over. -/
structure SharesEqually (total count : Nat) (shares : List Nat) : Prop where
  length_eq : shares.length = count
  equal : forall share, share ∈ shares -> forall other, other ∈ shares -> share = other
  sum_eq : shares.sum = total - total % count
  eq_zero_iff : (forall share, share ∈ shares -> share = 0) <-> total < count

/-- The share at an index, if the units that remain go one by one to the first shares. -/
def evenShare (total count index : Nat) : Nat :=
  total / count + if index < total % count then 1 else 0

/-!
## Even shares
-/

theorem evenShare_eq_or (total count index : Nat) :
    evenShare total count index = total / count ∨
      evenShare total count index = total / count + 1 := by
  unfold evenShare
  split
  · exact Or.inr rfl
  · exact Or.inl rfl

theorem evenShare_antitone (total count : Nat) : Antitone (evenShare total count) := by
  intro earlier later hle
  unfold evenShare
  split
  · rename_i hlater
    rw [if_pos (Nat.lt_of_le_of_lt hle hlater)]
  · exact Nat.le_add_right _ _

theorem sum_evenShare_range (total count taken : Nat) :
    ((List.range taken).map (evenShare total count)).sum =
      taken * (total / count) + min taken (total % count) := by
  induction taken with
  | zero => simp
  | succ taken ih =>
      rw [List.sum_range_succ, ih, evenShare, Nat.succ_mul]
      split <;> omega

theorem sharesEvenly_evenShare (total : Nat) {count : Nat} (hpos : 1 <= count) :
    SharesEvenly total count ((List.range count).map (evenShare total count)) where
  length_eq := by
    rw [List.length_map, List.length_range]
  sum_eq := by
    rw [sum_evenShare_range, Nat.min_eq_right (Nat.mod_lt total hpos).le, Nat.div_add_mod]
  descending :=
    List.pairwise_map.mpr (List.pairwise_lt_range.imp
      (fun hlt => evenShare_antitone total count hlt.le))
  within_one := by
    intro share hshare other hother
    rcases List.mem_map.mp hshare with ⟨i, _, rfl⟩
    rcases List.mem_map.mp hother with ⟨j, _, rfl⟩
    have hi := evenShare_eq_or total count i
    have hj := evenShare_eq_or total count j
    omega

section

variable {total count : Nat} {shares others : List Nat}

theorem SharesEvenly.forall₂_le (h : SharesEvenly total count shares)
    (hothers : SharesEvenly total count others) {i : Nat} {hi : i < shares.length}
    {hi' : i < others.length} (hless : shares[i] < others[i]) :
    List.Forall₂ (fun share other => share <= other) shares others := by
  refine List.forall₂_iff_get.mpr ⟨h.length_eq.trans hothers.length_eq.symm, ?_⟩
  intro j hj hj'
  show shares[j] <= others[j]
  have hshares := List.pairwise_iff_getElem.mp h.descending
  have hbefore := List.pairwise_iff_getElem.mp hothers.descending
  rcases Nat.lt_trichotomy i j with hlt | rfl | hlt
  · -- Later shares are no larger, and the others lose at most the unit they are ahead.
    have hle := hshares i j hi hj hlt
    have hunit := hothers.within_one _ (List.getElem_mem hi') _ (List.getElem_mem hj')
    omega
  · exact hless.le
  · have hle := hbefore j i hj' hi' hlt
    have hunit := h.within_one _ (List.getElem_mem hj) _ (List.getElem_mem hi)
    omega

theorem eq_of_forall₂_le_of_sum_le
    (h : List.Forall₂ (fun share other => share <= other) shares others)
    (hsum : others.sum <= shares.sum) : shares = others := by
  induction h with
  | nil => rfl
  | @cons share other shares others hle hrest ih =>
      have hsums : shares.sum <= others.sum := List.Forall₂.sum_le_sum hrest
      rw [List.sum_cons, List.sum_cons] at hsum
      have hfirst : share = other := by
        omega
      have hothers : others.sum <= shares.sum := by
        omega
      rw [hfirst, ih hothers]

theorem SharesEvenly.unique (h : SharesEvenly total count shares)
    (hothers : SharesEvenly total count others) : shares = others := by
  have hlength : shares.length = others.length := h.length_eq.trans hothers.length_eq.symm
  have hsum : shares.sum = others.sum := h.sum_eq.trans hothers.sum_eq.symm
  refine List.ext_getElem hlength ?_
  intro i hi hi'
  rcases Nat.lt_trichotomy shares[i] others[i] with hless | heq | hmore
  · exact List.getElem_of_eq
      (eq_of_forall₂_le_of_sum_le (h.forall₂_le hothers hless) hsum.ge) hi
  · exact heq
  · exact List.getElem_of_eq
      (eq_of_forall₂_le_of_sum_le (hothers.forall₂_le h hmore) hsum.le).symm hi

end

/-!
## Equal shares
-/

theorem sharesEqually_replicate (total : Nat) {count : Nat} (hpos : 1 <= count) :
    SharesEqually total count (List.replicate count (total / count)) where
  length_eq := List.length_replicate
  equal := by
    intro share hshare other hother
    rw [List.eq_of_mem_replicate hshare, List.eq_of_mem_replicate hother]
  sum_eq := by
    rw [List.sum_replicate_nat, Nat.mul_div_self_eq_mod_sub_self]
  eq_zero_iff := by
    rw [List.forall_mem_replicate]
    have hne : count ≠ 0 := Nat.ne_of_gt hpos
    simp [hne]

/-!
## The named weightings
-/

namespace Weighting

theorem toNat_weight_floorPercent (index count : Nat) :
    (floorPercent.weight index count).toNat = 100 / count :=
  UInt32.toNat_ofNat_of_lt' ((Nat.div_le_self 100 count).trans_lt (by decide))

theorem toNat_weight_spreadPercent (index : Nat) {count : Nat} (hpos : 1 <= count) :
    (spreadPercent.weight index count).toNat = evenShare 100 count index := by
  have hne : count ≠ 0 := Nat.ne_of_gt hpos
  have hpart := Nat.div_le_self 100 count
  have hshare := evenShare_eq_or 100 count index
  have hle : evenShare 100 count index <= 101 := by
    omega
  rw [weight, if_neg hne]
  exact UInt32.toNat_ofNat_of_lt' (hle.trans_lt (by decide))

theorem map_toNat_weights_floorPercent (count : Nat) :
    (floorPercent.weight.weights count).map UInt32.toNat = List.replicate count (100 / count) := by
  rw [WeightRule.weights, List.map_map, List.eq_replicate_iff]
  refine ⟨by rw [List.length_map, List.length_range], ?_⟩
  intro share hshare
  rcases List.mem_map.mp hshare with ⟨index, _, rfl⟩
  exact toNat_weight_floorPercent index count

theorem map_toNat_weights_spreadPercent {count : Nat} (hpos : 1 <= count) :
    (spreadPercent.weight.weights count).map UInt32.toNat =
      (List.range count).map (evenShare 100 count) := by
  rw [WeightRule.weights, List.map_map]
  exact List.map_congr_left (fun index _ => toNat_weight_spreadPercent index hpos)

end Weighting

/-- One weighting shares one hundred out evenly to the last unit, and no other weights do.  The
other weighting shares it out equally and drops what remains.  An even share is the equal one or a
unit more. -/
theorem hundred_shared_out {count : Nat} (hpos : 1 <= count) :
    SharesEvenly 100 count ((Weighting.spreadPercent.weight.weights count).map UInt32.toNat) ∧
    (forall weights : List UInt32, SharesEvenly 100 count (weights.map UInt32.toNat) ->
      weights = Weighting.spreadPercent.weight.weights count) ∧
    SharesEqually 100 count ((Weighting.floorPercent.weight.weights count).map UInt32.toNat) ∧
    List.Forall₂ (fun whole share => share.toNat = whole.toNat ∨ share.toNat = whole.toNat + 1)
      (Weighting.floorPercent.weight.weights count)
      (Weighting.spreadPercent.weight.weights count) := by
  have heven :
      SharesEvenly 100 count ((Weighting.spreadPercent.weight.weights count).map UInt32.toNat) := by
    rw [Weighting.map_toNat_weights_spreadPercent hpos]
    exact sharesEvenly_evenShare 100 hpos
  refine ⟨heven, ?_, ?_, ?_⟩
  · intro weights hweights
    exact List.map_injective_iff.mpr (fun _ _ => UInt32.toNat_inj.mp) (hweights.unique heven)
  · rw [Weighting.map_toNat_weights_floorPercent]
    exact sharesEqually_replicate 100 hpos
  · rw [WeightRule.weights, WeightRule.weights, List.forall₂_map_left_iff,
      List.forall₂_map_right_iff, List.forall₂_same]
    intro index _
    rw [Weighting.toNat_weight_floorPercent, Weighting.toNat_weight_spreadPercent index hpos]
    exact evenShare_eq_or 100 count index

theorem hundred_shared_out_manyLeaves :
    Weighting.spreadPercent.weight.weights 120 = List.replicate 100 1 ++ List.replicate 20 0 ∧
      SharesEvenly 100 120 (List.replicate 100 1 ++ List.replicate 20 0) ∧
      (forall share, share ∈ (Weighting.floorPercent.weight.weights 120).map UInt32.toNat ->
        share = 0) := by
  have hpos : 1 <= 120 := by
    decide
  have hweights : Weighting.spreadPercent.weight.weights 120 =
      List.replicate 100 1 ++ List.replicate 20 0 := by
    decide
  rcases hundred_shared_out hpos with ⟨heven, _, hequal, _⟩
  rw [hweights] at heven
  exact ⟨hweights, heven, hequal.eq_zero_iff.mpr (by decide)⟩

end Cosigning
