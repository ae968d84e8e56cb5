import Cosigning.Proofs.Policy.Narrowing
import Mathlib.Data.Fintype.Card

/-!
# Counting the leaves of a group of signers

Over leaves that come from no policy, several may fit one group of signers.  The
search finds a leaf exactly when one place holds a fitting leaf, and otherwise
reports how many places do.  A search that takes the signers in turn and stops
once no leaf is left reports the same.
-/

namespace Cosigning

variable {P : Type} [Ciphersuite P]

/-!
## Stopping early
-/

def remaining? : List (Leaf P) -> List (XOnlyKey P) -> Option (List (Leaf P))
  | leaves, [] => some leaves
  | leaves, key :: rest =>
      let candidates := leavesRequiring leaves key
      if candidates.isEmpty then none else remaining? candidates rest

/-- The search for a leaf, stopped by the first signer that no remaining leaf requires. -/
def narrowInTurn (leaves : List (Leaf P)) (signers : List (XOnlyKey P)) :
    Except PolicyError (Leaf P) :=
  let names := signers.map XOnlyKey.bytes
  if signers.isEmpty then .error (.noUniqueLeaf names 0)
  else
    match remaining? leaves signers with
    | none => .error (.noUniqueLeaf names 0)
    | some candidates =>
        match candidates.filter (fun leaf =>
          leaf.requiredKeys.all (fun key => signers.contains key)) with
        | [leaf] => .ok leaf
        | survivors => .error (.noUniqueLeaf names survivors.length)

theorem leavesRequiringAll_nil (signers : List (XOnlyKey P)) :
    leavesRequiringAll [] signers = [] := by
  rw [leavesRequiringAll_eq_filter, List.filter_nil]

theorem leavesRequiringAll_cons (leaves : List (Leaf P)) (key : XOnlyKey P)
    (rest : List (XOnlyKey P)) :
    leavesRequiringAll leaves (key :: rest) =
      leavesRequiringAll (leavesRequiring leaves key) rest :=
  rfl

theorem getD_remaining? (leaves : List (Leaf P)) (signers : List (XOnlyKey P)) :
    (remaining? leaves signers).getD [] = leavesRequiringAll leaves signers := by
  induction signers generalizing leaves with
  | nil => rfl
  | cons key rest ih =>
      rw [remaining?, leavesRequiringAll_cons]
      cases hcandidates : leavesRequiring leaves key with
      | nil => exact (leavesRequiringAll_nil rest).symm
      | cons leaf others => exact ih (leaf :: others)

theorem narrowInTurn_eq (leaves : List (Leaf P)) (signers : List (XOnlyKey P)) :
    narrowInTurn leaves signers = narrowToLeaf leaves signers := by
  have hremaining := getD_remaining? leaves signers
  unfold narrowInTurn narrowToLeaf leavesMatching
  rw [← hremaining]
  cases remaining? leaves signers <;> rfl

/-!
## The places of the fitting leaves
-/

def matchingPlaces (leaves : List (Leaf P)) (signers : List (XOnlyKey P)) :
    Finset (Fin leaves.length) :=
  Finset.univ.filter (fun place =>
    (leaves.get place).requiredKeys.toFinset = signers.toFinset)

theorem mem_matchingPlaces {leaves : List (Leaf P)} {signers : List (XOnlyKey P)}
    {place : Fin leaves.length} :
    place ∈ matchingPlaces leaves signers <->
      (leaves.get place).requiresExactly signers := by
  simp [matchingPlaces, Leaf.requiresExactly, Finset.ext_iff]

theorem matchingPlaces_congr (leaves : List (Leaf P)) {signers others : List (XOnlyKey P)}
    (h : others.toFinset = signers.toFinset) :
    matchingPlaces leaves others = matchingPlaces leaves signers := by
  unfold matchingPlaces
  rw [h]

theorem leavesMatching_eq_map (leaves : List (Leaf P)) (signers : List (XOnlyKey P)) :
    leavesMatching leaves signers =
      ((List.finRange leaves.length).filter (fun place =>
        decide (place ∈ matchingPlaces leaves signers))).map leaves.get := by
  unfold leavesMatching
  rw [leavesRequiringAll_eq_filter, List.filter_filter]
  conv => lhs; rw [← List.map_get_finRange leaves]
  rw [List.filter_map]
  congr 1
  apply List.filter_congr
  intro place _
  rw [Bool.eq_iff_iff, decide_eq_true_iff, mem_matchingPlaces, Leaf.requiresExactly_iff_subset,
    Function.comp_apply, Bool.and_eq_true]

theorem card_matchingPlaces (leaves : List (Leaf P)) (signers : List (XOnlyKey P)) :
    (matchingPlaces leaves signers).card = (leavesMatching leaves signers).length := by
  rw [leavesMatching_eq_map, List.length_map,
    ← List.toFinset_card_of_nodup ((List.nodup_finRange _).filter _)]
  congr 1
  ext place
  simp

theorem mem_leavesMatching_iff_place {leaves : List (Leaf P)} {signers : List (XOnlyKey P)}
    {leaf : Leaf P} :
    leaf ∈ leavesMatching leaves signers <->
      exists place, place ∈ matchingPlaces leaves signers ∧ leaves.get place = leaf := by
  simp [leavesMatching_eq_map]

/-!
## Finding a leaf
-/

theorem narrowToLeaf_eq_ok_iff {leaves : List (Leaf P)} {signers : List (XOnlyKey P)}
    (hsigners : signers ≠ []) {leaf : Leaf P} :
    narrowToLeaf leaves signers = .ok leaf <->
      (matchingPlaces leaves signers).card = 1 ∧
        exists place, place ∈ matchingPlaces leaves signers ∧ leaves.get place = leaf := by
  rw [card_matchingPlaces, ← mem_leavesMatching_iff_place]
  constructor
  · intro h
    rw [leavesMatching_of_narrowToLeaf h]
    exact ⟨rfl, List.mem_singleton_self leaf⟩
  · intro h
    rcases h with ⟨hlength, hmem⟩
    rcases List.length_eq_one_iff.mp hlength with ⟨found, hfound⟩
    rw [hfound, List.mem_singleton] at hmem
    rw [hmem]
    exact narrowToLeaf_of_leavesMatching_singleton hsigners hfound

theorem narrowToLeaf_of_card_ne_one {leaves : List (Leaf P)} {signers : List (XOnlyKey P)}
    (hsigners : signers ≠ []) (h : (matchingPlaces leaves signers).card ≠ 1) :
    narrowToLeaf leaves signers =
      .error (.noUniqueLeaf (signers.map XOnlyKey.bytes)
        (matchingPlaces leaves signers).card) := by
  rw [card_matchingPlaces] at h ⊢
  unfold narrowToLeaf
  rw [if_neg (by simpa using hsigners)]
  split
  · rename_i found hfound
    exact absurd (by rw [hfound, List.length_singleton]) h
  · rfl

theorem narrowToLeaf_eq_error_iff {leaves : List (Leaf P)} {signers : List (XOnlyKey P)}
    (hsigners : signers ≠ []) {cause : PolicyError} :
    narrowToLeaf leaves signers = .error cause <->
      (matchingPlaces leaves signers).card ≠ 1 ∧
        cause = .noUniqueLeaf (signers.map XOnlyKey.bytes)
          (matchingPlaces leaves signers).card := by
  by_cases hone : (matchingPlaces leaves signers).card = 1
  · rcases Finset.card_eq_one.mp hone with ⟨place, hplace⟩
    have hok : narrowToLeaf leaves signers = .ok (leaves.get place) :=
      (narrowToLeaf_eq_ok_iff hsigners).mpr
        ⟨hone, place, by rw [hplace]; exact Finset.mem_singleton_self place, rfl⟩
    simp [hok, hone]
  · rw [narrowToLeaf_of_card_ne_one hsigners hone]
    simp [hone, eq_comm]

/-- The search for the leaf of some signers, which may stop early, finds a leaf exactly when it is
at the one place of a leaf that requires the set of the signers, and otherwise fails with the
number of such places.  Other lists of the same signers find the same leaf or count the same
places. -/
theorem narrowToLeaf_counts {leaves : List (Leaf P)} {signers : List (XOnlyKey P)}
    (hsigners : signers ≠ []) :
    narrowInTurn leaves signers = narrowToLeaf leaves signers ∧
    (forall leaf, narrowToLeaf leaves signers = .ok leaf <->
      (matchingPlaces leaves signers).card = 1 ∧
        exists place, place ∈ matchingPlaces leaves signers ∧ leaves.get place = leaf) ∧
    (forall cause, narrowToLeaf leaves signers = .error cause <->
      (matchingPlaces leaves signers).card ≠ 1 ∧
        cause = .noUniqueLeaf (signers.map XOnlyKey.bytes)
          (matchingPlaces leaves signers).card) ∧
    forall others : List (XOnlyKey P), others.toFinset = signers.toFinset ->
      (forall leaf, narrowToLeaf leaves others = .ok leaf <->
        narrowToLeaf leaves signers = .ok leaf) ∧
      forall count,
        narrowToLeaf leaves others =
            .error (.noUniqueLeaf (others.map XOnlyKey.bytes) count) <->
          narrowToLeaf leaves signers =
            .error (.noUniqueLeaf (signers.map XOnlyKey.bytes) count) := by
  refine ⟨narrowInTurn_eq leaves signers, fun leaf => narrowToLeaf_eq_ok_iff hsigners,
    fun cause => narrowToLeaf_eq_error_iff hsigners, ?_⟩
  intro others hsame
  have hothers : others ≠ [] := by
    rw [← List.toFinset_nonempty_iff] at hsigners ⊢
    rwa [hsame]
  have hplaces := matchingPlaces_congr leaves hsame
  constructor
  · intro leaf
    rw [narrowToLeaf_eq_ok_iff hothers, narrowToLeaf_eq_ok_iff hsigners, hplaces]
  · intro count
    rw [narrowToLeaf_eq_error_iff hothers, narrowToLeaf_eq_error_iff hsigners, hplaces]
    simp

def repeatingLeaves : List (Leaf Secp256k1.Point) :=
  [{ weight := 1, requiredKeys := threeKeys.take 2 ++ threeKeys.take 1, script := []
     kind := .multi },
   { weight := 1, requiredKeys := threeKeys.drop 1, script := [], kind := .multi },
   { weight := 2, requiredKeys := (threeKeys.drop 1).reverse, script := []
     kind := .musig (threeKeys.head (by decide)) }]

theorem narrowToLeaf_counts_repeatingLeaves :
    narrowToLeaf repeatingLeaves (threeKeys.take 2).reverse = .ok repeatingLeaves[0] ∧
    narrowToLeaf repeatingLeaves (threeKeys.drop 1 ++ threeKeys.drop 1) =
      .error (.noUniqueLeaf ((threeKeys.drop 1 ++ threeKeys.drop 1).map XOnlyKey.bytes) 2) := by
  constructor
  · rw [(narrowToLeaf_counts (by decide)).2.1]
    exact ⟨by decide +kernel, ⟨0, by decide⟩, by decide +kernel, rfl⟩
  · rw [(narrowToLeaf_counts (by decide)).2.2.1]
    exact ⟨by decide +kernel, by decide +kernel⟩

end Cosigning
