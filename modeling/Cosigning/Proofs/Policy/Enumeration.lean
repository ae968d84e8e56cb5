import Cosigning.Proofs.Policy.Quorums
import Mathlib.Data.List.Sort
import Mathlib.Data.Nat.Choose.Basic
import Mathlib.Order.Fin.Basic

/-!
# Enumerating the subsets of a size

The subsets of a list stand at the increasing tuples of its positions: each tuple comes once, in
lexicographic order, and the binomial coefficient counts them.  A search that extends one choice
position by position, and takes the last position back afterwards, finds the same subsets and never
looks for a position outside the list.
-/

namespace Cosigning

variable {α : Type}

/-!
## Tuples of positions
-/

/-- The tuples of positions below a count that name each subset of a size once, in
lexicographic order. -/
structure Enumerates (count size : Nat) (tuples : List (List (Fin count))) : Prop where
  mem_iff : forall tuple, tuple ∈ tuples <-> tuple.length = size ∧ tuple.Pairwise (· < ·)
  increasing : tuples.Pairwise (· < ·)

theorem sublistsOfSize_map {β : Type} (f : α -> β) (size : Nat) (items : List α) :
    sublistsOfSize size (items.map f) = (sublistsOfSize size items).map (List.map f) := by
  induction items generalizing size with
  | nil => cases size <;> rfl
  | cons x rest ih =>
      cases size with
      | zero => rfl
      | succ size =>
          rw [List.map_cons, sublistsOfSize, sublistsOfSize, List.length_map]
          by_cases hshort : rest.length < size
          · rw [if_pos hshort, if_pos hshort, List.map_nil]
          · rw [if_neg hshort, if_neg hshort, ih, ih, List.map_append, List.map_map, List.map_map]
            rfl

theorem pairwise_sublistsOfSize [LT α] (size : Nat) {items : List α}
    (h : items.Pairwise (· < ·)) : (sublistsOfSize size items).Pairwise (· < ·) := by
  induction items generalizing size with
  | nil => cases size <;> simp [sublistsOfSize]
  | cons x rest ih =>
      rcases List.pairwise_cons.mp h with ⟨hleast, hrest⟩
      cases size with
      | zero => simp [sublistsOfSize]
      | succ size =>
          rw [sublistsOfSize]
          split
          · exact List.Pairwise.nil
          · rw [List.pairwise_append]
            refine ⟨?_, ih (size + 1) hrest, ?_⟩
            · rw [List.pairwise_map]
              exact (ih size hrest).imp (fun hless => List.Lex.cons hless)
            · -- The first element of a sublist without `x` is greater than `x`.
              intro first hfirst second hsecond
              rcases List.mem_map.mp hfirst with ⟨chosen, _, rfl⟩
              rcases mem_sublistsOfSize.mp hsecond with ⟨hsub, hlength⟩
              cases second with
              | nil => cases hlength
              | cons y others =>
                  exact List.Lex.rel (hleast y (hsub.subset List.mem_cons_self))

theorem enumerates_sublistsOfSize (count size : Nat) :
    Enumerates count size (sublistsOfSize size (List.finRange count)) where
  mem_iff tuple := by
    have hall := List.pairwise_lt_finRange count
    rw [mem_sublistsOfSize, and_comm]
    apply and_congr_right
    intro _
    constructor
    · exact fun hsub => hall.sublist hsub
    · intro htuple
      have hsubperm : tuple.Subperm (List.finRange count) :=
        List.subperm_of_subset htuple.nodup (fun place _ => List.mem_finRange place)
      exact List.sublist_of_subperm_of_pairwise hsubperm htuple hall
  increasing := pairwise_sublistsOfSize size (List.pairwise_lt_finRange count)

/-!
## Searching by position
-/

structure Search (α : Type) where
  chosen : List α
  found : List (List α)

namespace Search

def push (search : Search α) (item : α) : Search α :=
  { search with chosen := search.chosen ++ [item] }

def pop (search : Search α) : Search α :=
  { search with chosen := search.chosen.dropLast }

def goOn (search : Search α) (ways : List (List α)) : Search α :=
  { search with found := search.found ++ ways.map (fun way => search.chosen ++ way) }

def attempt? (items : List α) (deeper : Nat -> Search α -> Option (Search α)) (search : Search α)
    (place : Nat) : Option (Search α) :=
  match items[place]? with
  | none => none
  | some item => (deeper (place + 1) (search.push item)).map pop

/-- Search for all ways to choose a number of further items from a position on.  The last position
to attempt leaves enough items after it; the search fails if there is no such position in the list
or one that it attempts is not in the list. -/
def run? (items : List α) : Nat -> Nat -> Search α -> Option (Search α)
  | 0, _, search => some { search with found := search.found ++ [search.chosen] }
  | needed + 1, start, search =>
      if items.length < needed + 1 then none
      else
        let last := items.length - (needed + 1)
        (List.range' start (last + 1 - start)).foldlM (attempt? items (run? items needed)) search

theorem goOn_append (search : Search α) (first second : List (List α)) :
    search.goOn (first ++ second) = (search.goOn first).goOn second := by
  simp [goOn]

theorem pop_goOn_push (search : Search α) (item : α) (ways : List (List α)) :
    ((search.push item).goOn ways).pop = search.goOn (ways.map (fun way => item :: way)) := by
  simp [goOn, push, pop]

theorem foldlM_attempt? {items : List α} {needed : Nat}
    {deeper : Nat -> Search α -> Option (Search α)}
    (hdeeper : forall start search, start + needed <= items.length ->
      deeper start search = some (search.goOn (sublistsOfSize needed (items.drop start))))
    (count start : Nat) (search : Search α) (h : start + count + needed = items.length) :
    (List.range' start count).foldlM (attempt? items deeper) search =
      some (search.goOn (sublistsOfSize (needed + 1) (items.drop start))) := by
  -- On the number of positions that are left to try, with the search as the last one left it.
  induction count generalizing start search with
  | zero =>
      have hshort : (items.drop start).length < needed + 1 := by
        rw [List.length_drop]
        omega
      have hnone : sublistsOfSize (needed + 1) (items.drop start) = [] := by
        rw [← List.length_eq_zero_iff, length_sublistsOfSize, Nat.choose_eq_zero_of_lt hshort]
      rw [hnone]
      simp [goOn]
  | succ count ih =>
      have hstart : start < items.length := by omega
      have hlong : ¬ (items.drop (start + 1)).length < needed := by
        rw [List.length_drop]
        omega
      have hattempt : attempt? items deeper search start =
          some (search.goOn ((sublistsOfSize needed (items.drop (start + 1))).map
            (fun way => items[start] :: way))) := by
        rw [attempt?, List.getElem?_eq_getElem hstart]
        simp only [hdeeper (start + 1) _ (by omega), Option.map_some, pop_goOn_push]
      rw [List.range'_succ, List.foldlM_cons, hattempt, List.drop_eq_getElem_cons hstart,
        sublistsOfSize, if_neg hlong, goOn_append]
      exact ih (start + 1) _ (by omega)

theorem run?_eq_some (items : List α) (needed start : Nat) (search : Search α)
    (h : start + needed <= items.length) :
    run? items needed start search =
      some (search.goOn (sublistsOfSize needed (items.drop start))) := by
  induction needed generalizing start search with
  | zero =>
      rw [run?]
      cases items.drop start <;> simp [goOn, sublistsOfSize]
  | succ needed ih =>
      rw [run?, if_neg (by omega)]
      exact foldlM_attempt? ih _ start search (by omega)

end Search

/-!
## Counting
-/

def ProductsFit (n k : UInt64) : Prop :=
  forall i, i < (min k (n - k)).toNat ->
    (fallingQuotient n i).toNat * (n.toNat - i) < UInt64.size

instance (n k : UInt64) : Decidable (ProductsFit n k) :=
  inferInstanceAs (Decidable (forall i, i < _ -> _))

theorem toNat_fallingQuotient {n : UInt64} {count : Nat} (hcount : count <= n.toNat)
    (h : forall i, i < count -> (fallingQuotient n i).toNat * (n.toNat - i) < UInt64.size) :
    (fallingQuotient n count).toNat = n.toNat.choose count := by
  induction count with
  | zero => simp [fallingQuotient]
  | succ i ih =>
      have hprevious : (fallingQuotient n i).toNat = n.toNat.choose i :=
        ih (by omega) (fun j hj => h j (by omega))
      have hproduct := h i (Nat.lt_succ_self i)
      have hword := n.toNat_lt
      have hi : (UInt64.ofNat i).toNat = i := UInt64.toNat_ofNat_of_lt' (by
        unfold UInt64.size
        omega)
      have hfactor : (n - UInt64.ofNat i).toNat = n.toNat - i := by
        rw [UInt64.toNat_sub_of_le _ _ (UInt64.le_iff_toNat_le.mpr (by omega)), hi]
      have hdivisor : (UInt64.ofNat i + 1).toNat = i + 1 := by
        rw [UInt64.toNat_add, hi, UInt64.toNat_one]
        exact Nat.mod_eq_of_lt (by omega)
      rw [fallingQuotient, UInt64.toNat_div, UInt64.toNat_mul, hfactor, hdivisor,
        Nat.mod_eq_of_lt hproduct, hprevious, ← Nat.choose_succ_right_eq]
      exact Nat.mul_div_cancel _ (Nat.succ_pos i)

theorem toNat_binomial {n k : UInt64} (hle : k.toNat <= n.toNat) (h : ProductsFit n k) :
    (binomial n k).toNat = n.toNat.choose k.toNat := by
  have hsub : (n - k).toNat = n.toNat - k.toNat :=
    UInt64.toNat_sub_of_le _ _ (UInt64.le_iff_toNat_le.mpr hle)
  have hmin : (min k (n - k)).toNat = min k.toNat (n.toNat - k.toNat) := by
    rw [UInt64.toNat_min, hsub]
  unfold binomial
  rw [if_neg (UInt64.not_lt.mpr (UInt64.le_iff_toNat_le.mpr hle)),
    toNat_fallingQuotient (by omega) h, hmin]
  rcases Nat.le_total k.toNat (n.toNat - k.toNat) with hsmall | hlarge
  · rw [Nat.min_eq_left hsmall]
  · rw [Nat.min_eq_right hlarge, Nat.choose_symm hle]

/-!
## Subsets
-/

theorem subsets_eq_error {items : List α} (hne : items ≠ []) {size : Nat}
    (h : size = 0 ∨ items.length < size) :
    subsets items size = .error (.subsetSize size items.length) := by
  unfold subsets
  rw [if_neg (by simpa using hne), if_pos h]

/-- The subsets of a size are refused exactly if the size is zero or more than there are items.
Otherwise they are what stands at the increasing tuples of positions, each tuple once and in
lexicographic order, whether items are equal or not.  They are as many as the binomial coefficient
says, which is computed exactly if its products fit, and the search by position finds the same
without ever leaving the list. -/
theorem subsets_enumerated {items : List α} (hne : items ≠ []) (size : Nat) :
    (size = 0 ∨ items.length < size ->
      exists cause, subsets items size = .error cause ∧ cause.kind = .invalidArgument) ∧
    (¬ (size = 0 ∨ items.length < size) ->
      exists positions : List (List (Fin items.length)),
        subsets items size = .ok (positions.map (fun tuple => tuple.map items.get)) ∧
        Enumerates items.length size positions ∧
        positions.length = items.length.choose size ∧
        (forall n k : UInt64, n.toNat = items.length -> k.toNat = size -> ProductsFit n k ->
          (binomial n k).toNat = positions.length) ∧
        Search.run? items size 0 { chosen := [], found := [] } =
          some { chosen := [], found := positions.map (fun tuple => tuple.map items.get) }) := by
  constructor
  · intro h
    exact ⟨_, subsets_eq_error hne h, rfl⟩
  · intro h
    have hitems : sublistsOfSize size items =
        (sublistsOfSize size (List.finRange items.length)).map
          (fun tuple => tuple.map items.get) := by
      rw [← sublistsOfSize_map, List.map_get_finRange]
    have hlength : (sublistsOfSize size (List.finRange items.length)).length =
        items.length.choose size := by
      rw [length_sublistsOfSize, List.length_finRange]
    refine ⟨_, ?_, enumerates_sublistsOfSize items.length size, hlength, ?_, ?_⟩
    · rw [subsets_eq_ok_sublistsOfSize hne h, hitems]
    · intro n k hn hk hfit
      rw [toNat_binomial (by omega) hfit, hn, hk, hlength]
    · rw [Search.run?_eq_some items size 0 _ (by omega), List.drop_zero, hitems]
      simp [Search.goOn]

/-- An item that stands at two places counts as two items. -/
theorem subsets_enumerated_repeating :
    (exists positions : List (List (Fin 4)),
      positions.map (fun tuple => tuple.map [7, 8, 7, 9].get) =
          [[7, 8], [7, 7], [7, 9], [8, 7], [8, 9], [7, 9]] ∧
        Enumerates 4 2 positions ∧ (binomial 4 2).toNat = positions.length) ∧
    exists cause, subsets [7, 8, 7, 9] 5 = .error cause ∧ cause.kind = .invalidArgument := by
  have hne : [7, 8, 7, 9] ≠ [] := by
    decide
  constructor
  · rcases (subsets_enumerated hne 2).2 (by decide) with
      ⟨positions, hsubsets, henumerates, _, hcount, _⟩
    have hvalue : subsets [7, 8, 7, 9] 2 =
        .ok [[7, 8], [7, 7], [7, 9], [8, 7], [8, 9], [7, 9]] := rfl
    rw [hvalue] at hsubsets
    exact ⟨positions, (Except.ok.inj hsubsets).symm, henumerates,
      hcount 4 2 rfl rfl (by decide)⟩
  · exact (subsets_enumerated hne 5).1 (by decide)

end Cosigning
