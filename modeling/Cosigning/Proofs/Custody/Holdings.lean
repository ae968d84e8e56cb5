import Cosigning.Custody
import Cosigning.Ensure

/-!
# What is in custody

However secrets are given to a custody, it holds a secret for exactly the x-only keys of
those that were given, and it finds one for each key that it holds.
-/

namespace Cosigning
namespace Custody

variable {P : Type} [Ciphersuite P]

theorem exists_mem_keep_iff (pairs : List (KeyPair P)) (pair : KeyPair P) (key : XOnlyKey P) :
    (exists held, held ∈ keep pairs pair ∧ held.xOnly = key) <->
      exists held, held ∈ pairs ++ [pair] ∧ held.xOnly = key := by
  by_cases hpair : pair.xOnly = key
  · apply iff_of_true
    · exact ⟨pair, List.mem_append_right _ List.mem_cons_self, hpair⟩
    · exact ⟨pair, List.mem_append_right _ List.mem_cons_self, hpair⟩
  · apply exists_congr
    intro held
    apply and_congr_left
    intro hheld
    have hne : held.xOnly ≠ pair.xOnly := fun hsame => hpair (hsame.symm.trans hheld)
    simp [keep, hne]

theorem exists_mem_foldl_keep_iff (pairs secrets : List (KeyPair P)) (key : XOnlyKey P) :
    (exists held, held ∈ secrets.foldl keep pairs ∧ held.xOnly = key) <->
      exists held, held ∈ pairs ++ secrets ∧ held.xOnly = key := by
  induction secrets generalizing pairs with
  | nil =>
      rw [List.append_nil]
      rfl
  | cons secret rest ih =>
      rw [List.foldl_cons, ih]
      have hkeep := exists_mem_keep_iff pairs secret key
      simp only [List.mem_append, List.mem_cons, List.not_mem_nil, or_false, or_and_right,
        exists_or] at hkeep ⊢
      rw [hkeep, or_assoc]

theorem contains_ofList_iff {secrets : List (KeyPair P)} {key : XOnlyKey P} :
    (ofList secrets).contains key = true <->
      exists pair, pair ∈ secrets ∧ pair.xOnly = key := by
  have hheld := exists_mem_foldl_keep_iff [] secrets key
  rw [List.nil_append] at hheld
  rw [← hheld, contains, List.any_eq_true]
  simp only [decide_eq_true_eq]
  rfl

theorem insert_ofList (secrets : List (KeyPair P)) (pair : KeyPair P) :
    (ofList secrets).insert pair = .ok (ofList (secrets ++ [pair])) := by
  unfold ofList
  rw [List.foldl_append]
  rfl

theorem foldlM_insert_ofList (secrets given : List (KeyPair P)) :
    given.foldlM insert (ofList secrets) = .ok (ofList (secrets ++ given)) := by
  induction given generalizing secrets with
  | nil =>
      rw [List.append_nil]
      rfl
  | cons pair rest ih =>
      rw [List.foldlM_cons, insert_ofList, List.append_cons secrets pair rest]
      exact ih (secrets ++ [pair])

end Custody
end Cosigning
