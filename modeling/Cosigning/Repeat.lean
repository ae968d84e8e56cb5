/-!
# The first repeated element of a list

Lists of keys must not repeat a key; the first key that has already been seen is
the one to complain about.
-/

namespace Cosigning

variable {α : Type} [DecidableEq α]

def firstRepeatAfter? (seen : List α) : List α -> Option α
  | [] => none
  | x :: rest => if x ∈ seen then some x else firstRepeatAfter? (x :: seen) rest

def firstRepeat? (xs : List α) : Option α :=
  firstRepeatAfter? [] xs

theorem firstRepeatAfter?_eq_none_iff (seen xs : List α) :
    firstRepeatAfter? seen xs = none <-> xs.Nodup ∧ forall x, x ∈ xs -> x ∉ seen := by
  induction xs generalizing seen with
  | nil => simp [firstRepeatAfter?]
  | cons x rest ih =>
      unfold firstRepeatAfter?
      by_cases hx : x ∈ seen
      · simp [hx]
      · simp only [hx, if_false, ih, List.nodup_cons, List.mem_cons]
        constructor
        · intro h
          obtain ⟨hnodup, hfresh⟩ := h
          refine ⟨⟨fun hmem => hfresh x hmem (Or.inl rfl), hnodup⟩, ?_⟩
          intro y hy
          rcases hy with rfl | hy
          · exact hx
          · exact fun hseen => hfresh y hy (Or.inr hseen)
        · intro h
          obtain ⟨⟨hnotin, hnodup⟩, hfresh⟩ := h
          refine ⟨hnodup, ?_⟩
          intro y hy hyseen
          rcases hyseen with rfl | hyseen
          · exact hnotin hy
          · exact hfresh y (Or.inr hy) hyseen

theorem firstRepeat?_eq_none_iff (xs : List α) :
    firstRepeat? xs = none <-> xs.Nodup := by
  simp [firstRepeat?, firstRepeatAfter?_eq_none_iff]

end Cosigning
