import Cosigning.Policy.Error

/-!
# Subsets of a fixed size

The subsets of a list come in lexicographic order of positions, each in the
order of the list.  Leaves are numbered in this order, so it never changes.
-/

namespace Cosigning

variable {α : Type}

/-- The sublists with `size` elements: first those with the first element, then the others.  A list
that is too short is not searched. -/
def sublistsOfSize : Nat -> List α -> List (List α)
  | 0, _ => [[]]
  | _ + 1, [] => []
  | size + 1, x :: rest =>
      if rest.length < size then []
      else
        (sublistsOfSize size rest).map (fun chosen => x :: chosen) ++
          sublistsOfSize (size + 1) rest

def subsets (items : List α) (size : Nat) : Except PolicyError (List (List α)) :=
  if items.isEmpty then .error .emptyItems
  else if size = 0 ∨ items.length < size then .error (.subsetSize size items.length)
  else .ok (sublistsOfSize size items)

/-- The product of `n`, `n - 1`, ... divided by `1`, `2`, ..., `i` factors in turn. -/
def fallingQuotient (n : UInt64) : Nat -> UInt64
  | 0 => 1
  | i + 1 => fallingQuotient n i * (n - UInt64.ofNat i) / (UInt64.ofNat i + 1)

def binomial (n k : UInt64) : UInt64 :=
  -- There are as many subsets as complements; the smaller ones take fewer factors.
  if n < k then 0 else fallingQuotient n (min k (n - k)).toNat

end Cosigning
