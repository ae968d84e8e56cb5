import Cosigning.Proofs.Policy.Enumeration

/-!
# Binomial coefficients in sixty-four bits

A binomial coefficient is computed by multiplying and dividing in turn, once for each element of
the smaller of the set that is chosen and the set that is left.  Up to there the products grow, and
the last one is the coefficient times the number of steps.  That one number therefore tells whether
any product wraps around.
-/

namespace Cosigning

def binomialSteps (n k : UInt64) : Nat :=
  min k.toNat (n.toNat - k.toNat)

def binomialProduct (n : UInt64) (i : Nat) : Nat :=
  (fallingQuotient n i).toNat * (n.toNat - i)

/-- A step multiplies without wrapping around and divides without a remainder. -/
structure StepExact (n : UInt64) (i : Nat) : Prop where
  fits : binomialProduct n i < UInt64.size
  divides : i + 1 ∣ binomialProduct n i

section

variable {n k : UInt64}

theorem toNat_min_sub (hle : k <= n) : (min k (n - k)).toNat = binomialSteps n k := by
  rw [UInt64.toNat_min, UInt64.toNat_sub_of_le _ _ hle]
  rfl

theorem binomialSteps_le_half (n k : UInt64) : binomialSteps n k <= n.toNat / 2 := by
  unfold binomialSteps
  omega

theorem productsFit_iff (hle : k <= n) :
    ProductsFit n k <-> forall i, i < binomialSteps n k -> binomialProduct n i < UInt64.size := by
  unfold ProductsFit
  rw [toNat_min_sub hle]
  rfl

/-!
## The products
-/

theorem binomialProduct_eq {i : Nat} (hi : i <= n.toNat)
    (h : forall j, j < i -> binomialProduct n j < UInt64.size) :
    binomialProduct n i = n.toNat.choose (i + 1) * (i + 1) := by
  rw [binomialProduct, toNat_fallingQuotient hi h, Nat.choose_succ_right_eq]

theorem choose_le_choose_of_le_half {m i j : Nat} (hij : i <= j) (hj : j <= m / 2) :
    m.choose i <= m.choose j := by
  induction j, hij using Nat.le_induction with
  | base => exact Nat.le_refl _
  | succ j hij ih =>
      exact Nat.le_trans (ih (by omega)) (Nat.choose_le_succ_of_lt_half_left (by omega))

theorem binomialProduct_lt {steps : Nat} (hhalf : steps <= n.toNat / 2)
    (hfits : steps * n.toNat.choose steps < UInt64.size) (i : Nat) (hi : i < steps) :
    binomialProduct n i < UInt64.size := by
  induction i using Nat.strong_induction_on with
  | _ i ih =>
      rw [binomialProduct_eq (by omega) (fun j hj => ih j hj (by omega)), Nat.mul_comm]
      refine Nat.lt_of_le_of_lt ?_ hfits
      exact Nat.mul_le_mul hi (choose_le_choose_of_le_half hi hhalf)

theorem productsFit_iff_last (hle : k <= n) :
    ProductsFit n k <->
      binomialSteps n k * n.toNat.choose (binomialSteps n k) < UInt64.size := by
  have hhalf := binomialSteps_le_half n k
  rw [productsFit_iff hle]
  constructor
  · intro h
    cases hsteps : binomialSteps n k with
    | zero =>
        rw [Nat.zero_mul]
        decide
    | succ last =>
        rw [hsteps] at h hhalf
        have hlast := h last (Nat.lt_succ_self last)
        rw [binomialProduct_eq (by omega) (fun j hj => h j (by omega))] at hlast
        rwa [Nat.mul_comm]
  · exact binomialProduct_lt hhalf

theorem stepExact_of_productsFit (hle : k <= n) (h : ProductsFit n k) {i : Nat}
    (hi : i < binomialSteps n k) : StepExact n i := by
  rw [productsFit_iff hle] at h
  have hhalf := binomialSteps_le_half n k
  refine ⟨h i hi, ?_⟩
  rw [binomialProduct_eq (by omega) (fun j hj => h j (by omega))]
  exact Nat.dvd_mul_left (i + 1) _

end

/-- A coefficient for more elements than there are is zero.  Of any other, no product wraps around
exactly if the number of steps times the coefficient fits into sixty-four bits; then every step is
exact, and so is the value. -/
theorem binomial_exact (n k : UInt64) :
    (n < k -> binomial n k = 0) ∧
    (k <= n ->
      (ProductsFit n k <->
        binomialSteps n k * n.toNat.choose (binomialSteps n k) < UInt64.size) ∧
      (binomialSteps n k * n.toNat.choose (binomialSteps n k) < UInt64.size ->
        (forall i, i < binomialSteps n k -> StepExact n i) ∧
        (binomial n k).toNat = n.toNat.choose k.toNat)) := by
  constructor
  · intro hlt
    exact if_pos hlt
  · intro hle
    have hiff := productsFit_iff_last hle
    refine ⟨hiff, ?_⟩
    intro hfits
    have hproducts := hiff.mpr hfits
    exact ⟨fun i hi => stepExact_of_productsFit hle hproducts hi,
      toNat_binomial (UInt64.le_iff_toNat_le.mp hle) hproducts⟩

/-- The largest number of elements of which the pairs are counted exactly, here as what is left by
all but two. -/
theorem binomial_exact_pairs :
    (4294967294 : UInt64) <= 4294967296 ∧
      binomialSteps 4294967296 4294967294 * Nat.choose 4294967296 2 < UInt64.size ∧
      StepExact 4294967296 1 ∧
      (binomial 4294967296 4294967294).toNat = Nat.choose 4294967296 4294967294 ∧
      ¬ ProductsFit 4294967297 2 ∧ binomial 4294967297 2 = 2147483648 := by
  have hle : (4294967294 : UInt64) <= 4294967296 := by
    decide
  have hsteps : binomialSteps 4294967296 4294967294 = 2 := by
    decide
  have hn : (4294967296 : UInt64).toNat = 4294967296 := by
    decide
  have hk : (4294967294 : UInt64).toNat = 4294967294 := by
    decide
  have hfits : 2 * Nat.choose 4294967296 2 < UInt64.size := by
    rw [Nat.choose_two_right]
    decide
  have hpairs := ((binomial_exact 4294967296 4294967294).2 hle).2
  rw [hsteps, hn, hk] at hpairs
  rw [hsteps]
  exact ⟨hle, hfits, (hpairs hfits).1 1 (by decide), (hpairs hfits).2, by decide, by decide⟩

end Cosigning
