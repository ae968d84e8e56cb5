import Cosigning.Proofs.Exponent
import Cosigning.Proofs.Schnorr
import Cosigning.Proofs.Tree.Commitment
import Cosigning.Witness

/-!
# Spending by way of the internal key

The owner of the internal key tweaks a secret and the tree tweaks a point.  Both arrive at
the output key, whatever the parities of the owner's point and of the output are, so the owner's
signature spends the output.
-/

namespace Cosigning

open Ciphersuite

variable {P : Type} [Ciphersuite P]

namespace ScriptTree

variable {internalKey : InternalKey P} {leaves : List (Leaf P)} {tree : ScriptTree P}

theorem internalKey_of_ofLeaves (h : ofLeaves internalKey leaves = .ok tree) :
    tree.internalKey = internalKey := by
  rcases ofLeaves_eq_ok_iff.mp h with ⟨_, _, _, _, _, _, _, rfl⟩
  rfl

theorem exists_outputPair? [LawfulCiphersuite P] {owner : KeyPair P}
    (h : ofLeaves (.owner owner.xOnly) leaves = .ok tree) :
    exists pair, tree.outputPair? owner = some pair ∧ pair.publicKey = tree.outputKey := by
  rcases outputKey_of_ofLeaves h with ⟨hinternal, houtput⟩
  have howner : owner.xOnly = tree.internalXOnly := Option.some.inj hinternal
  rw [← howner] at houtput
  rcases tweakedKey_eq_some houtput with ⟨tweak, htweak, hpoint⟩
  have hscale : scale (Scalar.negateIf owner.publicKey.isOdd owner.secret + tweak) base =
      tree.outputKey.point := by
    rw [hpoint, LawfulCiphersuite.add_scale, scale_negateIf, owner.scale_base,
      ← XOnlyKey.lift_xOnly]
    rfl
  let pair : KeyPair P :=
    { secret := Scalar.negateIf owner.publicKey.isOdd owner.secret + tweak
      publicKey := tree.outputKey
      scale_base := hscale }
  refine ⟨pair, ?_, rfl⟩
  unfold outputPair?
  rw [htweak]
  exact pair.ofScalar?_secret

theorem signKeyPath_of_ne {owner : KeyPair P} (h : tree.internalKey ≠ .owner owner.xOnly)
    (sighash : Bytes32) (type : SighashType) (aux : Bytes32) :
    exists cause, tree.signKeyPath owner sighash type aux = .error cause ∧
      cause.kind = .witness := by
  unfold signKeyPath
  cases hkey : tree.internalKey with
  | unspendable => exact ⟨_, rfl, rfl⟩
  | owner key =>
      have hother : owner.xOnly ≠ key := by
        intro hsame
        rw [hkey, hsame] at h
        exact h rfl
      dsimp only
      rw [if_pos hother]
      exact ⟨_, rfl, rfl⟩

/-- The owner of the internal key of a tree, with either secret of the x-only key, signs for
the output key.  Nobody else does, and nobody at all if the internal key is unspendable. -/
theorem signKeyPath_spends [LawfulCiphersuite P] (h : ofLeaves internalKey leaves = .ok tree)
    (owner : KeyPair P) (sighash : Bytes32) (type : SighashType) (aux : Bytes32) :
    (internalKey = .owner owner.xOnly ->
      exists spend, tree.signKeyPath owner sighash type aux = .ok spend ∧
        spend.sighashType = type ∧
        Schnorr.verify tree.outputXOnly sighash spend.signature = true) ∧
    (internalKey ≠ .owner owner.xOnly ->
      exists cause, tree.signKeyPath owner sighash type aux = .error cause ∧
        cause.kind = .witness) := by
  have hinternal := internalKey_of_ofLeaves h
  constructor
  · intro howner
    subst howner
    rcases exists_outputPair? h with ⟨pair, hpair, hkey⟩
    refine ⟨{ signature := Schnorr.sign pair aux sighash, sighashType := type }, ?_, rfl, ?_⟩
    · unfold signKeyPath
      simp only [hinternal, hpair, ne_eq, not_true_eq_false, if_false]
    · have hxOnly : pair.xOnly = tree.outputXOnly := congrArg PublicKey.xOnly hkey
      rw [← hxOnly]
      exact Schnorr.verify_sign pair aux sighash
  · intro hother
    rw [← hinternal] at hother
    exact signKeyPath_of_ne hother sighash type aux

def guestLeaf : Leaf Exponent :=
  let keys := [(Exponent.pair 2).xOnly]
  { weight := 1, requiredKeys := keys, script := Script.allSign keys, kind := .multi }

theorem signKeyPath_spends_bothSigns :
    (Exponent.pair 5).publicKey.isOdd = true ∧
    exists tree, ofLeaves (.owner (Exponent.pair 5).xOnly) [guestLeaf] = .ok tree ∧
      (forall owner, owner ∈ [Exponent.pair 5, Exponent.pair (groupOrder - 5)] ->
        exists spend,
          tree.signKeyPath owner (FixedBytes.ofNat 32 9) .allOutputs (FixedBytes.ofNat 32 3) =
              .ok spend ∧
            Schnorr.verify tree.outputXOnly (FixedBytes.ofNat 32 9) spend.signature = true) ∧
      exists cause,
        tree.signKeyPath (Exponent.pair 2) (FixedBytes.ofNat 32 9) .allOutputs
            (FixedBytes.ofNat 32 3) = .error cause ∧
          cause.kind = .witness := by
  have houtput : (tweakedKey (Exponent.pair 5).xOnly guestLeaf.digest).isSome = true := by
    decide +kernel
  have hinternal : (InternalKey.owner (Exponent.pair 5).xOnly).xOnly? = some _ := rfl
  rcases exists_ofLeaves_singleton hinternal (Option.some_get houtput).symm with ⟨tree, htree⟩
  refine ⟨by decide +kernel, tree, htree, ?_, ?_⟩
  · intro owner howner
    have hsame : InternalKey.owner (Exponent.pair 5).xOnly = .owner owner.xOnly := by
      rcases List.mem_pair.mp howner with rfl | rfl
      · rfl
      · decide +kernel
    rcases (signKeyPath_spends htree owner (FixedBytes.ofNat 32 9) .allOutputs
      (FixedBytes.ofNat 32 3)).1 hsame with ⟨spend, hspend, _, hverify⟩
    exact ⟨spend, hspend, hverify⟩
  · exact (signKeyPath_spends htree (Exponent.pair 2) (FixedBytes.ofNat 32 9) .allOutputs
      (FixedBytes.ofNat 32 3)).2 (by decide +kernel)

end ScriptTree

end Cosigning
