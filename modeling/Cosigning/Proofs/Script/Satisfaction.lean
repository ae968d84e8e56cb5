import Cosigning.Proofs.Script.Machine
import Cosigning.Proofs.Script.Reading
import Cosigning.Proofs.Traversal
import Cosigning.Proofs.Tree.Commitment
import Cosigning.Witness

/-!
# What satisfies a script of separate signature checks

Such a script succeeds exactly on the stacks that hold one valid signature for each of
its keys, the first key's on top, and nothing else.  The witness of a leaf has that
layout.
-/

namespace Cosigning

variable {P : Type} [Ciphersuite P]

namespace Script

variable {rule : SignatureRule}

/-!
## Counting signatures
-/

end Script

/-!
## Witnesses
-/

def Leaf.ChecksSeparately (leaf : Leaf P) : Prop :=
  Leaf.compile leaf.requiredKeys .separateChecks leaf.weight = .ok leaf

theorem Leaf.ChecksSeparately.eq {leaf : Leaf P} (h : leaf.ChecksSeparately) :
    leaf.requiredKeys ≠ [] ∧ leaf.requiredKeys.length <= maxKeys ∧
      leaf.script = Script.allSign leaf.requiredKeys ∧ leaf.kind = .multi := by
  rcases Leaf.compile_separateChecks_eq_ok_iff.mp h with ⟨hne, hle, heq⟩
  exact ⟨hne, hle, congrArg Leaf.script heq, congrArg Leaf.kind heq⟩

namespace Witness

theorem signatureFor_eq_ok_iff {signatures : List (XOnlyKey P × SpendSignature)}
    {key : XOnlyKey P} {spend : SpendSignature} :
    signatureFor signatures key = .ok spend <-> signatures.lookup key = some spend := by
  unfold signatureFor
  cases signatures.lookup key with
  | none => simp
  | some found => simp

theorem mapM_signatureFor {signatures : List (XOnlyKey P × SpendSignature)}
    {keys : List (XOnlyKey P)} {spends : List SpendSignature}
    (h : List.Forall₂ (fun spend key => signatures.lookup key = some spend) spends keys) :
    keys.mapM (signatureFor signatures) = .ok spends :=
  mapM_eq_ok_of_forall₂ (h.flip.imp (fun _ _ hlookup => signatureFor_eq_ok_iff.mpr hlookup))

end Witness

end Cosigning
