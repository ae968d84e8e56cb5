import Cosigning.Leaf

/-!
# Finding the leaf of a group of signers

A group of signers can use a leaf when they are exactly the signers it requires.
The leaves are narrowed down signer by signer, and anything but one survivor is
an error: a leaf is never picked among several.
-/

namespace Cosigning

variable {P : Type} [Ciphersuite P]

def leavesRequiring (leaves : List (Leaf P)) (key : XOnlyKey P) : List (Leaf P) :=
  leaves.filter (fun leaf => leaf.requires key)

def leavesRequiringAll (leaves : List (Leaf P)) (signers : List (XOnlyKey P)) : List (Leaf P) :=
  signers.foldl leavesRequiring leaves

def leavesMatching (leaves : List (Leaf P)) (signers : List (XOnlyKey P)) : List (Leaf P) :=
  (leavesRequiringAll leaves signers).filter (fun leaf =>
    leaf.requiredKeys.all (fun key => signers.contains key))

def narrowToLeaf (leaves : List (Leaf P)) (signers : List (XOnlyKey P)) :
    Except PolicyError (Leaf P) :=
  let names := signers.map XOnlyKey.bytes
  if signers.isEmpty then .error (.noUniqueLeaf names 0)
  else
    match leavesMatching leaves signers with
    | [leaf] => .ok leaf
    | survivors => .error (.noUniqueLeaf names survivors.length)

end Cosigning
