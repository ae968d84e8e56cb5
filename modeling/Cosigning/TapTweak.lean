import Cosigning.Key

/-!
# The Taproot tweak

An output key commits to a script tree by adding to the internal key a multiple of
the base point that is hashed from the internal key and the root of the tree.
-/

namespace Cosigning

open Ciphersuite

variable {P : Type} [Ciphersuite P]

/-- The tweak of an internal key for a root, or for no tree at all; a digest that is no scalar
gives no tweak. -/
def tapTweak? (key : XOnlyKey P) (root : Option Bytes32) : Option Scalar :=
  let commitment := (root.map FixedBytes.toList).getD []
  Scalar.ofBytes? (hash (P := P) .tapTweak (key.bytes.toList ++ commitment))

end Cosigning
