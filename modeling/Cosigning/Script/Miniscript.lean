import Cosigning.Script.Checks

/-!
# Miniscript fragments

The two fragments that a leaf can be: signatures under a number of keys, or a
signature under one key.
-/

namespace Cosigning
namespace Script

variable {P : Type} [Ciphersuite P]

inductive Miniscript (P : Type) [Ciphersuite P] where
  | multi (threshold : Nat) (keys : List (XOnlyKey P))
  | single (key : XOnlyKey P)

namespace Miniscript

def text : Miniscript P -> String
  | multi threshold keys =>
      "multi_a(" ++ ",".intercalate (toString threshold :: keys.map XOnlyKey.toHex) ++ ")"
  | single key => "pk(" ++ key.toHex ++ ")"

def script : Miniscript P -> List UInt8
  | multi threshold keys => keyChecks keys ++ [pushNumber threshold, numEqual]
  | single key => oneSigns key

def hasDistinctKeys : Miniscript P -> Bool
  | multi _ keys => decide keys.Nodup
  | single _ => true

end Miniscript

end Script
end Cosigning
