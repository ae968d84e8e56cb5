import Cosigning.Leaf

/-!
# Building a script tree from the left

Scripts are handed over from left to right with their depths.  The builder keeps
the finished subtrees on the way down to the last one, at most one for each depth,
and merges a new subtree with the one that waits beside it.  Each subtree knows its
digest and, for each of its scripts, the digests beside the way up.
-/

namespace Cosigning

open Ciphersuite

variable {P : Type} [Ciphersuite P]

def branchDigest (P : Type) [Ciphersuite P] (a b : Bytes32) : Bytes32 :=
  if a.toList <= b.toList then hash (P := P) .tapBranch (a.toList ++ b.toList)
  else hash (P := P) .tapBranch (b.toList ++ a.toList)

/-- A script with the digests beside the way from it to the top of a subtree, lowest first. -/
structure ScriptPath where
  script : List UInt8
  siblings : List Bytes32
deriving DecidableEq

def ScriptPath.under (sibling : Bytes32) (path : ScriptPath) : ScriptPath :=
  { path with siblings := path.siblings ++ [sibling] }

structure Subtree where
  digest : Bytes32
  paths : List ScriptPath
deriving DecidableEq

namespace Subtree

def ofScript (P : Type) [Ciphersuite P] (script : List UInt8) : Subtree :=
  { digest := scriptDigest P script
    paths := [{ script := script, siblings := [] }] }

def combine (P : Type) [Ciphersuite P] (a b : Subtree) : Subtree :=
  { digest := branchDigest P a.digest b.digest
    paths := a.paths.map (ScriptPath.under b.digest) ++ b.paths.map (ScriptPath.under a.digest) }

end Subtree

/-- The subtrees that wait for a sibling, from the deepest level up to the root's. -/
abbrev Builder := List (Option Subtree)

namespace Builder

def place (subtree : Subtree) (depth : Nat) (waiting : Builder) : Builder :=
  some subtree :: (List.replicate (depth - waiting.length) none ++ waiting)

/-- Put a subtree at a depth, merging it upward with the subtrees that wait beside it. -/
def settle (P : Type) [Ciphersuite P] (subtree : Subtree) (depth : Nat) :
    Builder -> Except BuildFault Builder
  | [] => .ok (place subtree depth [])
  | none :: rest =>
      if rest.length = depth then .ok (place subtree depth rest)
      else .ok (place subtree depth (none :: rest))
  | some sibling :: rest =>
      if rest.length = depth then
        -- The root has no place beside it.
        if depth = 0 then .error .overComplete
        else settle P (Subtree.combine P subtree sibling) (depth - 1) rest
      else .ok (place subtree depth (some sibling :: rest))

def add (P : Type) [Ciphersuite P] (builder : Builder) (depth : Nat) (script : List UInt8) :
    Except BuildFault Builder :=
  if 128 < depth then .error (.depthLimit depth)
  else if depth + 1 < builder.length then .error .notDepthFirst
  else settle P (Subtree.ofScript P script) depth builder

def root? : Builder -> Option Subtree
  | [some root] => some root
  | _ => none

end Builder

end Cosigning
