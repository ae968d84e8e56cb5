import Cosigning.Text.Bech32
import Cosigning.Tree.Builder
import Cosigning.Tree.Huffman

/-!
# Script trees

A script tree holds leaves arranged by weight and commits an internal key to
them.  The output key is the internal key plus the tweak for the root; a control
block proves that a leaf is part of the tree.
-/

namespace Cosigning

open Ciphersuite

variable {P : Type} [Ciphersuite P]

inductive Network where
  | bitcoin
  | testnet
  | signet
  | regtest
deriving DecidableEq

namespace Network

def name : Network -> String
  | bitcoin => "bitcoin"
  | testnet => "testnet"
  | signet => "signet"
  | regtest => "regtest"

def addressLabel : Network -> String
  | bitcoin => "bc"
  | testnet => "tb"
  | signet => "tb"
  | regtest => "bcrt"

end Network

structure ScriptTree (P : Type) [Ciphersuite P] where
  internalKey : InternalKey P
  internalXOnly : XOnlyKey P
  leaves : List (Leaf P)
  depths : List Nat
  root : Subtree
  outputKey : PublicKey P

structure ControlBlock (P : Type) [Ciphersuite P] where
  outputIsOdd : Bool
  internalKey : XOnlyKey P
  siblings : List Bytes32

def ControlBlock.toBytes (block : ControlBlock P) : List UInt8 :=
  (leafVersion ||| if block.outputIsOdd then 1 else 0) ::
    (block.internalKey.bytes.toList ++ block.siblings.flatMap FixedBytes.toList)

def addLeaves (builder : Builder) :
    List ((Leaf P × Nat) × Nat) -> Except PolicyError Builder
  | [] => .ok builder
  | ((leaf, index), depth) :: rest =>
      match builder.add P depth leaf.script with
      | .error fault => .error (.addLeaf index fault)
      | .ok builder => addLeaves builder rest

def tweakedKey (key : XOnlyKey P) (root : Bytes32) : Option (PublicKey P) :=
  (tapTweak? key (some root)).bind (fun tweak =>
    PublicKey.ofPoint? (key.lift.point + scale tweak base))

namespace ScriptTree

def ofLeaves (internalKey : InternalKey P) (leaves : List (Leaf P)) :
    Except PolicyError (ScriptTree P) := do
  let layout <- huffmanLayout (fun entry => entry.1.weight) leaves.zipIdx
  let builder <- addLeaves [] layout
  match builder.root?, internalKey.xOnly? with
  | some root, some key =>
      match tweakedKey key root.digest with
      | some outputKey =>
          return { internalKey := internalKey
                   internalXOnly := key
                   leaves := leaves
                   depths := depthsInOrder Prod.snd layout
                   root := root
                   outputKey := outputKey }
      | none => throw .unfinished
  | _, _ => throw .unfinished

def ofPolicy (policy : ThresholdPolicy P) (strategy : Strategy) (rule : WeightRule) :
    Except PolicyError (ScriptTree P) := do
  let leaves <- policy.leaves strategy rule
  ofLeaves policy.internalKey leaves

def outputXOnly (tree : ScriptTree P) : XOnlyKey P :=
  tree.outputKey.xOnly

def merkleRoot (tree : ScriptTree P) : Bytes32 :=
  tree.root.digest

def address (tree : ScriptTree P) (network : Network) : String :=
  Bech32.encode network.addressLabel 1 tree.outputXOnly.bytes.toList

def shorterOrEqual (a b : List Bytes32) : Bool :=
  a.length < b.length ||
    (a.length == b.length &&
      decide (a.flatMap FixedBytes.toList <= b.flatMap FixedBytes.toList))

/-- The shortest way up from a script, and the least of those. -/
def shortestPath? (tree : ScriptTree P) (script : List UInt8) : Option (List Bytes32) :=
  let ways := (tree.root.paths.filter (fun path => decide (path.script = script))).map
    ScriptPath.siblings
  (ways.mergeSort shorterOrEqual).head?

def controlBlock (tree : ScriptTree P) (leaf : Leaf P) :
    Except PolicyError (ControlBlock P) :=
  match tree.shortestPath? leaf.script with
  | none => .error .leafNotInTree
  | some siblings =>
      .ok
        { outputIsOdd := tree.outputKey.isOdd
          internalKey := tree.internalXOnly
          siblings := siblings }

def leafForScript? (tree : ScriptTree P) (script : List UInt8) : Option (Leaf P) :=
  tree.leaves.find? (fun leaf => decide (leaf.script = script))

def leafDepth? (tree : ScriptTree P) (leaf : Leaf P) : Option Nat :=
  (tree.leaves.zip tree.depths).lookup leaf

end ScriptTree

end Cosigning
