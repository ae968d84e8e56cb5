import Cosigning.Musig.KeyContext
import Cosigning.Policy.Subsets
import Cosigning.Policy.Weighting
import Cosigning.Script.Miniscript

/-!
# Leaves

A leaf is one way to spend: a set of signers that must all cooperate, compiled to
a script that either checks a signature of each or one signature under their
aggregate key.  A policy has one leaf for each set of signers of threshold size.
-/

namespace Cosigning

open Ciphersuite

variable {P : Type} [Ciphersuite P]

inductive Strategy where
  | separateChecks
  | jointCheck
deriving DecidableEq

namespace Strategy

def standard : Strategy :=
  separateChecks

def name : Strategy -> String
  | separateChecks => "checksigadd"
  | jointCheck => "musig"

def ofName (text : String) : Except PolicyError Strategy :=
  if text = separateChecks.name then .ok separateChecks
  else if text = jointCheck.name then .ok jointCheck
  else .error (.unknownStrategy text)

end Strategy

inductive LeafKind (P : Type) [Ciphersuite P] where
  | multi
  | musig (aggregate : XOnlyKey P)
deriving DecidableEq

structure Leaf (P : Type) [Ciphersuite P] where
  weight : UInt32
  requiredKeys : List (XOnlyKey P)
  script : List UInt8
  kind : LeafKind P
deriving DecidableEq

def lengthBytes (n : Nat) : List UInt8 :=
  if n < 253 then [UInt8.ofNat n]
  else if n < 0x10000 then 0xfd :: littleEndian 2 n
  else if n < 0x100000000 then 0xfe :: littleEndian 4 n
  else 0xff :: littleEndian 8 n

def leafVersion : UInt8 := 0xc0

def scriptDigest (P : Type) [Ciphersuite P] (script : List UInt8) : Bytes32 :=
  hash (P := P) .tapLeaf (leafVersion :: (lengthBytes script.length ++ script))

def compileJoint (keys : List (XOnlyKey P)) :
    Except PolicyError (List UInt8 × XOnlyKey P) :=
  if keys.isEmpty ∨ maxKeys < keys.length then .error (.leafSize keys.length)
  else
    match Musig.aggregateXOnly keys with
    | .error cause => .error (.musig cause)
    | .ok aggregate => .ok (Script.oneSigns aggregate, aggregate)

namespace Leaf

def compile (keys : List (XOnlyKey P)) (strategy : Strategy) (weight : UInt32) :
    Except PolicyError (Leaf P) :=
  match strategy with
  | .separateChecks =>
      (Script.compileChecks keys).map (fun script =>
        { weight := weight, requiredKeys := keys, script := script, kind := .multi })
  | .jointCheck =>
      (compileJoint keys).map (fun compiled =>
        { weight := weight
          requiredKeys := keys
          script := compiled.1
          kind := .musig compiled.2 })

def threshold (leaf : Leaf P) : Nat :=
  leaf.requiredKeys.length

def requires (leaf : Leaf P) (key : XOnlyKey P) : Bool :=
  leaf.requiredKeys.contains key

def digest (leaf : Leaf P) : Bytes32 :=
  scriptDigest P leaf.script

/-- The leaf in the policy language, which does not admit a repeated key. -/
def miniscript (leaf : Leaf P) : Except PolicyError (Script.Miniscript P) :=
  let fragment :=
    match leaf.kind with
    | .multi => Script.Miniscript.multi leaf.threshold leaf.requiredKeys
    | .musig aggregate => Script.Miniscript.single aggregate
  if fragment.hasDistinctKeys then .ok fragment else .error (.repeatedKeys fragment.text)

end Leaf

/-- The leaves of a policy, in the order of the sets of signers; `rule` gives the weights. -/
def ThresholdPolicy.leaves (policy : ThresholdPolicy P) (strategy : Strategy)
    (rule : WeightRule) : Except PolicyError (List (Leaf P)) := do
  let quorums <- subsets policy.keys policy.threshold
  (quorums.zip (rule.weights quorums.length)).mapM (fun entry =>
    Leaf.compile entry.1 strategy entry.2)

end Cosigning
