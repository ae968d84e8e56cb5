import Cosigning.Custody
import Cosigning.Schnorr
import Cosigning.Tree.ScriptTree

/-!
# Witnesses

An output is spent with a witness.  By way of a leaf the witness holds the
signatures that the leaf's script takes, the script, and the control block; by way
of the internal key it holds one signature under the output key.
-/

namespace Cosigning

open Ciphersuite

variable {P : Type} [Ciphersuite P]

inductive SighashType where
  | standard
  | allOutputs
  | noOutput
  | oneOutput
  | allOutputsOneInput
  | noOutputOneInput
  | oneOutputOneInput
deriving DecidableEq

namespace SighashType

def toByte : SighashType -> UInt8
  | standard => 0x00
  | allOutputs => 0x01
  | noOutput => 0x02
  | oneOutput => 0x03
  | allOutputsOneInput => 0x81
  | noOutputOneInput => 0x82
  | oneOutputOneInput => 0x83

def all : List SighashType :=
  [standard, allOutputs, noOutput, oneOutput, allOutputsOneInput, noOutputOneInput,
    oneOutputOneInput]

def ofByte? (byte : UInt8) : Option SighashType :=
  all.find? (fun type => decide (type.toByte = byte))

end SighashType

structure SpendSignature where
  signature : Schnorr.Signature
  sighashType : SighashType
deriving DecidableEq

/-- The signature as it stands in a witness; the standard type is left out. -/
def SpendSignature.toBytes (spend : SpendSignature) : List UInt8 :=
  spend.signature.toBytes ++
    (if spend.sighashType = .standard then [] else [spend.sighashType.toByte])

/-- The items that an input is spent with, the last one on top. -/
abbrev Witness := List (List UInt8)

namespace Witness

def signatureFor (signatures : List (XOnlyKey P × SpendSignature)) (key : XOnlyKey P) :
    Except PolicyError SpendSignature :=
  match signatures.lookup key with
  | some signature => .ok signature
  | none => .error (.missingSignature key.bytes)

/-- The keys whose signatures a leaf's script takes, in the order in which they lie on the stack:
the script checks the required keys from first to last, so the first one's signature is on top. -/
def signingKeys (leaf : Leaf P) : List (XOnlyKey P) :=
  match leaf.kind with
  | .multi => leaf.requiredKeys.reverse
  | .musig aggregate => [aggregate]

def ofLeaf (tree : ScriptTree P) (leaf : Leaf P)
    (signatures : List (XOnlyKey P × SpendSignature)) : Except PolicyError Witness := do
  let block <- tree.controlBlock leaf
  let signed <- (signingKeys leaf).mapM (signatureFor signatures)
  return signed.map SpendSignature.toBytes ++ [leaf.script, block.toBytes]

def ofSignature (signature : SpendSignature) : Witness :=
  [signature.toBytes]

end Witness

namespace Custody

/-- Sign a leaf with each of its required keys that is held in custody, in the leaf's order; `aux`
gives the auxiliary bytes of each signature by its number. -/
def signLeafWith (custody : Custody P) (leaf : Leaf P) (sighash : Bytes32)
    (sighashType : SighashType) (aux : Nat -> Bytes32) :
    Except PolicyError (List (XOnlyKey P × SpendSignature)) :=
  match leaf.kind with
  | .musig _ => .error .musigLeaf
  | .multi => do
      let _ <- custody.openPairs
      (leaf.requiredKeys.filter custody.contains).zipIdx.mapM (fun entry => do
        let pair <- custody.pairFor entry.1
        return (entry.1,
          { signature := Schnorr.sign pair (aux entry.2) sighash
            sighashType := sighashType }))

/-- Sign a leaf with the same auxiliary bytes for every signature. -/
def signLeaf (custody : Custody P) (leaf : Leaf P) (sighash : Bytes32)
    (sighashType : SighashType) (aux : Bytes32) :
    Except PolicyError (List (XOnlyKey P × SpendSignature)) :=
  custody.signLeafWith leaf sighash sighashType (fun _ => aux)

end Custody

namespace ScriptTree

/-- The key pair of the output key: the even one of the owner's secret and its negative, plus the
tweak for the root. -/
def outputPair? (tree : ScriptTree P) (owner : KeyPair P) : Option (KeyPair P) :=
  (tapTweak? owner.xOnly (some tree.merkleRoot)).bind (fun tweak =>
    KeyPair.ofScalar? (Scalar.negateIf owner.publicKey.isOdd owner.secret + tweak))

def signKeyPath (tree : ScriptTree P) (owner : KeyPair P) (sighash : Bytes32)
    (sighashType : SighashType) (aux : Bytes32) : Except PolicyError SpendSignature :=
  match tree.internalKey with
  | .unspendable => .error .unspendable
  | .owner key =>
      if owner.xOnly ≠ key then .error .ownerMismatch
      else
        match tree.outputPair? owner with
        | none => .error .unfinished
        | some pair =>
            .ok
              { signature := Schnorr.sign pair aux sighash
                sighashType := sighashType }

end ScriptTree

end Cosigning
