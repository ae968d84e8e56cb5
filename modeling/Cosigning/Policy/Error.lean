import Cosigning.Musig.Error

/-!
# Failures of policies, trees and custody

Everything that can go wrong before or beside a signing session.  A failure is a
cause; its kind and its wording are read off the cause.
-/

namespace Cosigning

inductive LeafFault where
  | endOfScript
  | nonMinimalPush
  | malformedKey (index : Nat)
  | missingCheck
  | missingThreshold
  | missingComparison
  | trailingData
  | unexpectedInstruction
  | truncated
  | thresholdMismatch (threshold keys : Nat)
deriving DecidableEq

def LeafFault.text : LeafFault -> String
  | endOfScript => "unexpected end of script"
  | nonMinimalPush => "non-minimal datapush"
  | malformedKey index => s!"key {index}: malformed public key"
  | missingCheck => "key not followed by its signature check"
  | missingThreshold => "missing threshold"
  | missingComparison => "missing OP_NUMEQUAL"
  | trailingData => "trailing data"
  | unexpectedInstruction => "unexpected instruction"
  | truncated => "truncated"
  | thresholdMismatch threshold keys => s!"threshold {threshold} does not match {keys} keys"

inductive BuildFault where
  | depthLimit (depth : Nat)
  /-- A leaf above an unfinished deeper subtree. -/
  | notDepthFirst
  /-- A leaf beside a finished root. -/
  | overComplete
deriving DecidableEq

def BuildFault.text : BuildFault -> String
  | depthLimit depth => s!"Merkle Tree depth({depth}) must be less than 128"
  | notDepthFirst => "add_leaf/add_hidden must be called in DFS walk order"
  | overComplete => "Attempted to create a tree with two nodes at depth 0."

inductive PolicyErrorKind where
  | invalidArgument
  | noUniqueLeaf
  | taproot
  | witness
  | securityViolation
  | musig
deriving DecidableEq

inductive PolicyError where
  | emptyItems
  | subsetSize (size count : Nat)
  | unknownWeighting (text : String)
  | unknownStrategy (text : String)
  | malformedInternalKey (text : String)
  | noKeys
  | tooManyKeys (count : Nat)
  | thresholdRange (threshold count : Nat)
  | duplicateKey (key : Bytes32)
  | leafSize (count : Nat)
  | repeatedKeys (miniscript : String)
  | notLeaf (fault : LeafFault)
  | emptyTree
  | secretNotHeld (key : Bytes32)
  | noUniqueLeaf (signers : List Bytes32) (count : Nat)
  | depthLimit (depth : Nat)
  | addLeaf (index : Nat) (fault : BuildFault)
  /-- Leaves that are no complete tree, or a tweak that leads nowhere. -/
  | unfinished
  | leafNotInTree
  | missingSignature (key : Bytes32)
  | musigLeaf
  | unspendable
  | ownerMismatch
  | custodyClosed
  | musig (cause : Musig.Error)
deriving DecidableEq

namespace PolicyError

def kind : PolicyError -> PolicyErrorKind
  | emptyItems | subsetSize _ _ | unknownWeighting _ | unknownStrategy _
  | malformedInternalKey _ | noKeys | tooManyKeys _ | thresholdRange _ _ | duplicateKey _
  | leafSize _ | repeatedKeys _ | notLeaf _ | emptyTree | secretNotHeld _ => .invalidArgument
  | noUniqueLeaf _ _ => .noUniqueLeaf
  | depthLimit _ | addLeaf _ _ | unfinished | leafNotInTree => .taproot
  | missingSignature _ | musigLeaf | unspendable | ownerMismatch => .witness
  | custodyClosed => .securityViolation
  | musig _ => .musig

def isFatal : PolicyError -> Bool
  | custodyClosed => true
  | musig cause => cause.isFatal
  | _ => false

def detail : PolicyError -> String
  | emptyItems => "cannot enumerate subsets of an empty list"
  | subsetSize size count => s!"subset size {size} out of range 1..={count}"
  | unknownWeighting text =>
      "unknown weighting " ++ Text.quoted text ++ " (expected floor-percent or spread-percent)"
  | unknownStrategy text =>
      "unknown leaf strategy " ++ Text.quoted text ++ " (expected checksigadd or musig)"
  | malformedInternalKey text =>
      "internal key " ++ Text.quoted text ++ ": malformed public key"
  | noKeys => "no signer keys"
  | tooManyKeys count => s!"{count} keys exceeds the maximum of 16"
  | thresholdRange threshold count =>
      s!"threshold {threshold} of {count} keys (must be 2..={count})"
  | duplicateKey key => "duplicate key " ++ key.toHex
  | leafSize count => s!"leaf needs 1..=16 keys, got {count}"
  | repeatedKeys miniscript =>
      "miniscript " ++ miniscript ++ ": Miniscript contains repeated pubkeys or pubkeyhashes"
  | notLeaf fault => "not a checksigadd leaf: " ++ fault.text
  | emptyTree => "tree needs at least one leaf"
  | secretNotHeld key => "no secret key for " ++ key.toHex
  | noUniqueLeaf signers count =>
      s!"Signer set of {signers.length} keys matches {count} leaves, expected exactly one"
  | depthLimit depth => s!"leaf depth {depth} exceeds 128"
  | addLeaf index fault => s!"add leaf {index}: " ++ fault.text
  | unfinished => "taproot finalize failed"
  | leafNotInTree => "leaf is not part of this tree"
  | missingSignature key => "missing signature for " ++ key.toHex
  | musigLeaf => "MuSig leaves are signed with a MusigSession"
  | unspendable => "tree has an unspendable internal key"
  | ownerMismatch => "secret key does not match the internal key"
  | custodyClosed => "signer keys used after close"
  | musig cause => cause.message

def message (e : PolicyError) : String :=
  let label :=
    match e.kind with
    | .invalidArgument => "Invalid argument: "
    | .noUniqueLeaf => ""
    | .taproot => "Taproot construction failed: "
    | .witness => "Witness error: "
    | .securityViolation => "Security violation: "
    | .musig => "MuSig2 error: "
  label ++ e.detail

end PolicyError

end Cosigning
