import Cosigning.Key
import Cosigning.Policy.Error

/-!
# Custody of secret keys

A custody holds the secret keys of one signer until it is closed.  A key is found
by its x coordinate, so a secret and its negative share a place, and the one given
last stays.  Closing destroys all keys, and after it every use is refused.
-/

namespace Cosigning

variable {P : Type} [Ciphersuite P]

/-- The secret keys in the care of one signer. -/
inductive Custody (P : Type) [Ciphersuite P] where
  | holding (pairs : List (KeyPair P))
  | closed

namespace Custody

def empty : Custody P :=
  holding []

/-- The keys with one more, which takes the place of a key with its x coordinate and moves to the
end. -/
def keep (pairs : List (KeyPair P)) (pair : KeyPair P) : List (KeyPair P) :=
  pairs.filter (fun other => decide (other.xOnly ≠ pair.xOnly)) ++ [pair]

def ofList (secrets : List (KeyPair P)) : Custody P :=
  holding (secrets.foldl keep [])

def pairs : Custody P -> List (KeyPair P)
  | holding pairs => pairs
  | closed => []

def openPairs : Custody P -> Except PolicyError (List (KeyPair P))
  | holding pairs => .ok pairs
  | closed => .error .custodyClosed

def insert (custody : Custody P) (pair : KeyPair P) : Except PolicyError (Custody P) :=
  custody.openPairs.map (fun pairs => holding (keep pairs pair))

def pairFor (custody : Custody P) (key : XOnlyKey P) : Except PolicyError (KeyPair P) := do
  let pairs <- custody.openPairs
  match pairs.find? (fun pair => decide (pair.xOnly = key)) with
  | some pair => return pair
  | none => throw (.secretNotHeld key.bytes)

def publicKeys (custody : Custody P) : List (XOnlyKey P) :=
  custody.pairs.map KeyPair.xOnly

def contains (custody : Custody P) (key : XOnlyKey P) : Bool :=
  custody.pairs.any (fun pair => decide (pair.xOnly = key))

def size (custody : Custody P) : Nat :=
  custody.pairs.length

def isEmpty (custody : Custody P) : Bool :=
  custody.pairs.isEmpty

def isClosed : Custody P -> Bool
  | holding _ => false
  | closed => true

def close (_ : Custody P) : Custody P :=
  closed

def describe (custody : Custody P) : String :=
  "SignerKeys \x7b public_keys: [" ++
    ", ".intercalate (custody.publicKeys.map XOnlyKey.toHex) ++ "] \x7d"

end Custody

end Cosigning
