import Cosigning.Musig.Error
import Cosigning.Repeat
import Cosigning.TapTweak

/-!
# Key aggregation

The keys of an ordered list of participants are added up, each times a
coefficient that depends on the whole list, so that nobody can choose a key to
cancel out the others.  The sum may then be tweaked; the context remembers what
the signers must know of the tweaks: whether the keys are negated and which
multiple of the base point was added.
-/

namespace Cosigning
namespace Musig

open Ciphersuite

variable {P : Type} [Ciphersuite P]

def keyListDigest (keys : List (PublicKey P)) : Bytes32 :=
  hash (P := P) .keyList (keys.flatMap PublicKey.toBytes)

def secondKey? : List (PublicKey P) -> Option (PublicKey P)
  | [] => none
  | first :: rest => rest.find? (fun key => decide (key ≠ first))

/-- The coefficient of a key in a list: one for the second key, otherwise a digest. -/
def coefficient (keys : List (PublicKey P)) (key : PublicKey P) : Scalar :=
  if secondKey? keys = some key then 1
  else
    Scalar.reduce
      (hash (P := P) .keyCoefficient ((keyListDigest keys).toList ++ key.toBytes))

def aggregatePoint (keys : List (PublicKey P)) : P :=
  Ciphersuite.sum (keys.map (fun key => scale (coefficient keys key) key.point))

inductive Tweak where
  | plain (amount : Scalar)
  | xOnly (amount : Scalar)
  | taproot (root : Option Bytes32)
deriving DecidableEq

structure KeyContext (P : Type) [Ciphersuite P] where
  keys : List (PublicKey P)
  aggregate : PublicKey P
  /-- Whether the tweaks have negated the sum of the keys. -/
  negated : Bool
  /-- The multiple of the base point that the tweaks have added. -/
  offset : Scalar
deriving DecidableEq

namespace KeyContext

def ofKeys (keys : List (PublicKey P)) : Except Error (KeyContext P) :=
  if keys.isEmpty then .error .noParticipants
  else
    match firstRepeat? (keys.map PublicKey.xOnly) with
    | some key => .error (.duplicateParticipant key.bytes)
    | none =>
        match PublicKey.ofPoint? (aggregatePoint keys) with
        | none => .error .aggregateAtInfinity
        | some aggregate =>
            .ok { keys := keys, aggregate := aggregate, negated := false, offset := 0 }

def addPlain (context : KeyContext P) (amount : Scalar) : Except Error (KeyContext P) :=
  match PublicKey.ofPoint? (context.aggregate.point + scale amount base) with
  | none => .error .invalidTweak
  | some aggregate =>
      .ok { context with aggregate := aggregate, offset := context.offset + amount }

def addXOnly (context : KeyContext P) (amount : Scalar) : Except Error (KeyContext P) :=
  let odd := context.aggregate.isOdd
  match PublicKey.ofPoint? (negateIf odd context.aggregate.point + scale amount base) with
  | none => .error .invalidTweak
  | some aggregate =>
      .ok
        { context with
          aggregate := aggregate
          negated := context.negated ^^ odd
          offset := Scalar.negateIf odd context.offset + amount }

def apply (context : KeyContext P) : Tweak -> Except Error (KeyContext P)
  | .plain amount => if amount = 0 then .error .zeroTweak else context.addPlain amount
  | .xOnly amount => if amount = 0 then .error .zeroTweak else context.addXOnly amount
  | .taproot root =>
      match tapTweak? context.aggregate.xOnly root with
      | none => .error .invalidTweak
      | some amount => context.addXOnly amount

end KeyContext

def aggregateXOnly (keys : List (XOnlyKey P)) : Except Error (XOnlyKey P) :=
  (KeyContext.ofKeys (keys.map XOnlyKey.lift)).map (fun context => context.aggregate.xOnly)

end Musig
end Cosigning
