import Cosigning.Policy.Error

/-!
# Leaf weights

A weight says how likely a leaf is to be used.  The named weightings share one
hundred among the leaves: evenly, dropping the remainder, or handing the
remainder to the first leaves.
-/

namespace Cosigning

/-- A rule that gives the weight of a leaf from its index and the number of leaves. -/
abbrev WeightRule := Nat -> Nat -> UInt32

def WeightRule.weights (rule : WeightRule) (count : Nat) : List UInt32 :=
  (List.range count).map (fun index => rule index count)

def WeightRule.ofTable (table : List UInt32) : WeightRule :=
  fun index _ => table.getD index 0

inductive Weighting where
  /-- An equal whole part of one hundred for each leaf. -/
  | floorPercent
  /-- Equal parts, with the remainder handed out one by one from the first leaf on. -/
  | spreadPercent
deriving DecidableEq

namespace Weighting

def standard : Weighting :=
  floorPercent

def name : Weighting -> String
  | floorPercent => "floor-percent"
  | spreadPercent => "spread-percent"

def ofName (text : String) : Except PolicyError Weighting :=
  if text = floorPercent.name then .ok floorPercent
  else if text = spreadPercent.name then .ok spreadPercent
  else .error (.unknownWeighting text)

def weight : Weighting -> WeightRule
  | floorPercent, _, count => UInt32.ofNat (100 / count)
  | spreadPercent, index, count =>
      if count = 0 then 0
      else UInt32.ofNat (100 / count + if index < 100 % count then 1 else 0)

end Weighting

end Cosigning
