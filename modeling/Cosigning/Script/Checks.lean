import Cosigning.Policy.Threshold
import Cosigning.Script.Instruction

/-!
# Scripts of separate signature checks

Such a script asks for a signature under each of its keys, counts the valid ones
and compares the count with the number of keys:

    key 0, CHECKSIG, key 1, CHECKSIGADD, ..., key k-1, CHECKSIGADD, k, NUMEQUAL

Decoding accepts exactly the scripts that compiling writes.
-/

namespace Cosigning
namespace Script

variable {P : Type} [Ciphersuite P]

def pushKey (key : XOnlyKey P) : List UInt8 :=
  0x20 :: key.bytes.toList

def keyChecks : List (XOnlyKey P) -> List UInt8
  | [] => []
  | first :: others =>
      pushKey first ++ checkSignature ::
        others.flatMap (fun key => pushKey key ++ [checkSignatureAdd])

def allSign (keys : List (XOnlyKey P)) : List UInt8 :=
  keyChecks keys ++ [pushNumber keys.length, numEqual]

def oneSigns (key : XOnlyKey P) : List UInt8 :=
  pushKey key ++ [checkSignature]

def compileChecks (keys : List (XOnlyKey P)) : Except PolicyError (List UInt8) :=
  if keys.isEmpty ∨ maxKeys < keys.length then .error (.leafSize keys.length)
  else .ok (allSign keys)

def decodeEnd : List (Except LeafFault Instruction) -> Except LeafFault Unit
  | .ok (.operation code) :: rest =>
      if code ≠ numEqual then .error .missingComparison
      else if rest.isEmpty then .ok ()
      else .error .trailingData
  | _ => .error .missingComparison

/-- Read keys with their checks, then the threshold; `keys` holds those read before. -/
def decodeFrom (keys : List (XOnlyKey P)) :
    List (Except LeafFault Instruction) -> Except LeafFault (List (XOnlyKey P) × Nat)
  | [] => .error .truncated
  | .error fault :: _ => .error fault
  | .ok (.push bytes) :: rest =>
      if bytes.length = 32 then
        match XOnlyKey.ofList? bytes with
        | none => .error (.malformedKey keys.length)
        | some key =>
            match rest with
            | .ok (.operation code) :: rest =>
                if code = (if keys.isEmpty then checkSignature else checkSignatureAdd) then
                  decodeFrom (keys ++ [key]) rest
                else .error .missingCheck
            | _ => .error .missingCheck
      else .error .unexpectedInstruction
  | .ok (.operation code) :: rest =>
      if keys.isEmpty then .error .unexpectedInstruction
      else
        match pushedNumber? code with
        | none => .error .missingThreshold
        | some threshold =>
            (decodeEnd rest).bind (fun _ =>
              if threshold = keys.length then .ok (keys, threshold)
              else .error (.thresholdMismatch threshold keys.length))

def decodeChecks (script : List UInt8) : Except PolicyError (List (XOnlyKey P) × Nat) :=
  (decodeFrom [] (instructions script)).mapError PolicyError.notLeaf

end Script
end Cosigning
