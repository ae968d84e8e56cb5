import Cosigning.Policy.Threshold
import Cosigning.Script.Instruction

/-!
# Running scripts

A script works on a stack of byte strings.  A signature is checked with the key that
lies on top of it: an empty signature counts nothing, and one that is neither empty
nor valid ends the script.  A script succeeds when it leaves one item, and that item
is true.
-/

namespace Cosigning
namespace Script

abbrev Stack := List (List UInt8)

structure SignatureRule where
  valid : List UInt8 -> List UInt8 -> Bool
  not_valid_nil : forall key : List UInt8, valid [] key = false

/-- What a signature adds to the count, unless it ends the script.  A key that is neither empty nor
of thirty-two bytes is of a kind yet to come, whose signatures are not examined. -/
def SignatureRule.outcome? (rule : SignatureRule) (signature key : List UInt8) : Option Bool :=
  if key.isEmpty then none
  else if signature.isEmpty then some false
  else if key.length ≠ 32 ∨ rule.valid signature key = true then some true
  else none

/-!
## Items
-/

/-- The item that stands for a number: its bytes, the least significant one first, with the sign in
the top bit of the last one. -/
def numberItem (n : Int) : List UInt8 :=
  let sign : UInt8 := if n < 0 then 0x80 else 0
  match (bigEndian 5 n.natAbs).dropWhile (fun byte => decide (byte = 0)) with
  | [] => []
  | top :: rest =>
      if top < 0x80 then ((top ||| sign) :: rest).reverse else (sign :: top :: rest).reverse

def itemNumber? (item : List UInt8) : Option Int :=
  if 4 < item.length then none
  else
    match item.reverse with
    | [] => some 0
    | top :: rest =>
        if top < 0x80 then some (Int.ofNat (ofBigEndian (top :: rest)))
        else some (-Int.ofNat (ofBigEndian ((top - 0x80) :: rest)))

def flagItem (flag : Bool) : List UInt8 :=
  if flag then [1] else []

/-- Whether an item counts as true; zero does not, whatever its sign and its length. -/
def isTrue (item : List UInt8) : Bool :=
  match item.reverse with
  | [] => false
  | top :: rest =>
      decide (top ≠ 0 ∧ top ≠ 0x80) || rest.any (fun byte => decide (byte ≠ 0))

@[simp] theorem isTrue_flagItem (flag : Bool) : isTrue (flagItem flag) = flag := by
  cases flag <;> rfl

def step (rule : SignatureRule) (stack : Stack) : Instruction -> Option Stack
  | .push bytes => some (bytes :: stack)
  | .operation code =>
      if code = checkSignature then
        match stack with
        | key :: signature :: rest =>
            (rule.outcome? signature key).map (fun valid => flagItem valid :: rest)
        | _ => none
      else if code = checkSignatureAdd then
        match stack with
        | key :: count :: signature :: rest => do
            let n <- itemNumber? count
            let valid <- rule.outcome? signature key
            return numberItem (n + Int.ofNat valid.toNat) :: rest
        | _ => none
      else if code = numEqual then
        match stack with
        | second :: first :: rest => do
            let n <- itemNumber? first
            let m <- itemNumber? second
            return flagItem (decide (n = m)) :: rest
        | _ => none
      else (pushedNumber? code).map (fun n => numberItem (Int.ofNat n) :: stack)

def runInstructions (rule : SignatureRule) (stack : Stack)
    (program : List (Except LeafFault Instruction)) : Option Stack :=
  program.foldlM
    (fun stack entry =>
      match entry with
      | .ok instruction => step rule stack instruction
      | .error _ => none)
    stack

def run (rule : SignatureRule) (script : List UInt8) (stack : Stack) : Option Stack :=
  runInstructions rule stack (instructions script)

def accepts (rule : SignatureRule) (script : List UInt8) (stack : Stack) : Bool :=
  match run rule script stack with
  | some [item] => isTrue item
  | _ => false

section

variable {rule : SignatureRule} {stack : Stack} {program : List (Except LeafFault Instruction)}

@[simp] theorem runInstructions_nil : runInstructions rule stack [] = some stack :=
  rfl

@[simp] theorem step_push {bytes : List UInt8} :
    step rule stack (.push bytes) = some (bytes :: stack) :=
  rfl

end

end Script
end Cosigning
