import Cosigning.Policy.Error

/-!
# Script instructions

A script is a byte string of instructions: pushes of data, in one of four length
forms, and operations of one byte.  Reading insists on the shortest push.
-/

namespace Cosigning
namespace Script

inductive Instruction where
  | push (bytes : List UInt8)
  | operation (code : UInt8)
deriving DecidableEq

def checkSignature : UInt8 := 0xac

def checkSignatureAdd : UInt8 := 0xba

def numEqual : UInt8 := 0x9c

def pushNumber (n : Nat) : UInt8 :=
  UInt8.ofNat (0x50 + n)

def pushedNumber? (code : UInt8) : Option Nat :=
  if 0x51 <= code && code <= 0x60 then some (code.toNat - 0x50) else none

def takeBytes (count : Nat) (bytes : List UInt8) : Except LeafFault (Instruction × List UInt8) :=
  if count <= bytes.length then .ok (.push (bytes.take count), bytes.drop count)
  else .error .endOfScript

/-- Read a push whose length stands in the next `width` bytes and must be at least `least`. -/
def readSizedPush (width least : Nat) (bytes : List UInt8) :
    Except LeafFault (Instruction × List UInt8) :=
  if width <= bytes.length then
    let count := ofLittleEndian (bytes.take width)
    if count < least then .error .nonMinimalPush else takeBytes count (bytes.drop width)
  else .error .endOfScript

/-- Whether a byte has an operation of its own that pushes it. -/
def hasOwnPush (byte : UInt8) : Bool :=
  byte = 0x81 || (1 <= byte && byte <= 16)

def readDirectPush (count : Nat) (bytes : List UInt8) :
    Except LeafFault (Instruction × List UInt8) :=
  if count = 1 && (bytes.head?.map hasOwnPush).getD false then .error .nonMinimalPush
  else takeBytes count bytes

def readInstruction (code : UInt8) (rest : List UInt8) :
    Except LeafFault (Instruction × List UInt8) :=
  if code <= 0x4b then readDirectPush code.toNat rest
  else if code = 0x4c then readSizedPush 1 76 rest
  else if code = 0x4d then readSizedPush 2 0x100 rest
  else if code = 0x4e then readSizedPush 4 0x10000 rest
  else .ok (.operation code, rest)

theorem length_of_takeBytes {count : Nat} {bytes rest : List UInt8} {i : Instruction}
    (h : takeBytes count bytes = .ok (i, rest)) : rest.length <= bytes.length := by
  unfold takeBytes at h
  split at h
  · cases h
    simp
  · cases h

theorem length_of_readSizedPush {width least : Nat} {bytes rest : List UInt8} {i : Instruction}
    (h : readSizedPush width least bytes = .ok (i, rest)) : rest.length <= bytes.length := by
  unfold readSizedPush at h
  split at h
  · dsimp only at h
    split at h
    · cases h
    · have hlen := length_of_takeBytes h
      simp only [List.length_drop] at hlen
      omega
  · cases h

theorem length_of_readInstruction {code : UInt8} {bytes rest : List UInt8} {i : Instruction}
    (h : readInstruction code bytes = .ok (i, rest)) : rest.length <= bytes.length := by
  unfold readInstruction at h
  split at h
  · unfold readDirectPush at h
    split at h
    · cases h
    · exact length_of_takeBytes h
  · split at h
    · exact length_of_readSizedPush h
    · split at h
      · exact length_of_readSizedPush h
      · split at h
        · exact length_of_readSizedPush h
        · cases h
          exact Nat.le_refl _

/-- The instructions of a script in order; a fault ends the list. -/
def instructions : List UInt8 -> List (Except LeafFault Instruction)
  | [] => []
  | code :: rest =>
      match _read : readInstruction code rest with
      | .error fault => [.error fault]
      | .ok (i, after) => .ok i :: instructions after
termination_by script => script.length
decreasing_by
  have hlen := length_of_readInstruction _read
  simp only [List.length_cons]
  omega

end Script
end Cosigning
