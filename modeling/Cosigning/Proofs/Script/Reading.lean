import Cosigning.Proofs.Script.LeafScripts

/-!
# Reading a script of separate signature checks

Each key is read as a push of its thirty-two bytes and each check as one operation, so
the script is read as the instructions that it was written for.
-/

namespace Cosigning
namespace Script

variable {P : Type} [Ciphersuite P]

theorem takeBytes_append (bytes rest : List UInt8) :
    takeBytes bytes.length (bytes ++ rest) = .ok (.push bytes, rest) := by
  unfold takeBytes
  rw [if_pos (by rw [List.length_append]; omega), List.take_left, List.drop_left]

theorem readInstruction_pushKey (key : XOnlyKey P) (rest : List UInt8) :
    readInstruction 0x20 (key.bytes.toList ++ rest) =
      .ok (.push key.bytes.toList, rest) := by
  have htake := takeBytes_append key.bytes.toList rest
  rw [key.bytes.length_toList] at htake
  exact htake

theorem readInstruction_operation {code : UInt8} (h : 0x4e < code) (rest : List UInt8) :
    readInstruction code rest = .ok (.operation code, rest) := by
  have hlt : 78 < code.toNat := UInt8.lt_iff_toNat_lt.mp h
  have hdirect : ¬ code <= 0x4b := by
    rw [UInt8.le_iff_toNat_le]
    change ¬ code.toNat <= 75
    omega
  have hne : forall sized : UInt8, sized.toNat <= 78 -> code ≠ sized := by
    intro sized hsized heq
    rw [heq] at hlt
    omega
  unfold readInstruction
  rw [if_neg hdirect, if_neg (hne 0x4c (by decide)), if_neg (hne 0x4d (by decide)),
    if_neg (hne 0x4e (by decide))]

theorem instructions_cons_of_read {code : UInt8} {rest after : List UInt8} {i : Instruction}
    (h : readInstruction code rest = .ok (i, after)) :
    instructions (code :: rest) = .ok i :: instructions after := by
  rw [instructions]
  split
  · rename_i fault hread
    rw [h] at hread
    cases hread
  · rename_i read left hread
    rw [h] at hread
    cases hread
    rfl

theorem instructions_pushKey (key : XOnlyKey P) (rest : List UInt8) :
    instructions (pushKey key ++ rest) = .ok (.push key.bytes.toList) :: instructions rest :=
  instructions_cons_of_read (readInstruction_pushKey key rest)

theorem instructions_operation {code : UInt8} (h : 0x4e < code) (rest : List UInt8) :
    instructions (code :: rest) = .ok (.operation code) :: instructions rest :=
  instructions_cons_of_read (readInstruction_operation h rest)

def checkInstructions (operation : UInt8) (key : XOnlyKey P) :
    List (Except LeafFault Instruction) :=
  [.ok (.push key.bytes.toList), .ok (.operation operation)]

theorem instructions_check {operation : UInt8} (h : 0x4e < operation) (key : XOnlyKey P)
    (rest : List UInt8) :
    instructions (pushKey key ++ operation :: rest) =
      checkInstructions operation key ++ instructions rest := by
  rw [instructions_pushKey, instructions_operation h]
  rfl

theorem operation_lt_pushNumber {n : Nat} (h : n <= maxKeys) : 0x4e < pushNumber n := by
  have hall : forall k : Fin (maxKeys + 1), 0x4e < pushNumber k.val := by
    decide
  exact hall ⟨n, Nat.lt_succ_of_le h⟩

end Script
end Cosigning
