import Cosigning.Ensure
import Cosigning.Proofs.Policy.Narrowing
import Cosigning.Proofs.Script.Reading

/-!
# Decoding accepts what compiling writes

An instruction that is read stands in the script in its one form, so the instructions that
decoding goes through determine the script.  Decoding accepts a script exactly if the script is
compiled from the keys that it finds.
-/

namespace Cosigning

variable {P : Type} [Ciphersuite P]

theorem XOnlyKey.ofList?_eq_some_iff {bytes : List UInt8} {key : XOnlyKey P} :
    ofList? bytes = some key <-> bytes = key.bytes.toList := by
  unfold ofList?
  rw [Option.bind_eq_some_iff]
  constructor
  · intro h
    rcases h with ⟨coordinate, hbytes, hkey⟩
    rw [FixedBytes.ofList?_eq_some_iff.mp hbytes, ofBytes?_eq_some_iff.mp hkey]
  · intro h
    exact ⟨key.bytes, FixedBytes.ofList?_eq_some_iff.mpr h, ofBytes?_bytes key⟩

namespace Script

/-!
## What has been read
-/

section

variable {code : UInt8} {rest after bytes : List UInt8} {operation : UInt8}

theorem takeBytes_eq_ok {count : Nat} {i : Instruction}
    (h : takeBytes count rest = .ok (i, after)) :
    i = .push (rest.take count) ∧ (rest.take count).length = count ∧
      rest = rest.take count ++ after := by
  unfold takeBytes at h
  split at h
  · rename_i hcount
    cases h
    exact ⟨rfl, List.length_take_of_le hcount, (List.take_append_drop count rest).symm⟩
  · cases h

theorem readDirectPush_eq_ok {count : Nat} {i : Instruction}
    (h : readDirectPush count rest = .ok (i, after)) :
    takeBytes count rest = .ok (i, after) := by
  unfold readDirectPush at h
  split at h
  · cases h
  · exact h

theorem readSizedPush_eq_ok {width least : Nat} {i : Instruction}
    (h : readSizedPush width least rest = .ok (i, after)) :
    exists data, i = .push data ∧ least <= data.length := by
  unfold readSizedPush at h
  split at h
  · dsimp only at h
    split at h
    · cases h
    · rename_i hleast
      rcases takeBytes_eq_ok h with ⟨hpush, hlength, _⟩
      exact ⟨_, hpush, by omega⟩
  · cases h

theorem readInstruction_eq_push (hlength : bytes.length = 32)
    (h : readInstruction code rest = .ok (.push bytes, after)) :
    code = 0x20 ∧ rest = bytes ++ after := by
  have hsized : forall {width least : Nat}, 32 < least ->
      readSizedPush width least rest ≠ .ok (.push bytes, after) := by
    intro width least hleast hread
    rcases readSizedPush_eq_ok hread with ⟨data, hdata, hle⟩
    cases hdata
    omega
  unfold readInstruction at h
  split at h
  · rcases takeBytes_eq_ok (readDirectPush_eq_ok h) with ⟨hpush, hcount, hrest⟩
    cases hpush
    refine ⟨UInt8.toNat_inj.mp ?_, hrest⟩
    rw [← hcount, hlength]
    rfl
  · split at h
    · exact absurd h (hsized (by decide))
    · split at h
      · exact absurd h (hsized (by decide))
      · split at h
        · exact absurd h (hsized (by decide))
        · cases h

theorem readInstruction_eq_operation
    (h : readInstruction code rest = .ok (.operation operation, after)) :
    code = operation ∧ rest = after := by
  have hsized : forall {width least : Nat},
      readSizedPush width least rest ≠ .ok (.operation operation, after) := by
    intro width least hread
    rcases readSizedPush_eq_ok hread with ⟨data, hdata, _⟩
    cases hdata
  unfold readInstruction at h
  split at h
  · rcases takeBytes_eq_ok (readDirectPush_eq_ok h) with ⟨hpush, _, _⟩
    cases hpush
  · split at h
    · exact absurd h hsized
    · split at h
      · exact absurd h hsized
      · split at h
        · exact absurd h hsized
        · cases h
          exact ⟨rfl, rfl⟩

end

section

variable {script : List UInt8} {i : Instruction} {others : List (Except LeafFault Instruction)}

theorem instructions_nil : instructions [] = [] := by
  rw [instructions]

theorem instructions_eq_cons (h : instructions script = .ok i :: others) :
    exists code rest after, script = code :: rest ∧
      readInstruction code rest = .ok (i, after) ∧ instructions after = others := by
  cases script with
  | nil =>
      rw [instructions_nil] at h
      cases h
  | cons code rest =>
      rw [instructions] at h
      split at h
      · cases h
      · rename_i read after hread
        cases h
        exact ⟨code, rest, after, rfl, hread, rfl⟩

theorem instructions_eq_nil (h : instructions script = []) : script = [] := by
  cases script with
  | nil => rfl
  | cons code rest =>
      rw [instructions] at h
      split at h <;> cases h

theorem instructions_eq_push {key : XOnlyKey P}
    (h : instructions script = .ok (.push key.bytes.toList) :: others) :
    exists rest, script = pushKey key ++ rest ∧ instructions rest = others := by
  rcases instructions_eq_cons h with ⟨code, rest, after, rfl, hread, hafter⟩
  rcases readInstruction_eq_push key.bytes.length_toList hread with ⟨rfl, rfl⟩
  exact ⟨after, rfl, hafter⟩

theorem instructions_eq_operation {operation : UInt8}
    (h : instructions script = .ok (.operation operation) :: others) :
    exists rest, script = operation :: rest ∧ instructions rest = others := by
  rcases instructions_eq_cons h with ⟨code, rest, after, rfl, hread, hafter⟩
  rcases readInstruction_eq_operation hread with ⟨rfl, rfl⟩
  exact ⟨rest, rfl, hafter⟩

end

/-!
## Decoding
-/

def nextCheck (before : List (XOnlyKey P)) : UInt8 :=
  if before.isEmpty then checkSignature else checkSignatureAdd

def moreChecks : List (XOnlyKey P) -> List (XOnlyKey P) -> List UInt8
  | _, [] => []
  | before, key :: more => pushKey key ++ nextCheck before :: moreChecks (before ++ [key]) more

theorem moreChecks_of_ne_nil {before : List (XOnlyKey P)} (h : before ≠ [])
    (more : List (XOnlyKey P)) : moreChecks before more = laterChecks more := by
  induction more generalizing before with
  | nil => rfl
  | cons key more ih =>
      have hbefore : before.isEmpty = false := List.isEmpty_eq_false_iff.mpr h
      rw [moreChecks, ih (List.append_ne_nil_of_right_ne_nil before (List.cons_ne_nil key [])),
        laterChecks_cons, nextCheck, hbefore]
      rfl

theorem moreChecks_nil (keys : List (XOnlyKey P)) : moreChecks [] keys = keyChecks keys := by
  cases keys with
  | nil => rfl
  | cons key more =>
      rw [moreChecks, List.nil_append, moreChecks_of_ne_nil (List.cons_ne_nil key []),
        keyChecks_cons]
      rfl

theorem operation_lt_nextCheck (before : List (XOnlyKey P)) : 0x4e < nextCheck before := by
  unfold nextCheck
  split <;> decide

theorem pushedNumber?_pushNumber {n : Nat} (hpos : 1 <= n) (hle : n <= maxKeys) :
    pushedNumber? (pushNumber n) = some n := by
  have hall : forall k : Fin (maxKeys + 1), 1 <= k.val ->
      pushedNumber? (pushNumber k.val) = some k.val := by
    decide
  exact hall ⟨n, Nat.lt_succ_of_le hle⟩ hpos

theorem of_pushedNumber?_eq_some {code : UInt8} {n : Nat} (h : pushedNumber? code = some n) :
    n <= maxKeys ∧ code = pushNumber n := by
  unfold pushedNumber? at h
  split at h
  · rename_i hrange
    rw [Bool.and_eq_true, decide_eq_true_eq, decide_eq_true_eq, UInt8.le_iff_toNat_le,
      UInt8.le_iff_toNat_le] at hrange
    change 81 <= code.toNat ∧ code.toNat <= 96 at hrange
    cases h
    unfold maxKeys pushNumber
    refine ⟨by omega, UInt8.toNat_inj.mp ?_⟩
    rw [UInt8.toNat_ofNat']
    omega
  · cases h

theorem decodeEnd_eq_ok_iff {script : List UInt8} :
    decodeEnd (instructions script) = .ok () <-> script = [numEqual] := by
  constructor
  · intro h
    unfold decodeEnd at h
    split at h
    · rename_i code rest hscript
      split at h
      · cases h
      · rename_i hcode
        split at h
        · rename_i hrest
          rcases instructions_eq_operation hscript with ⟨after, rfl, hafter⟩
          rw [List.isEmpty_iff] at hrest
          rw [hrest] at hafter
          rw [instructions_eq_nil hafter, not_not.mp hcode]
        · cases h
    · cases h
  · intro h
    rw [h, instructions_operation (by decide), instructions_nil]
    rfl

theorem decodeFrom_instructions {before more : List (XOnlyKey P)} (hne : before ++ more ≠ [])
    (hle : (before ++ more).length <= maxKeys) :
    decodeFrom before (instructions
        (moreChecks before more ++ [pushNumber (before ++ more).length, numEqual])) =
      .ok (before ++ more, (before ++ more).length) := by
  induction more generalizing before with
  | nil =>
      rw [List.append_nil] at hne hle ⊢
      have hbefore : before.isEmpty = false := List.isEmpty_eq_false_iff.mpr hne
      rw [moreChecks, List.nil_append, instructions_operation (operation_lt_pushNumber hle),
        decodeFrom, hbefore, pushedNumber?_pushNumber (List.length_pos_iff.mpr hne) hle,
        decodeEnd_eq_ok_iff.mpr rfl]
      simp [Except.bind]
  | cons key more ih =>
      have hkey : XOnlyKey.ofList? key.bytes.toList = some key :=
        XOnlyKey.ofList?_eq_some_iff.mpr rfl
      rw [List.append_cons before key more] at hne hle ⊢
      rw [moreChecks, List.append_assoc, List.cons_append,
        instructions_check (operation_lt_nextCheck before), checkInstructions, List.cons_append,
        List.cons_append, List.nil_append, decodeFrom, if_pos key.bytes.length_toList, hkey]
      dsimp only
      rw [nextCheck, if_pos rfl]
      exact ih hne hle

theorem of_decodeFrom_eq_ok {before keys : List (XOnlyKey P)} {script : List UInt8}
    {threshold : Nat} (h : decodeFrom before (instructions script) = .ok (keys, threshold)) :
    exists more, keys = before ++ more ∧ keys ≠ [] ∧ keys.length <= maxKeys ∧
      threshold = keys.length ∧
      script = moreChecks before more ++ [pushNumber threshold, numEqual] := by
  generalize hlist : instructions script = list at h
  -- One more key with its check and the threshold are what can be read; the rest are faults.
  fun_induction decodeFrom before list generalizing script with
  | case4 before bytes _ others key hkey ih =>
      rcases XOnlyKey.ofList?_eq_some_iff.mp hkey with rfl
      rcases instructions_eq_push hlist with ⟨_, rfl, hcheck⟩
      rcases instructions_eq_operation hcheck with ⟨rest, rfl, hothers⟩
      rcases ih hothers h with ⟨more, hkeys, hne, hle, hthreshold, rfl⟩
      refine ⟨key :: more, ?_, hne, hle, hthreshold, ?_⟩
      · rw [hkeys, ← List.append_cons]
      · rw [moreChecks, List.append_assoc]
        rfl
  | case10 before code others hbefore number hnumber =>
      rcases of_pushedNumber?_eq_some hnumber with ⟨hle, rfl⟩
      rcases instructions_eq_operation hlist with ⟨rest, rfl, rfl⟩
      rcases bind_eq_ok_iff.mp h with ⟨_, hend, h⟩
      rw [decodeEnd_eq_ok_iff.mp hend]
      split at h
      · rename_i hcount
        cases h
        refine ⟨[], (List.append_nil _).symm, ?_, hcount ▸ hle, hcount, rfl⟩
        exact fun hnil => hbefore (List.isEmpty_iff.mpr hnil)
      · cases h
  | _ => cases h

theorem decodeFrom_nil_eq_ok_iff {script : List UInt8} {keys : List (XOnlyKey P)}
    {threshold : Nat} :
    decodeFrom [] (instructions script) = .ok (keys, threshold) <->
      compileChecks keys = .ok script ∧ threshold = keys.length := by
  rw [compileChecks_eq_ok_iff]
  constructor
  · intro h
    rcases of_decodeFrom_eq_ok h with ⟨more, rfl, hne, hle, rfl, rfl⟩
    rw [moreChecks_nil]
    exact ⟨⟨hne, hle, rfl⟩, rfl⟩
  · intro h
    rcases h with ⟨⟨hne, hle, rfl⟩, rfl⟩
    rw [allSign, ← moreChecks_nil]
    exact decodeFrom_instructions hne hle

theorem decodeChecks_eq_ok_iff {script : List UInt8} {keys : List (XOnlyKey P)}
    {threshold : Nat} :
    decodeChecks script = .ok (keys, threshold) <->
      compileChecks keys = .ok script ∧ threshold = keys.length := by
  rw [← decodeFrom_nil_eq_ok_iff, decodeChecks, mapError_eq_ok_iff]

/-- Scripts of separate checks and the lists of one to sixteen keys stand for each other.  Decoding
finds keys and a threshold exactly in the script that these keys compile to, and the threshold is
their number; each such list has its own script; and every other byte string is refused as
no leaf. -/
theorem decodeChecks_inverts_compileChecks :
    (forall (script : List UInt8) (keys : List (XOnlyKey P)) (threshold : Nat),
      decodeChecks script = .ok (keys, threshold) <->
        compileChecks keys = .ok script ∧ threshold = keys.length) ∧
    (forall keys : List (XOnlyKey P), 1 <= keys.length -> keys.length <= 16 ->
      exists script, compileChecks keys = .ok script ∧
        decodeChecks script = .ok (keys, keys.length)) ∧
    (forall (keys others : List (XOnlyKey P)) (script : List UInt8),
      compileChecks keys = .ok script -> compileChecks others = .ok script -> keys = others) ∧
    (forall script : List UInt8, (forall keys : List (XOnlyKey P), compileChecks keys ≠ .ok script) ->
      exists fault, decodeChecks (P := P) script = .error (.notLeaf fault)) := by
  refine ⟨fun _ _ _ => decodeChecks_eq_ok_iff, ?_, ?_, ?_⟩
  · intro keys hpos hle
    have hcompile : compileChecks keys = .ok (allSign keys) :=
      compileChecks_eq_ok_iff.mpr ⟨List.length_pos_iff.mp hpos, hle, rfl⟩
    exact ⟨_, hcompile, decodeChecks_eq_ok_iff.mpr ⟨hcompile, rfl⟩⟩
  · intro keys others script hkeys hothers
    apply allSign_injective
    rw [← (compileChecks_eq_ok_iff.mp hkeys).2.2, ← (compileChecks_eq_ok_iff.mp hothers).2.2]
  · intro script hscript
    cases hfound : decodeFrom (P := P) [] (instructions script) with
    | error fault =>
        refine ⟨fault, ?_⟩
        rw [decodeChecks, hfound]
        rfl
    | ok found =>
        exact absurd (decodeFrom_nil_eq_ok_iff.mp hfound).1 (hscript found.1)

theorem decodeChecks_three_keys :
    (exists script, compileChecks threeKeys = .ok script ∧
      decodeChecks script = .ok (threeKeys, 3)) ∧
    exists fault, decodeChecks (P := Secp256k1.Point) (0x4c :: allSign threeKeys) =
      .error (.notLeaf fault) := by
  rcases decodeChecks_inverts_compileChecks (P := Secp256k1.Point) with ⟨_, hdecodes, _, hrefuses⟩
  refine ⟨hdecodes threeKeys (by decide) (by decide), hrefuses _ ?_⟩
  intro keys hkeys
  rcases compileChecks_eq_ok_iff.mp hkeys with ⟨hne, _, hscript⟩
  cases keys with
  | nil => exact hne rfl
  | cons key others => exact absurd (List.cons.inj hscript).1 (by decide)

end Script
end Cosigning
