import Cosigning.Proofs.Musig.SessionRun
import Cosigning.Proofs.Script.Satisfaction

/-!
# The joint key of signers

A session, a leaf of a joint check and a script tree each compute a key of their own from
the same signers' keys.  They agree, whatever the parities of the points are: a signature
of the session is the one that the leaf takes, and a session that is tweaked with the root
of a tree signs for the tree's output key.
-/

namespace Cosigning

open Ciphersuite

variable {P : Type} [Ciphersuite P]

namespace Script

theorem instructions_oneSigns (key : XOnlyKey P) :
    instructions (oneSigns key) = checkInstructions checkSignature key := by
  have hend : instructions [] = [] := by
    rw [instructions]
  rw [oneSigns, instructions_check (by decide), hend, List.append_nil]

end Script

namespace Musig

theorem KeyContext.apply_taproot {context : KeyContext P} {root : Bytes32} {key : PublicKey P}
    (h : tweakedKey context.aggregate.xOnly root = some key) :
    exists next, context.apply (.taproot (some root)) = .ok next ∧ next.aggregate = key := by
  rcases Option.bind_eq_some_iff.mp h with ⟨tweak, htweak, hkey⟩
  rw [XOnlyKey.lift_xOnly] at hkey
  simp only [KeyContext.apply, htweak, KeyContext.addXOnly, hkey]
  exact ⟨_, rfl, rfl⟩

theorem aggregateXOnly_eq_ok_iff {keys : List (XOnlyKey P)} {aggregate : XOnlyKey P} :
    aggregateXOnly keys = .ok aggregate <->
      exists context, KeyContext.ofKeys (keys.map XOnlyKey.lift) = .ok context ∧
        context.aggregate.xOnly = aggregate :=
  map_eq_ok_iff

theorem exists_aggregateXOnly {keys : List (XOnlyKey P)} (hne : keys ≠ []) (hnodup : keys.Nodup)
    (hfinite : aggregatePoint (keys.map XOnlyKey.lift) ≠ 0) :
    exists aggregate, aggregateXOnly keys = .ok aggregate := by
  have hsame : (keys.map XOnlyKey.lift).map PublicKey.xOnly = keys := by
    rw [List.map_map]
    exact List.map_id'' XOnlyKey.xOnly_lift keys
  rcases KeyContext.exists_ofKeys (by simpa using hne) (by rwa [hsame]) hfinite with
    ⟨context, hcontext⟩
  exact ⟨_, aggregateXOnly_eq_ok_iff.mpr ⟨context, hcontext, rfl⟩⟩

namespace Session

variable {session : Session P}

theorem WellFormed.aggregateXOnly_of_tweaks_eq_nil (h : session.WellFormed)
    (htweaks : session.tweaks = []) : session.aggregateXOnly = session.untweakedKey := by
  rcases h.untweaked with ⟨original, horiginal, huntweaked⟩
  have hcontext := h.context
  rw [htweaks, KeyContext.tweaked, horiginal] at hcontext
  cases hcontext
  exact huntweaked.symm

def Produces (session : Session P) (signature : Schnorr.Signature) : Prop :=
  (exists partials next, session.aggregate partials = .ok (signature, next)) ∨
    exists incomplete pair next, session.adapt incomplete pair = .ok (signature, next)

theorem Produces.verify {signature : Schnorr.Signature} (h : session.Produces signature) :
    Schnorr.verify session.aggregateXOnly session.message signature = true := by
  rcases h with ⟨partials, _, haggregate⟩ | ⟨incomplete, pair, _, hadapt⟩
  · rcases aggregate_eq_ok_iff.mp haggregate with ⟨_, _, _, _, _, _, _, hverify, _⟩
    exact hverify
  · rcases adapt_eq_ok_iff.mp hadapt with ⟨_, _, _, hverify, _⟩
    exact hverify

end Session

end Musig

open Musig

/-!
## Leaves of a joint check
-/

theorem compileJoint_eq_ok {keys : List (XOnlyKey P)} {aggregate : XOnlyKey P}
    (hpos : 1 <= keys.length) (hle : keys.length <= 16)
    (h : aggregateXOnly keys = .ok aggregate) :
    compileJoint keys = .ok (Script.oneSigns aggregate, aggregate) := by
  have hsize : ¬ (keys.isEmpty ∨ maxKeys < keys.length) := by
    rw [not_or, List.isEmpty_iff]
    exact ⟨List.length_pos_iff.mp hpos, Nat.not_lt.mpr hle⟩
  unfold compileJoint
  rw [if_neg hsize, h]

theorem Leaf.compile_jointCheck_eq_ok_iff {keys : List (XOnlyKey P)} {weight : UInt32}
    {leaf : Leaf P} :
    Leaf.compile keys .jointCheck weight = .ok leaf <->
      exists script aggregate, compileJoint keys = .ok (script, aggregate) ∧
        leaf =
          { weight := weight
            requiredKeys := keys
            script := script
            kind := .musig aggregate } := by
  unfold Leaf.compile
  rw [map_eq_ok_iff, Prod.exists]
  simp only [eq_comm]

theorem Witness.ofLeaf_of_musig {tree : ScriptTree P} {leaf : Leaf P} {block : ControlBlock P}
    {aggregate : XOnlyKey P} {signatures : List (XOnlyKey P × SpendSignature)}
    {spend : SpendSignature} (hblock : tree.controlBlock leaf = .ok block)
    (hkind : leaf.kind = .musig aggregate)
    (hlookup : signatures.lookup aggregate = some spend) :
    Witness.ofLeaf tree leaf signatures =
      .ok [spend.toBytes, leaf.script, block.toBytes] := by
  have hsigned := mapM_signatureFor (.cons hlookup .nil)
  unfold ofLeaf signingKeys
  rw [hblock, hkind]
  change ([aggregate].mapM (signatureFor signatures) >>= _) = _
  rw [hsigned]
  rfl

/-- One key stands for the signers everywhere: a session signs for the key that a leaf of a joint
check pushes, so that its signature is the one that the leaf's witness takes; and tweaked with the
root of a tree that has this internal key, it signs for the tree's output key. -/
theorem joint_keys_agree {keys : List (XOnlyKey P)} {aggregate : XOnlyKey P}
    (hpos : 1 <= keys.length) (hle : keys.length <= 16)
    (h : aggregateXOnly keys = .ok aggregate) (id : SessionId) (message : Bytes32) :
    exists session : Session P, Session.ofXOnly id keys message = .ok session ∧
      session.untweakedKey = aggregate ∧ session.aggregateXOnly = aggregate ∧
      compileJoint keys = .ok (Script.oneSigns aggregate, aggregate) ∧
      Script.instructions (Script.oneSigns aggregate) =
        [.ok (.push aggregate.bytes.toList), .ok (.operation Script.checkSignature)] ∧
      (forall (weight : UInt32) (leaf : Leaf P) (internalKey : InternalKey P)
        (leaves : List (Leaf P)) (tree : ScriptTree P),
        Leaf.compile keys .jointCheck weight = .ok leaf ->
        ScriptTree.ofLeaves internalKey leaves = .ok tree -> leaf ∈ leaves ->
        exists block, tree.controlBlock leaf = .ok block ∧
          forall operations, (session.run operations).tweaks = [] ->
          forall signature, (session.run operations).Produces signature ->
            Schnorr.verify aggregate message signature = true ∧
            forall (type : SighashType) (signatures : List (XOnlyKey P × SpendSignature)),
              signatures.lookup (session.run operations).aggregateXOnly =
                some { signature := signature, sighashType := type } ->
              Witness.ofLeaf tree leaf signatures =
                .ok [SpendSignature.toBytes { signature := signature, sighashType := type },
                  Script.oneSigns aggregate, block.toBytes]) ∧
      (forall (leaves : List (Leaf P)) (tree : ScriptTree P),
        ScriptTree.ofLeaves (.owner aggregate) leaves = .ok tree ->
        exists tweaked, session.applyTweak (.taproot (some tree.merkleRoot)) = .ok tweaked ∧
          tweaked.aggregateKey = tree.outputKey ∧
          tweaked.aggregateXOnly = tree.outputXOnly) := by
  rcases aggregateXOnly_eq_ok_iff.mp h with ⟨context, hcontext, haggregate⟩
  have hcompile := compileJoint_eq_ok hpos hle h
  have hstart : (Roster.xOnly keys).start id message = .ok _ :=
    Session.ofKeys_eq_ok_iff.mpr ⟨context, hcontext, rfl⟩
  refine ⟨_, hstart, haggregate, haggregate, hcompile, Script.instructions_oneSigns aggregate,
    ?_, ?_⟩
  · intro weight leaf internalKey leaves tree hleaf htree hmem
    rcases Leaf.compile_jointCheck_eq_ok_iff.mp hleaf with ⟨script, own, hown, rfl⟩
    rw [hcompile] at hown
    cases hown
    rcases ScriptTree.controlBlock_of_script_mem htree ⟨_, hmem, rfl⟩ with ⟨block, hblock⟩
    refine ⟨block, hblock, ?_⟩
    intro operations htweaks signature hproduces
    -- Whatever was tried in between, the session keeps its untweaked key and its message.
    rcases (Session.wellFormed_of_start hstart).run operations with ⟨hwellFormed, hfollows⟩
    have hkey := hwellFormed.aggregateXOnly_of_tweaks_eq_nil htweaks
    rw [hfollows.untweakedKey] at hkey
    have hverify := hproduces.verify
    rw [hfollows.message] at hverify
    rw [hkey] at hverify ⊢
    dsimp only at hverify ⊢
    rw [haggregate] at hverify ⊢
    refine ⟨hverify, ?_⟩
    intro type signatures hlookup
    exact Witness.ofLeaf_of_musig hblock rfl hlookup
  · intro leaves tree htree
    rcases ScriptTree.outputKey_of_ofLeaves htree with ⟨hinternal, houtput⟩
    cases hinternal
    rw [← haggregate] at houtput
    rcases KeyContext.apply_taproot houtput with ⟨next, hnext, hkey⟩
    refine ⟨_, Session.applyTweak_eq_ok_iff.mpr ⟨rfl, next, hnext, rfl⟩, hkey, ?_⟩
    exact congrArg PublicKey.xOnly hkey

def jointKeys : List (XOnlyKey Exponent) :=
  [(Exponent.pair 2).xOnly, (Exponent.pair 5).xOnly]

theorem isSome_aggregateXOnly_jointKeys :
    (aggregateXOnly jointKeys).toOption.isSome = true := by
  decide +kernel

def jointKey : XOnlyKey Exponent :=
  (aggregateXOnly jointKeys).toOption.get isSome_aggregateXOnly_jointKeys

def jointLeaf : Leaf Exponent :=
  { weight := 1
    requiredKeys := jointKeys
    script := Script.oneSigns jointKey
    kind := .musig jointKey }

theorem joint_keys_agree_jointKeys :
    (KeyContext.ofKeys (jointKeys.map XOnlyKey.lift)).toOption.map
        (fun context => context.aggregate.isOdd) = some true ∧
      exists session tweaked tree,
        Session.ofXOnly (FixedBytes.ofNat 32 1) jointKeys (FixedBytes.ofNat 32 9) = .ok session ∧
          session.aggregateXOnly = jointKey ∧
          ScriptTree.ofLeaves (.owner jointKey) [jointLeaf] = .ok tree ∧
          session.applyTweak (.taproot (some tree.merkleRoot)) = .ok tweaked ∧
          tweaked.aggregateXOnly = tree.outputXOnly := by
  have houtput : (tweakedKey jointKey jointLeaf.digest).isSome = true := by
    decide +kernel
  have hinternal : (InternalKey.owner jointKey).xOnly? = some jointKey := rfl
  rcases ScriptTree.exists_ofLeaves_singleton hinternal (Option.some_get houtput).symm with
    ⟨tree, htree⟩
  rcases joint_keys_agree (by decide) (by decide)
    (eq_ok_get_toOption isSome_aggregateXOnly_jointKeys) (FixedBytes.ofNat 32 1)
    (FixedBytes.ofNat 32 9) with ⟨session, hsession, _, hkey, _, _, _, hagrees⟩
  rcases hagrees [jointLeaf] tree htree with ⟨tweaked, htweaked, _, hxOnly⟩
  exact ⟨by decide +kernel, session, tweaked, tree, hsession, hkey, htree, htweaked, hxOnly⟩

end Cosigning
