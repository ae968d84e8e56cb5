import Cosigning.CommandLine
import Cosigning.Proofs.Tree.Construction

/-!
# Validated settings work

Validation reads the settings as they are used afterwards, so that settings which pass it have a
tree.  The tree's address can then be shown, and a search for a leaf fails only when the signers
have none.
-/

namespace Cosigning

variable {P : Type} [Ciphersuite P]

namespace Settings

variable {settings : Settings}

theorem validate_eq_ok_iff : settings.validate P = .ok () <->
    settings.network ∈ networkNames ∧ settings.logLevel ∈ logLevels ∧ settings.keys ≠ [] ∧
      (exists strategy, settings.strategyOf = .ok strategy) ∧
      (exists weighting, settings.weightingOf = .ok weighting) ∧
      exists policy, settings.policyOf P = .ok policy := by
  unfold validate
  simp only [bind_eq_ok_iff, ensure_eq_ok_iff, exists_and_right, exists_const]
  simp [pure, Except.pure]

theorem name_networkOf (h : settings.network ∈ networkNames) :
    settings.network = settings.networkOf.name ∨
      settings.network = "testnet3" ∧ settings.networkOf = .testnet := by
  simp only [networkNames, List.mem_cons, List.not_mem_nil, or_false] at h
  unfold networkOf
  rcases h with h | h | h | h | h <;> rw [h] <;> decide

end Settings

namespace CommandLine

/-!
## Finding a leaf
-/

theorem signerOf_eq_ok_iff {text : String} {key : XOnlyKey P} :
    signerOf text = .ok key <-> XOnlyKey.ofHex? text = some key := by
  unfold signerOf
  cases XOnlyKey.ofHex? (P := P) text with
  | none => simp
  | some found => simp

theorem mapM_signerOf_eq_ok_iff {signers : List String} {keys : List (XOnlyKey P)} :
    signers.mapM signerOf = .ok keys <-> signers.map XOnlyKey.ofHex? = keys.map some :=
  mapM_eq_ok_iff_map_eq_map_some (fun _ _ => signerOf_eq_ok_iff)

/-- The texts do not name a group of signers with a leaf of its own: there are none, one of them is no
key, or narrowing down the leaves fails. -/
def Unmatched (tree : ScriptTree P) (signers : List String) : Prop :=
  signers = [] ∨ (exists text, text ∈ signers ∧ XOnlyKey.ofHex? (P := P) text = none) ∨
    exists keys cause, signers.map XOnlyKey.ofHex? = keys.map some ∧
      narrowToLeaf tree.leaves keys = .error cause

theorem ofHex?_ne_none {signers : List String} {keys : List (XOnlyKey P)}
    (h : signers.map XOnlyKey.ofHex? = keys.map some) {text : String} (htext : text ∈ signers) :
    XOnlyKey.ofHex? (P := P) text ≠ none := by
  intro hnone
  have hmem := List.mem_map_of_mem (f := XOnlyKey.ofHex? (P := P)) htext
  rw [h, hnone] at hmem
  rcases List.mem_map.mp hmem with ⟨_, _, hsome⟩
  cases hsome

theorem exists_keys_or_malformed (P : Type) [Ciphersuite P] (signers : List String) :
    (exists keys : List (XOnlyKey P), signers.mapM signerOf = .ok keys) ∨
      exists text, text ∈ signers ∧ XOnlyKey.ofHex? (P := P) text = none := by
  by_cases h : exists text, text ∈ signers ∧ XOnlyKey.ofHex? (P := P) text = none
  · exact Or.inr h
  · left
    have hsigner : forall text, text ∈ signers ->
        exists key : XOnlyKey P, signerOf text = .ok key := by
      intro text htext
      have hsome : XOnlyKey.ofHex? (P := P) text ≠ none := fun hnone => h ⟨text, htext, hnone⟩
      rcases Option.ne_none_iff_exists'.mp hsome with ⟨key, hkey⟩
      exact ⟨key, signerOf_eq_ok_iff.mpr hkey⟩
    exact exists_mapM_eq_ok hsigner

theorem findLeaf_eq_error_iff {tree : ScriptTree P}
    (hleaves : forall leaf, leaf ∈ tree.leaves -> exists block fragment,
      tree.controlBlock leaf = .ok block ∧ leaf.miniscript = .ok fragment)
    {signers : List String} :
    (exists failure, findLeaf tree signers = .error failure) <-> Unmatched tree signers := by
  unfold findLeaf
  by_cases hnil : signers = []
  · rw [ensure_of_not (not_not.mpr hnil)]
    exact iff_of_true ⟨_, rfl⟩ (Or.inl hnil)
  rw [ensure_of hnil]
  rcases exists_keys_or_malformed P signers with ⟨keys, hmapM⟩ | ⟨text, htext, hnone⟩
  · have hkeys := mapM_signerOf_eq_ok_iff.mp hmapM
    cases hnarrow : narrowToLeaf tree.leaves keys with
    | error cause =>
        refine iff_of_true ?_ (Or.inr (Or.inr ⟨keys, cause, hkeys, hnarrow⟩))
        simp only [bind, Except.bind, hmapM, hnarrow, mapError_error]
        exact ⟨_, rfl⟩
    | ok leaf =>
        rcases hleaves leaf (mem_of_narrowToLeaf_eq_ok hnarrow) with
          ⟨block, fragment, hblock, hfragment⟩
        simp only [bind, Except.bind, hmapM, hnarrow, mapError_ok, hblock, hfragment]
        constructor
        · intro h
          rcases h with ⟨failure, h⟩
          cases h
        · intro h
          rcases h with h | ⟨text, htext, hnone⟩ | ⟨others, cause, hothers, hcause⟩
          · exact absurd h hnil
          · exact absurd hnone (ofHex?_ne_none hkeys htext)
          · rw [hkeys] at hothers
            rw [← (Option.some_injective _).list_map hothers, hnarrow] at hcause
            cases hcause
  · refine iff_of_true ?_ (Or.inr (Or.inl ⟨text, htext, hnone⟩))
    cases hmapM : signers.mapM (signerOf (P := P)) with
    | error failure => exact ⟨failure, rfl⟩
    | ok keys => exact absurd hnone (ofHex?_ne_none (mapM_signerOf_eq_ok_iff.mp hmapM) htext)

/-!
## The commands
-/

theorem treeOf_eq_ok_iff {settings : Settings} {tree : ScriptTree P} :
    treeOf P settings = .ok tree <->
      exists policy, settings.policyOf P = .ok policy ∧
        exists weighting, settings.weightingOf = .ok weighting ∧
          exists strategy, settings.strategyOf = .ok strategy ∧
            ScriptTree.ofPolicy policy strategy weighting.weight = .ok tree := by
  unfold treeOf
  simp only [bind_eq_ok_iff, mapError_eq_ok_iff]

section

variable {settings : Settings} {tree : ScriptTree P} {options : Options} {command : Command}

theorem failure_workOn (h : settings.validate P = .ok ()) (htree : treeOf P settings = .ok tree)
    (hcommand : options.command = some command) :
    (workOn P options settings).failure ≠ none <->
      options.validateOnly = false ∧
        exists failure, commandLines command options settings.networkOf tree = .error failure := by
  unfold workOn
  rw [h, hcommand, htree]
  cases options.validateOnly with
  | true => simp [Outcome.success]
  | false =>
      cases hlines : commandLines command options settings.networkOf tree with
      | error failure => simp [Except.bind, hlines, Outcome.ofExcept]
      | ok lines => simp [Except.bind, hlines, Outcome.ofExcept, Outcome.success]

theorem commandLines_findLeaf_eq_error_iff :
    (exists failure, commandLines .findLeaf options settings.networkOf tree = .error failure) <->
      exists failure, findLeaf tree options.signers = .error failure := by
  unfold commandLines
  cases findLeaf tree options.signers with
  | error failure => simp [Except.map]
  | ok found => simp [Except.map]

end

/-- Settings that pass validation are good for everything that follows.  What is read from them is
there, the network is the one they name, and unless a point at infinity stands in the way they have
a tree: its address is always shown, and looking for a leaf only fails if the
signers' texts match none, as every leaf that is narrowed down to has a control block and a
miniscript. -/
theorem validated_settings_work
    (hunspendable : (XOnlyKey.ofBytes? (P := P) unspendableCoordinate).isSome = true)
    {settings : Settings} (h : settings.validate P = .ok ()) :
    (settings.network = settings.networkOf.name ∨
      settings.network = "testnet3" ∧ settings.networkOf = .testnet) ∧
    exists policy strategy weighting, settings.policyOf P = .ok policy ∧
      settings.strategyOf = .ok strategy ∧ settings.weightingOf = .ok weighting ∧
      (policy.Realizable strategy weighting.weight ->
        exists tree, ScriptTree.ofPolicy policy strategy weighting.weight = .ok tree ∧
          treeOf P settings = .ok tree ∧
          (forall options, options.command = some .showAddress ->
            (workOn P options settings).failure = none) ∧
          (forall options, options.command = some .findLeaf ->
            ((workOn P options settings).failure ≠ none <->
              options.validateOnly = false ∧ Unmatched tree options.signers)) ∧
          forall keys leaf, narrowToLeaf tree.leaves keys = .ok leaf ->
            exists block fragment, tree.controlBlock leaf = .ok block ∧
              leaf.miniscript = .ok fragment) := by
  rcases Settings.validate_eq_ok_iff.mp h with
    ⟨hnetwork, _, _, ⟨strategy, hstrategy⟩, ⟨weighting, hweighting⟩, ⟨policy, hpolicy⟩⟩
  refine ⟨Settings.name_networkOf hnetwork, policy, strategy, weighting, hpolicy, hstrategy,
    hweighting, ?_⟩
  intro hrealizable
  rcases ScriptTree.exists_ofPolicy hunspendable hrealizable with ⟨tree, hbuilt⟩
  have htree : treeOf P settings = .ok tree :=
    treeOf_eq_ok_iff.mpr ⟨policy, hpolicy, weighting, hweighting, strategy, hstrategy, hbuilt⟩
  refine ⟨tree, hbuilt, htree, ?_, ?_, ?_⟩
  · intro options hcommand
    by_contra hfailure
    rcases (failure_workOn h htree hcommand).mp hfailure with ⟨_, failure, hlines⟩
    cases hlines
  · intro options hcommand
    rw [failure_workOn h htree hcommand, commandLines_findLeaf_eq_error_iff,
      findLeaf_eq_error_iff (fun leaf => ScriptTree.exists_block_and_fragment hbuilt)]
  · intro keys leaf hleaf
    exact ScriptTree.exists_block_and_fragment hbuilt (mem_of_narrowToLeaf_eq_ok hleaf)

def pairSettings : Settings :=
  { logLevel := "info"
    network := "testnet3"
    keys := threeKeys.map XOnlyKey.toHex
    threshold := 2
    internalKey := "unspendable"
    strategy := "checksigadd"
    weighting := "floor-percent"
    sortKeys := false }

theorem realizable_twoOfThree :
    twoOfThree.Realizable .separateChecks Weighting.standard.weight where
  aggregate hjoint := by cases hjoint
  output leaves shape key hleaves hshape hkey := by
    rcases ScriptTree.exists_tree_pairLeaves with ⟨tree, hpolicy, htree⟩
    rcases ScriptTree.ofPolicy_eq_ok_iff.mp hpolicy with ⟨others, hothers, hbuilt⟩
    rcases ScriptTree.ofLeaves_eq_ok_iff.mp hbuilt with
      ⟨shape', key', output, hshape', _, hkey', houtput, _⟩
    rw [hleaves] at hothers
    cases hothers
    rw [hshape] at hshape'
    cases hshape'
    rw [hkey] at hkey'
    cases hkey'
    rw [houtput]
    rfl

theorem validated_settings_work_pairSettings :
    pairSettings.validate Secp256k1.Point = .ok () ∧
      pairSettings.networkOf = .testnet ∧
      exists tree, treeOf Secp256k1.Point pairSettings = .ok tree ∧
        (forall options, options.command = some .showAddress ->
          (workOn Secp256k1.Point options pairSettings).failure = none) := by
  have hread : (pairSettings.validate Secp256k1.Point).toOption.isSome = true := by
    decide +kernel
  have hvalid : pairSettings.validate Secp256k1.Point = .ok () :=
    (eq_ok_get_toOption hread).trans (congrArg Except.ok (Subsingleton.elim _ _))
  have hunspendable :
      (XOnlyKey.ofBytes? (P := Secp256k1.Point) unspendableCoordinate).isSome = true := by
    decide +kernel
  rcases validated_settings_work hunspendable hvalid with
    ⟨_, policy, strategy, weighting, hpolicy, hstrategy, hweighting, hworks⟩
  cases hstrategy
  cases hweighting
  have hparts : (pairSettings.policyOf Secp256k1.Point).toOption.map
      (fun policy => (policy.keys, policy.threshold, policy.internalKey)) =
        some (threeKeys, 2, .unspendable) := by
    decide +kernel
  rw [hpolicy] at hparts
  have hsame : policy = twoOfThree := by
    have hself : ThresholdPolicy.ofKeys threeKeys 2 .unspendable = .ok twoOfThree :=
      twoOfThree.ofKeys_self
    rw [← Except.ok.injEq (ε := PolicyError), ← hself, eq_comm]
    apply ThresholdPolicy.ofKeys_eq_ok_iff.mpr
    simpa [Except.toOption] using hparts
  rw [hsame] at hworks
  rcases hworks realizable_twoOfThree with ⟨tree, _, htree, hshown, _, _⟩
  exact ⟨hvalid, rfl, tree, htree, hshown⟩

end CommandLine

end Cosigning
