import Cosigning.Proofs.Policy.Sorting
import Cosigning.Proofs.Validation

/-!
# Parties that sort their keys agree

Parties that collect the same keys on their own list them in different orders.  If the keys are
sorted, the order has no influence: the parties accept the same keys, and then have one policy, one
tree and one output.
-/

namespace Cosigning

variable {P : Type} [Ciphersuite P]

namespace Settings

/-!
## Settings with the same keys
-/

/-- Settings that have the keys sorted and differ in nothing but the order in which they list the
keys, or how they spell them. -/
structure AlikeSorted (P : Type) [Ciphersuite P] (settings other : Settings) : Prop where
  sorts : settings.sortKeys = true
  other_eq : other = { settings with keys := other.keys }
  keys_perm :
    (settings.keys.map (XOnlyKey.ofHex? (P := P))).Perm (other.keys.map XOnlyKey.ofHex?)

theorem keyOf_eq_ok_iff {text : String} {index : Nat} {key : XOnlyKey P} :
    keyOf P text index = .ok key <-> XOnlyKey.ofHex? text = some key := by
  unfold keyOf
  cases XOnlyKey.ofHex? (P := P) text with
  | none => simp
  | some found => simp

theorem mapM_keyOf_eq_ok_iff {texts : List String} {keys : List (XOnlyKey P)} :
    texts.zipIdx.mapM (fun entry => keyOf P entry.1 entry.2) = .ok keys <->
      texts.map XOnlyKey.ofHex? = keys.map some := by
  have hread : forall (entry : String × Nat) (key : XOnlyKey P),
      keyOf P entry.1 entry.2 = .ok key <-> XOnlyKey.ofHex? entry.1 = some key :=
    fun _ _ => keyOf_eq_ok_iff
  rw [mapM_eq_ok_iff_map_eq_map_some hread, map_zipIdx_fst XOnlyKey.ofHex? texts]

theorem policyOf_eq_ok_iff {settings : Settings} {policy : ThresholdPolicy P} :
    settings.policyOf P = .ok policy <->
      exists keys, settings.keys.map XOnlyKey.ofHex? = keys.map some ∧
        exists internalKey, InternalKey.ofText settings.internalKey = .ok internalKey ∧
          exists given, ThresholdPolicy.ofKeys keys settings.threshold internalKey = .ok given ∧
            (if settings.sortKeys = true then given.sorted else given) = policy := by
  unfold policyOf
  simp only [bind_eq_ok_iff, mapError_eq_ok_iff, mapM_keyOf_eq_ok_iff, pure, Except.pure,
    Except.ok.injEq]

namespace AlikeSorted

variable {settings other : Settings}

theorem symm (h : settings.AlikeSorted P other) : other.AlikeSorted P settings := by
  rcases settings with ⟨_, _, _, _, _, _, _, _⟩
  rcases other with ⟨_, _, _, _, _, _, _, _⟩
  rcases h with ⟨hsorts, hother, hkeys⟩
  cases hother
  exact ⟨hsorts, rfl, hkeys.symm⟩

theorem override (h : settings.AlikeSorted P other) (overrides : Overrides) :
    (settings.override overrides).AlikeSorted P (other.override overrides) where
  sorts := h.sorts
  other_eq := by rw [h.other_eq]; rfl
  keys_perm := h.keys_perm

theorem policyOf_eq_ok (h : settings.AlikeSorted P other) {policy : ThresholdPolicy P}
    (hpolicy : settings.policyOf P = .ok policy) : other.policyOf P = .ok policy := by
  rcases Settings.policyOf_eq_ok_iff.mp hpolicy with
    ⟨keys, hkeys, internalKey, hinternal, given, hgiven, hsorted⟩
  have hperm : (other.keys.map XOnlyKey.ofHex?).Perm (keys.map some) := by
    rw [← hkeys]
    exact h.keys_perm.symm
  rcases (congrFun₂ (List.eq_map_comp_perm some) _ keys).mpr hperm with ⟨others, hothers, hsame⟩
  rcases (ThresholdPolicy.exists_ofKeys_of_perm hsame.symm).mp ⟨given, hgiven⟩ with
    ⟨collected, hcollected⟩
  rw [if_pos h.sorts, ThresholdPolicy.sorted_eq_of_perm hsame.symm hgiven hcollected] at hsorted
  rw [h.other_eq]
  exact Settings.policyOf_eq_ok_iff.mpr
    ⟨others, hothers, internalKey, hinternal, collected, hcollected,
      (if_pos h.sorts).trans hsorted⟩

theorem policyOf_iff (h : settings.AlikeSorted P other) {policy : ThresholdPolicy P} :
    settings.policyOf P = .ok policy <-> other.policyOf P = .ok policy :=
  ⟨h.policyOf_eq_ok, h.symm.policyOf_eq_ok⟩

theorem length_keys (h : settings.AlikeSorted P other) :
    settings.keys.length = other.keys.length := by
  have hlength := h.keys_perm.length_eq
  rwa [List.length_map, List.length_map] at hlength

theorem validate_iff (h : settings.AlikeSorted P other) :
    settings.validate P = .ok () <-> other.validate P = .ok () := by
  have hkeys : settings.keys ≠ [] <-> other.keys ≠ [] := by
    rw [← List.length_pos_iff, ← List.length_pos_iff, h.length_keys]
  rw [Settings.validate_eq_ok_iff, Settings.validate_eq_ok_iff, hkeys]
  simp only [h.policyOf_iff]
  rw [h.other_eq]
  rfl

end AlikeSorted

end Settings

namespace CommandLine

open Settings (AlikeSorted)

/-!
## One tree and one output
-/

section

variable {settings other : Settings}

theorem treeOf_eq_ok_iff_of_alike (h : AlikeSorted P settings other) {tree : ScriptTree P} :
    treeOf P settings = .ok tree <-> treeOf P other = .ok tree := by
  rw [treeOf_eq_ok_iff, treeOf_eq_ok_iff]
  simp only [h.policyOf_iff]
  rw [h.other_eq]
  rfl

theorem settingsLines_of_alike (h : AlikeSorted P settings other) :
    settingsLines settings = settingsLines other := by
  have hlength := h.length_keys
  rw [h.other_eq]
  unfold settingsLines
  rw [hlength]

theorem workOn_of_alike (h : AlikeSorted P settings other) (hvalid : settings.validate P = .ok ())
    (options : Options) : workOn P options settings = workOn P options other := by
  have hother := h.validate_iff.mp hvalid
  -- Both are read as one policy, and all that follows depends on the keys through it alone.
  rcases (Settings.validate_eq_ok_iff.mp hvalid).2.2.2.2.2 with ⟨policy, hpolicy⟩
  have htree : treeOf P settings = treeOf P other := by
    unfold treeOf
    rw [hpolicy, h.policyOf_eq_ok hpolicy, h.other_eq]
    rfl
  have hnetwork : settings.networkOf = other.networkOf := by
    rw [h.other_eq]
    rfl
  unfold workOn
  rw [hvalid, hother, htree, hnetwork, settingsLines_of_alike h]

theorem workOn_of_invalid (hinvalid : settings.validate P ≠ .ok ()) (options : Options) :
    (workOn P options settings).output = [] ∧ (workOn P options settings).exitCode = 1 := by
  unfold workOn
  cases hresult : settings.validate P with
  | error cause => exact ⟨rfl, rfl⟩
  | ok done => exact absurd hresult hinvalid

structure SameWork (P : Type) [Ciphersuite P] (settings other : Settings) : Prop where
  valid : settings.validate P = .ok () <-> other.validate P = .ok ()
  tree : forall tree, treeOf P settings = .ok tree <-> treeOf P other = .ok tree
  output : forall options,
    (workOn P options settings).output = (workOn P options other).output
  exitCode : forall options,
    (workOn P options settings).exitCode = (workOn P options other).exitCode
  outcome : settings.validate P = .ok () ->
    forall options, workOn P options settings = workOn P options other

theorem sameWork_of_alike (h : AlikeSorted P settings other) : SameWork P settings other := by
  by_cases hvalid : settings.validate P = .ok ()
  · have hwork := workOn_of_alike h hvalid
    exact
      { valid := h.validate_iff
        tree := fun _ => treeOf_eq_ok_iff_of_alike h
        output := fun options => congrArg Outcome.output (hwork options)
        exitCode := fun options => congrArg Outcome.exitCode (hwork options)
        outcome := fun _ => hwork }
  · have hother : other.validate P ≠ .ok () := fun hok => hvalid (h.validate_iff.mpr hok)
    have hfails := workOn_of_invalid hvalid
    have hothersFail := workOn_of_invalid hother
    exact
      { valid := h.validate_iff
        tree := fun _ => treeOf_eq_ok_iff_of_alike h
        output := fun options => (hfails options).1.trans (hothersFail options).1.symm
        exitCode := fun options => (hfails options).2.trans (hothersFail options).2.symm
        outcome := fun hok => absurd hok hvalid }

end

/-- The order in which keys are listed does not decide whether they make a policy, and sorting
removes it from the policy: what is left are the keys in ascending order, which make the same
policy again.  So parties that sort build one tree under any strategy and any weighting, and the
program treats their settings alike, also where the environment overrides them. -/
theorem sorting_agrees :
    (forall (keys others : List (XOnlyKey P)) (threshold : Nat) (internalKey : InternalKey P),
      keys.Perm others ->
        ((exists policy, ThresholdPolicy.ofKeys keys threshold internalKey = .ok policy) <->
          exists other, ThresholdPolicy.ofKeys others threshold internalKey = .ok other) ∧
        forall policy other, ThresholdPolicy.ofKeys keys threshold internalKey = .ok policy ->
          ThresholdPolicy.ofKeys others threshold internalKey = .ok other ->
            policy.sorted = other.sorted ∧ policy.SortsTo policy.sorted ∧
            forall strategy rule, ScriptTree.ofPolicy policy.sorted strategy rule =
              ScriptTree.ofPolicy other.sorted strategy rule) ∧
    forall settings other, AlikeSorted P settings other ->
      forall overrides, SameWork P (settings.override overrides) (other.override overrides) := by
  constructor
  · intro keys others threshold internalKey hperm
    refine ⟨ThresholdPolicy.exists_ofKeys_of_perm hperm, ?_⟩
    intro policy other hpolicy hother
    have hsorted := ThresholdPolicy.sorted_eq_of_perm hperm hpolicy hother
    refine ⟨hsorted, policy.sortsTo_sorted, ?_⟩
    intro strategy rule
    rw [hsorted]
  · intro settings other halike overrides
    exact sameWork_of_alike (halike.override overrides)

theorem sorted_twoOfThree : twoOfThree.sorted = twoOfThree :=
  ThresholdPolicy.ext (List.mergeSort_of_pairwise (by decide +kernel)) rfl rfl

def sortedSettings : Settings :=
  { pairSettings with sortKeys := true }

def backwardSettings : Settings :=
  { sortedSettings with keys := sortedSettings.keys.reverse }

def onRegtest : Overrides :=
  { logLevel := none, network := some "regtest", threshold := none, strategy := none }

theorem sorting_agrees_backwards :
    (exists other, ThresholdPolicy.ofKeys threeKeys.reverse 2 .unspendable = .ok other ∧
      other.sorted = twoOfThree ∧ twoOfThree.SortsTo other.sorted) ∧
    (exists tree, treeOf Secp256k1.Point (sortedSettings.override onRegtest) = .ok tree ∧
      treeOf Secp256k1.Point (backwardSettings.override onRegtest) = .ok tree) ∧
    forall options, workOn Secp256k1.Point options (sortedSettings.override onRegtest) =
      workOn Secp256k1.Point options (backwardSettings.override onRegtest) := by
  rcases sorting_agrees (P := Secp256k1.Point) with ⟨hpolicies, hsettings⟩
  constructor
  · have hself : ThresholdPolicy.ofKeys threeKeys 2 .unspendable = .ok twoOfThree :=
      twoOfThree.ofKeys_self
    rcases hpolicies threeKeys threeKeys.reverse 2 .unspendable (List.reverse_perm _).symm with
      ⟨haccepts, hagrees⟩
    rcases haccepts.mp ⟨_, hself⟩ with ⟨other, hother⟩
    rcases hagrees _ other hself hother with ⟨hsorted, hsorts, _⟩
    exact ⟨other, hother, hsorted.symm.trans sorted_twoOfThree, hsorted ▸ hsorts⟩
  · have halike : AlikeSorted Secp256k1.Point sortedSettings backwardSettings :=
      { sorts := rfl
        other_eq := rfl
        keys_perm := (List.reverse_perm _).symm.map _ }
    have hwork := hsettings _ _ halike onRegtest
    have hpolicy : (sortedSettings.override onRegtest).policyOf Secp256k1.Point =
        .ok twoOfThree :=
      Settings.policyOf_eq_ok_iff.mpr
        ⟨threeKeys, by decide +kernel, .unspendable, by decide, twoOfThree, twoOfThree.ofKeys_self,
          sorted_twoOfThree⟩
    rcases ScriptTree.exists_tree_pairLeaves with ⟨tree, hbuilt, _⟩
    have htree : treeOf Secp256k1.Point (sortedSettings.override onRegtest) = .ok tree :=
      treeOf_eq_ok_iff.mpr ⟨twoOfThree, hpolicy, .floorPercent, rfl, .separateChecks, rfl, hbuilt⟩
    have hvalid : (sortedSettings.override onRegtest).validate Secp256k1.Point = .ok () :=
      Settings.validate_eq_ok_iff.mpr
        ⟨by decide, by decide, by decide, ⟨_, rfl⟩, ⟨_, rfl⟩, twoOfThree, hpolicy⟩
    exact ⟨⟨tree, htree, (hwork.tree tree).mp htree⟩, hwork.outcome hvalid⟩

end CommandLine

end Cosigning
