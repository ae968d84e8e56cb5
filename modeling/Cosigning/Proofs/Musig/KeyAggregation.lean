import Cosigning.Ensure
import Cosigning.Musig.KeyContext
import Cosigning.Proofs.Lawful

/-!
# Key aggregation

Whatever tweaks are applied, the aggregate key is the sum of the participants' keys
up to the recorded sign, plus the recorded multiple of the base point.
-/

namespace Cosigning
namespace Musig

open Ciphersuite

variable {P : Type} [Ciphersuite P]

namespace KeyContext

variable {context next : KeyContext P}

def tweaked (keys : List (PublicKey P)) (tweaks : List Tweak) : Except Error (KeyContext P) := do
  let context <- ofKeys keys
  tweaks.foldlM apply context

theorem tweaked_concat {keys : List (PublicKey P)} {tweaks : List Tweak} {tweak : Tweak}
    (h : tweaked keys tweaks = .ok context) (happly : context.apply tweak = .ok next) :
    tweaked keys (tweaks ++ [tweak]) = .ok next := by
  rcases bind_eq_ok_iff.mp h with ⟨initial, hinitial, htweaked⟩
  refine bind_eq_ok_iff.mpr ⟨initial, hinitial, ?_⟩
  rw [List.foldlM_append, bind_eq_ok_iff]
  refine ⟨context, htweaked, ?_⟩
  rw [List.foldlM_cons, bind_eq_ok_iff]
  exact ⟨next, happly, rfl⟩

/-- The aggregate key is what the context remembers of the tweaks says. -/
def Accounts (context : KeyContext P) : Prop :=
  context.aggregate.point =
    negateIf context.negated (aggregatePoint context.keys) + scale context.offset base

theorem ofKeys_eq_ok {keys : List (PublicKey P)} (h : ofKeys keys = .ok context) :
    keys ≠ [] ∧ (keys.map PublicKey.xOnly).Nodup ∧ context.keys = keys ∧
      context.aggregate.point = aggregatePoint keys ∧ context.negated = false ∧
      context.offset = 0 := by
  unfold ofKeys at h
  split at h
  · cases h
  · rename_i hempty
    split at h
    · cases h
    · rename_i hrepeat
      split at h
      · cases h
      · rename_i aggregate haggregate
        cases h
        refine ⟨fun hnil => hempty (by rw [hnil]; rfl), (firstRepeat?_eq_none_iff _).mp hrepeat, rfl,
          ?_, rfl, rfl⟩
        exact PublicKey.ofPoint?_eq_some_iff.mp haggregate

theorem exists_ofKeys {keys : List (PublicKey P)} (hne : keys ≠ [])
    (hnodup : (keys.map PublicKey.xOnly).Nodup) (hfinite : aggregatePoint keys ≠ 0) :
    exists context, ofKeys keys = .ok context := by
  have hempty : ¬ keys.isEmpty = true := by
    rw [List.isEmpty_iff]
    exact hne
  have haggregate : PublicKey.ofPoint? (aggregatePoint keys) = some ⟨_, hfinite⟩ :=
    PublicKey.ofPoint?_eq_some_iff.mpr rfl
  unfold ofKeys
  rw [if_neg hempty, (firstRepeat?_eq_none_iff _).mpr hnodup, haggregate]
  exact ⟨_, rfl⟩

section

variable [LawfulCiphersuite P]

theorem accounts_ofKeys {keys : List (PublicKey P)} (h : ofKeys keys = .ok context) :
    context.Accounts := by
  rcases ofKeys_eq_ok h with ⟨_, _, hkeys, haggregate, hnegated, hoffset⟩
  unfold Accounts
  rw [haggregate, hkeys, hnegated, hoffset, zero_scale, add_zero]
  rfl

theorem addPlain_eq_ok {amount : Scalar} (h : context.addPlain amount = .ok next)
    (accounts : context.Accounts) : next.keys = context.keys ∧ next.Accounts := by
  unfold addPlain at h
  split at h
  · cases h
  · rename_i aggregate haggregate
    cases h
    refine ⟨rfl, ?_⟩
    have hpoint := PublicKey.ofPoint?_eq_some_iff.mp haggregate
    unfold Accounts at accounts ⊢
    rw [hpoint, accounts, LawfulCiphersuite.add_scale, add_assoc]

theorem addXOnly_eq_ok {amount : Scalar} (h : context.addXOnly amount = .ok next)
    (accounts : context.Accounts) : next.keys = context.keys ∧ next.Accounts := by
  unfold addXOnly at h
  dsimp only at h
  split at h
  · cases h
  · rename_i aggregate haggregate
    cases h
    refine ⟨rfl, ?_⟩
    have hpoint := PublicKey.ofPoint?_eq_some_iff.mp haggregate
    unfold Accounts at accounts ⊢
    dsimp only
    rw [hpoint, accounts, negateIf_add, negateIf_negateIf, LawfulCiphersuite.add_scale,
      scale_negateIf, add_assoc]

theorem apply_eq_ok {tweak : Tweak} (h : context.apply tweak = .ok next)
    (accounts : context.Accounts) : next.keys = context.keys ∧ next.Accounts := by
  cases tweak with
  | plain amount =>
      simp only [apply] at h
      split at h
      · cases h
      · exact addPlain_eq_ok h accounts
  | xOnly amount =>
      simp only [apply] at h
      split at h
      · cases h
      · exact addXOnly_eq_ok h accounts
  | taproot root =>
      simp only [apply] at h
      split at h
      · cases h
      · exact addXOnly_eq_ok h accounts

theorem foldlM_apply_eq_ok {tweaks : List Tweak}
    (h : tweaks.foldlM apply context = .ok next) (accounts : context.Accounts) :
    next.keys = context.keys ∧ next.Accounts := by
  induction tweaks generalizing context with
  | nil =>
      cases h
      exact ⟨rfl, accounts⟩
  | cons tweak rest ih =>
      rw [List.foldlM_cons, bind_eq_ok_iff] at h
      rcases h with ⟨after, happly, hrest⟩
      have hafter := apply_eq_ok happly accounts
      have hnext := ih hrest hafter.2
      exact ⟨hnext.1.trans hafter.1, hnext.2⟩

theorem tweaked_eq_ok {keys : List (PublicKey P)} {tweaks : List Tweak}
    (h : tweaked keys tweaks = .ok context) :
    context.keys = keys ∧ context.Accounts ∧ (keys.map PublicKey.xOnly).Nodup := by
  rcases bind_eq_ok_iff.mp h with ⟨initial, hinitial, htweaked⟩
  rcases ofKeys_eq_ok hinitial with ⟨_, hnodup, hkeys, _⟩
  have hcontext := foldlM_apply_eq_ok htweaked (accounts_ofKeys hinitial)
  exact ⟨hcontext.1.trans hkeys, hcontext.2, hnodup⟩

end

end KeyContext

end Musig
end Cosigning
