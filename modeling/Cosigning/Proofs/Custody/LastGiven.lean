import Cosigning.Proofs.Custody.Holdings
import Cosigning.Proofs.Exponent
import Mathlib.Data.List.Dedup

/-!
# A custody keeps what it was given last

Of the secrets with one x-only key a custody keeps the one that was given last, at the place in
the order where it was given.  It makes no difference whether the secrets come all at once or
one after the other.
-/

namespace Cosigning

open Ciphersuite

variable {P : Type} [Ciphersuite P]

theorem KeyPair.xOnly_eq_iff [LawfulCiphersuite P] {a b : KeyPair P} :
    a.xOnly = b.xOnly <-> a.secret = b.secret ∨ a.secret = -b.secret := by
  have hpoints := PublicKey.xOnly_eq_iff (a := a.publicKey) (b := b.publicKey)
  rw [← a.scale_base, ← b.scale_base, ← neg_scale, scale_base_inj, scale_base_inj] at hpoints
  exact hpoints

namespace Custody

def IsLastGiven (given : List (KeyPair P)) (pair : KeyPair P) : Prop :=
  exists before after, given = before ++ pair :: after ∧
    forall later, later ∈ after -> later.xOnly ≠ pair.xOnly

/-!
## Keeping one secret after the other
-/

theorem dedup_append_singleton {α : Type} [DecidableEq α] (xs : List α) (x : α) :
    (xs ++ [x]).dedup = xs.dedup.filter (fun other => decide (other ≠ x)) ++ [x] := by
  induction xs with
  | nil => simp
  | cons y rest ih =>
      rw [List.cons_append]
      by_cases hrest : y ∈ rest
      · have hmem : y ∈ rest ++ [x] := List.mem_append_left [x] hrest
        rw [List.dedup_cons_of_mem hrest, List.dedup_cons_of_mem hmem, ih]
      · rw [List.dedup_cons_of_notMem hrest]
        by_cases hlast : y = x
        · have hmem : y ∈ rest ++ [x] := List.mem_append_right rest (List.mem_singleton.mpr hlast)
          rw [List.dedup_cons_of_mem hmem, ih, List.filter_cons_of_neg (by simpa using hlast)]
        · have hmem : y ∉ rest ++ [x] := by
            simp [hrest, hlast]
          rw [List.dedup_cons_of_notMem hmem, ih, List.filter_cons_of_pos (by simpa using hlast),
            List.cons_append]

theorem map_xOnly_keep (pairs : List (KeyPair P)) (pair : KeyPair P) :
    (keep pairs pair).map KeyPair.xOnly =
      (pairs.map KeyPair.xOnly).filter (fun key => decide (key ≠ pair.xOnly)) ++
        [pair.xOnly] := by
  rw [keep, List.map_append, List.filter_map]
  rfl

theorem map_xOnly_foldl_keep (given : List (KeyPair P)) :
    (given.foldl keep []).map KeyPair.xOnly = (given.map KeyPair.xOnly).dedup := by
  induction given using List.reverseRecOn with
  | nil => rfl
  | append_singleton given pair ih =>
      rw [List.foldl_append, List.foldl_cons, List.foldl_nil, map_xOnly_keep, ih,
        List.map_append, List.map_singleton, dedup_append_singleton]

theorem find?_keep (pairs : List (KeyPair P)) (pair : KeyPair P) (key : XOnlyKey P) :
    (keep pairs pair).find? (fun held => decide (held.xOnly = key)) =
      if pair.xOnly = key then some pair
      else pairs.find? (fun held => decide (held.xOnly = key)) := by
  rw [keep, List.find?_append, List.find?_filter]
  by_cases hpair : pair.xOnly = key
  · have hnone : pairs.find? (fun held =>
        decide (decide (held.xOnly ≠ pair.xOnly) = true ∧ decide (held.xOnly = key) = true)) =
          none := by
      rw [List.find?_eq_none]
      intro held _
      simp [hpair]
    rw [hnone, if_pos hpair, Option.none_or, List.find?_cons_of_pos (by simpa using hpair)]
  · rw [if_neg hpair, List.find?_cons_of_neg (by simpa using hpair), List.find?_nil,
      Option.or_none]
    congr 1
    funext held
    by_cases hheld : held.xOnly = key
    · simp [hheld, Ne.symm hpair]
    · simp [hheld]

theorem find?_foldl_keep (given : List (KeyPair P)) (key : XOnlyKey P) :
    (given.foldl keep []).find? (fun held => decide (held.xOnly = key)) =
      given.reverse.find? (fun held => decide (held.xOnly = key)) := by
  -- From the end, as the secret that was given last hides those before it.
  induction given using List.reverseRecOn with
  | nil => rfl
  | append_singleton given last ih =>
      rw [List.foldl_append, List.foldl_cons, List.foldl_nil, find?_keep, ih,
        List.reverse_append, List.reverse_singleton, List.singleton_append, List.find?_cons]
      by_cases hlast : last.xOnly = key <;> simp [hlast]

theorem find?_foldl_keep_eq_some_iff {given : List (KeyPair P)} {key : XOnlyKey P}
    {pair : KeyPair P} :
    (given.foldl keep []).find? (fun held => decide (held.xOnly = key)) = some pair <->
      IsLastGiven given pair ∧ pair.xOnly = key := by
  rw [find?_foldl_keep, List.find?_eq_some_iff_append, decide_eq_true_iff, and_comm]
  apply and_congr_left
  intro hpair
  constructor
  · intro h
    rcases h with ⟨after, before, hsplit, hafter⟩
    refine ⟨before.reverse, after.reverse, ?_, ?_⟩
    · rw [← List.reverse_reverse given, hsplit]
      simp
    · intro later hlater
      have hother := hafter later (List.mem_reverse.mp hlater)
      simpa [hpair] using hother
  · intro h
    rcases h with ⟨before, after, rfl, hafter⟩
    refine ⟨after.reverse, before.reverse, by simp, ?_⟩
    intro later hlater
    have hother := hafter later (List.mem_reverse.mp hlater)
    simpa [hpair] using hother

theorem find?_foldl_keep_eq_none_iff {given : List (KeyPair P)} {key : XOnlyKey P} :
    (given.foldl keep []).find? (fun held => decide (held.xOnly = key)) = none <->
      forall pair, pair ∈ given -> pair.xOnly ≠ key := by
  rw [find?_foldl_keep]
  simp

/-!
## Custodies
-/

/-- The custody holds, in the order in which they were given, those of the secrets after which none
with the same x-only key was given. -/
structure KeepsLast (custody : Custody P) (given : List (KeyPair P)) : Prop where
  publicKeys : custody.publicKeys = (given.map KeyPair.xOnly).dedup
  nodup : custody.publicKeys.Nodup
  size : custody.size = (given.map KeyPair.xOnly).toFinset.card
  contains : forall key, custody.contains key = true <->
    exists pair, pair ∈ given ∧ pair.xOnly = key
  pairFor_ok : forall key pair, custody.pairFor key = .ok pair <->
    IsLastGiven given pair ∧ pair.xOnly = key
  pairFor_error : forall key, (forall pair, pair ∈ given -> pair.xOnly ≠ key) ->
    exists cause, custody.pairFor key = .error cause ∧ cause.kind = .invalidArgument

theorem pairFor_ofList (given : List (KeyPair P)) (key : XOnlyKey P) :
    (ofList given).pairFor key =
      match (given.foldl keep []).find? (fun held => decide (held.xOnly = key)) with
      | some pair => .ok pair
      | none => .error (.secretNotHeld key.bytes) :=
  rfl

theorem keepsLast_ofList (given : List (KeyPair P)) : (ofList given).KeepsLast given := by
  have hkeys : (ofList given).publicKeys = (given.map KeyPair.xOnly).dedup :=
    map_xOnly_foldl_keep given
  constructor
  case publicKeys => exact hkeys
  case nodup =>
    rw [hkeys]
    exact List.nodup_dedup _
  case size =>
    rw [List.card_toFinset, ← hkeys, publicKeys, List.length_map]
    rfl
  case contains => exact fun key => contains_ofList_iff
  case pairFor_ok =>
    intro key pair
    rw [pairFor_ofList, ← find?_foldl_keep_eq_some_iff]
    split
    · rename_i found hfound
      rw [hfound, Except.ok.injEq, Option.some.injEq]
    · rename_i hnone
      simp [hnone]
  case pairFor_error =>
    intro key hnone
    rw [pairFor_ofList, find?_foldl_keep_eq_none_iff.mpr hnone]
    exact ⟨_, rfl, rfl⟩

/-- A custody keeps, for each x-only key, the secret that was given last, in the order of these last
times.  Whether secrets are collected at first or inserted one by one, they are never refused and
the same custody comes out; and a secret only takes the place of itself or of its negative. -/
theorem keeps_last_given [LawfulCiphersuite P] (collected inserted : List (KeyPair P)) :
    (exists custody : Custody P,
      inserted.foldlM insert (ofList collected) = .ok custody ∧
        (collected ++ inserted).foldlM insert empty = .ok custody ∧
        custody = ofList (collected ++ inserted) ∧
        custody.KeepsLast (collected ++ inserted)) ∧
    forall a b : KeyPair P,
      a.xOnly = b.xOnly <-> a.secret = b.secret ∨ a.secret = -b.secret := by
  refine ⟨⟨ofList (collected ++ inserted), foldlM_insert_ofList collected inserted, ?_, rfl,
    keepsLast_ofList _⟩, fun _ _ => KeyPair.xOnly_eq_iff⟩
  exact foldlM_insert_ofList [] (collected ++ inserted)

theorem keeps_last_given_negativeSecret :
    exists custody : Custody Exponent,
      [Exponent.pair (groupOrder - 2), Exponent.pair 7, Exponent.pair 5].foldlM insert
          (ofList [Exponent.pair 5, Exponent.pair 2]) = .ok custody ∧
        custody.publicKeys =
          [(Exponent.pair 2).xOnly, (Exponent.pair 7).xOnly, (Exponent.pair 5).xOnly] ∧
        custody.pairFor (Exponent.pair 2).xOnly = .ok (Exponent.pair (groupOrder - 2)) ∧
        exists cause, custody.pairFor (Exponent.pair 3).xOnly = .error cause ∧
          cause.kind = .invalidArgument := by
  rcases (keeps_last_given [Exponent.pair 5, Exponent.pair 2]
    [Exponent.pair (groupOrder - 2), Exponent.pair 7, Exponent.pair 5]).1 with
    ⟨custody, hcustody, _, _, hkeeps⟩
  refine ⟨custody, hcustody, ?_, ?_, ?_⟩
  · rw [hkeeps.publicKeys]
    decide +kernel
  · rw [hkeeps.pairFor_ok]
    exact ⟨⟨[Exponent.pair 5, Exponent.pair 2], [Exponent.pair 7, Exponent.pair 5], rfl,
      by decide +kernel⟩, by decide +kernel⟩
  · exact hkeeps.pairFor_error _ (by decide +kernel)

end Custody
end Cosigning
