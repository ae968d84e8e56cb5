import Cosigning.Proofs.Script.JointLeaf

/-!
# A custody after it is closed

A custody is used any number of times and closed at some point.  From then on it is closed and
empty, whatever is tried with it, and every use that needs a secret is refused.
-/

namespace Cosigning

variable {P : Type} [Ciphersuite P]

namespace Custody

inductive Use (P : Type) [Ciphersuite P] : Type -> Type where
  | insert (pair : KeyPair P) : Use P (XOnlyKey P)
  | pairFor (key : XOnlyKey P) : Use P (KeyPair P)
  | signLeaf (leaf : Leaf P) (sighash : Bytes32) (type : SighashType) (aux : Nat -> Bytes32) :
      Use P (List (XOnlyKey P × SpendSignature))
  | checkOpen : Use P Unit
  | contains (key : XOnlyKey P) : Use P Bool
  | publicKeys : Use P (List (XOnlyKey P))
  | size : Use P Nat
  | isEmpty : Use P Bool
  | isClosed : Use P Bool
  | describe : Use P String
  | close : Use P Unit

def perform (custody : Custody P) {α : Type} : Use P α -> Except PolicyError α × Custody P
  | .insert pair =>
      match custody.insert pair with
      | .ok next => (.ok pair.xOnly, next)
      | .error cause => (.error cause, custody)
  | .pairFor key => (custody.pairFor key, custody)
  | .signLeaf leaf sighash type aux => (custody.signLeafWith leaf sighash type aux, custody)
  | .checkOpen => (custody.openPairs.map (fun _ => ()), custody)
  | .contains key => (.ok (custody.contains key), custody)
  | .publicKeys => (.ok custody.publicKeys, custody)
  | .size => (.ok custody.size, custody)
  | .isEmpty => (.ok custody.isEmpty, custody)
  | .isClosed => (.ok custody.isClosed, custody)
  | .describe => (.ok custody.describe, custody)
  | .close => (.ok (), custody.close)

def run (custody : Custody P) (uses : List ((α : Type) × Use P α)) : Custody P :=
  uses.foldl (fun current use => (current.perform use.2).2) custody

def Use.closes {α : Type} : Use P α -> Bool
  | .close => true
  | _ => false

theorem isClosed_perform (custody : Custody P) {α : Type} (use : Use P α) :
    (custody.perform use).2.isClosed = (custody.isClosed || use.closes) := by
  cases use with
  | insert pair => cases custody <;> rfl
  | close => exact (Bool.or_true custody.isClosed).symm
  | _ => exact (Bool.or_false custody.isClosed).symm

theorem isClosed_run (custody : Custody P) (uses : List ((α : Type) × Use P α)) :
    (custody.run uses).isClosed =
      (custody.isClosed || uses.any (fun use => use.2.closes)) := by
  induction uses generalizing custody with
  | nil => exact (Bool.or_false custody.isClosed).symm
  | cons use rest ih =>
      rw [List.any_cons, ← Bool.or_assoc, ← isClosed_perform]
      exact ih (custody.perform use.2).2

/-- The custody holds nothing and lets nobody use a secret.  Giving it a secret, asking for one and
signing a leaf of separate checks are fatal.  A leaf of a joint check is refused for its kind, before
it matters whether the custody is closed. -/
structure Refuses (custody : Custody P) : Prop where
  closed : custody.isClosed = true
  empty : custody.size = 0 ∧ custody.publicKeys = []
  insert : forall pair, (custody.perform (.insert pair)).1 = .error .custodyClosed
  pairFor : forall key, (custody.perform (.pairFor key)).1 = .error .custodyClosed
  checkOpen : (custody.perform .checkOpen).1 = .error .custodyClosed
  signLeaf_multi : forall (leaf : Leaf P) (sighash : Bytes32) (type : SighashType)
    (aux : Nat -> Bytes32), leaf.kind = .multi ->
      (custody.perform (.signLeaf leaf sighash type aux)).1 = .error .custodyClosed
  signLeaf_musig : forall (leaf : Leaf P) (sighash : Bytes32) (type : SighashType)
    (aux : Nat -> Bytes32) (aggregate : XOnlyKey P), leaf.kind = .musig aggregate ->
      (custody.perform (.signLeaf leaf sighash type aux)).1 = .error .musigLeaf

theorem refuses_of_isClosed {custody : Custody P} (h : custody.isClosed = true) :
    custody.Refuses := by
  cases custody with
  | holding pairs => cases h
  | closed =>
      constructor
      case closed => rfl
      case empty => exact ⟨rfl, rfl⟩
      case insert => exact fun _ => rfl
      case pairFor => exact fun _ => rfl
      case checkOpen => rfl
      case signLeaf_multi =>
        intro leaf sighash type aux hkind
        simp only [perform, Custody.signLeafWith, hkind]
        rfl
      case signLeaf_musig =>
        intro leaf sighash type aux aggregate hkind
        simp only [perform, Custody.signLeafWith, hkind]

/-- A custody is closed exactly if it has been closed at some point, and from then on it refuses, with
a failure that is fatal unless a leaf of a joint check was to be signed. -/
theorem refuses_after_close (custody : Custody P) (uses : List ((α : Type) × Use P α)) :
    (custody.run uses).isClosed =
        (custody.isClosed || uses.any (fun use => use.2.closes)) ∧
      (uses.any (fun use => use.2.closes) = true -> (custody.run uses).Refuses) ∧
      PolicyError.custodyClosed.kind = .securityViolation ∧
      PolicyError.custodyClosed.isFatal = true := by
  have hclosed := isClosed_run custody uses
  refine ⟨hclosed, ?_, rfl, rfl⟩
  intro hcloses
  apply refuses_of_isClosed
  rw [hclosed, hcloses, Bool.or_true]

def closedUses : List ((α : Type) × Use Exponent α) :=
  [⟨_, .insert (Exponent.pair 2)⟩, ⟨_, .pairFor (Exponent.pair 2).xOnly⟩, ⟨_, .close⟩,
    ⟨_, .insert (Exponent.pair 2)⟩, ⟨_, .pairFor (Exponent.pair 2).xOnly⟩]

theorem refuses_after_close_closedUses :
    ((Custody.ofList [Exponent.pair 5]).run (closedUses.take 2)).size = 2 ∧
      ((Custody.ofList [Exponent.pair 5]).run closedUses).Refuses :=
  ⟨by decide +kernel, (refuses_after_close (Custody.ofList [Exponent.pair 5]) closedUses).2.1 rfl⟩

theorem not_fatal_after_close :
    ¬ forall (custody : Custody Exponent) (uses : List ((α : Type) × Use Exponent α)),
      uses.any (fun use => use.2.closes) = true ->
      forall (leaf : Leaf Exponent) (sighash : Bytes32) (type : SighashType) (aux : Nat -> Bytes32),
        exists cause,
          ((custody.run uses).perform (.signLeaf leaf sighash type aux)).1 = .error cause ∧
            cause.kind = .securityViolation ∧ cause.isFatal = true := by
  intro h
  rcases h (Custody.ofList [Exponent.pair 5]) closedUses rfl jointLeaf (FixedBytes.ofNat 32 9)
    .standard (fun _ => FixedBytes.ofNat 32 3) with ⟨cause, hcause, hkind, _⟩
  cases hcause
  cases hkind

end Custody
end Cosigning
