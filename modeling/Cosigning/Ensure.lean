/-!
# Conditions that must hold

An operation checks its conditions one after the other; the first that fails gives
the failure.
-/

namespace Cosigning

variable {ε α β : Type}

def ensure (condition : Prop) [Decidable condition] (cause : ε) : Except ε Unit :=
  if condition then .ok () else .error cause

section

variable {condition : Prop} [Decidable condition] {cause : ε}

theorem ensure_of (h : condition) : ensure condition cause = .ok () :=
  if_pos h

theorem ensure_of_not (h : ¬ condition) : ensure condition cause = .error cause :=
  if_neg h

theorem ensure_bind_eq_ok_iff {next : Unit -> Except ε α} {result : α} :
    (ensure condition cause >>= next) = .ok result <->
      condition ∧ next () = .ok result := by
  by_cases h : condition
  · rw [ensure_of h]
    exact ⟨fun hnext => ⟨h, hnext⟩, fun hboth => hboth.2⟩
  · rw [ensure_of_not h]
    constructor
    · intro herror
      cases herror
    · intro hboth
      exact absurd hboth.1 h

theorem ensure_eq_error_iff {failure : ε} :
    ensure condition cause = .error failure <-> ¬ condition ∧ cause = failure := by
  by_cases h : condition
  · rw [ensure_of h]
    constructor
    · intro hok
      cases hok
    · intro hboth
      exact absurd h hboth.1
  · rw [ensure_of_not h]
    exact ⟨fun herror => ⟨h, Except.error.inj herror⟩,
      fun hboth => congrArg Except.error hboth.2⟩

theorem ensure_eq_ok_iff {done : Unit} : ensure condition cause = .ok done <-> condition := by
  by_cases h : condition
  · rw [ensure_of h]
    exact ⟨fun _ => h, fun _ => rfl⟩
  · rw [ensure_of_not h]
    constructor
    · intro herror
      cases herror
    · intro hcondition
      exact absurd hcondition h

end

theorem bind_eq_ok_iff {first : Except ε α} {next : α -> Except ε β} {result : β} :
    (first >>= next) = .ok result <->
      exists middle, first = .ok middle ∧ next middle = .ok result := by
  cases first with
  | error cause =>
      constructor
      · intro h
        cases h
      · intro h
        rcases h with ⟨_, h, _⟩
        cases h
  | ok middle =>
      constructor
      · intro h
        exact ⟨middle, rfl, h⟩
      · intro h
        rcases h with ⟨_, hmiddle, h⟩
        cases hmiddle
        exact h

theorem map_eq_ok_iff {first : Except ε α} {change : α -> β} {result : β} :
    first.map change = .ok result <->
      exists middle, first = .ok middle ∧ change middle = result := by
  cases first with
  | error cause => simp [Except.map]
  | ok middle => simp [Except.map]

theorem map_eq_error_iff {first : Except ε α} {change : α -> β} {failure : ε} :
    first.map change = .error failure <-> first = .error failure := by
  cases first with
  | error cause => simp [Except.map]
  | ok middle => simp [Except.map]

theorem mapError_ok {φ : Type} {change : ε -> φ} {result : α} :
    (Except.ok result).mapError change = .ok result :=
  rfl

theorem mapError_error {φ : Type} {change : ε -> φ} {cause : ε} :
    (Except.error cause : Except ε α).mapError change = .error (change cause) :=
  rfl

theorem mapError_eq_ok_iff {φ : Type} {first : Except ε α} {change : ε -> φ} {result : α} :
    first.mapError change = .ok result <-> first = .ok result := by
  cases first with
  | error cause =>
      rw [mapError_error]
      constructor <;> intro h <;> cases h
  | ok middle => rw [mapError_ok, Except.ok.injEq, Except.ok.injEq]

theorem bind_eq_error_iff {first : Except ε α} {next : α -> Except ε β} {failure : ε} :
    (first >>= next) = .error failure <->
      first = .error failure ∨ exists middle, first = .ok middle ∧ next middle = .error failure := by
  cases first with
  | error cause =>
      constructor
      · intro h
        cases h
        exact Or.inl rfl
      · intro h
        rcases h with h | ⟨_, h, _⟩
        · cases h
          rfl
        · cases h
  | ok middle =>
      constructor
      · intro h
        exact Or.inr ⟨middle, rfl, h⟩
      · intro h
        rcases h with h | ⟨_, hmiddle, h⟩
        · cases h
        · cases hmiddle
          exact h

theorem eq_ok_get_toOption {outcome : Except ε α} (h : outcome.toOption.isSome = true) :
    outcome = .ok (outcome.toOption.get h) := by
  cases outcome with
  | error cause => cases h
  | ok result => rfl

theorem toOption_eq_some_iff {outcome : Except ε α} {result : α} :
    outcome.toOption = some result <-> outcome = .ok result := by
  cases outcome with
  | error cause => simp [Except.toOption]
  | ok found => simp [Except.toOption]

theorem toOption_map (outcome : Except ε α) (change : α -> β) :
    (outcome.map change).toOption = outcome.toOption.map change := by
  cases outcome <;> rfl

end Cosigning
