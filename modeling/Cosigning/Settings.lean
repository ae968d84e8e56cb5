import Cosigning.Ensure
import Cosigning.Leaf
import Cosigning.Toml.Document
import Cosigning.Tree.ScriptTree

/-!
# Settings

The settings describe the policy of a script tree as texts.  They are read from a
TOML document, single ones may be overridden from the environment, and they are
checked before they are used.
-/

namespace Cosigning

structure Settings where
  logLevel : String
  network : String
  keys : List String
  threshold : Nat
  internalKey : String
  strategy : String
  weighting : String
  sortKeys : Bool
deriving DecidableEq

/-- Settings from the environment, which win over those of the document. -/
structure Overrides where
  logLevel : Option String
  network : Option String
  /-- How many signers must cooperate; a text that is no number is passed over. -/
  threshold : Option String
  strategy : Option String

inductive SettingsError where
  | unknownNetwork
  | unknownLogLevel
  | noKeys
  | strategy (cause : PolicyError)
  | weighting (cause : PolicyError)
  | malformedKey (index : Nat) (text : String)
  | internalKey (cause : PolicyError)
  | policy (cause : PolicyError)
deriving DecidableEq

def PolicyError.chain : PolicyError -> List String
  | .musig cause => [(PolicyError.musig cause).message, cause.message]
  | e => [e.message]

def SettingsError.chain : SettingsError -> List String
  | unknownNetwork => ["bitcoin.network must be one of bitcoin, testnet, signet, regtest"]
  | unknownLogLevel => ["logging.level must be one of error, warn, info, debug, trace"]
  | noKeys => ["policy.keys must not be empty"]
  | strategy cause => "policy.strategy" :: cause.chain
  | weighting cause => "policy.weighting" :: cause.chain
  | malformedKey index text =>
      ["policy.keys[" ++ toString index ++ "] is not an x-only key: " ++ text,
        "malformed public key"]
  | internalKey cause => "policy.internal_key" :: cause.chain
  | policy cause => "Invalid threshold policy" :: cause.chain

namespace Settings

/-!
## Reading
-/

open Toml (Value)

/-- The fields of a section.  A section may also be an array of its fields in order, and a date in
its place has no fields. -/
def sectionFields (names : List String) : Value -> Option (List (String × Value))
  | .table entries => some entries
  | .array items => some (names.zip items)
  | .dateTime _ => some []
  | _ => none

def optionalSection (document : List (String × Value)) (name : String) (fields : List String) :
    Option (List (String × Value)) :=
  match document.lookup name with
  | none => some []
  | some value => sectionFields fields value

def asText : Value -> Option String
  | .string text => some text
  | _ => none

def asTexts : Value -> Option (List String)
  | .array items => items.mapM asText
  | _ => none

def asCount : Value -> Option Nat
  | .integer value => if 0 <= value then some value.toNat else none
  | _ => none

def asFlag : Value -> Option Bool
  | .boolean value => some value
  | _ => none

def required {α : Type} (decode : Value -> Option α) (fields : List (String × Value))
    (name : String) : Option α :=
  (fields.lookup name).bind decode

def withDefault {α : Type} (decode : Value -> Option α) (fields : List (String × Value))
    (name : String) (standard : α) : Option α :=
  match fields.lookup name with
  | none => some standard
  | some value => decode value

def ofDocument? (document : List (String × Value)) : Option Settings := do
  let logging <- optionalSection document "logging" ["level"]
  let bitcoin <- optionalSection document "bitcoin" ["network"]
  let policy <-
    (document.lookup "policy").bind
      (sectionFields
        ["keys", "threshold", "internal_key", "strategy", "weighting", "sort_keys"])
  return { logLevel := <- withDefault asText logging "level" "info"
           network := <- withDefault asText bitcoin "network" Network.bitcoin.name
           keys := <- required asTexts policy "keys"
           threshold := <- required asCount policy "threshold"
           internalKey := <- withDefault asText policy "internal_key" "unspendable"
           strategy := <- withDefault asText policy "strategy" Strategy.standard.name
           weighting := <- withDefault asText policy "weighting" Weighting.standard.name
           sortKeys := <- withDefault asFlag policy "sort_keys" false }

def read? (text : String) : Option Settings :=
  (Toml.read? text).bind ofDocument?

/-!
## Overriding
-/

/-- The count that a text writes in decimal digits, perhaps after a plus sign. -/
def countOfText? (text : String) : Option Nat :=
  let digits :=
    match text.toList with
    | '+' :: rest => rest
    | cs => cs
  if digits.isEmpty then none
  else
    ((digits.mapM (Text.digit? 10)).map (Text.ofDigits 10)).filter (fun n =>
      decide (n < 0x10000000000000000))

def override (settings : Settings) (overrides : Overrides) : Settings :=
  { settings with
    logLevel := overrides.logLevel.getD settings.logLevel
    network := overrides.network.getD settings.network
    threshold := (overrides.threshold.bind countOfText?).getD settings.threshold
    strategy := overrides.strategy.getD settings.strategy }

/-!
## Using
-/

/-- The network that addresses are for; a name that is not known counts as the main network. -/
def networkOf (settings : Settings) : Network :=
  if settings.network = "testnet" ∨ settings.network = "testnet3" then .testnet
  else if settings.network = "signet" then .signet
  else if settings.network = "regtest" then .regtest
  else .bitcoin

def strategyOf (settings : Settings) : Except SettingsError Strategy :=
  (Strategy.ofName settings.strategy).mapError SettingsError.strategy

def weightingOf (settings : Settings) : Except SettingsError Weighting :=
  (Weighting.ofName settings.weighting).mapError SettingsError.weighting

variable (P : Type) [Ciphersuite P]

def keyOf (text : String) (index : Nat) : Except SettingsError (XOnlyKey P) :=
  match XOnlyKey.ofHex? text with
  | some key => .ok key
  | none => .error (.malformedKey index text)

def policyOf (settings : Settings) : Except SettingsError (ThresholdPolicy P) := do
  let keys <- settings.keys.zipIdx.mapM (fun entry => keyOf P entry.1 entry.2)
  let internalKey <- (InternalKey.ofText settings.internalKey).mapError SettingsError.internalKey
  let policy <-
    (ThresholdPolicy.ofKeys keys settings.threshold internalKey).mapError SettingsError.policy
  return if settings.sortKeys then policy.sorted else policy

def networkNames : List String :=
  ["bitcoin", "testnet", "testnet3", "signet", "regtest"]

def logLevels : List String :=
  ["error", "warn", "info", "debug", "trace"]

def validate (settings : Settings) : Except SettingsError Unit := do
  ensure (settings.network ∈ networkNames) SettingsError.unknownNetwork
  ensure (settings.logLevel ∈ logLevels) SettingsError.unknownLogLevel
  ensure (settings.keys ≠ []) SettingsError.noKeys
  let _ <- settings.strategyOf
  let _ <- settings.weightingOf
  let _ <- settings.policyOf P
  return ()

end Settings

end Cosigning
