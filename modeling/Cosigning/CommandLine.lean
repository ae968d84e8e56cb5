import Cosigning.Json.Writer
import Cosigning.Matching
import Cosigning.Report
import Cosigning.Settings

/-!
# The command line

The program builds the script tree that its settings describe.  One command prints
the tree's address and leaves, another the leaf that a group of signers can use.
Everything but reading the file of settings is a function of the arguments.
-/

namespace Cosigning
namespace CommandLine

/-!
## Arguments
-/

inductive Command where
  | showAddress
  | findLeaf
deriving DecidableEq

structure Options where
  settingsPath : String
  validateOnly : Bool
  json : Bool
  command : Option Command
  signers : List String
deriving DecidableEq

def Options.standard : Options :=
  { settingsPath := "tapquorum.toml"
    validateOnly := false
    json := false
    command := none
    signers := [] }

inductive Request where
  | help
  | version
  | work (options : Options)
deriving DecidableEq

/-- Read the arguments one after the other.  The last command counts, and the first argument that
asks for help or is wrong ends the reading. -/
def readArguments (options : Options) : List String -> Except Failure Request
  | [] => .ok (.work options)
  | argument :: rest =>
      if argument = "--config" ∨ argument = "-c" then
        match rest with
        | [] => .error (.plain "--config requires a path argument")
        | path :: rest => readArguments { options with settingsPath := path } rest
      else if argument = "--signer" ∨ argument = "-s" then
        match rest with
        | [] => .error (.plain "--signer requires a hex x-only key")
        | key :: rest => readArguments { options with signers := options.signers ++ [key] } rest
      else if argument = "--validate" then
        readArguments { options with validateOnly := true } rest
      else if argument = "--json" then readArguments { options with json := true } rest
      else if argument = "--help" ∨ argument = "-h" then .ok .help
      else if argument = "--version" ∨ argument = "-V" then .ok .version
      else if argument = "address" then
        readArguments { options with command := some .showAddress } rest
      else if argument = "match" then
        readArguments { options with command := some .findLeaf } rest
      else .error (.plain ("Unknown argument: " ++ argument))

def request (arguments : List String) : Except Failure Request :=
  readArguments Options.standard arguments

def helpText : List String :=
  ["tapquorum: k-of-n threshold Taproot script trees",
    "",
    "USAGE:",
    "    tapquorum [OPTIONS] <COMMAND>",
    "",
    "COMMANDS:",
    "    address               Print the output key, address and leaf layout",
    "    match                 Find the leaf for a signer set (use --signer)",
    "",
    "OPTIONS:",
    "    -c, --config <PATH>   Config file path (default: tapquorum.toml)",
    "    -s, --signer <HEX>    x-only key of a cooperating signer (repeatable)",
    "    --json                Print machine-readable JSON",
    "    --validate            Validate config file and exit",
    "    -h, --help            Show this help message",
    "    -V, --version         Show version",
    "",
    "ENVIRONMENT VARIABLES (override config file):",
    "    TAPQUORUM_LOG_LEVEL   Log level (error/warn/info/debug/trace)",
    "    TAPQUORUM_NETWORK     Bitcoin network (bitcoin/testnet/signet/regtest)",
    "    TAPQUORUM_THRESHOLD   Number of signers required",
    "    TAPQUORUM_STRATEGY    Leaf strategy (checksigadd/musig)",
    "",
    "EXAMPLES:",
    "    # Address for the configured policy",
    "    tapquorum --config tapquorum.toml address",
    "",
    "    # Leaf script and control block for two cooperating signers",
    "    tapquorum --config tapquorum.toml match --signer <hex> --signer <hex>",
    ""]

def versionText : String := "tapquorum 0.1.0"

def overridesOf (variableOf : String -> Option String) : Overrides :=
  { logLevel := variableOf "TAPQUORUM_LOG_LEVEL"
    network := variableOf "TAPQUORUM_NETWORK"
    threshold := variableOf "TAPQUORUM_THRESHOLD"
    strategy := variableOf "TAPQUORUM_STRATEGY" }

/-!
## Output
-/

variable {P : Type} [Ciphersuite P]

def shortKey (key : XOnlyKey P) : String :=
  let digits := key.toHex.toList
  String.ofList (digits.take 8) ++ "…" ++ String.ofList (digits.drop (digits.length - 4))

def settingsLines (settings : Settings) : List String :=
  ["Configuration is valid.",
    "  Network:      " ++ settings.network,
    "  Policy:       " ++ toString settings.threshold ++ "-of-" ++ toString settings.keys.length,
    "  Internal key: " ++ settings.internalKey,
    "  Strategy:     " ++ settings.strategy,
    "  Weighting:    " ++ settings.weighting]

def leafLine (index : Nat) (leaf : Leaf P) (depth : Nat) : String :=
  "  #" ++ Failure.padRight 4 (toString index) ++
    " weight " ++ Failure.padLeft 3 (toString leaf.weight.toNat) ++
    "  depth " ++ Failure.padLeft 2 (toString depth) ++
    "  " ++ " + ".intercalate (leaf.requiredKeys.map shortKey)

def addressLines (tree : ScriptTree P) (network : Network) : List String :=
  ["Address:      " ++ tree.address network,
    "Output key:   " ++ tree.outputXOnly.toHex,
    "Internal key: " ++ tree.internalKey.text,
    "Merkle root:  " ++ tree.merkleRoot.toHex,
    "Leaves:       " ++ toString tree.leaves.length] ++
  (tree.leaves.zip tree.depths).zipIdx.map (fun entry =>
    leafLine entry.2 entry.1.1 entry.1.2)

def leafJson (leaf : Leaf P) (depth : Nat) : Json.Value :=
  .object
    [("depth", .ofNat depth),
      ("keys", .array (leaf.requiredKeys.map (fun key => .string key.toHex))),
      ("script", .string (Hex.encode leaf.script)),
      ("weight", .ofNat leaf.weight.toNat)]

def addressJson (tree : ScriptTree P) (network : Network) : Json.Value :=
  .object
    [("address", .string (tree.address network)),
      ("internal_key", .string tree.internalKey.text),
      ("leaves",
        .array ((tree.leaves.zip tree.depths).map (fun entry => leafJson entry.1 entry.2))),
      ("merkle_root", .string tree.merkleRoot.toHex),
      ("output_key", .string tree.outputXOnly.toHex)]

structure FoundLeaf (P : Type) [Ciphersuite P] where
  leaf : Leaf P
  block : ControlBlock P
  fragment : Script.Miniscript P

def foundLines (found : FoundLeaf P) : List String :=
  ["Leaf hash:     " ++ found.leaf.digest.toHex,
    "Miniscript:    " ++ found.fragment.text,
    "Script:        " ++ Hex.encode found.leaf.script,
    "Control block: " ++ Hex.encode found.block.toBytes]

def foundJson (found : FoundLeaf P) : Json.Value :=
  .object
    [("control_block", .string (Hex.encode found.block.toBytes)),
      ("leaf_hash", .string found.leaf.digest.toHex),
      ("miniscript", .string found.fragment.text),
      ("script", .string (Hex.encode found.leaf.script))]

/-!
## Running
-/

structure Outcome where
  output : List String
  failure : Option Failure

namespace Outcome

def success (lines : List String) : Outcome :=
  { output := lines, failure := none }

def ofExcept : Except Failure (List String) -> Outcome
  | .ok lines => success lines
  | .error failure => { output := [], failure := some failure }

def exitCode (outcome : Outcome) : UInt8 :=
  if outcome.failure.isSome then 1 else 0

end Outcome

def during (message : String) (cause : PolicyError) : Failure :=
  .ofChain (message :: cause.chain)

def signerOf (text : String) : Except Failure (XOnlyKey P) :=
  match XOnlyKey.ofHex? text with
  | some key => .ok key
  | none => .error (.ofChain ["Invalid signer key: " ++ text, "malformed public key"])

def findLeaf (tree : ScriptTree P) (signers : List String) : Except Failure (FoundLeaf P) := do
  ensure (signers ≠ []) (Failure.plain "match needs at least one --signer")
  let keys <- signers.mapM signerOf
  let leaf <- (narrowToLeaf tree.leaves keys).mapError (during "No unique leaf for signers")
  let block <- (tree.controlBlock leaf).mapError (fun e => Failure.ofChain e.chain)
  let fragment <- leaf.miniscript.mapError (fun e => Failure.ofChain e.chain)
  return { leaf := leaf, block := block, fragment := fragment }

def commandLines (command : Command) (options : Options) (network : Network)
    (tree : ScriptTree P) : Except Failure (List String) :=
  match command with
  | .showAddress =>
      .ok (if options.json then [(addressJson tree network).pretty]
        else addressLines tree network)
  | .findLeaf =>
      (findLeaf tree options.signers).map (fun found =>
        if options.json then [(foundJson found).pretty] else foundLines found)

variable (P)

def treeOf (settings : Settings) : Except Failure (ScriptTree P) := do
  let policy <- (settings.policyOf P).mapError (fun e => Failure.ofChain e.chain)
  let weighting <- settings.weightingOf.mapError (fun e => Failure.ofChain e.chain)
  let strategy <- settings.strategyOf.mapError (fun e => Failure.ofChain e.chain)
  (ScriptTree.ofPolicy policy strategy weighting.weight).mapError
    (during "Failed to build script tree")

def workOn (options : Options) (settings : Settings) : Outcome :=
  match settings.validate P with
  | .error e =>
      { output := []
        failure := some (.ofChain ("Configuration validation failed" :: e.chain)) }
  | .ok _ =>
      if options.validateOnly then .success (settingsLines settings)
      else
        match options.command with
        | none => { output := helpText, failure := some (.plain "No command given") }
        | some command =>
            .ofExcept ((treeOf P settings).bind (commandLines command options settings.networkOf))

def loadSettings (path : String) : Except String String -> Except Failure Settings
  | .error reason =>
      .error (.ofChain ["Failed to load config from " ++ path,
        "Failed to read config file: " ++ path, reason])
  | .ok text =>
      match Settings.read? text with
      | some settings => .ok settings
      | none =>
          .error (.ofChain ["Failed to load config from " ++ path, "Failed to parse TOML config",
            "the document is malformed or lacks a setting"])

def work (options : Options) (file : Except String String) (overrides : Overrides) : Outcome :=
  match loadSettings options.settingsPath file with
  | .error failure => { output := [], failure := some failure }
  | .ok settings => workOn P options (settings.override overrides)

def run (arguments : List String) (readFile : String -> Except String String)
    (overrides : Overrides) : Outcome :=
  match request arguments with
  | .error failure => { output := [], failure := some failure }
  | .ok .help => .success helpText
  | .ok .version => .success [versionText]
  | .ok (.work options) => work P options (readFile options.settingsPath) overrides

end CommandLine
end Cosigning
