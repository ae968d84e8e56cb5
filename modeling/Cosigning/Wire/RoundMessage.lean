import Cosigning.Json.Reader
import Cosigning.Json.Writer
import Cosigning.Wire.Encoding

/-!
# Messages between participants

A round message carries one participant's nonce or partial signature as text.  It
names the digest that is being signed, so that a receiver can refuse what was meant
for another signing, and it travels as a JSON object.
-/

namespace Cosigning
namespace Wire

open Musig

inductive Payload where
  | nonce (digits : String)
  | partialSignature (digits : String)
deriving DecidableEq

namespace Payload

def name : Payload -> String
  | nonce _ => "nonce"
  | partialSignature _ => "partial"

def digits : Payload -> String
  | nonce digits => digits
  | partialSignature digits => digits

end Payload

structure RoundMessage where
  version : UInt8
  message : String
  signerIndex : UInt64
  payload : Payload
deriving DecidableEq

def currentVersion : UInt8 := 1

namespace RoundMessage

variable {P : Type} [Ciphersuite P]

def ofNonce (message : Bytes32) (signerIndex : UInt64) (nonce : PublicNonce P) : RoundMessage :=
  { version := currentVersion
    message := message.toHex
    signerIndex := signerIndex
    payload := .nonce (Hex.encode (encodeNonce nonce)) }

def ofPartial (message : Bytes32) (signerIndex : UInt64) (response : Scalar) : RoundMessage :=
  { version := currentVersion
    message := message.toHex
    signerIndex := signerIndex
    payload := .partialSignature (Hex.encode (encodePartial response)) }

def check (received : RoundMessage) (message : Bytes32) : Except Error Unit :=
  if received.version ≠ currentVersion then .error (.unsupportedVersion received.version)
  else if received.message ≠ message.toHex then .error .otherSigning
  else .ok ()

def decodeDigits (digits : String) : Except Error (List UInt8) :=
  (Hex.decode digits).mapError Error.invalidHex

def decodeNonce (received : RoundMessage) : Except Error (PublicNonce P) :=
  match received.payload with
  | .nonce digits => (decodeDigits digits).bind Wire.decodeNonce
  | .partialSignature _ => .error .nonceExpected

def decodePartial (received : RoundMessage) : Except Error Scalar :=
  match received.payload with
  | .partialSignature digits => (decodeDigits digits).bind Wire.decodePartial
  | .nonce _ => .error .partialExpected

/-!
## As JSON
-/

def toJson (sent : RoundMessage) : Json.Value :=
  .object
    [("version", .ofNat sent.version.toNat),
      ("message", .string sent.message),
      ("signer_index", .ofNat sent.signerIndex.toNat),
      ("round", .string sent.payload.name),
      (sent.payload.name, .string sent.payload.digits)]

def serialize (sent : RoundMessage) : String :=
  sent.toJson.compact

/-- The value of the only member with a name. -/
def member? (members : List (String × Json.Value)) (name : String) : Option Json.Value :=
  match members.filter (fun entry => decide (entry.1 = name)) with
  | [(_, value)] => some value
  | _ => none

def stringMember? (members : List (String × Json.Value)) (name : String) : Option String :=
  match member? members name with
  | some (.string text) => some text
  | _ => none

def naturalMember? (members : List (String × Json.Value)) (name : String) (bound : Nat) :
    Option Nat :=
  match member? members name with
  | some (.number number) => number.toNat? bound
  | _ => none

/-- The payload.  The round is told by its name or its number. -/
def payload? (members : List (String × Json.Value)) : Option Payload := do
  let isNonce <-
    match member? members "round" with
    | some (.string "nonce") => some true
    | some (.string "partial") => some false
    | some (.number number) => (number.toNat? 2).map (fun round => round == 0)
    | _ => none
  if isNonce then (stringMember? members "nonce").map Payload.nonce
  else (stringMember? members "partial").map Payload.partialSignature

def ofJson? : Json.Value -> Option RoundMessage
  | .object members => do
      let version <- naturalMember? members "version" 0x100
      let message <- stringMember? members "message"
      let signerIndex <- naturalMember? members "signer_index" 0x10000000000000000
      let payload <- payload? members
      return { version := UInt8.ofNat version
               message := message
               signerIndex := UInt64.ofNat signerIndex
               payload := payload }
  | _ => none

def deserialize? (text : String) : Option RoundMessage :=
  (Json.read? text).bind ofJson?

end RoundMessage

end Wire
end Cosigning
