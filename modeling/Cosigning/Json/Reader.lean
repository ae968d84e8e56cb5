import Cosigning.Json.Token

/-!
# Reading JSON

The reader takes one token at a time and remembers the arrays and objects that are
still open, innermost first, of which there may only be so many.
-/

namespace Cosigning
namespace Json

/-- An array or object that is still open; what it holds so far is in reverse. -/
inductive Container where
  | array (items : List Value)
  | object (members : List (String × Value))
  | member (members : List (String × Value)) (name : String)

inductive Awaiting where
  | value
  /-- A value, or the end of an array that is empty so far. -/
  | firstItem
  | name
  /-- The name of a member, or the end of an object that is empty so far. -/
  | firstName
  | colon
  | next (value : Value)

def maxNesting : Nat := 127

abbrev ReaderState := Awaiting × List Container

namespace ReaderState

def start : ReaderState :=
  (.value, [])

def enter (awaiting : Awaiting) (container : Container) (outer : List Container) :
    Option ReaderState :=
  if outer.length < maxNesting then some (awaiting, container :: outer) else none

def beginValue (outer : List Container) : Token -> Option ReaderState
  | .null => some (.next .null, outer)
  | .bool value => some (.next (.bool value), outer)
  | .number value => some (.next (.number value), outer)
  | .string value => some (.next (.string value), outer)
  | .openArray => enter .firstItem (.array []) outer
  | .openObject => enter .firstName (.object []) outer
  | _ => none

def afterValue (value : Value) : List Container -> Token -> Option ReaderState
  | .array items :: outer, .comma => some (.value, .array (value :: items) :: outer)
  | .array items :: outer, .closeArray =>
      some (.next (.array (value :: items).reverse), outer)
  | .member members name :: outer, .comma =>
      some (.name, .object ((name, value) :: members) :: outer)
  | .member members name :: outer, .closeObject =>
      some (.next (.object ((name, value) :: members).reverse), outer)
  | _, _ => none

def step : ReaderState -> Token -> Option ReaderState
  | (.next value, outer), token => afterValue value outer token
  | (.firstItem, .array _ :: outer), .closeArray => some (.next (.array []), outer)
  | (.firstItem, outer), token => beginValue outer token
  | (.value, outer), token => beginValue outer token
  | (.firstName, .object _ :: outer), .closeObject => some (.next (.object []), outer)
  | (.firstName, .object members :: outer), .string name =>
      some (.colon, .member members name :: outer)
  | (.name, .object members :: outer), .string name =>
      some (.colon, .member members name :: outer)
  | (.colon, outer), .colon => some (.value, outer)
  | _, _ => none

def result? : ReaderState -> Option Value
  | (.next value, []) => some value
  | _ => none

end ReaderState

def Value.ofTokens? (tokens : List Token) : Option Value := do
  let state <- tokens.foldlM ReaderState.step ReaderState.start
  state.result?

def read? (text : String) : Option Value := do
  let tokens <- Token.ofChars? text.toList
  Value.ofTokens? tokens

end Json
end Cosigning
