import Cosigning.Toml.Scalar

/-!
# TOML documents

A document is a sequence of lines: headers, which open tables, and keys with
values, which belong to the table opened last.  Only arrays and long strings go on
over several lines.
-/

namespace Cosigning
namespace Toml

/-!
## Values
-/

/-- One more item of an array, or its closing bracket.  A comma follows each item but the last. -/
def arrayStep (item : Scan Value) : Scan (Option Value) := fun cs =>
  match skipLines false cs with
  | ']' :: rest => some (none, rest)
  | cs =>
      match item cs with
      | none => none
      | some (value, rest) =>
          match skipLines false rest with
          | ',' :: rest => some (some value, rest)
          | ']' :: rest => some (some value, ']' :: rest)
          | _ => none

def keyValue? (item : Scan Value) : Scan (List String × Value) := fun cs =>
  match key? cs with
  | some (key, '=' :: rest) =>
      (item (skipBlanks rest)).map (fun found => ((key, found.1), skipBlanks found.2))
  | _ => none

def inlineTable? (item : Scan Value) : Scan Value := fun cs =>
  match skipBlanks cs with
  | '\x7d' :: rest => some (.table [], rest)
  | cs =>
      match separated (keyValue? item) ',' (cs.length + 1) cs with
      | some (entries, '\x7d' :: rest) =>
          (Table.insertAll entries Table.empty).map (fun table =>
            (.table (entryValues table.entries), rest))
      | _ => none

/-- A value inside which `depth` brackets may be open at once. -/
def value? : Nat -> Scan Value
  | 0, '[' :: _ => none
  | 0, '\x7b' :: _ => none
  | depth + 1, '[' :: rest =>
      (collect (arrayStep (value? depth)) (rest.length + 1) rest).map (fun found =>
        (.array found.1, found.2))
  | depth + 1, '\x7b' :: rest => inlineTable? (value? depth) rest
  | _, '\"' :: rest => (string? ('\"' :: rest)).map (fun found => (.string found.1, found.2))
  | _, '\'' :: rest => (string? ('\'' :: rest)).map (fun found => (.string found.1, found.2))
  | _, cs => scalar? cs

/-!
## Lines
-/

inductive Line where
  | header (isArray : Bool) (key : List String)
  | entry (key : List String) (value : Value)
  | blank

def header? (isArray : Bool) : Scan Line := fun cs => do
  let (key, rest) <- key? cs
  match isArray, rest with
  | true, ']' :: ']' :: rest => return (.header true key, rest)
  | false, ']' :: rest => return (.header false key, rest)
  | _, _ => none

def lineContent? : Scan Line
  | '[' :: '[' :: rest => header? true rest
  | '[' :: rest => header? false rest
  | cs =>
      match cs with
      | [] | '#' :: _ | '\n' :: _ | '\r' :: _ => some (.blank, cs)
      | _ =>
          (keyValue? (value? (depthLimit - 1)) cs).map (fun found =>
            (.entry found.1.1 found.1.2, found.2))

def lineStep : Scan (Option Line) := fun cs =>
  match skipBlanks cs with
  | [] => some (none, [])
  | cs => do
      let (line, rest) <- lineContent? cs
      let rest <- lineEnd? rest
      return (some line, rest)

def lines? (cs : List Char) : Option (List Line) :=
  (collect lineStep (cs.length + 1) cs).map Prod.fst

/-!
## The whole document
-/

structure Section where
  isArray : Bool
  key : List String
  entries : List (List String × Value)

def sections : List Line -> List (List String × Value) × List Section
  | [] => ([], [])
  | .blank :: rest => sections rest
  | .entry key value :: rest =>
      let (entries, others) := sections rest
      ((key, value) :: entries, others)
  | .header isArray key :: rest =>
      let (entries, others) := sections rest
      ([], { isArray := isArray, key := key, entries := entries } :: others)

def addSection (document : Table) (added : Section) : Option Table :=
  if added.isArray then document.appendTable added.key added.entries
  else document.insertTable added.key added.entries

/-- The entries of a document.  A byte order mark at its start is dropped. -/
def read? (text : String) : Option (List (String × Value)) := do
  let cs :=
    match text.toList with
    | '\ufeff' :: rest => rest
    | cs => cs
  let (entries, others) := sections (<- lines? cs)
  let document <- Table.empty.insertAll entries
  let document <- others.foldlM addSection document
  return entryValues document.entries

end Toml
end Cosigning
