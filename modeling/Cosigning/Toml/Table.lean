/-!
# TOML values and tables

A document is a table that grows entry by entry.  Each table remembers how it came
to be, because that decides what may still be added to it: a table that a header
named is finished, one that was only passed through on the way to another may be
named later, and one that a dotted key made takes further dotted keys.
-/

namespace Cosigning
namespace Toml

/-- A value.  Fractions and dates are kept as they are written. -/
inductive Value where
  | string (text : String)
  | integer (value : Int)
  | float (text : String)
  | boolean (value : Bool)
  | dateTime (text : String)
  | array (items : List Value)
  | table (entries : List (String × Value))

inductive Item where
  | value (value : Value)
  /-- A table.  It is implicit if it was only passed through so far, and dotted if a dotted key
  made it. -/
  | table (implicit dotted : Bool) (entries : List (String × Item))
  /-- An array of tables, the newest one first. -/
  | tables (members : List (List (String × Item)))

structure Table where
  implicit : Bool
  dotted : Bool
  entries : List (String × Item)

namespace Table

def empty : Table :=
  { implicit := false, dotted := false, entries := [] }

def toItem (table : Table) : Item :=
  .table table.implicit table.dotted table.entries

def get? (table : Table) (key : String) : Option Item :=
  table.entries.lookup key

def put (table : Table) (key : String) (item : Item) : Table :=
  { table with
    entries := table.entries.filter (fun entry => entry.1 ≠ key) ++ [(key, item)] }

/-- Change the table at the end of a path, making the tables on the way that are missing.  Among an
array of tables the newest one is meant.  A dotted path does not lead into a table that is not
implicit. -/
def alter (dotted : Bool) (change : Table -> Option Table) :
    List String -> Table -> Option Table
  | [], table => change table
  | key :: rest, table =>
      match table.get? key with
      | none => do
          let inner <- alter dotted change rest
            { implicit := true, dotted := dotted, entries := [] }
          return table.put key inner.toItem
      | some (.value _) => none
      | some (.tables []) => none
      | some (.tables (newest :: others)) => do
          let inner <- alter dotted change rest { empty with entries := newest }
          return table.put key (.tables (inner.entries :: others))
      | some (.table implicit innerDotted entries) =>
          if dotted && !implicit then none
          else do
            let inner <- alter dotted change rest
              { implicit := implicit, dotted := innerDotted, entries := entries }
            return table.put key inner.toItem

/-- Add a value under the last part of a dotted key.  The parts before it must lead to a table made
by a dotted key, and the last part must be new there. -/
def insert (key : List String) (value : Value) (table : Table) : Option Table :=
  match key.getLast? with
  | none => none
  | some last =>
      let way := key.dropLast
      alter true
        (fun inner =>
          if inner.dotted == way.isEmpty || (inner.get? last).isSome then none
          else some (inner.put last (.value value)))
        way table

def insertAll (entries : List (List String × Value)) (table : Table) : Option Table :=
  entries.foldlM (fun table entry => insert entry.1 entry.2 table) table

/-- Add a table under a header.  A table that was only passed through by headers is completed. -/
def insertTable (key : List String) (entries : List (List String × Value)) (table : Table) :
    Option Table :=
  match key.getLast? with
  | none => none
  | some last =>
      alter false
        (fun parent => do
          let start <-
            match parent.get? last with
            | none => some empty
            | some (.table true false entries) => some { empty with entries := entries }
            | some _ => none
          let inner <- insertAll entries start
          return parent.put last inner.toItem)
        key.dropLast table

def appendTable (key : List String) (entries : List (List String × Value)) (table : Table) :
    Option Table :=
  match key.getLast? with
  | none => none
  | some last =>
      alter false
        (fun parent => do
          let others <-
            match parent.get? last with
            | none => some []
            | some (.tables members) => some members
            | some _ => none
          let inner <- insertAll entries empty
          return parent.put last (.tables (inner.entries :: others)))
        key.dropLast table

end Table

mutual

def Item.toValue : Item -> Value
  | .value value => value
  | .table _ _ entries => .table (entryValues entries)
  | .tables members => .array (memberValues members).reverse

def entryValues : List (String × Item) -> List (String × Value)
  | [] => []
  | (key, item) :: rest => (key, item.toValue) :: entryValues rest

def memberValues : List (List (String × Item)) -> List Value
  | [] => []
  | entries :: rest => .table (entryValues entries) :: memberValues rest

end

end Toml
end Cosigning
