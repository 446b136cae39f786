import Alerting.Json.Value
/-!
# TOML tables

What the lines of a TOML document put together.  A table may be made on the way to another one, by a
key with dots, or by a header of its own; this decides whether it can be opened again later.
-/

namespace Alerting.Toml

/-- How a table came about. -/
inductive Making where
  /-- On the way to another table. -/
  | implied
  /-- By a key with dots. -/
  | dotted
  | explicit
deriving DecidableEq, Repr

inductive Node where
  | value (v : Json)
  | table (making : Making) (fields : List (String × Node))
  /-- Tables that were written one after the other; the latest comes first. -/
  | tables (reversed : List (List (String × Node)))
deriving Inhabited

abbrev Fields := List (String × Node)

namespace Fields

def set (key : String) (node : Node) : Fields → Fields
  | [] => [(key, node)]
  | (k, n) :: rest => if k = key then (key, node) :: rest else (k, n) :: set key node rest

/-- Adds a value under a key with dots.  No value may be there, and the last table on the way must
have been made by a key with dots. -/
def addValue (v : Json) : List String → Fields → Option Fields
  | [], _ => none
  | [key], fields => if (fields.lookup key).isNone then some (fields ++ [(key, .value v)]) else none
  | key :: next :: path, fields =>
    match fields.lookup key with
    | none => do
      let inner ← addValue v (next :: path) []
      return fields ++ [(key, .table .dotted inner)]
    | some (.table making inner) =>
      if making = .explicit || making = .implied && path.isEmpty then none
      else do
        let inner ← addValue v (next :: path) inner
        return fields.set key (.table making inner)
    | some _ => none

/-- Changes the table that a path leads to; of tables written one after the other, the latest. -/
def within (change : Fields → Option Fields) : List String → Fields → Option Fields
  | [], fields => change fields
  | key :: path, fields =>
    match fields.lookup key with
    | some (.table making inner) => do
      let inner ← within change path inner
      return fields.set key (.table making inner)
    | some (.tables (latest :: others)) => do
      let latest ← within change path latest
      return fields.set key (.tables (latest :: others))
    | _ => none

/-- Goes to the parent of the last key of a path, and changes what is under that key.  Tables on the
way are made where there are none. -/
def enter (change : Option Node → Option Node) : List String → Fields → Option Fields
  | [], _ => none
  | [key], fields => do
    let node ← change (fields.lookup key)
    return fields.set key node
  | key :: next :: path, fields =>
    match fields.lookup key with
    | none => do
      let inner ← enter change (next :: path) []
      return fields ++ [(key, .table .implied inner)]
    | some (.table making inner) => do
      let inner ← enter change (next :: path) inner
      return fields.set key (.table making inner)
    | some (.tables (latest :: others)) => do
      let latest ← enter change (next :: path) latest
      return fields.set key (.tables (latest :: others))
    | some _ => none

/-- Opens the table of a header.  A table can be opened once. -/
def openTable (path : List String) (fields : Fields) : Option Fields :=
  fields.enter (fun
    | none => some (.table .explicit [])
    | some (.table .implied inner) => some (.table .explicit inner)
    | some _ => none) path

def addTable (path : List String) (fields : Fields) : Option Fields :=
  fields.enter (fun
    | none => some (.tables [[]])
    | some (.tables reversed) => some (.tables ([] :: reversed))
    | some _ => none) path

end Fields

mutual

def Node.toJson : Node → Json
  | .value v => v
  | .table _ fields => .ofFields (fieldsToJson fields)
  | .tables reversed => .array (tablesToJson reversed).reverse

def fieldsToJson : List (String × Node) → List (String × Json)
  | [] => []
  | (key, node) :: rest => (key, node.toJson) :: fieldsToJson rest

def tablesToJson : List (List (String × Node)) → List Json
  | [] => []
  | fields :: rest => .ofFields (fieldsToJson fields) :: tablesToJson rest

end

def tableOf (entries : List (List String × Json)) : Option Json := do
  let fields ← entries.foldlM (fun fields (path, v) => Fields.addValue v path fields) []
  return .ofFields (fieldsToJson fields)

inductive Statement where
  | header (path : List String)
  | arrayHeader (path : List String)
  | entry (path : List String) (v : Json)
deriving Inhabited

/-- A document that is being put together: what there is, and where values are added. -/
structure Draft where
  fields : Fields := []
  path : List String := []
deriving Inhabited

namespace Draft

def add (d : Draft) : Statement → Option Draft
  | .header path => (d.fields.openTable path).map (⟨·, path⟩)
  | .arrayHeader path => (d.fields.addTable path).map (⟨·, path⟩)
  | .entry path v => (d.fields.within (Fields.addValue v path) d.path).map (⟨·, d.path⟩)

def toJson (d : Draft) : Json :=
  .ofFields (fieldsToJson d.fields)

end Draft

def documentOf (lines : List Statement) : Option Json := do
  let draft ← lines.foldlM Draft.add {}
  return draft.toJson

end Alerting.Toml
