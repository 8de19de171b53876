import SymbolTree.Toml

/-!
# Building tables

Keys and headers may reach into tables that exist already, and must not define anything twice. A
dotted key extends only tables that dotted keys made; a header defines a table once, and reaches
into the last element of an array of tables.
-/

namespace SymbolTree.Toml

/-- A table in the making. -/
structure Table where
  /-- How it came into being. -/
  shape : TableShape := {}
  /-- Its fields in the order in which they were defined. -/
  fields : List (Key × Item) := []

namespace Table

/-- The table as an item. -/
def toItem (table : Table) : Item := .table table.shape table.fields

/-- The item under a name. -/
def find? (table : Table) (name : String) : Option Item :=
  (table.fields.find? (·.1.name == name)).map (·.2)

/-- Add a field at the end. -/
def push (table : Table) (key : Key) (item : Item) : Table :=
  { table with fields := table.fields ++ [(key, item)] }

/-- Replace the item under a name, which keeps its place. -/
def replace (table : Table) (name : String) (item : Item) : Table :=
  { table with
    fields := table.fields.map fun field => if field.1.name == name then (field.1, item) else field }

/-- Remove the item under a name. -/
def remove (table : Table) (name : String) : Table :=
  { table with fields := table.fields.filter (·.1.name != name) }

/-- How a path of keys is followed. -/
structure Descent where
  /-- Along a dotted key, rather than a header. -/
  dotted : Bool
  /-- Between braces. -/
  inline : Bool

/-- Change the table at the end of a path; `none` when the path leads through something that cannot be
extended. Missing tables are made on the way. -/
def update (descent : Descent) (change : Table → Option Table) :
    List Key → Table → Option Table
  | [], table => change table
  | key :: path, table =>
    match table.find? key.name with
    | none =>
      let shape : TableShape :=
        { inline := descent.inline, implicit := true, dotted := descent.dotted }
      (update descent change path { shape }).map fun made => table.push key made.toItem
    | some (.table shape fields) =>
      if shape.inline != descent.inline || (descent.dotted && !shape.implicit) then none
      else
        (update descent change path { shape, fields }).map fun made =>
          table.replace key.name made.toItem
    | some (.tables items) =>
      match items.getLast? with
      | some (.table shape fields) =>
        (update descent change path { shape, fields }).map fun made =>
          table.replace key.name (.tables (items.dropLast ++ [made.toItem]))
      | _ => none
    | some _ => none

/-- Define a key, dotted by `path`. -/
def define (inline : Bool) (path : List Key) (key : Key) (item : Item) (table : Table) :
    Option Table :=
  let set (target : Table) : Option Table :=
    if target.shape.dotted == path.isEmpty || (target.find? key.name).isSome then none
    else some (target.push key item)
  table.update ⟨true, inline⟩ set path

/-- The table of pairs between braces. -/
def ofPairs (line : Nat) (pairs : List (List Key × Key × Item)) : Option Table :=
  pairs.foldlM (fun table pair => table.define true pair.1 pair.2.1 pair.2.2)
    { shape := { line := some line, inline := true } }

end Table

/-- A document in the making: the finished part, and the table that is being filled. -/
structure Builder where
  /-- All finished tables. -/
  root : Table := {}
  /-- The table under the last header. -/
  current : Table := {}
  /-- The keys of the last header; none before the first header. -/
  header : Option (List Key × Key) := none
  /-- Whether the last header adds to an array of tables. -/
  inArray : Bool := false

namespace Builder

/-- Define a key in the current table. -/
def define (builder : Builder) (path : List Key) (key : Key) (item : Item) : Option Builder :=
  (builder.current.define false path key item).map fun current => { builder with current }

/-- Headers are followed outside braces. -/
def byHeader : Table.Descent := ⟨false, false⟩

/-- Finish the current table. -/
def finish? (builder : Builder) : Option Table :=
  match builder.header with
  | none => some builder.current
  | some (path, key) =>
    let place (parent : Table) : Option Table :=
      match builder.inArray, parent.find? key.name with
      | true, some (.tables items) =>
        some (parent.replace key.name (.tables (items ++ [builder.current.toItem])))
      | true, none => some (parent.push key (.tables [builder.current.toItem]))
      | false, none => some (parent.push key builder.current.toItem)
      | _, _ => none
    builder.root.update byHeader place path

/-- Start the table of a header. A table that so far was only a parent keeps its fields and moves to
the end. -/
def startTable (builder : Builder) (line : Nat) (path : List Key) (key : Key) : Option Builder := do
  let finished ← builder.finish?
  let reachParent (parent : Table) : Option Table :=
    match parent.find? key.name with
    | none => some parent
    | some (.table shape _) =>
      if !shape.inline && shape.implicit && !shape.dotted then some parent else none
    | some _ => none
  let opened ← finished.update byHeader reachParent path
  let fields := (fieldsAt opened path).getD []
  let root ← opened.update byHeader (fun parent => some (parent.remove key.name)) path
  return {
    root
    current := { shape := { line := some line }, fields }
    header := some (path, key) }
where
  /-- The fields that the table under the header has already. -/
  fieldsAt (table : Table) : List Key → Option (List (Key × Item))
    | [] =>
      match table.find? key.name with
      | some (.table _ fields) => some fields
      | _ => none
    | step :: rest =>
      match table.find? step.name with
      | some (.table shape fields) => fieldsAt { shape, fields } rest
      | some (.tables items) =>
        match items.getLast? with
        | some (.table shape fields) => fieldsAt { shape, fields } rest
        | _ => none
      | _ => none

/-- Start another element of the array of tables of a header. -/
def startElement (builder : Builder) (line : Nat) (path : List Key) (key : Key) :
    Option Builder := do
  let finished ← builder.finish?
  let reachArray (parent : Table) : Option Table :=
    match parent.find? key.name with
    | none => some (parent.push key (.tables []))
    | some (.tables _) => some parent
    | some _ => none
  return {
    root := ← finished.update byHeader reachArray path
    current := { shape := { line := some line } }
    header := some (path, key)
    inArray := true }

end Builder

end SymbolTree.Toml
