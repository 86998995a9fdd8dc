import HyperSchema.Setting

/-!
# Tables of a configuration document

How the lines of a document build its tree of tables.  This file defines:

* `Toml.Node`, a value, a table or a list of tables, and `Toml.Node.setting`;
* `Toml.descend`, a change of the table at the end of a path;
* `Toml.openTable`, `Toml.openListTable` and `Toml.assign`, what headers and assignments do.

A table that is only named on the way to another is implicit and may be opened later, once.  A table
that a dotted name makes can be extended by dotted names only.
-/

namespace HyperSchema.Toml

/-- A place in the tree of a document. -/
inductive Node where
  /-- A value, which nothing extends. -/
  | leaf (value : Setting)
  /-- A table. -/
  | table (isImplicit isDotted : Bool) (entries : List (String × Node))
  /-- A list of tables; names lead into the last. -/
  | tables (items : List (List (String × Node)))

/-- The entries of a table. -/
abbrev Table := List (String × Node)

mutual

/-- The value of a place. -/
def Node.setting : Node → Setting
  | .leaf value => value
  | .table _ _ entries => .record (entrySettings entries)
  | .tables items => .list (tableSettings items)

/-- The values of the entries of a table. -/
def entrySettings : List (String × Node) → List (String × Setting)
  | [] => []
  | (name, node) :: rest => (name, node.setting) :: entrySettings rest

/-- The values of a list of tables. -/
def tableSettings : List (List (String × Node)) → List Setting
  | [] => []
  | entries :: rest => .record (entrySettings entries) :: tableSettings rest

end

/-! ## Paths -/

/-- Changes the table at the end of a path by `f`, which is also told whether that table was made by
a dotted name.  Tables that are missing on the way are made, implicit and dotted as asked.  A dotted
path does not enter a table that was opened by a header. -/
def descend (dotted : Bool) (f : Bool → Table → Option Table) :
    List String → Bool → Table → Option Table
  | [], isDotted, table => f isDotted table
  | name :: rest, _, table =>
      match Entries.get? table name with
      | none => do
          let child ← descend dotted f rest dotted []
          some (Entries.insert table name (.table true dotted child))
      | some (.leaf _) => none
      | some (.table isImplicit isDotted entries) =>
          if dotted && !isImplicit then none
          else do
            let child ← descend dotted f rest isDotted entries
            some (Entries.insert table name (.table isImplicit isDotted child))
      | some (.tables items) =>
          match items.getLast? with
          | none => none
          | some last => do
              let child ← descend dotted f rest false last
              some (Entries.insert table name (.tables (items.dropLast ++ [child])))

/-- A path as its front and its last name. -/
def splitPath (path : List String) : Option (List String × String) :=
  path.getLast?.map fun last => (path.dropLast, last)

/-! ## Lines -/

/-- Opens the table of a header: a new one, or one that was only implicit. -/
def openTable (path : List String) (root : Table) : Option Table := do
  let (front, name) ← splitPath path
  descend false (fun _ table =>
    match Entries.get? table name with
    | none => some (Entries.insert table name (.table false false []))
    | some (.table true false entries) =>
        some (Entries.insert table name (.table false false entries))
    | some _ => none) front false root

/-- Opens a further table of a list. -/
def openListTable (path : List String) (root : Table) : Option Table := do
  let (front, name) ← splitPath path
  descend false (fun _ table =>
    match Entries.get? table name with
    | none => some (Entries.insert table name (.tables [[]]))
    | some (.tables items) => some (Entries.insert table name (.tables (items ++ [[]])))
    | some _ => none) front false root

/-- Adds an entry under a dotted name to a table.  The name must be new, and the table it leads into
must be the table itself or one that a dotted name made. -/
def assign (path : List String) (value : Setting) (table : Table) : Option Table := do
  let (front, name) ← splitPath path
  descend true (fun isDotted found =>
    -- A plain name extends the opened table, a dotted one only what dotted names made.
    if isDotted == front.isEmpty then none
    else if Entries.contains found name then none
    else some (found ++ [(name, .leaf value)])) front false table

/-- Adds an entry to the table that was opened last. -/
def assignAt (opened path : List String) (value : Setting) (root : Table) : Option Table :=
  descend false (fun _ table => assign path value table) opened false root

end HyperSchema.Toml
