import HyperSchema.Entries
import HyperSchema.Files.Access

/-!
# File trees

A file system as a value.  This file defines:

* `FileTree`, files and directories, with `at?`, `put` and `files`;
* `FileSystem`, a tree with a working directory;
* `FileSystem.walk`, where a path leads;
* the operations of `FileAccess` on such a system.

A write either happens completely or changes nothing.
-/

namespace HyperSchema

/-- A file, or a directory with its entries. -/
inductive FileTree where
  | file (contents : String)
  | directory (entries : List (String × FileTree))
deriving Repr, Inhabited

namespace FileTree

/-- What a list of names leads to. -/
def at? : FileTree → List String → Option FileTree
  | tree, [] => some tree
  | directory entries, name :: rest =>
      match Entries.get? entries name with
      | some child => child.at? rest
      | none => none
  | file _, _ :: _ => none

/-- The tree with something else where a list of names leads.  Directories on the way are made where
there are none. -/
def put : FileTree → List String → FileTree → FileTree
  | _, [], new => new
  | directory entries, name :: rest, new =>
      let child := (Entries.get? entries name).getD (directory [])
      directory (Entries.insert entries name (child.put rest new))
  | file _, name :: rest, new => directory [(name, (directory []).put rest new)]

mutual

/-- The files of a tree with the names that lead to them. -/
def files : FileTree → List (List String × String)
  | file contents => [([], contents)]
  | directory entries => filesIn entries

/-- The files of some entries. -/
def filesIn : List (String × FileTree) → List (List String × String)
  | [] => []
  | (name, tree) :: rest =>
      tree.files.map (fun (names, contents) => (name :: names, contents)) ++ filesIn rest

end

end FileTree

/-- A tree with a working directory. -/
structure FileSystem where
  root : FileTree
  /-- The names that lead to the working directory. -/
  working : List String

namespace FileSystem

/-! ## Where paths lead -/

/-- The number of bytes that a name may have. -/
def nameLimit : Nat := 255

/-- The number of bytes that a path must stay below. -/
def pathLimit : Nat := 4096

/-- The entries of the directory at a place. -/
def entriesAt (root : FileTree) (names : List String) : Except FileError (Entries FileTree) :=
  match root.at? names with
  | some (.directory entries) => .ok entries
  | _ => .error .notDirectory

/-- Where the segments of a path lead from a place; the names of a place are given last one
first. -/
def walk (root : FileTree) : List String → List String → Except FileError (List String)
  | here, [] => .ok here
  | here, segment :: rest =>
      match entriesAt root here.reverse with
      | .error e => .error e
      | .ok entries =>
          if segment.isEmpty || segment == "." then walk root here rest
          else if segment == ".." then walk root here.tail rest
          else if nameLimit < segment.utf8ByteSize then .error .nameTooLong
          else if entries.contains segment then walk root (segment :: here) rest
          else .error .notFound

/-- Why a path cannot be followed at all. -/
def pathFault? (path : String) : Option FileError :=
  if path.toList.contains '\x00' then some .nulInPath
  else if path.isEmpty then some .notFound
  else if pathLimit ≤ path.utf8ByteSize then some .nameTooLong
  else none

/-- The place at which a path starts, last name first. -/
def start (system : FileSystem) (path : String) : List String :=
  if Path.isAbsolute path then [] else system.working.reverse

/-- The place that a path leads to. -/
def resolve (system : FileSystem) (path : String) : Except FileError (List String) :=
  match pathFault? path with
  | some e => .error e
  | none => (walk system.root (system.start path) (Path.segments path)).map List.reverse

/-- What a path leads to. -/
def find (system : FileSystem) (path : String) : Except FileError FileTree :=
  match system.resolve path with
  | .error e => .error e
  | .ok names =>
      match system.root.at? names with
      | some tree => .ok tree
      | none => .error .notFound

/-- Where the last name of a path stands. -/
structure Slot where
  /-- The names that lead to the directory. -/
  directory : List String
  entries : List (String × FileTree)
  name : String

/-- The directory and the name that a path ends in; `none` where it ends in no name. -/
def slot? (system : FileSystem) (path : String) : Except FileError (Option Slot) :=
  match pathFault? path with
  | some e => .error e
  | none =>
      match (Path.segments path).reverse.dropWhile String.isEmpty with
      | [] => .ok none
      | last :: above =>
          match walk system.root (system.start path) above.reverse with
          | .error e => .error e
          | .ok here =>
              match entriesAt system.root here.reverse with
              | .error e => .error e
              | .ok entries =>
                  if last == "." || last == ".." then .ok none
                  else .ok (some ⟨here.reverse, entries, last⟩)

/-- What already stands in a slot. -/
def Slot.tree? (slot : Slot) : Except FileError (Option FileTree) :=
  if nameLimit < slot.name.utf8ByteSize then .error .nameTooLong
  else .ok (Entries.get? slot.entries slot.name)

/-- The system with something else at a slot. -/
def fill (system : FileSystem) (slot : Slot) (tree : FileTree) : FileSystem :=
  { system with root := system.root.put (slot.directory ++ [slot.name]) tree }

/-! ## Operations -/

/-- The contents of a file. -/
def readText (system : FileSystem) (path : String) : Except FileError String :=
  match system.find path with
  | .ok (.file contents) => .ok contents
  | .ok (.directory _) => .error .isDirectory
  | .error e => .error e

/-- The system after a file is written. -/
def writeText (system : FileSystem) (path contents : String) : Except FileError FileSystem :=
  match system.slot? path with
  | .error e => .error e
  | .ok none => .error .isDirectory
  | .ok (some slot) =>
      -- A slash at the end asks for a directory, whatever the name before it.
      if path.toList.getLast? == some '/' then .error .isDirectory
      else
        match slot.tree? with
        | .error e => .error e
        | .ok (some (.directory _)) => .error .isDirectory
        | .ok _ => .ok (system.fill slot (.file contents))

/-- The system after a directory is made. -/
def makeDirectory (system : FileSystem) (path : String) : Except FileError FileSystem :=
  match system.slot? path with
  | .error e => .error e
  | .ok none => .error .alreadyExists
  | .ok (some slot) =>
      match slot.tree? with
      | .error e => .error e
      | .ok (some _) => .error .alreadyExists
      | .ok none => .ok (system.fill slot (.directory []))

/-- Whether a path leads to a directory. -/
def isDirectory (system : FileSystem) (path : String) : Bool :=
  match system.find path with
  | .ok (.directory _) => true
  | _ => false

/-- Whether a path leads to a file. -/
def isFile (system : FileSystem) (path : String) : Bool :=
  match system.find path with
  | .ok (.file _) => true
  | _ => false

/-- Goes on with another system, unless there is an error. -/
def update (next : FileSystem → Except FileError FileSystem) :
    StateM FileSystem (Except FileError Unit) :=
  fun system =>
    match next system with
    | .ok changed => (.ok (), changed)
    | .error e => (.error e, system)

instance : FileAccess (StateM FileSystem) where
  readText path := fun system => (system.readText path, system)
  writeText path contents := update fun system => system.writeText path contents
  makeDirectory path := update fun system => system.makeDirectory path
  isDirectory path := fun system => (system.isDirectory path, system)
  isFile path := fun system => (system.isFile path, system)

/-- The files below the working directory, with their paths. -/
def listing (system : FileSystem) : Entries String :=
  match system.root.at? system.working with
  | some tree => tree.files.map fun (names, contents) => (Path.ofSegments names, contents)
  | none => []

end FileSystem

end HyperSchema
