import HyperSchema.Text.Lines

/-!
# Paths

Where files are.  This file defines:

* `Path.segments`, what stands between the slashes of a path;
* `Path.join`, a name in a directory;
* `Path.parent?` and `Path.ancestors`, the directories above a path as they are written.

A path is kept as it is written.  Empty segments, and `.` behind the start, name nothing.
-/

namespace HyperSchema.Path

/-- What stands between the slashes of a path. -/
def segments (path : String) : List String :=
  (Text.splitOn '/' path.toList).map String.ofList

/-- The path with given segments. -/
def ofSegments (segments : List String) : String := "/".intercalate segments

/-- The path of a name in a directory. -/
def join (directory name : String) : String :=
  if directory.isEmpty || directory.toList.getLast? == some '/' then directory ++ name
  else directory ++ "/" ++ name

/-- Whether a path starts at the root. -/
def isAbsolute (path : String) : Bool := path.toList.head? == some '/'

/-- Whether a segment names nothing; the flag tells whether it is the first one. -/
def isIdle (isFirst : Bool) (segment : String) : Bool :=
  segment.isEmpty || (segment == "." && !isFirst)

/-- The segments of a path, last one first, without those at the end that name nothing. -/
def dropIdle : List String → List String
  | [] => []
  | segment :: rest => if isIdle rest.isEmpty segment then dropIdle rest else segment :: rest

/-- The directory above a path, as it is written: the path without its last name.  The root and the
empty path have none. -/
def parent? (path : String) : Option String :=
  match dropIdle (segments path).reverse with
  | [] => none
  | _ :: above =>
      match dropIdle above with
      | [] => some (if isAbsolute path then "/" else "")
      | rest => some (ofSegments rest.reverse)

/-- A path and the directories above it, as far as they are named; at most `limit` of them. -/
def ancestorsUpTo : Nat → String → List String
  | 0, _ => []
  | limit + 1, path =>
      if path.isEmpty then []
      else
        match parent? path with
        | some above => path :: ancestorsUpTo limit above
        | none => [path]

/-- A path and the directories above it, as far as they are named. -/
def ancestors (path : String) : List String :=
  ancestorsUpTo (path.length + 1) path

end HyperSchema.Path
