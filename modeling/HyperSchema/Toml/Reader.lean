import HyperSchema.Toml.Number
import HyperSchema.Toml.Table
import HyperSchema.Toml.Text

/-!
# Reading configuration documents

Values, lines and whole documents.  This file defines:

* `Toml.value?`, a value with its arrays and inline tables;
* `Toml.readLine?`, what one line does to the document read so far;
* `Toml.parse?`, the settings of a document.
-/

namespace HyperSchema.Toml

/-! ## Values -/

mutual

/-- A value, in which arrays and inline tables may nest to a depth. -/
def value? : Nat → Nat → List Char → Option (Setting × List Char)
  | 0, _, _ => none
  | fuel + 1, depth, text =>
      match text with
      | '[' :: rest =>
          match depth with
          | 0 => none
          | depth + 1 => (items? fuel depth [] rest).map fun (found, rest) => (.list found, rest)
      | '{' :: rest =>
          match depth with
          | 0 => none
          | depth + 1 =>
              match skipBlank rest with
              | '}' :: rest => some (.record [], rest)
              | _ => (pairs? fuel depth [] rest).map fun (table, rest) =>
                  (.record (entrySettings table), rest)
      | 't' :: 'r' :: 'u' :: 'e' :: rest => some (.other, rest)
      | 'f' :: 'a' :: 'l' :: 's' :: 'e' :: rest => some (.other, rest)
      | _ =>
          match string? true text with
          | some (found, rest) => some (.text found, rest)
          | none => numeric? text

/-- The items of an array up to its end, those read so far in reverse order.  Blanks, comments and
line breaks may stand anywhere between them, and a comma behind the last. -/
def items? : Nat → Nat → List Setting → List Char → Option (List Setting × List Char)
  | 0, _, _, _ => none
  | fuel + 1, depth, acc, text =>
      match skipLines (text.length + 1) text with
      | none => none
      | some (']' :: rest) => some (acc.reverse, rest)
      | some rest =>
          match value? fuel depth rest with
          | none => none
          | some (item, rest) =>
              match skipLines (rest.length + 1) rest with
              | some (',' :: rest) => items? fuel depth (item :: acc) rest
              | some (']' :: rest) => some ((item :: acc).reverse, rest)
              | _ => none

/-- The assignments of an inline table up to its end. -/
def pairs? : Nat → Nat → Table → List Char → Option (Table × List Char)
  | 0, _, _, _ => none
  | fuel + 1, depth, table, text =>
      match keyPath? text with
      | some (path, '=' :: rest) =>
          match value? fuel depth (skipBlank rest) with
          | none => none
          | some (found, rest) =>
              match assign path found table with
              | none => none
              | some table =>
                  match skipBlank rest with
                  | ',' :: rest => pairs? fuel depth table rest
                  | '}' :: rest => some (table, rest)
                  | _ => none
      | _ => none

end

/-! ## Documents -/

/-- A document that is being read: its tables and the path of the one that was opened last. -/
structure State where
  root : Table
  opened : List String

/-- The path of a header behind its opening brackets, and the text behind the line. -/
def header? (closing : List Char) (text : List Char) : Option (List String × List Char) := do
  let (path, rest) ← keyPath? text
  if rest.take closing.length = closing then
    let rest ← lineEnd? (rest.drop closing.length)
    some (path, rest)
  else none

/-- What a line that is neither empty nor a comment does, and the text behind it. -/
def readLine? (state : State) (text : List Char) : Option (State × List Char) :=
  match text with
  | '[' :: '[' :: rest => do
      let (path, rest) ← header? [']', ']'] rest
      let root ← openListTable path state.root
      some ({ root, opened := path }, rest)
  | '[' :: rest => do
      let (path, rest) ← header? [']'] rest
      let root ← openTable path state.root
      some ({ root, opened := path }, rest)
  | _ => do
      let (path, rest) ← keyPath? text
      let rest ← (match rest with
        | '=' :: rest => some rest
        | _ => none)
      let (found, rest) ← value? (2 * rest.length + 2) depthLimit (skipBlank rest)
      let rest ← lineEnd? rest
      let root ← assignAt state.opened path found state.root
      some ({ state with root }, rest)

/-- All lines of a document; the fuel bounds their number. -/
def readLines? : Nat → State → List Char → Option State
  | 0, _, _ => none
  | fuel + 1, state, text =>
      match skipBlank text with
      | [] => some state
      | '#' :: rest => (lineEnd? ('#' :: rest)).bind (readLines? fuel state)
      | '\n' :: rest => readLines? fuel state rest
      | '\r' :: rest => (newline? ('\r' :: rest)).bind (readLines? fuel state)
      | rest =>
          match readLine? state rest with
          | some (state, rest) => readLines? fuel state rest
          | none => none

/-- The settings of a document.  A byte order mark at its start is passed over. -/
def parse? (source : String) : Option (Entries Setting) :=
  let text := match source.toList with
    | c :: rest => if c.toNat = 0xfeff then rest else c :: rest
    | [] => []
  (readLines? (text.length + 1) { root := [], opened := [] } text).map fun state =>
    entrySettings state.root

end HyperSchema.Toml
