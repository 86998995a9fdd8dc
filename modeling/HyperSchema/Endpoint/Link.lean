import HyperSchema.Endpoint.LinkFault

/-!
# Links

The operations that a definition declares.  This file defines:

* `Deprecation` and `Link`;
* `Link.Draft`, a link of which some fields are known, and `Link.Draft.set`;
* `Link.ofJson`, which reads a link written by names or by position;
* `Link.listOfJson`, which reads the links of a definition.

The fields of a link are read in the order in which they are written, and the first fault counts.
-/

namespace HyperSchema

/-- Whether an operation should no longer be used. -/
inductive Deprecation where
  | flag (value : Bool)
  | note (text : String)
deriving DecidableEq, Repr

/-- What readers are told about a deprecation. -/
def Deprecation.text? : Deprecation → Option String
  | flag true => some "This endpoint is deprecated"
  | flag false => none
  | note text => some text

/-- An operation that a definition declares. -/
structure Link where
  method : String
  rel : String
  title : String
  description : Option String
  href : String
  /-- The schema of the query parameters. -/
  hrefSchema : Option Json
  /-- The schema of the request body. -/
  schema : Option Json
  /-- The schema of the response. -/
  targetSchema : Option Json
  /-- The schema of the result of an asynchronous job. -/
  jobSchema : Option Json
  isPrivate : Bool
  deprecation : Option Deprecation
deriving Repr

namespace Link

/-! ## Fields -/

/-- A link of which some fields are known. -/
structure Draft where
  method : Option String := none
  rel : Option String := none
  title : String := ""
  description : Option String := none
  href : Option String := none
  hrefSchema : Option Json := none
  schema : Option Json := none
  targetSchema : Option Json := none
  jobSchema : Option Json := none
  isPrivate : Bool := false
  deprecation : Option Deprecation := none

/-- The names of the fields, in the order in which a link is written by position. -/
def fieldNames : List String :=
  ["method", "rel", "title", "description", "href", "hrefSchema", "schema", "targetSchema",
    "jobSchema", "private", "deprecated"]

/-- The positions of the fields that a link written by position may end before. -/
def optionalPositions : List Nat := [2, 9]

/-- A text. -/
def readText (value : Json) : Except LinkFault String :=
  match value with
  | .string text => .ok text
  | other => .error (.wrongSort other.sort .text)

/-- A flag. -/
def readFlag (value : Json) : Except LinkFault Bool :=
  match value with
  | .bool flag => .ok flag
  | other => .error (.wrongSort other.sort .flag)

/-- A text or `null`. -/
def readOptionalText (value : Json) : Except LinkFault (Option String) :=
  match value with
  | .null => .ok none
  | other => (readText other).map some

/-- A schema or `null`. -/
def readSchema (value : Json) : Option Json :=
  match value with
  | .null => none
  | schema => some schema

/-- A deprecation or `null`. -/
def readDeprecation (value : Json) : Except LinkFault (Option Deprecation) :=
  match value with
  | .null => .ok none
  | .bool flag => .ok (some (.flag flag))
  | .string text => .ok (some (.note text))
  | _ => .error .wrongDeprecation

/-- Takes up the value of a field.  Other names are ignored. -/
def Draft.set (draft : Draft) (name : String) (value : Json) : Except LinkFault Draft :=
  match name with
  | "method" => (readText value).map fun text => { draft with method := some text }
  | "rel" => (readText value).map fun text => { draft with rel := some text }
  | "title" => (readText value).map fun text => { draft with title := text }
  | "description" => (readOptionalText value).map fun text => { draft with description := text }
  | "href" => (readText value).map fun text => { draft with href := some text }
  | "hrefSchema" => .ok { draft with hrefSchema := readSchema value }
  | "schema" => .ok { draft with schema := readSchema value }
  | "targetSchema" => .ok { draft with targetSchema := readSchema value }
  | "jobSchema" => .ok { draft with jobSchema := readSchema value }
  | "private" => (readFlag value).map fun flag => { draft with isPrivate := flag }
  | "deprecated" => (readDeprecation value).map fun found => { draft with deprecation := found }
  | _ => .ok draft

/-- Takes up the values of fields in order. -/
def Draft.setAll : Draft → List (String × Json) → Except LinkFault Draft
  | draft, [] => .ok draft
  | draft, (name, value) :: rest =>
      match draft.set name value with
      | .ok draft => draft.setAll rest
      | .error fault => .error fault

/-- The link that a draft describes, if it has all fields that a link needs. -/
def Draft.complete (draft : Draft) : Except LinkFault Link :=
  match draft.method, draft.rel, draft.href with
  | none, _, _ => .error (.missingField "method")
  | some _, none, _ => .error (.missingField "rel")
  | some _, some _, none => .error (.missingField "href")
  | some method, some rel, some href => .ok {
      method, rel, href
      title := draft.title
      description := draft.description
      hrefSchema := draft.hrefSchema
      schema := draft.schema
      targetSchema := draft.targetSchema
      jobSchema := draft.jobSchema
      isPrivate := draft.isPrivate
      deprecation := draft.deprecation }

/-! ## Links -/

/-- The fault in the length of a link written by position. -/
def lengthFault? (length : Nat) : Option LinkFault :=
  let size := fieldNames.length
  if size < length then some (.tooLong length)
  else
    ((List.range size).find? fun i => length ≤ i && !optionalPositions.contains i).map .tooShort

/-- A link, written by names or by position. -/
def ofJson (value : Json) : Except LinkFault Link :=
  match value with
  | .object members => do
      let draft ← Draft.setAll {} members
      draft.complete
  | .array items => do
      -- A fault in a value that is there comes before one in the length.
      let draft ← Draft.setAll {} (fieldNames.zip items)
      match lengthFault? items.length with
      | some fault => throw fault
      | none => draft.complete
  | other => .error (.wrongSort other.sort .link)

/-- The links of a definition. -/
def listOfJson (value : Json) : Except LinkFault (List Link) :=
  match value with
  | .array items => items.mapM ofJson
  | other => .error (.wrongSort other.sort .links)

end Link

end HyperSchema
