import HyperSchema.Naming
import HyperSchema.Text.Lines
import HyperSchema.Text.Percent
import HyperSchema.Warning

/-!
# Addresses

The address of a link, with at most one parameter in it.  This file defines:

* `Address.pieces`, an address as single characters and placeholders, where a placeholder is
  written as a percent-encoded pointer between brace-parenthesis pairs;
* `Address.identityName?`, the entity whose identity a pointer denotes;
* `Address.parse`, the address that a text describes;
* `Address.render`, the address as the inside of a template literal.
-/

namespace HyperSchema

/-- A part of an address. -/
inductive Address.Part where
  /-- Text that stands for itself. -/
  | fixed (text : String)
  /-- The value of a parameter. -/
  | valueOf (name : String)
deriving DecidableEq, Repr

/-- The parameter of an address. -/
structure Address.Parameter where
  name : String
  /-- Whether the parameter identifies an entity of the resource that the link belongs to. -/
  isOwn : Bool
  /-- The name of the entity that the parameter identifies. -/
  entity : String
deriving DecidableEq, Repr

/-- An address whose parameter, if there is one, has a name. -/
structure Address where
  parts : List Address.Part
  parameter : Option Address.Parameter
deriving DecidableEq, Repr

namespace Address

/-! ## Placeholders -/

/-- A character of an address, or a placeholder with what stands inside it. -/
inductive Piece where
  | char (c : Char)
  | slot (inner : List Char)
deriving DecidableEq, Repr

/-- A piece as it is written. -/
def Piece.spelling : Piece → List Char
  | char c => [c]
  | slot inner => '{' :: '(' :: (inner ++ [')', '}'])

/-- The placeholder that a text starts with: its inside, which holds no closing parenthesis, and the
text behind it. -/
def slot? (text : List Char) : Option (List Char × List Char) :=
  match text with
  | '{' :: '(' :: rest =>
      match rest.dropWhile (· != ')') with
      | ')' :: '}' :: after => some (rest.takeWhile (· != ')'), after)
      | _ => none
  | _ => none

theorem length_lt_of_slot? {text inner after : List Char} (h : slot? text = some (inner, after)) :
    after.length < text.length := by
  unfold slot? at h
  split at h
  · rename_i rest
    split at h
    · rename_i found heq
      cases h
      have : (rest.dropWhile (· != ')')).length ≤ rest.length :=
        (List.dropWhile_sublist _).length_le
      rw [heq] at this
      simp only [List.length_cons] at this ⊢
      omega
    · cases h
  · cases h

/-- An address as characters and placeholders, the leftmost placeholder first. -/
def pieces (text : List Char) : List Piece :=
  match _h : slot? text with
  | some (inner, after) => .slot inner :: pieces after
  | none =>
      match text with
      | [] => []
      | c :: rest => .char c :: pieces rest
termination_by text.length
decreasing_by
  · exact length_lt_of_slot? _h
  · simp

/-- The entity whose identity a pointer denotes: the `NAME` of a pointer that ends in
`definitions/NAME/definitions/identity`. -/
def identityName? (pointer : List Char) : Option (List Char) :=
  match (Text.splitOn '/' pointer).reverse with
  | last :: third :: name :: first :: _ =>
      if last == "identity".toList && third == "definitions".toList && !name.isEmpty &&
          Naming.endsWith first "definitions".toList then some name
      else none
  | _ => none

/-- The entity that a piece identifies. -/
def Piece.identity? : Piece → Option (List Char)
  | char _ => none
  | slot inner => identityName? (Text.percentDecode inner)

/-- The warning about a placeholder that is no identity. -/
def Piece.warning? (href : String) : Piece → Option Warning
  | char _ => none
  | slot inner =>
      let pointer := Text.percentDecode inner
      if (identityName? pointer).isSome then none
      else some (.keptPlaceholder href (String.ofList pointer))

/-! ## Reading -/

/-- Text as a part; no text gives no part. -/
def fixedPart (pieces : List Piece) : List Address.Part :=
  match pieces.flatMap Piece.spelling with
  | [] => []
  | text => [.fixed (String.ofList text)]

/-- The address around the first identity among the pieces. -/
def around (resource : String) : List Piece → List Piece → Option Address
  | _, [] => none
  | before, piece :: rest =>
      match piece.identity? with
      | some name =>
          let entity := String.ofList name
          let name := Naming.camelCase (entity ++ "_id")
          some {
            parts := fixedPart before.reverse ++ .valueOf name :: fixedPart rest
            parameter := some { name, isOwn := entity == resource, entity } }
      | none => around resource (piece :: before) rest

/-- The address that a text describes.  One identity becomes the parameter; other placeholders are
kept as text, with a warning; more than one identity is an error. -/
def parse (href resource : String) : Checked Address := do
  let found := pieces href.toList
  -- The warnings come first, also where the address is refused.
  for warning in found.filterMap (Piece.warning? href) do
    Checked.warn warning
  let count := (found.filterMap Piece.identity?).length
  if 1 < count then
    throw (SchemaError.severalIdentities href count)
  return (around resource [] found).getD { parts := [.fixed href], parameter := none }

/-! ## Rendering -/

/-- The character that delimits template literals. -/
def backtick : Char := '\x60'

/-- The spelling of a character of fixed text. -/
def escapeFixed (c : Char) : List Char :=
  if c == backtick then ['\\', backtick] else [c]

/-- A part inside a template literal. -/
def renderPart : Address.Part → List Char
  | .fixed text => text.toList.flatMap escapeFixed
  | .valueOf name => '$' :: '{' :: (name.toList ++ ['}'])

/-- The address as the inside of a template literal. -/
def render (address : Address) : String :=
  String.ofList (address.parts.flatMap renderPart)

end Address

end HyperSchema
