import HyperSchema.Endpoint.LinkFault
import HyperSchema.Text.Utf8

/-!
# Schema errors

Why the analysis of a hyperschema document stops.  This file defines:

* `SchemaError`, the causes;
* `SchemaError.shapeAt`, the error at a node that is none of the known shapes;
* `SchemaError.message`, the wording of each cause.
-/

namespace HyperSchema

/-- What is wrong with a document as a whole. -/
inductive DocumentFault where
  | rootNotObject
  | missingDefinitions
deriving DecidableEq, Repr

/-- Why the analysis of a document stops. -/
inductive SchemaError where
  /-- A node that is none of the known shapes; the snippet shows it. -/
  | unknownShape (path snippet : String)
  /-- A link whose address names more than one identity. -/
  | severalIdentities (href : String) (count : Nat)
  /-- An object without properties where they are needed. -/
  | noProperties (path : String)
  /-- A link with a method that is not one of the known ones. -/
  | unknownMethod (resource rel method : String)
  /-- Two links of a resource whose methods get the same name. -/
  | repeatedMethod (resource name : String)
  /-- Links that do not read as link descriptions. -/
  | faultyLinks (resource : String) (fault : LinkFault)
  /-- A document that is not a hyperschema. -/
  | faultyDocument (fault : DocumentFault)
deriving DecidableEq, Repr

/-- The wording of a fault of the document. -/
def DocumentFault.message : DocumentFault → String
  | rootNotObject => "document root is not an object"
  | missingDefinitions => "missing 'definitions' object"

namespace SchemaError

/-- The number of bytes of a node that an error shows. -/
def snippetLimit : Nat := 120

/-- How an error shows a node: its compact text, cut to the limit at the end of a character and
followed by dots where it is longer. -/
def snippetOf (node : Json) : String :=
  let text := node.compactChars
  if snippetLimit < Text.utf8Size text then
    String.ofList (Text.takeBytes snippetLimit text ++ ['.', '.', '.'])
  else String.ofList text

/-- The error at a node that is none of the known shapes. -/
def shapeAt (path : String) (node : Json) : SchemaError :=
  .unknownShape path (snippetOf node)

/-- The wording of an error. -/
def message : SchemaError → String
  | unknownShape path snippet =>
      "Don't know how to handle schema node at " ++ path ++ ": " ++ snippet
  | severalIdentities href count =>
      "Multiple placeholders in href '" ++ href ++ "' (" ++ toString count ++ " found)"
  | noProperties path => "No properties defined at " ++ path
  | unknownMethod resource rel method =>
      "Unsupported HTTP method '" ++ method ++ "' on " ++ resource ++ "." ++ rel
  | repeatedMethod resource name =>
      "Duplicate method '" ++ name ++ "' on resource '" ++ resource ++
        "'. Each link must normalize to a unique name."
  | faultyLinks resource fault =>
      "Invalid links on definition '" ++ resource ++ "': " ++ fault.message
  | faultyDocument fault => "Invalid hyperschema document: " ++ fault.message

end SchemaError

end HyperSchema
