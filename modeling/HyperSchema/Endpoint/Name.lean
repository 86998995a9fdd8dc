import HyperSchema.Naming

/-!
# Names of methods and schema types

What the relation of a link is called in generated code.  This file defines:

* `Endpoint.methodStem`, the relation with its conventional names replaced;
* `Endpoint.methodName` and `Endpoint.rawMethodName`;
* `Endpoint.SchemaUse` and `Endpoint.schemaTypeName`, the names of the types of a link's schemas.
-/

namespace HyperSchema.Endpoint

/-- The relations that have a name of their own. -/
def conventionalRels : List (String × String) :=
  [("instances", "list"), ("self", "find"), ("me", "findMe")]

/-- The relation as methods are named after it: conventional relations by their own name, and
`_instances` at the end as `_list`. -/
def methodStem (rel : String) : String :=
  match conventionalRels.lookup rel with
  | some name => name
  | none =>
      let chars := rel.toList
      let ending := "_instances".toList
      if Naming.endsWith chars ending then
        String.ofList (chars.take (chars.length - ending.length)) ++ "_list"
      else rel

/-- The name of the method that works on entities. -/
def methodName (rel : String) : String :=
  Naming.camelCase (methodStem rel)

/-- The name of the method that works on raw payloads. -/
def rawMethodName (rel : String) : String :=
  "raw" ++ Naming.pascalCase (methodStem rel)

/-- What a schema of a link describes. -/
inductive SchemaUse where
  | request
  | query
  | response
  | jobResult
deriving DecidableEq, Repr

/-- The end of the name of a type in a role. -/
def SchemaUse.ending : SchemaUse → String
  | request => "Schema"
  | query => "HrefSchema"
  | response => "TargetSchema"
  | jobResult => "JobSchema"

/-- The name of the type of a link's schema. -/
def schemaTypeName (resource rel : String) (role : SchemaUse) : String :=
  Naming.pascalCase resource ++ Naming.pascalCase rel ++ role.ending

end HyperSchema.Endpoint
