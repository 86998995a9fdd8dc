import HyperSchema.Declaration.Parser
import HyperSchema.Declaration.Printer
import HyperSchema.Declaration.Rule

/-!
# Generic declarations

How declarations become generic in the definition of a record.  This file defines:

* `TypeExpr.mapNames`, which replaces references without arguments;
* `TypeExpr.typeAttributes`, which replaces open `attributes`;
* `Generic.targetSchema`, `Generic.itemSchema` and `Generic.relationships`, the generic form of a
  response, of a request and of a block of relationships;
* `Rule.applyTo?` and `RuleTable.applyTo?`, what becomes of one declaration;
* `RuleTable.applyAll` and `RuleTable.applyToText`, what becomes of a list and of a text.
-/

namespace HyperSchema

/-! ## References -/

/-- The property below which records are not made generic. -/
def includedKey : String := "included"

mutual

/-- Replaces references without arguments.  The function `f` is told whether the reference stands
below a property named `included`.  The key types of index signatures are left alone. -/
def TypeExpr.mapNames (f : Bool → String → Option TypeExpr) (below : Bool) : TypeExpr → TypeExpr
  | .reference name args =>
      match args with
      | [] => (f below name).getD (.reference name [])
      | _ :: _ => .reference name (TypeExpr.mapNamesAll f below args)
  | .keyword word => .keyword word
  | .string text => .string text
  | .number spelling => .number spelling
  | .boolean value => .boolean value
  | .array element => .array (element.mapNames f below)
  | .rest element => .rest (element.mapNames f below)
  | .keyOf operand => .keyOf (operand.mapNames f below)
  | .tuple items => .tuple (TypeExpr.mapNamesAll f below items)
  | .union alternatives => .union (TypeExpr.mapNamesAll f below alternatives)
  | .intersection parts => .intersection (TypeExpr.mapNamesAll f below parts)
  | .object members => .object (Member.mapNamesAll f below members)
  | .conditional check bound whenTrue whenFalse =>
      .conditional (check.mapNames f below) (bound.mapNames f below) (whenTrue.mapNames f below)
        (whenFalse.mapNames f below)
  | .access object index => .access (object.mapNames f below) (index.mapNames f below)

/-- Replaces references in each of some types. -/
def TypeExpr.mapNamesAll (f : Bool → String → Option TypeExpr) (below : Bool) :
    List TypeExpr → List TypeExpr
  | [] => []
  | type :: rest => type.mapNames f below :: TypeExpr.mapNamesAll f below rest

/-- Replaces references in a member. -/
def Member.mapNames (f : Bool → String → Option TypeExpr) (below : Bool) : Member → Member
  | .property name type isOptional isReadonly doc =>
      .property name (type.mapNames f (below || name == includedKey)) isOptional isReadonly doc
  | .index key keyType value isReadonly doc =>
      .index key keyType (value.mapNames f below) isReadonly doc

/-- Replaces references in each of some members. -/
def Member.mapNamesAll (f : Bool → String → Option TypeExpr) (below : Bool) :
    List Member → List Member
  | [] => []
  | member :: rest => member.mapNames f below :: Member.mapNamesAll f below rest

end

namespace Generic

/-! ## Parameters -/

/-- The name of the parameter that stands for the definition of a record. -/
def definitionName : String := "D"

/-- The name of the parameter that chooses between plain and nested records. -/
def nestedName : String := "NestedMode"

/-- A reference to the definition parameter. -/
def definitionRef : TypeExpr := .named definitionName

/-- A named type applied to the definition parameter. -/
def applied (name : String) : TypeExpr := .reference name [definitionRef]

/-- The definition parameter. -/
def definitionParam (types : TypeNames) : TypeParam where
  name := definitionName
  bound := some (.named types.definition)
  default := some (.named types.definition)

/-- The parameter that chooses between plain and nested records. -/
def nestedParam : TypeParam where
  name := nestedName
  bound := some (.keyword .boolean)
  default := some (.boolean false)

/-! ## Responses -/

/-- Records become generic under a name, except below `included`. -/
def recordName (types : TypeNames) (newName : String) (below : Bool) (name : String) :
    Option TypeExpr :=
  if name = types.record && !below then some (applied newName) else none

/-- The type with its records made generic under a name. -/
def withRecord (types : TypeNames) (newName : String) (type : TypeExpr) : TypeExpr :=
  type.mapNames (recordName types newName) false

/-- The schema of a response: a choice between plain and nested records. -/
def targetSchema (types : TypeNames) (declaration : Declaration) : Declaration :=
  { declaration with
    params := declaration.params ++ [definitionParam types, nestedParam]
    body := .alias (.conditional (.named nestedName) (.boolean false)
      (withRecord types types.record declaration.type)
      (withRecord types types.nestedRecord declaration.type)) }

/-! ## Relationships -/

/-- The metadata of record types becomes generic everywhere. -/
def metadataName (types : TypeNames) (_ : Bool) (name : String) : Option TypeExpr :=
  if name = types.typeMetadata then some (applied name) else none

/-- The type with its metadata made generic. -/
def withMetadata (types : TypeNames) (type : TypeExpr) : TypeExpr :=
  type.mapNames (metadataName types) false

/-- The members with their metadata made generic. -/
def membersWithMetadata (types : TypeNames) (members : List Member) : List Member :=
  Member.mapNamesAll (metadataName types) false members

/-- A block of relationships with its metadata made generic. -/
def relationships (types : TypeNames) (declaration : Declaration) : Declaration :=
  { declaration with
    params := declaration.params ++ [definitionParam types]
    body := match declaration.body with
      | .interface bases members =>
          .interface (bases.map (withMetadata types)) (membersWithMetadata types members)
      | .alias type => .alias (withMetadata types type) }

end Generic

/-! ## Attributes -/

/-- The property that holds the attributes of a record. -/
def attributesKey : String := "attributes"

mutual

/-- Gives the open types of properties named `attributes` a name.  It looks into object types,
unions, intersections and arrays. -/
def TypeExpr.typeAttributes (newName : String) : TypeExpr → TypeExpr
  | .object members => .object (Member.typeAttributesAll newName members)
  | .union alternatives => .union (TypeExpr.typeAttributesAll newName alternatives)
  | .intersection parts => .intersection (TypeExpr.typeAttributesAll newName parts)
  | .array element => .array (element.typeAttributes newName)
  | type => type

/-- Gives the open attributes in each of some types a name. -/
def TypeExpr.typeAttributesAll (newName : String) : List TypeExpr → List TypeExpr
  | [] => []
  | type :: rest => type.typeAttributes newName :: TypeExpr.typeAttributesAll newName rest

/-- Gives the open attributes in a member a name. -/
def Member.typeAttributes (newName : String) : Member → Member
  | .property name type isOptional isReadonly doc =>
      if name == attributesKey && type.isOpenObject then
        .property name (Generic.applied newName) isOptional isReadonly doc
      else .property name (type.typeAttributes newName) isOptional isReadonly doc
  | .index key keyType value isReadonly doc => .index key keyType value isReadonly doc

/-- Gives the open attributes in each of some members a name. -/
def Member.typeAttributesAll (newName : String) : List Member → List Member
  | [] => []
  | member :: rest => member.typeAttributes newName :: Member.typeAttributesAll newName rest

end

namespace Generic

/-! ## Request bodies -/

/-- The member that tells the type of a record. -/
def typeIdMember : Member :=
  .property "__itemTypeId" (.access definitionRef (.string "itemTypeId")) true false none

/-- The attributes that a request may have, for the definition parameter. -/
def requestAttributes (types : TypeNames) : TypeExpr := applied types.attributesInRequest

/-- The members of a request with their metadata made generic and their attributes typed. -/
def typedMembers (types : TypeNames) (members : List Member) : List Member :=
  Member.typeAttributesAll types.attributesInRequest (membersWithMetadata types members)

/-- The members of a request: of the typed ones, open index signatures are left out, and the type of
the record is added. -/
def requestMembers (types : TypeNames) (members : List Member) : List Member :=
  (typedMembers types members).filter (fun member => !member.isOpenIndex) ++ [typeIdMember]

/-- The parts of a request that is more than its members: the types it extends, its members, and the
attributes in place of an open index signature. -/
def openRequest (types : TypeNames) (bases : List TypeExpr) (members : List Member) : Body :=
  .alias (.intersection
    (bases ++ [.object (requestMembers types members), requestAttributes types]))

/-- The body of a request.  Whether it is open is told by its typed members. -/
def itemBody (types : TypeNames) (body : Body) : Body :=
  match body with
  | .interface bases members =>
      let bases := bases.map (withMetadata types)
      if (typedMembers types members).any Member.isOpenIndex then openRequest types bases members
      else .interface bases (requestMembers types members)
  | .alias (.object members) =>
      if (typedMembers types members).any Member.isOpenIndex then openRequest types [] members
      else .alias (.object (requestMembers types members))
  | .alias type =>
      .alias (.intersection [
        (withMetadata types type).typeAttributes types.attributesInRequest,
        .object [typeIdMember]])

/-- The schema of a request body. -/
def itemSchema (types : TypeNames) (declaration : Declaration) : Declaration :=
  { declaration with
    params := declaration.params ++ [definitionParam types]
    body := itemBody types declaration.body }

end Generic

/-! ## Rules -/

/-- What a rule makes of a declaration. -/
def Rule.applyTo? (types : TypeNames) (declaration : Declaration) : Rule → Option Declaration
  | drop => none
  | rename newName => some { declaration with name := newName }
  | targetSchema => some (Generic.targetSchema types declaration)
  | itemSchema => some (Generic.itemSchema types declaration)
  | relationships => some (Generic.relationships types declaration)

namespace RuleTable

/-- What a table makes of a declaration; without a rule it is kept. -/
def applyTo? (table : RuleTable) (declaration : Declaration) : Option Declaration :=
  match table.rule? declaration.name with
  | some rule => rule.applyTo? table.types declaration
  | none => some declaration

/-- What a table makes of declarations, in order. -/
def applyAll (table : RuleTable) (declarations : List Declaration) : List Declaration :=
  declarations.filterMap table.applyTo?

/-- What a table makes of the declarations of a text. -/
def applyToText (table : RuleTable) (text : String) : Except DeclarationError String :=
  match Declaration.parse text with
  | .ok declarations => .ok (Declaration.print (table.applyAll declarations))
  | .error e => .error (.syntaxError e)

end RuleTable

end HyperSchema
