/-!
# Declarations

Type declarations as data.  This file defines:

* `Keyword`, the keyword types;
* `TypeExpr` and `Member`, type expressions and the members of object types;
* `TypeParam`, `Body` and `Declaration`, one top-level declaration;
* `Member.isOpenIndex` and `TypeExpr.isOpenObject`, the shapes that admit any property.
-/

namespace HyperSchema

/-- The types that are written as a keyword. -/
inductive Keyword where
  | string
  | number
  | boolean
  | null
  | undefined
  | void
  | unknown
  | any
  | never
  | object
deriving DecidableEq, Repr

namespace Keyword

/-- All keyword types. -/
def all : List Keyword :=
  [string, number, boolean, null, undefined, void, unknown, any, never, object]

/-- The keyword as it is written. -/
def name : Keyword → String
  | string => "string"
  | number => "number"
  | boolean => "boolean"
  | null => "null"
  | undefined => "undefined"
  | void => "void"
  | unknown => "unknown"
  | any => "any"
  | never => "never"
  | object => "object"

/-- The keyword type with a name. -/
def ofName? (text : String) : Option Keyword :=
  all.find? fun keyword => keyword.name == text

end Keyword

mutual

/-- A type expression. -/
inductive TypeExpr where
  /-- A keyword type. -/
  | keyword (word : Keyword)
  /-- The type of one string. -/
  | string (text : String)
  /-- The type of one number, in the spelling of the source. -/
  | number (spelling : String)
  /-- The type of one truth value. -/
  | boolean (value : Bool)
  /-- A named type with its arguments. -/
  | reference (name : String) (args : List TypeExpr)
  /-- `T[]` -/
  | array (element : TypeExpr)
  /-- `[A, B]` -/
  | tuple (items : List TypeExpr)
  /-- `...T`, inside a tuple. -/
  | rest (element : TypeExpr)
  /-- `A | B` -/
  | union (alternatives : List TypeExpr)
  /-- `A & B` -/
  | intersection (parts : List TypeExpr)
  /-- An object type, written as its members in braces. -/
  | object (members : List Member)
  /-- `keyof T` -/
  | keyOf (operand : TypeExpr)
  /-- `C extends E ? T : F` -/
  | conditional (check bound whenTrue whenFalse : TypeExpr)
  /-- `T[K]` -/
  | access (object index : TypeExpr)

/-- A member of an object type. -/
inductive Member where
  /-- A named property. -/
  | property (name : String) (type : TypeExpr) (isOptional isReadonly : Bool) (doc : Option String)
  /-- A signature for all keys of a type. -/
  | index (key : String) (keyType value : TypeExpr) (isReadonly : Bool) (doc : Option String)

end

instance : Inhabited TypeExpr := ⟨.keyword .any⟩

instance : Inhabited Member := ⟨.property "" default false false none⟩

/-- A type parameter with its bound and its default. -/
structure TypeParam where
  name : String
  bound : Option TypeExpr
  default : Option TypeExpr

/-- What a declaration declares. -/
inductive Body where
  /-- An interface, with the types that it extends. -/
  | interface (bases : List TypeExpr) (members : List Member)
  /-- A name for a type. -/
  | alias (type : TypeExpr)

/-- A top-level declaration. -/
structure Declaration where
  name : String
  doc : Option String
  params : List TypeParam
  body : Body
  isExported : Bool

namespace Member

/-- Whether a member is an index signature. -/
def isIndex : Member → Bool
  | index .. => true
  | property .. => false

/-- Whether a member is an index signature that says nothing about its values. -/
def isOpenIndex : Member → Bool
  | index _ _ (.keyword .unknown) _ _ => true
  | index _ _ (.keyword .any) _ _ => true
  | _ => false

end Member

namespace TypeExpr

/-- A reference without arguments. -/
def named (name : String) : TypeExpr := reference name []

/-- Whether a type is an object type of open index signatures only, and of at least one. -/
def isOpenObject : TypeExpr → Bool
  | object members => !members.isEmpty && members.all Member.isOpenIndex
  | _ => false

end TypeExpr

namespace Declaration

/-- The declared type as one expression: an interface is the intersection of its bases and its
members. -/
def type (declaration : Declaration) : TypeExpr :=
  match declaration.body with
  | .alias type => type
  | .interface [] members => .object members
  | .interface bases members => .intersection (bases ++ [.object members])

/-- The members of an interface; an alias has none. -/
def members (declaration : Declaration) : List Member :=
  match declaration.body with
  | .interface _ members => members
  | .alias _ => []

end Declaration

end HyperSchema
