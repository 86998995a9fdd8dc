import HyperSchema.Declaration.Spelling
import HyperSchema.Declaration.Type
import HyperSchema.Text.Lines

/-!
# Writing declarations

The text of types and declarations.  This file defines:

* `TypeExpr.strength`, how tightly a type binds, which decides about parentheses;
* `TypeExpr.chars` and `Member.chars`, the text of types and members at a level of indentation;
* `Declaration.chars`, the text of a declaration;
* `Declaration.print`, the text of a list of declarations.

Members stand on lines of their own, two blanks deeper than what surrounds them; everything else is
written on one line.
-/

namespace HyperSchema

/-! ## Documentation -/

/-- The indentation of a level. -/
def indentation (level : Nat) : List Char :=
  List.replicate (2 * level) ' '

namespace Declaration

/-- A line inside a comment: the end of a comment is written with a backslash. -/
def escapeCommentEnd : List Char → List Char
  | '*' :: '/' :: rest => '*' :: '\\' :: '/' :: escapeCommentEnd rest
  | c :: rest => c :: escapeCommentEnd rest
  | [] => []

/-- A line of a comment. -/
def docLineChars (level : Nat) (line : List Char) : List Char :=
  if line.isEmpty then indentation level ++ [' ', '*', '\n']
  else indentation level ++ [' ', '*', ' '] ++ escapeCommentEnd line ++ ['\n']

/-- A comment in front of a member or declaration. -/
def docChars (level : Nat) (doc : Option String) : List Char :=
  match doc with
  | none => []
  | some text =>
      indentation level ++ ['/', '*', '*', '\n'] ++
        (Text.lines text.toList).flatMap (docLineChars level) ++
        indentation level ++ [' ', '*', '/', '\n']

end Declaration

/-! ## Types -/

namespace TypeExpr

/-- How tightly a type binds. -/
def strength : TypeExpr → Nat
  | conditional .. => 0
  | union _ => 1
  | intersection _ => 2
  | keyOf _ => 3
  | rest _ => 3
  | array _ => 4
  | access .. => 4
  | _ => 5

/-- The text of a type in a place that asks for a strength. -/
def parenthesize (type : TypeExpr) (wanted : Nat) (text : List Char) : List Char :=
  if type.strength < wanted then '(' :: (text ++ [')']) else text

end TypeExpr

/-- Texts with a separator between them. -/
def joinWith (separator : List Char) (texts : List (List Char)) : List Char :=
  separator.intercalate texts

mutual

/-- The text of a type whose surroundings stand at a level. -/
def TypeExpr.chars (level : Nat) : TypeExpr → List Char
  | .keyword word => word.name.toList
  | .string text => (Declaration.stringLiteral text).toList
  | .number spelling => spelling.toList
  | .boolean value => if value then "true".toList else "false".toList
  | .reference name args =>
      match args with
      | [] => name.toList
      | _ :: _ =>
          name.toList ++ ['<'] ++ joinWith [',', ' '] (TypeExpr.charsAll level 0 args) ++ ['>']
  | .array element => element.parenthesize 4 (element.chars level) ++ ['[', ']']
  | .tuple items => '[' :: (joinWith [',', ' '] (TypeExpr.charsAll level 0 items) ++ [']'])
  | .rest element => ['.', '.', '.'] ++ element.parenthesize 4 (element.chars level)
  | .union alternatives => joinWith [' ', '|', ' '] (TypeExpr.charsAll level 2 alternatives)
  | .intersection parts => joinWith [' ', '&', ' '] (TypeExpr.charsAll level 3 parts)
  | .object members =>
      match members with
      | [] => ['{', '}']
      | _ :: _ => ['{', '\n'] ++ Member.charsAll (level + 1) members ++ indentation level ++ ['}']
  | .conditional check bound whenTrue whenFalse =>
      check.parenthesize 1 (check.chars level) ++ " extends ".toList ++
        bound.parenthesize 1 (bound.chars level) ++ " ? ".toList ++ whenTrue.chars level ++
        " : ".toList ++ whenFalse.chars level
  | .access object index =>
      object.parenthesize 4 (object.chars level) ++ ['['] ++ index.chars level ++ [']']
  | .keyOf operand => "keyof ".toList ++ operand.parenthesize 3 (operand.chars level)

/-- The texts of types in places that ask for a strength. -/
def TypeExpr.charsAll (level wanted : Nat) : List TypeExpr → List (List Char)
  | [] => []
  | type :: rest =>
      type.parenthesize wanted (type.chars level) :: TypeExpr.charsAll level wanted rest

/-- The lines of a member at a level. -/
def Member.chars (level : Nat) : Member → List Char
  | .property name type isOptional isReadonly doc =>
      Declaration.docChars level doc ++ indentation level ++
        (if isReadonly then "readonly ".toList else []) ++ (Declaration.propertyName name).toList ++
        (if isOptional then ['?'] else []) ++ [':', ' '] ++ type.chars level ++ [';', '\n']
  | .index key keyType value isReadonly doc =>
      Declaration.docChars level doc ++ indentation level ++
        (if isReadonly then "readonly ".toList else []) ++ ['['] ++ key.toList ++ [':', ' '] ++
        keyType.chars level ++ [']', ':', ' '] ++ value.chars level ++ [';', '\n']

/-- The lines of members at a level. -/
def Member.charsAll (level : Nat) : List Member → List Char
  | [] => []
  | member :: rest => member.chars level ++ Member.charsAll level rest

end

/-- The text of a type at a level. -/
def TypeExpr.print (level : Nat) (type : TypeExpr) : String :=
  String.ofList (type.chars level)

/-! ## Declarations -/

/-- The text of a type parameter. -/
def TypeParam.chars (param : TypeParam) : List Char :=
  param.name.toList ++
    (match param.bound with
      | some bound => " extends ".toList ++ bound.chars 0
      | none => []) ++
    (match param.default with
      | some default => " = ".toList ++ default.chars 0
      | none => [])

namespace Declaration

/-- The text of type parameters. -/
def paramsChars (params : List TypeParam) : List Char :=
  match params with
  | [] => []
  | _ :: _ => '<' :: (joinWith [',', ' '] (params.map TypeParam.chars) ++ ['>'])

/-- The text of the types that an interface extends. -/
def basesChars (bases : List TypeExpr) : List Char :=
  match bases with
  | [] => []
  | _ :: _ => " extends ".toList ++ joinWith [',', ' '] (TypeExpr.charsAll 0 0 bases)

/-- The text of a declaration, up to the end of its last line. -/
def chars (declaration : Declaration) : List Char :=
  let head := declaration.name.toList ++ paramsChars declaration.params
  docChars 0 declaration.doc ++ (if declaration.isExported then "export ".toList else []) ++
    match declaration.body with
    | .interface bases members =>
        "interface ".toList ++ head ++ basesChars bases ++ [' '] ++
          TypeExpr.chars 0 (.object members) ++ ['\n']
    | .alias type => "type ".toList ++ head ++ " = ".toList ++ type.chars 0 ++ [';', '\n']

/-- The text of declarations, with an empty line between them. -/
def print (declarations : List Declaration) : String :=
  String.ofList (joinWith ['\n'] (declarations.map chars))

end Declaration

end HyperSchema
