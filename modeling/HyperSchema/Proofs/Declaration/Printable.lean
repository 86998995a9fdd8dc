import HyperSchema.Declaration.Lexer
import HyperSchema.Proofs.Declaration.Structure
import HyperSchema.Text.Infix

/-!
# Printable — declarations whose text can be read again

The syntax of declarations admits more than a text can say: a name with a blank in it, a union of one
type, a rest element outside a tuple.  This file defines:

* `Lexer.isIdentifier` and `Lexer.isNumeral`, the spellings of single tokens;
* `Declaration.isReferenceName`, `Declaration.isNumber` and `Declaration.isDocText`;
* `TypeExpr.isLegible`, types that a text can say, with the same for members and declarations;
* `Declaration.isGrouped`: no base and no bound needs parentheses;
* `Declaration.isPrintable`, the conjunction of all these.
-/

namespace HyperSchema

/-! ## Tokens -/

/-- Whether characters are the spelling of a single identifier. -/
def Lexer.isIdentifier : List Char → Bool
  | [] => false
  | first :: others => startsWord first && others.all continuesWord

/-- Whether characters are the spelling of a single number token. -/
def Lexer.isNumeral : List Char → Bool
  | [] => false
  | first :: others => first.isDigit && others.all continuesNumber

namespace Declaration

/-- The words that are types of their own and no names. -/
def reservedNames : List String :=
  Keyword.all.map Keyword.name ++ ["true", "false"]

/-- Whether a text is a name of a type: identifiers with points between them, the first of them not
reserved.  With `head`, the first may be `keyof`, which is a name where no operator can stand. -/
def isReferenceName (head : Bool) (name : String) : Bool :=
  match Text.splitOn '.' name.toList with
  | [] => false
  | first :: others =>
      Lexer.isIdentifier first && others.all Lexer.isIdentifier &&
        !reservedNames.contains (String.ofList first) && (head || String.ofList first != "keyof")

/-- Whether a text is a number token with an optional sign. -/
def isNumber (spelling : String) : Bool :=
  match spelling.toList with
  | '-' :: digits => Lexer.isNumeral digits
  | digits => Lexer.isNumeral digits

theorem isNumber_of_isNumeral {spelling : String} (h : Lexer.isNumeral spelling.toList = true) :
    isNumber spelling = true := by
  unfold isNumber
  split
  · rename_i digits signed
    rw [signed, Lexer.isNumeral] at h
    exact absurd h (by simp)
  · exact h

theorem isNumber_minus {spelling : String} (h : Lexer.isNumeral spelling.toList = true) :
    isNumber ("-" ++ spelling) = true := by
  have signed : ("-" ++ spelling).toList = '-' :: spelling.toList := by simp
  rw [isNumber, signed]
  exact h

/-- Whether a text has the form of a comment's text: no line ends in a blank, the end of a comment
does not occur, and the first and the last line are not empty unless the whole text is. -/
def isDocText (text : String) : Bool :=
  let lines := Text.splitOn '\n' text.toList
  text.toList.isEmpty ||
    (lines.all (fun line => Text.trimEnd line == line) &&
      !Text.hasInfix ['*', '/'] text.toList && lines.head? != some [] &&
      lines.getLast? != some [])

end Declaration

/-! ## Types -/

mutual

/-- Whether a text can say a type.  With `head`, the leftmost name may be `keyof`. -/
@[simp] def TypeExpr.isLegible (head : Bool) : TypeExpr → Bool
  | .keyword _ => true
  | .string _ => true
  | .number spelling => Declaration.isNumber spelling
  | .boolean _ => true
  | .reference name args => Declaration.isReferenceName head name && TypeExpr.areLegible args
  | .array element => element.isLegible (head && 4 ≤ element.strength)
  | .tuple items => TypeExpr.areLegibleItems items
  | .rest _ => false
  | .union alternatives => 2 ≤ alternatives.length && TypeExpr.areLegible alternatives
  | .intersection parts => 2 ≤ parts.length && TypeExpr.areLegible parts
  | .object members => Member.areLegible members
  | .keyOf operand => operand.isLegible false
  | .conditional check bound whenTrue whenFalse =>
      check.isLegible false && bound.isLegible false && whenTrue.isLegible false &&
        whenFalse.isLegible false
  | .access object index =>
      object.isLegible (head && 4 ≤ object.strength) && index.isLegible false

def TypeExpr.areLegible : List TypeExpr → Bool
  | [] => true
  | type :: others => type.isLegible false && TypeExpr.areLegible others

/-- Whether a text can say the items of a tuple, the only place of rest elements. -/
def TypeExpr.areLegibleItems : List TypeExpr → Bool
  | [] => true
  | .rest element :: others => element.isLegible false && TypeExpr.areLegibleItems others
  | type :: others => type.isLegible false && TypeExpr.areLegibleItems others

/-- Whether a text can say a member; the name of a property is arbitrary. -/
def Member.isLegible : Member → Bool
  | .property _ type _ _ _ => type.isLegible false
  | .index key keyType value _ _ =>
      Lexer.isIdentifier key.toList && keyType.isLegible false && value.isLegible false

def Member.areLegible : List Member → Bool
  | [] => true
  | member :: others => member.isLegible && Member.areLegible others

end

/-- Whether a text can say an item of a tuple. -/
def TypeExpr.isLegibleItem : TypeExpr → Bool
  | .rest element => element.isLegible false
  | type => type.isLegible false

theorem TypeExpr.isLegibleItem_cases {item : TypeExpr} (h : item.isLegibleItem = true) :
    item.isLegible false = true ∨
      ∃ element, item = .rest element ∧ element.isLegible false = true := by
  cases item with
  | rest element => exact .inr ⟨element, rfl, h⟩
  | _ => exact .inl h

@[simp] theorem TypeExpr.areLegible_eq_all (types : List TypeExpr) :
    TypeExpr.areLegible types = types.all (TypeExpr.isLegible false) := by
  induction types with
  | nil => rfl
  | cons type others ih => rw [TypeExpr.areLegible, ih, List.all_cons]

@[simp] theorem TypeExpr.areLegibleItems_eq_all (items : List TypeExpr) :
    TypeExpr.areLegibleItems items = items.all TypeExpr.isLegibleItem := by
  induction items with
  | nil => rfl
  | cons item others ih =>
      cases item <;>
        simp only [TypeExpr.areLegibleItems, TypeExpr.isLegibleItem, ih, List.all_cons]

@[simp] theorem Member.areLegible_eq_all (members : List Member) :
    Member.areLegible members = members.all Member.isLegible := by
  induction members with
  | nil => rfl
  | cons member others ih => rw [Member.areLegible, ih, List.all_cons]

theorem Member.isLegible_of_mem_types {m : Member} (h : m.isLegible = true) :
    ∀ t ∈ m.types, t.isLegible false = true := by
  cases m with
  | property name type isOptional isReadonly doc => simpa [Member.types, Member.isLegible] using h
  | index key keyType value isReadonly doc =>
      simp only [Member.isLegible, Bool.and_eq_true] at h
      simpa [Member.types] using ⟨h.1.2, h.2⟩

/-! ## Declarations -/

def TypeParam.isLegible (param : TypeParam) : Bool :=
  Lexer.isIdentifier param.name.toList && param.bound.all (TypeExpr.isLegible false) &&
    param.default.all (TypeExpr.isLegible false)

/-- Whether the bound is read back although it is printed without parentheses: it is no conditional
type. -/
def TypeParam.isGrouped (param : TypeParam) : Bool :=
  param.bound.all fun bound => 1 ≤ bound.strength

def Body.isLegible (head : Bool) : Body → Bool
  | .interface bases members => bases.all (TypeExpr.isLegible head) && members.all Member.isLegible
  | .alias type => type.isLegible false

/-- Whether the bases are read back although they are printed without parentheses: each is an array,
an access or a type without signs in front or behind. -/
def Body.isGrouped : Body → Bool
  | .interface bases _ => bases.all fun base => 4 ≤ base.strength
  | .alias _ => true

namespace Declaration

/-- Whether a text can say a declaration, parentheses apart.  With `head`, a base may start with the
name `keyof`. -/
def isLegible (head : Bool) (declaration : Declaration) : Bool :=
  Lexer.isIdentifier declaration.name.toList && declaration.params.all TypeParam.isLegible &&
    declaration.body.isLegible head

/-- Whether no bound and no base of a declaration needs parentheses. -/
def isGrouped (declaration : Declaration) : Bool :=
  declaration.params.all TypeParam.isGrouped && declaration.body.isGrouped

/-- Whether the text of a declaration says that declaration. -/
def isPrintable (declaration : Declaration) : Bool :=
  declaration.isLegible false && declaration.isGrouped && declaration.docs.all isDocText

theorem parts_of_isPrintable {declaration : Declaration} (h : declaration.isPrintable = true) :
    declaration.isLegible false = true ∧ declaration.isGrouped = true ∧
      ∀ text ∈ declaration.docs, isDocText text = true := by
  simpa [isPrintable, and_assoc] using h

end Declaration

end HyperSchema
