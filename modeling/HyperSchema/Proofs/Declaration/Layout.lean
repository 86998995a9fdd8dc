import HyperSchema.Proofs.Declaration.Comment

/-!
# Layout — printed declarations as pieces

The printer writes characters; a reader sees tokens.  This file defines:

* `TypeExpr.pieces`, `Member.pieces` and `Declaration.pieces`, the pieces of what is printed;
* the equations `spell_pieces`, which say that they spell the printed text.

The pieces of a comment hold the text that is read of it, which need not be the text it was printed
for.
-/

namespace HyperSchema

namespace Piece

/-! ## Groups of pieces -/

def comma : List Piece := [mark ',', gap [' ']]

def bar : List Piece := [gap [' '], mark '|', gap [' ']]

def ampersand : List Piece := [gap [' '], mark '&', gap [' ']]

/-- A number token. -/
def digits (spelling : List Char) : Piece :=
  token (.number (String.ofList spelling)) spelling

/-- A number with its sign. -/
def number (spelling : String) : List Piece :=
  match spelling.toList with
  | '-' :: rest => [mark '-', digits rest]
  | rest => [digits rest]

/-- A name whose parts have points between them. -/
def dotted : List (List Char) → List Piece
  | [] => []
  | first :: others =>
      word (String.ofList first) :: others.flatMap fun part => [mark '.', word (String.ofList part)]

def name (text : String) : List Piece :=
  dotted (Text.splitOn '.' text.toList)

/-- The name of a property. -/
def property (name : String) : Piece :=
  if Declaration.needsQuotes name then text name else word name

/-- The pieces of a type in a place that asks for a strength. -/
def group (wanted : Nat) (type : TypeExpr) (pieces : List Piece) : List Piece :=
  if type.strength < wanted then mark '(' :: (pieces ++ [mark ')']) else pieces

/-- A comment on lines of its own. -/
def comment (level : Nat) : Option String → List Piece
  | none => []
  | some text => [gap (indentation level), doc level text, gap ['\n']]

/-- A word that may be missing, with the blank behind it. -/
def modifier (present : Bool) (text : String) : List Piece :=
  if present then [word text, gap [' ']] else []

end Piece

open Piece

/-! ## Types -/

mutual

/-- The pieces of a type whose surroundings stand at a level. -/
@[simp] def TypeExpr.pieces (level : Nat) : TypeExpr → List Piece
  | .keyword word => [.word word.name]
  | .string text => [.text text]
  | .number spelling => Piece.number spelling
  | .boolean value => [.word (if value then "true" else "false")]
  | .reference name args =>
      match args with
      | [] => Piece.name name
      | _ :: _ =>
          Piece.name name ++ [mark '<'] ++ comma.intercalate (TypeExpr.piecesAll level 0 args) ++
            [mark '>']
  | .array element => group 4 element (element.pieces level) ++ [mark '[', mark ']']
  | .tuple items =>
      mark '[' :: (comma.intercalate (TypeExpr.piecesAll level 0 items) ++ [mark ']'])
  | .rest element =>
      token .ellipsis ['.', '.', '.'] :: group 4 element (element.pieces level)
  | .union alternatives => bar.intercalate (TypeExpr.piecesAll level 2 alternatives)
  | .intersection parts => ampersand.intercalate (TypeExpr.piecesAll level 3 parts)
  | .object members =>
      match members with
      | [] => [mark '{', mark '}']
      | _ :: _ =>
          [mark '{', gap ['\n']] ++ Member.piecesAll (level + 1) members ++
            [gap (indentation level), mark '}']
  | .conditional check bound whenTrue whenFalse =>
      group 1 check (check.pieces level) ++ [gap [' '], word "extends", gap [' ']] ++
        group 1 bound (bound.pieces level) ++ [gap [' '], mark '?', gap [' ']] ++
        whenTrue.pieces level ++ [gap [' '], mark ':', gap [' ']] ++ whenFalse.pieces level
  | .access object index =>
      group 4 object (object.pieces level) ++ [mark '['] ++ index.pieces level ++ [mark ']']
  | .keyOf operand =>
      [word "keyof", gap [' ']] ++ group 3 operand (operand.pieces level)

def TypeExpr.piecesAll (level wanted : Nat) : List TypeExpr → List (List Piece)
  | [] => []
  | type :: others =>
      group wanted type (type.pieces level) :: TypeExpr.piecesAll level wanted others

/-- The pieces of a member at a level. -/
def Member.pieces (level : Nat) : Member → List Piece
  | .property name type isOptional isReadonly doc =>
      comment level doc ++ [gap (indentation level)] ++ modifier isReadonly "readonly" ++
        [Piece.property name] ++ (if isOptional then [mark '?'] else []) ++
        [mark ':', gap [' ']] ++ type.pieces level ++ [mark ';', gap ['\n']]
  | .index key keyType value isReadonly doc =>
      comment level doc ++ [gap (indentation level)] ++ modifier isReadonly "readonly" ++
        [mark '[', word key, mark ':', gap [' ']] ++ keyType.pieces level ++
        [mark ']', mark ':', gap [' ']] ++ value.pieces level ++ [mark ';', gap ['\n']]

def Member.piecesAll (level : Nat) : List Member → List Piece
  | [] => []
  | member :: others => member.pieces level ++ Member.piecesAll level others

end

/-- The pieces of a type in a place that asks for a strength. -/
def TypeExpr.grouped (level wanted : Nat) (type : TypeExpr) : List Piece :=
  group wanted type (type.pieces level)

theorem TypeExpr.grouped_zero (level : Nat) (type : TypeExpr) :
    type.grouped level 0 = type.pieces level := by
  rw [TypeExpr.grouped, group, if_neg (Nat.not_lt_zero _)]

@[simp] theorem TypeExpr.piecesAll_eq_map (level wanted : Nat) (types : List TypeExpr) :
    TypeExpr.piecesAll level wanted types = types.map (TypeExpr.grouped level wanted) := by
  induction types with
  | nil => rfl
  | cons type others ih =>
      rw [TypeExpr.piecesAll, ih]
      rfl

@[simp] theorem Member.piecesAll_eq_flatMap (level : Nat) (members : List Member) :
    Member.piecesAll level members = members.flatMap (Member.pieces level) := by
  induction members with
  | nil => rfl
  | cons member others ih => rw [Member.piecesAll, ih, List.flatMap_cons]

/-! ## Declarations -/

/-- The pieces of a bound or a default, behind what introduces it. -/
def TypeExpr.optionalPieces (sign : Piece) : Option TypeExpr → List Piece
  | some type => [gap [' '], sign, gap [' ']] ++ type.pieces 0
  | none => []

def TypeParam.pieces (param : TypeParam) : List Piece :=
  [word param.name] ++ TypeExpr.optionalPieces (word "extends") param.bound ++
    TypeExpr.optionalPieces (mark '=') param.default

namespace Declaration

def paramsPieces (params : List TypeParam) : List Piece :=
  match params with
  | [] => []
  | _ :: _ => mark '<' :: (comma.intercalate (params.map TypeParam.pieces) ++ [mark '>'])

def basesPieces (bases : List TypeExpr) : List Piece :=
  match bases with
  | [] => []
  | _ :: _ =>
      [gap [' '], word "extends", gap [' ']] ++
        comma.intercalate (bases.map (TypeExpr.grouped 0 0))

def headPieces (declaration : Declaration) : List Piece :=
  [word declaration.name] ++ paramsPieces declaration.params

/-- The pieces of a declaration behind its comment. -/
def statementPieces (declaration : Declaration) : List Piece :=
  modifier declaration.isExported "export" ++
    match declaration.body with
    | .interface bases members =>
        [word "interface", gap [' ']] ++ declaration.headPieces ++ basesPieces bases ++
          [gap [' ']] ++ (TypeExpr.object members).pieces 0 ++ [gap ['\n']]
    | .alias type =>
        [word "type", gap [' ']] ++ declaration.headPieces ++
          [gap [' '], mark '=', gap [' ']] ++ type.pieces 0 ++ [mark ';', gap ['\n']]

/-- The pieces of a declaration. -/
def pieces (declaration : Declaration) : List Piece :=
  comment 0 declaration.doc ++ declaration.statementPieces

/-- The pieces of printed declarations. -/
def piecesAll (declarations : List Declaration) : List Piece :=
  [gap ['\n']].intercalate (declarations.map pieces)

end Declaration

/-! ## Spelling -/

namespace Piece

theorem spell_intercalate (separator : List Piece) (parts : List (List Piece)) :
    spell (separator.intercalate parts) = (spell separator).intercalate (parts.map spell) := by
  induction parts with
  | nil => rfl
  | cons first others ih =>
      cases others with
      | nil => simp
      | cons second others =>
          rw [List.intercalate_cons_cons, List.map_cons, List.map_cons, List.intercalate_cons_cons,
            spell_append, spell_append, ih, List.map_cons]

@[simp] theorem spell_comma : spell comma = [',', ' '] := rfl

@[simp] theorem spell_bar : spell bar = [' ', '|', ' '] := rfl

@[simp] theorem spell_ampersand : spell ampersand = [' ', '&', ' '] := rfl

theorem spell_number (spelling : String) : spell (number spelling) = spelling.toList := by
  unfold number
  split
  · rename_i rest h
    simp [digits, h]
  · simp [digits]

theorem spell_dotted (parts : List (List Char)) :
    spell (dotted parts) = ['.'].intercalate parts := by
  cases parts with
  | nil => rfl
  | cons first others =>
      rw [dotted, spell_cons, chars_word]
      induction others generalizing first with
      | nil => simp
      | cons second others ih =>
          rw [List.intercalate_cons_cons, List.flatMap_cons, spell_append, ← ih second]
          simp

theorem spell_name (text : String) : spell (name text) = text.toList := by
  rw [name, spell_dotted, Text.intercalate_splitOn]

theorem chars_property (name : String) :
    (property name).chars = (Declaration.propertyName name).toList := by
  unfold property Declaration.propertyName
  split <;> rfl

theorem spell_group (wanted : Nat) (type : TypeExpr) (pieces : List Piece) :
    spell (group wanted type pieces) = type.parenthesize wanted (spell pieces) := by
  unfold group TypeExpr.parenthesize
  split <;> simp

theorem spell_comment (level : Nat) (doc : Option String) :
    spell (comment level doc) = Declaration.docChars level doc := by
  cases doc with
  | none => rfl
  | some text => simp [comment, Piece.doc, Declaration.docChars_some]

theorem spell_modifier (present : Bool) (text : String) :
    spell (modifier present text) = if present then text.toList ++ [' '] else [] := by
  cases present <;> simp [modifier]

end Piece

theorem Member.spell_pieces_of_types {m : Member} (level : Nat)
    (types : ∀ t ∈ m.types, spell (t.pieces level) = t.chars level) :
    spell (m.pieces level) = m.chars level := by
  cases m with
  | property name type isOptional isReadonly doc =>
      have := types type (by simp [Member.types])
      cases isOptional <;> cases isReadonly <;>
        simp [Member.pieces, Member.chars, spell_comment, spell_modifier, chars_property, this]
  | index key keyType value isReadonly doc =>
      have hk := types keyType (by simp [Member.types])
      have hv := types value (by simp [Member.types])
      cases isReadonly <;>
        simp [Member.pieces, Member.chars, spell_comment, spell_modifier, hk, hv]

theorem Member.spell_flatMap {level : Nat} {ms : List Member}
    (each : ∀ m ∈ ms, spell (m.pieces level) = m.chars level) :
    spell (ms.flatMap (Member.pieces level)) = Member.charsAll level ms := by
  induction ms with
  | nil => rfl
  | cons m ms ih =>
      have tail := ih fun m' hm => each m' (List.mem_cons_of_mem m hm)
      rw [List.flatMap_cons, spell_append, each m List.mem_cons_self, tail, Member.charsAll]

theorem TypeExpr.map_spell_grouped {ts : List TypeExpr}
    (each : ∀ t ∈ ts, ∀ level, spell (t.pieces level) = t.chars level) (level wanted : Nat) :
    (ts.map (TypeExpr.grouped level wanted)).map spell = TypeExpr.charsAll level wanted ts := by
  rw [TypeExpr.charsAll_eq_map, List.map_map]
  refine List.map_congr_left ?_
  intro t ht
  rw [Function.comp_apply, TypeExpr.grouped, spell_group, each t ht]

/-- The pieces of a type spell what is printed of it. -/
theorem TypeExpr.spell_pieces (t : TypeExpr) (level : Nat) :
    spell (t.pieces level) = t.chars level := by
  -- The `show` of each case is one clause of `chars`, so only the pieces have to be unfolded.
  induction t using TypeExpr.induct generalizing level with
  | keyword word => exact List.append_nil _
  | string text => exact List.append_nil _
  | number spelling => exact spell_number spelling
  | boolean value => cases value <;> rfl
  | reference name args ih =>
      have inside := TypeExpr.map_spell_grouped ih level 0
      cases args with
      | nil => exact spell_name name
      | cons first others =>
          show spell _ = name.toList ++ ['<'] ++
            joinWith [',', ' '] (TypeExpr.charsAll level 0 (first :: others)) ++ ['>']
          simp only [TypeExpr.pieces, TypeExpr.piecesAll_eq_map, spell_append, spell_intercalate,
            inside, spell_name, joinWith]
          rfl
  | array element ih =>
      show spell _ = element.parenthesize 4 (element.chars level) ++ ['[', ']']
      rw [TypeExpr.pieces, spell_append, spell_group, ih]
      rfl
  | tuple items ih _ =>
      have inside := TypeExpr.map_spell_grouped ih level 0
      show spell _ = '[' :: (joinWith [',', ' '] (TypeExpr.charsAll level 0 items) ++ [']'])
      simp only [TypeExpr.pieces, TypeExpr.piecesAll_eq_map, spell_cons, spell_append,
        spell_intercalate, inside, joinWith]
      rfl
  | rest element ih =>
      show spell _ = ['.', '.', '.'] ++ element.parenthesize 4 (element.chars level)
      rw [TypeExpr.pieces, spell_cons, spell_group, ih]
      rfl
  | union alternatives ih =>
      have inside := TypeExpr.map_spell_grouped ih level 2
      show spell _ = joinWith [' ', '|', ' '] (TypeExpr.charsAll level 2 alternatives)
      simp only [TypeExpr.pieces, TypeExpr.piecesAll_eq_map, spell_intercalate, inside, joinWith]
      rfl
  | intersection parts ih =>
      have inside := TypeExpr.map_spell_grouped ih level 3
      show spell _ = joinWith [' ', '&', ' '] (TypeExpr.charsAll level 3 parts)
      simp only [TypeExpr.pieces, TypeExpr.piecesAll_eq_map, spell_intercalate, inside, joinWith]
      rfl
  | object members ih =>
      have all : spell (members.flatMap (Member.pieces (level + 1))) =
          Member.charsAll (level + 1) members := Member.spell_flatMap fun m hm =>
        Member.spell_pieces_of_types (level + 1) fun t ht => ih m hm t ht (level + 1)
      cases members with
      | nil => rfl
      | cons first others =>
          show spell _ = ['{', '\n'] ++ Member.charsAll (level + 1) (first :: others) ++
            indentation level ++ ['}']
          simp only [TypeExpr.pieces, Member.piecesAll_eq_flatMap, spell_append, all]
          simp
  | keyOf operand ih =>
      show spell _ = "keyof ".toList ++ operand.parenthesize 3 (operand.chars level)
      rw [TypeExpr.pieces, spell_append, spell_group, ih]
      rfl
  | conditional check bound whenTrue whenFalse ihc ihb iht ihf =>
      show spell _ = check.parenthesize 1 (check.chars level) ++ " extends ".toList ++
        bound.parenthesize 1 (bound.chars level) ++ " ? ".toList ++ whenTrue.chars level ++
        " : ".toList ++ whenFalse.chars level
      simp [spell_group, ihc, ihb, iht, ihf]
  | access object index iho ihi =>
      show spell _ =
        object.parenthesize 4 (object.chars level) ++ ['['] ++ index.chars level ++ [']']
      simp [spell_group, iho, ihi]

theorem TypeExpr.spell_grouped (level wanted : Nat) (type : TypeExpr) :
    spell (type.grouped level wanted) = type.parenthesize wanted (type.chars level) := by
  rw [TypeExpr.grouped, spell_group, TypeExpr.spell_pieces]

theorem TypeParam.spell_pieces (param : TypeParam) : spell param.pieces = param.chars := by
  obtain ⟨name, bound, default⟩ := param
  unfold TypeParam.pieces TypeParam.chars
  cases bound <;> cases default <;> simp [TypeExpr.optionalPieces, TypeExpr.spell_pieces]

namespace Declaration

theorem spell_paramsPieces (params : List TypeParam) :
    spell (paramsPieces params) = paramsChars params := by
  have each : (params.map TypeParam.pieces).map spell = params.map TypeParam.chars := by
    simp [Function.comp_def, TypeParam.spell_pieces]
  cases params with
  | nil => rfl
  | cons first others =>
      simp only [paramsPieces, paramsChars, spell_cons, spell_append, spell_intercalate, each,
        spell_comma, joinWith, chars_mark, spell_nil, List.singleton_append, List.append_nil]

theorem spell_basesPieces (bases : List TypeExpr) :
    spell (basesPieces bases) = basesChars bases := by
  have each : (bases.map (TypeExpr.grouped 0 0)).map spell = TypeExpr.charsAll 0 0 bases := by
    simp [TypeExpr.charsAll_eq_map, Function.comp_def, TypeExpr.spell_grouped]
  cases bases with
  | nil => rfl
  | cons first others =>
      unfold basesPieces basesChars
      rw [spell_append, spell_intercalate, each, spell_comma, joinWith]
      simp

theorem spell_pieces (declaration : Declaration) :
    spell declaration.pieces = declaration.chars := by
  obtain ⟨name, doc, params, body, isExported⟩ := declaration
  unfold pieces statementPieces headPieces chars
  cases body with
  | «interface» bases members =>
      cases isExported <;>
        simp [spell_comment, spell_modifier, spell_paramsPieces, spell_basesPieces,
          TypeExpr.spell_pieces, -TypeExpr.pieces]
  | «alias» type =>
      cases isExported <;>
        simp [spell_comment, spell_modifier, spell_paramsPieces, TypeExpr.spell_pieces]

theorem print_toList (declarations : List Declaration) :
    (print declarations).toList = spell (piecesAll declarations) := by
  have each : (declarations.map pieces).map spell = declarations.map chars := by
    simp [Function.comp_def, spell_pieces]
  rw [print, String.toList_ofList, piecesAll, spell_intercalate, each, joinWith]
  rfl

end Declaration

end HyperSchema
