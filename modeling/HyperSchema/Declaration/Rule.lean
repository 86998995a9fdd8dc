import HyperSchema.Declaration.Token
import HyperSchema.Entries

/-!
# Rules

What happens to a declaration with a given name.  This file defines:

* `Rule` and `Rule.bucket`, the rules and the lists they are written in;
* `TypeNames`, the names of the types that the rules introduce or look for;
* `RuleSet`, the rules as they are written, and `RuleSet.entries`, the rules by name;
* `RuleTable`, rules with distinct names, and `RuleTable.ofSet`;
* `DeclarationError`, why rules cannot be applied to declarations.
-/

namespace HyperSchema

/-- What happens to a declaration. -/
inductive Rule where
  /-- It is left out. -/
  | drop
  /-- It gets another name. -/
  | rename (newName : String)
  /-- It is the schema of a response. -/
  | targetSchema
  /-- It is the schema of a request body. -/
  | itemSchema
  /-- It is a block of relationships. -/
  | relationships
deriving DecidableEq, Repr

/-- The name of the list that a rule is written in. -/
def Rule.bucket : Rule → String
  | drop => "drop"
  | rename _ => "rename"
  | targetSchema => "target_schemas"
  | itemSchema => "item_schemas"
  | relationships => "relationships"

/-- The names of the types that the rules introduce or look for. -/
structure TypeNames where
  /-- The generic record. -/
  record : String
  /-- The record inside nested responses. -/
  nestedRecord : String
  /-- The bound and default of the record's definition. -/
  definition : String
  /-- The metadata of a record type. -/
  typeMetadata : String
  /-- The attributes that a request body may have. -/
  attributesInRequest : String
deriving DecidableEq, Repr

/-- The rules as they are written. -/
structure RuleSet where
  types : TypeNames
  drop : List String
  /-- Old and new names, in the order of the old ones. -/
  rename : List (String × String)
  targetSchemas : List String
  itemSchemas : List String
  relationships : List String
deriving DecidableEq, Repr

/-- The rules by name, list after list. -/
def RuleSet.entries (set : RuleSet) : List (String × Rule) :=
  set.drop.map (fun name => (name, .drop)) ++
    set.rename.map (fun (name, newName) => (name, .rename newName)) ++
    set.targetSchemas.map (fun name => (name, .targetSchema)) ++
    set.itemSchemas.map (fun name => (name, .itemSchema)) ++
    set.relationships.map (fun name => (name, .relationships))

/-! ## Errors -/

/-- Why rules cannot be applied to declarations. -/
inductive DeclarationError where
  /-- The text is not a list of declarations. -/
  | syntaxError (error : SyntaxError)
  /-- A name has two rules. -/
  | overlappingRule (name first second : String)
  /-- The rules cannot be read. -/
  | invalidRuleSet
deriving DecidableEq, Repr

/-- The wording of an error. -/
def DeclarationError.message : DeclarationError → String
  | syntaxError ⟨position, fault⟩ =>
      "Parse error at " ++ toString position.line ++ ":" ++ toString position.column ++ ": " ++
        fault.message
  | overlappingRule name first second =>
      "Declaration '" ++ name ++ "' is listed as both " ++ first ++ " and " ++ second
  | invalidRuleSet => "Invalid rule set"

/-! ## Tables -/

/-- Rules with distinct names. -/
structure RuleTable where
  rules : List (String × Rule)
  types : TypeNames
deriving DecidableEq, Repr

namespace RuleTable

/-- The rule for a name. -/
def rule? (table : RuleTable) (name : String) : Option Rule :=
  Entries.get? table.rules name

/-- The number of rules. -/
def size (table : RuleTable) : Nat := table.rules.length

/-- Adds rules one by one; a name that has a rule already is an error. -/
def addAll : List (String × Rule) → List (String × Rule) →
    Except DeclarationError (List (String × Rule))
  | known, [] => .ok known
  | known, (name, rule) :: rest =>
      match Entries.get? known name with
      | some earlier => .error (.overlappingRule name earlier.bucket rule.bucket)
      | none => addAll (known ++ [(name, rule)]) rest

/-- The table of a rule set. -/
def ofSet (set : RuleSet) : Except DeclarationError RuleTable :=
  (addAll [] set.entries).map fun rules => { rules, types := set.types }

end RuleTable

end HyperSchema
