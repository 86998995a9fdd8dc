import HyperSchema.Declaration.Rule
import HyperSchema.Toml.Reader

/-!
# Rule sets

The rules that hold without any configuration, and how others are read.  This file defines:

* `TypeNames.standard` and `RuleSet.standard`;
* `TypeNames.ofSetting?` and `RuleSet.ofSetting?`, which take what is missing from the standard;
* `RuleSet.ofToml` and `RuleSet.ofJson`, a rule set in two notations.
-/

namespace HyperSchema

namespace TypeNames

/-- The type names that hold without any configuration. -/
def standard : TypeNames where
  record := "Item"
  nestedRecord := "ItemInNestedResponse"
  definition := "ItemTypeDefinition"
  typeMetadata := "ItemTypeData"
  attributesInRequest := "ToItemAttributesInRequest"

/-- The names of the fields, in order. -/
def fieldNames : List String :=
  ["record", "nested_record", "definition", "type_metadata", "attributes_in_request"]

/-- Reads type names. -/
def ofSetting? (lenient : Bool) (setting : Setting) : Option TypeNames := do
  let fields ← setting.record? lenient fieldNames
  return {
    record := ← Setting.field fields "record" Setting.text? standard.record
    nestedRecord := ← Setting.field fields "nested_record" Setting.text? standard.nestedRecord
    definition := ← Setting.field fields "definition" Setting.text? standard.definition
    typeMetadata := ← Setting.field fields "type_metadata" Setting.text? standard.typeMetadata
    attributesInRequest :=
      ← Setting.field fields "attributes_in_request" Setting.text? standard.attributesInRequest }

end TypeNames

namespace RuleSet

/-- The rules that hold without any configuration. -/
def standard : RuleSet where
  types := .standard
  drop := [
    "ItemTypeDefinition",
    "ToItemAttributesInRequest",
    "ItemAttributes",
    "ItemInNestedResponseAttributes"]
  rename := [
    ("Item", "ItemStableShell"),
    ("ItemInNestedResponse", "ItemInNestedResponseStableShell")]
  targetSchemas := [
    "ItemInstancesTargetSchema",
    "ItemSelfTargetSchema",
    "ItemCreateTargetSchema",
    "ItemUpdateTargetSchema",
    "ItemDestroyTargetSchema",
    "ItemDuplicateJobSchema",
    "ItemPublishTargetSchema",
    "ItemUnpublishTargetSchema",
    "ItemReferencesTargetSchema",
    "ItemBulkPublishJobSchema"]
  itemSchemas := [
    "ItemCreateSchema",
    "ItemUpdateSchema",
    "ItemValidateNewSchema",
    "ItemValidateExistingSchema"]
  relationships := ["ItemRelationships", "ItemInNestedResponseRelationships"]

/-- The names of the fields, in order. -/
def fieldNames : List String :=
  ["types", "drop", "rename", "target_schemas", "item_schemas", "relationships"]

/-- Puts renamings in the order of the old names. -/
def sortRenames (pairs : List (String × String)) : List (String × String) :=
  pairs.mergeSort fun a b => !(b.1 < a.1)

/-- Reads a rule set. -/
def ofSetting? (lenient : Bool) (setting : Setting) : Option RuleSet := do
  let fields ← setting.record? lenient fieldNames
  return {
    types := ← Setting.field fields "types" (TypeNames.ofSetting? lenient) standard.types
    drop := ← Setting.field fields "drop" Setting.texts? standard.drop
    rename := ← Setting.field fields "rename"
      (fun setting => setting.textEntries?.map sortRenames) standard.rename
    targetSchemas := ← Setting.field fields "target_schemas" Setting.texts? standard.targetSchemas
    itemSchemas := ← Setting.field fields "item_schemas" Setting.texts? standard.itemSchemas
    relationships := ← Setting.field fields "relationships" Setting.texts? standard.relationships }

/-- Reads a rule set from a configuration document. -/
def ofToml (source : String) : Except DeclarationError RuleSet :=
  match (Toml.parse? source).bind fun entries => ofSetting? true (.record entries) with
  | some set => .ok set
  | none => .error .invalidRuleSet

/-- Reads a rule set from a JSON value. -/
def ofJson (value : Json) : Except DeclarationError RuleSet :=
  match ofSetting? false value.setting with
  | some set => .ok set
  | none => .error .invalidRuleSet

end RuleSet

end HyperSchema
