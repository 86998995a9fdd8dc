import HyperSchema.Json.Basic

/-!
# Settings

What configuration is read from, whatever notation it is written in.  This file defines:

* `Setting`, texts, integers, lists and records;
* `Json.setting`, a JSON value as a setting;
* `Setting.record?`, a record written by names or by position;
* `Setting.text?`, `Setting.texts?` and `Setting.natural?`.
-/

namespace HyperSchema

/-- A value in a configuration. -/
inductive Setting where
  | text (value : String)
  | integer (value : Int)
  | list (items : List Setting)
  | record (entries : List (String × Setting))
  /-- A value of a kind that no setting has. -/
  | other
deriving Repr, Inhabited

mutual

/-- A JSON value as a setting. -/
def Json.setting : Json → Setting
  | .string text => .text text
  | .number (.integer value) => .integer value
  | .number (.double _) => .other
  | .array items => .list (Json.settings items)
  | .object members => .record (Json.settingEntries members)
  | .null => .other
  | .bool _ => .other

/-- The items of an array as settings. -/
def Json.settings : List Json → List Setting
  | [] => []
  | item :: rest => item.setting :: Json.settings rest

/-- The members of an object as settings. -/
def Json.settingEntries : List (String × Json) → List (String × Setting)
  | [] => []
  | (name, value) :: rest => (name, value.setting) :: Json.settingEntries rest

end

namespace Setting

/-- A text. -/
def text? : Setting → Option String
  | text value => some value
  | _ => none

/-- A list of texts. -/
def texts? : Setting → Option (List String)
  | list items => items.mapM text?
  | _ => none

/-- A record of texts, in order. -/
def textEntries? : Setting → Option (List (String × String))
  | record entries => entries.mapM fun (name, value) => value.text?.map fun value => (name, value)
  | _ => none

/-- An integer that is not negative. -/
def natural? : Setting → Option Nat
  | integer value => if value < 0 then none else some value.toNat
  | _ => none

/-- The fields of a record.  A record is written by names, or as a list with the fields in order; a
list that is not `lenient` must not be longer than the names. -/
def record? (lenient : Bool) (names : List String) : Setting → Option (Entries Setting)
  | record entries => some entries
  | list items =>
      if !lenient && names.length < items.length then none else some (names.zip items)
  | _ => none

/-- A field of a record; a field that is missing takes its default. -/
def field {α : Type} (entries : Entries Setting) (name : String) (read : Setting → Option α)
    (default : α) : Option α :=
  match entries.get? name with
  | some value => read value
  | none => some default

end Setting

end HyperSchema
