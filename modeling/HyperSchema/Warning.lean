import HyperSchema.Endpoint.Ambiguity
import HyperSchema.Schema.Error

/-!
# Warnings

What an analysis reports without stopping.  This file defines:

* `Warning`, the reports, with their wording and their named parts;
* `Noted α`, a value with the warnings given on the way to it;
* `Checked α`, an analysis that may stop with an error and keeps the warnings given before it;
* the laws that take the value and the result of a composed analysis apart.
-/

namespace HyperSchema

/-- Something that is kept although it may not be what was meant. -/
inductive Warning where
  /-- A request body that cannot be taken apart. -/
  | ambiguousRequest (resource rel : String) (reason : Ambiguity)
  /-- A placeholder in an address that is no identity. -/
  | keptPlaceholder (href pointer : String)
  /-- A property that is overwritten by one of the same name. -/
  | shadowedProperty (path property : String)
  /-- A reference to another document. -/
  | nonLocalReference (reference : String)
  /-- A reference without a target. -/
  | missingTarget (reference : String)
deriving DecidableEq, Repr

namespace Warning

/-- The wording of a warning. -/
def message : Warning → String
  | ambiguousRequest .. => "Ambiguous request structure, disabling simple method."
  | keptPlaceholder .. => "Placeholder is not an identity, keeping it verbatim."
  | shadowedProperty .. => "Flattened property shadows an earlier one."
  | nonLocalReference _ => "Leaving non-local reference unresolved."
  | missingTarget _ => "Reference target not found, leaving it unresolved."

/-- The named parts of a warning. -/
def parts : Warning → List (String × String)
  | ambiguousRequest resource rel reason =>
      [("resource", resource), ("rel", rel), ("reason", reason.message)]
  | keptPlaceholder href pointer => [("href", href), ("pointer", pointer)]
  | shadowedProperty path property => [("path", path), ("property", property)]
  | nonLocalReference reference => [("reference", reference)]
  | missingTarget reference => [("reference", reference)]

end Warning

/-! ## Values with warnings -/

/-- A value and the warnings given on the way to it, in order. -/
structure Noted (α : Type) where
  value : α
  warnings : List Warning := []
deriving Repr

namespace Noted

variable {α β : Type}

/-- Continues with the value; the warnings of the first part come first. -/
protected def bind (x : Noted α) (f : α → Noted β) : Noted β :=
  ⟨(f x.value).value, x.warnings ++ (f x.value).warnings⟩

instance : Monad Noted where
  pure a := ⟨a, []⟩
  bind := Noted.bind

/-- Gives a warning. -/
def warn (warning : Warning) : Noted Unit := ⟨(), [warning]⟩

@[simp] theorem value_pure (a : α) : (pure a : Noted α).value = a := rfl

@[simp] theorem warnings_pure (a : α) : (pure a : Noted α).warnings = [] := rfl

@[simp] theorem value_bind (x : Noted α) (f : α → Noted β) :
    (x >>= f).value = (f x.value).value := rfl

@[simp] theorem warnings_bind (x : Noted α) (f : α → Noted β) :
    (x >>= f).warnings = x.warnings ++ (f x.value).warnings := rfl

instance : LawfulMonad Noted :=
  LawfulMonad.mk' Noted
    (fun _ => by simp [Functor.map, Noted.bind])
    (fun _ _ => by simp [bind, Noted.bind, pure])
    (fun _ _ _ => by simp [bind, Noted.bind, List.append_assoc])

end Noted

/-! ## Analyses that may stop -/

/-- An analysis that gives warnings and may stop with an error. -/
abbrev Checked (α : Type) := ExceptT SchemaError Noted α

namespace Checked

variable {α : Type}

/-- Gives a warning. -/
def warn (warning : Warning) : Checked Unit :=
  liftM (Noted.warn warning)

/-- An analysis that gives no warnings. -/
def ofExcept (result : Except SchemaError α) : Checked α :=
  ExceptT.mk (pure result)

/-- The result of an analysis. -/
def result (x : Checked α) : Except SchemaError α :=
  (ExceptT.run x).value

/-- The warnings of an analysis, those before an error included. -/
def warnings (x : Checked α) : List Warning :=
  (ExceptT.run x).warnings

@[simp] theorem result_pure (a : α) : (pure a : Checked α).result = .ok a := rfl

@[simp] theorem result_throw (e : SchemaError) : (throw e : Checked α).result = .error e := rfl

@[simp] theorem result_warn (warning : Warning) : (warn warning).result = .ok () := rfl

@[simp] theorem result_ofExcept (result : Except SchemaError α) :
    (ofExcept result).result = result := rfl

@[simp] theorem result_liftM (x : Noted α) : (liftM x : Checked α).result = .ok x.value := rfl

/-- The warnings given on the way have no part in a result. -/
@[simp] theorem result_bind {β : Type} (x : Checked α) (f : α → Checked β) :
    (x >>= f).result = x.result >>= fun a => (f a).result := by
  show ((ExceptT.run x >>= ExceptT.bindCont f : Noted _).value) = _
  rw [Noted.value_bind]
  unfold result
  cases (ExceptT.run x).value with
  | ok a => rfl
  | error e => rfl

end Checked

end HyperSchema
