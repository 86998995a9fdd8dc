import HyperSchema.Proofs.Declaration.Structure

/-!
# Parts — the types inside a type, each at its place

Two types are compared place by place: at each place they have the same outline, or the one has
there what the other was to get.  This file defines:

* `Declaration.Step`, how a type stands in the type around it, and `TypeExpr.parts`, the types right
  inside a type, in order;
* `Declaration.types`, the types that a declaration is made of;
* `Declaration.Place`, a list of steps, and `TypeExpr.Shows`, what a type has at a place;
* `TypeExpr.outline`, all that a type says apart from its parts;
* `TypeExpr.Replaces`, a type with something new in chosen places, and `TypeExpr.Replaces.unique`:
  there is only one such type.
-/

namespace HyperSchema

/-! ## Parts -/

/-- How a type stands in the type around it. -/
inductive Declaration.Step where
  | argument
  | element
  | item
  | rest
  | alternative
  | conjunct
  | operand
  | check
  | bound
  | whenTrue
  | whenFalse
  | object
  | index
  /-- The type of a property. -/
  | property (name : String)
  /-- The type of the keys of an index signature. -/
  | key
  /-- The type of the values of an index signature. -/
  | value
deriving DecidableEq

open Declaration (Step)

/-- The types of a member, each with its step. -/
def Member.parts : Member → List (Step × TypeExpr)
  | .property name type _ _ _ => [(.property name, type)]
  | .index _ keyType value _ _ => [(.key, keyType), (.value, value)]

/-- The types right inside a type, in order. -/
def TypeExpr.parts : TypeExpr → List (Step × TypeExpr)
  | .reference _ args => args.map fun type => (.argument, type)
  | .array element => [(.element, element)]
  | .tuple items => items.map fun type => (.item, type)
  | .rest element => [(.rest, element)]
  | .union alternatives => alternatives.map fun type => (.alternative, type)
  | .intersection parts => parts.map fun type => (.conjunct, type)
  | .object members => members.flatMap Member.parts
  | .keyOf operand => [(.operand, operand)]
  | .conditional check bound whenTrue whenFalse =>
      [(.check, check), (.bound, bound), (.whenTrue, whenTrue), (.whenFalse, whenFalse)]
  | .access container index => [(.object, container), (.index, index)]
  | _ => []

/-- The types written in a parameter. -/
def TypeParam.types (param : TypeParam) : List TypeExpr :=
  param.bound.toList ++ param.default.toList

/-- The types that an interface extends. -/
def Body.bases : Body → List TypeExpr
  | .interface bases _ => bases
  | .alias _ => []

/-- What a body says itself: the members of an interface are those of an object type. -/
def Body.own : Body → TypeExpr
  | .interface _ members => .object members
  | .alias type => type

/-- The types of a body: those that it extends and its own. -/
def Body.types (body : Body) : List TypeExpr :=
  body.bases ++ [body.own]

/-- The types written in a declaration, in its parameters and in its body. -/
def Declaration.types (declaration : Declaration) : List TypeExpr :=
  declaration.params.flatMap TypeParam.types ++ declaration.body.types

/-- The way to a part: at each type the position among its parts, and how the part stands there. -/
abbrev Declaration.Place := List (Nat × Step)

/-- A step is made on the way to a place. -/
def Declaration.Place.Passes (place : Declaration.Place) (step : Step) : Prop :=
  step ∈ place.map Prod.snd

instance (place : Declaration.Place) (step : Step) : Decidable (place.Passes step) :=
  inferInstanceAs (Decidable (step ∈ place.map Prod.snd))

theorem Declaration.Place.passes_cons {i : Nat} {first step : Step} {place : Declaration.Place} :
    Place.Passes ((i, first) :: place) step ↔ step = first ∨ place.Passes step :=
  List.mem_cons

/-- What a type has at a place. -/
inductive TypeExpr.Shows : TypeExpr → Declaration.Place → TypeExpr → Prop where
  | whole (t : TypeExpr) : Shows t [] t
  | inside {t s part : TypeExpr} {i : Nat} {step : Step} {place : Declaration.Place} :
      t.parts[i]? = some (step, s) → Shows s place part → Shows t ((i, step) :: place) part

/-! ## Outlines -/

/-- What stands for a part in an outline. -/
def TypeExpr.blank : TypeExpr := .keyword .any

/-- All that a member says apart from its types: its kind, name, flags and documentation. -/
def Member.outline : Member → Member
  | .property name _ isOptional isReadonly doc => .property name .blank isOptional isReadonly doc
  | .index key _ _ isReadonly doc => .index key .blank .blank isReadonly doc

/-- All that a type says apart from its parts: its kind, its words, the number of its parts and the
outlines of its members. -/
def TypeExpr.outline : TypeExpr → TypeExpr
  | .reference name args => .reference name (args.map fun _ => .blank)
  | .array _ => .array .blank
  | .tuple items => .tuple (items.map fun _ => .blank)
  | .rest _ => .rest .blank
  | .union alternatives => .union (alternatives.map fun _ => .blank)
  | .intersection parts => .intersection (parts.map fun _ => .blank)
  | .object members => .object (members.map Member.outline)
  | .keyOf _ => .keyOf .blank
  | .conditional _ _ _ _ => .conditional .blank .blank .blank .blank
  | .access _ _ => .access .blank .blank
  | type => type

/-! ### Outline and parts make up the type -/

theorem Member.map_snd_parts (m : Member) : m.parts.map Prod.snd = m.types := by
  cases m <;> rfl

theorem Member.steps_outline (m : Member) :
    m.outline.parts.map Prod.fst = m.parts.map Prod.fst := by
  cases m <;> rfl

/-- The places of parts can be told from the outline. -/
theorem TypeExpr.steps_outline (t : TypeExpr) :
    t.outline.parts.map Prod.fst = t.parts.map Prod.fst := by
  cases t with
  | object members =>
      simp only [outline, parts, List.flatMap_map, List.map_flatMap, Member.steps_outline]
  | _ => simp [outline, parts, Function.comp_def]

theorem Member.eq_of_outline {m m' : Member} (same : m.outline = m'.outline)
    (parts : m.parts = m'.parts) : m = m' := by
  cases m <;> cases m' <;> simp_all [outline, Member.parts]

theorem Member.eq_of_outlines {members members' : List Member}
    (same : members.map Member.outline = members'.map Member.outline)
    (parts : members.flatMap Member.parts = members'.flatMap Member.parts) :
    members = members' := by
  induction members generalizing members' with
  | nil =>
      rw [List.map_nil, eq_comm, List.map_eq_nil_iff] at same
      rw [same]
  | cons m rest ih =>
      cases members' with
      | nil => cases same
      | cons m' rest' =>
          rw [List.map_cons, List.map_cons, List.cons.injEq] at same
          rw [List.flatMap_cons, List.flatMap_cons] at parts
          -- Members of one outline have as many types, so the lists of parts split alike.
          have steps : m.parts.map Prod.fst = m'.parts.map Prod.fst := by
            rw [← steps_outline, same.1, steps_outline]
          have lengths : m.parts.length = m'.parts.length := by
            simpa using congrArg List.length steps
          rcases List.append_inj parts lengths with ⟨first, others⟩
          rw [eq_of_outline same.1 first, ih same.2 others]

namespace TypeExpr

theorem eq_of_map_step {step : Step} {types types' : List TypeExpr}
    (same : types.map (fun t => (step, t)) = types'.map fun t => (step, t)) : types = types' :=
  (List.map_inj_right fun _ _ h => (Prod.mk.inj h).2).1 same

/-- Outline and parts make up the whole type. -/
theorem eq_of_outline {s t : TypeExpr} (same : s.outline = t.outline) (parts : s.parts = t.parts) :
    s = t := by
  -- Types of two kinds have two outlines.
  cases s <;> cases t <;>
    first | (cases same; done) | simp only [outline, TypeExpr.parts] at same parts
  case keyword.keyword => exact same
  case string.string => exact same
  case number.number => exact same
  case boolean.boolean => exact same
  case object.object =>
    injection same with members
    rw [Member.eq_of_outlines members parts]
  case reference.reference =>
    injection same with name
    rw [name, eq_of_map_step parts]
  case tuple.tuple => rw [eq_of_map_step parts]
  case union.union => rw [eq_of_map_step parts]
  case intersection.intersection => rw [eq_of_map_step parts]
  -- The others have a fixed number of parts.
  all_goals
    cases parts
    rfl

/-- Induction over types, from the parts up. -/
theorem partsInduct {P : TypeExpr → Prop} (whole : ∀ t, (∀ part ∈ t.parts, P part.2) → P t)
    (t : TypeExpr) : P t := by
  have each : ∀ (step : Step) {types : List TypeExpr}, (∀ s ∈ types, P s) →
      ∀ part ∈ types.map fun s => (step, s), P part.2 :=
    fun _ _ known => List.forall_mem_map.2 known
  induction t using TypeExpr.induct with
  | keyword word => exact whole _ nofun
  | string text => exact whole _ nofun
  | number spelling => exact whole _ nofun
  | boolean value => exact whole _ nofun
  | reference name args ih => exact whole _ (each .argument ih)
  | array element ih => exact whole _ (by simpa [parts] using ih)
  | tuple items ih _ => exact whole _ (each .item ih)
  | rest element ih => exact whole _ (by simpa [parts] using ih)
  | union alternatives ih => exact whole _ (each .alternative ih)
  | intersection parts ih => exact whole _ (each .conjunct ih)
  | object members ih =>
      refine whole _ ?_
      intro part mem
      rcases List.mem_flatMap.1 mem with ⟨m, inside, mem⟩
      refine ih m inside part.2 ?_
      rw [← Member.map_snd_parts]
      exact List.mem_map_of_mem mem
  | keyOf operand ih => exact whole _ (by simpa [parts] using ih)
  | conditional check bound whenTrue whenFalse ihc ihb iht ihf =>
      exact whole _ (by simpa [parts] using ⟨ihc, ihb, iht, ihf⟩)
  | access container index ihc ihi => exact whole _ (by simpa [parts] using ⟨ihc, ihi⟩)

/-! ## What stands at a place -/

variable {t s made made' part : TypeExpr} {place : Declaration.Place} {step : Step} {i : Nat}

theorem shows_nil_iff : t.Shows [] part ↔ part = t := by
  constructor
  · intro shown
    cases shown
    rfl
  · rintro rfl
    exact .whole part

theorem shows_cons_iff :
    t.Shows ((i, step) :: place) part ↔ ∃ s, t.parts[i]? = some (step, s) ∧ s.Shows place part := by
  constructor
  · intro shown
    cases shown with
    | inside found shown => exact ⟨_, found, shown⟩
  · rintro ⟨s, found, shown⟩
    exact .inside found shown

/-- At a place, a type has one part at most. -/
theorem Shows.unique {part' : TypeExpr} (shown : t.Shows place part)
    (shown' : t.Shows place part') : part = part' := by
  induction shown with
  | whole t => exact (shows_nil_iff.1 shown').symm
  | inside found _ ih =>
      rcases shows_cons_iff.1 shown' with ⟨s, found', inside⟩
      cases found.symm.trans found'
      exact ih inside

/-! ## Replaced parts -/

/-- A type is another one with something new in chosen places: at such a place it has the new type,
and at every other place it has the outline of what the other type has there. -/
def Replaces (made t : TypeExpr) (chosen : Declaration.Place → TypeExpr → Prop) (new : TypeExpr) :
    Prop :=
  ∀ place part, t.Shows place part → ∃ part', made.Shows place part' ∧
    (chosen place part → part' = new) ∧ (¬ chosen place part → part'.outline = part.outline)

variable {chosen : Declaration.Place → TypeExpr → Prop} {new : TypeExpr}

theorem Replaces.whole (replaces : made.Replaces t chosen new) :
    (chosen [] t → made = new) ∧ (¬ chosen [] t → made.outline = t.outline) := by
  rcases replaces [] t (.whole t) with ⟨part', shown, same⟩
  rwa [shows_nil_iff.1 shown] at same

theorem Replaces.inside (replaces : made.Replaces t chosen new)
    (found : t.parts[i]? = some (step, s)) :
    ∃ s', made.parts[i]? = some (step, s') ∧
      s'.Replaces s (fun place => chosen ((i, step) :: place)) new := by
  rcases replaces _ _ (.inside found (.whole s)) with ⟨first, shown, -⟩
  rcases shows_cons_iff.1 shown with ⟨s', found', -⟩
  refine ⟨s', found', ?_⟩
  intro place part inside
  rcases replaces _ _ (.inside found inside) with ⟨part', shown', same⟩
  rcases shows_cons_iff.1 shown' with ⟨s'', found'', inside'⟩
  cases found'.symm.trans found''
  exact ⟨part', inside', same⟩

/-- What is chosen and what is new leave nothing open. -/
theorem Replaces.unique (replaces : made.Replaces t chosen new)
    (replaces' : made'.Replaces t chosen new) : made = made' := by
  -- In each part the choice is the one that is left behind the step to it.
  induction t using partsInduct generalizing made made' chosen with
  | whole t ih =>
      by_cases root : chosen [] t
      · exact (replaces.whole.1 root).trans (replaces'.whole.1 root).symm
      · have outline := replaces.whole.2 root
        have outline' := replaces'.whole.2 root
        refine eq_of_outline (outline.trans outline'.symm) (List.ext_getElem? fun i => ?_)
        have lengths :
            made.parts.length = t.parts.length ∧ made'.parts.length = t.parts.length := by
          have steps := steps_outline made
          have steps' := steps_outline made'
          rw [outline, steps_outline] at steps
          rw [outline', steps_outline] at steps'
          exact ⟨by simpa using (congrArg List.length steps).symm,
            by simpa using (congrArg List.length steps').symm⟩
        -- All three types have the same number of parts, and the i-th ones agree by induction.
        cases found : t.parts[i]? with
        | none =>
            have beyond := List.getElem?_eq_none_iff.1 found
            rw [List.getElem?_eq_none (by omega), List.getElem?_eq_none (by omega)]
        | some part =>
            rcases part with ⟨step, s⟩
            rcases replaces.inside found with ⟨a, foundA, isA⟩
            rcases replaces'.inside found with ⟨b, foundB, isB⟩
            rw [foundA, foundB, ih _ (List.mem_of_getElem? found) isA isB]

theorem Replaces.congr {chosen' : Declaration.Place → TypeExpr → Prop}
    (replaces : made.Replaces t chosen new)
    (same : ∀ place part, chosen place part ↔ chosen' place part) :
    made.Replaces t chosen' new := by
  intro place part shown
  rw [← same]
  exact replaces place part shown

/-- With nothing chosen, a type stays as it is. -/
theorem replaces_self (nothing : ∀ place part, t.Shows place part → ¬ chosen place part) :
    t.Replaces t chosen new :=
  fun place part shown => ⟨part, shown, fun h => (nothing place part shown h).elim, fun _ => rfl⟩

end TypeExpr

end HyperSchema
