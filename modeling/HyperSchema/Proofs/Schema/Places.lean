import HyperSchema.Proofs.Schema.Visits

/-!
# Places — where a walk through a schema comes

The nodes on a walk, told by the positions on the way to them.  This file defines:

* `Schema.Place`, a schema on a walk with its address;
* `Schema.Place.children`, the branches of a union and the schemas of the items of an array, and
  `Schema.Place.at?`, the place at the end of a route through them;
* `Schema.Place.IsStray`, a leaf where no leaf may stand, and `Schema.Place.FirstStray`, the first
  of them in the order of the routes;
* `Schema.Place.stops_eq`: the stops of a walk are those of the children, in order;
* `Schema.Place.firstStray_iff`: the first stray stop of a walk is the first stray place.
-/

namespace HyperSchema.Schema

/-! ## Places and routes -/

/-- A schema on a walk: its address, and whether it is a branch of a union. -/
structure Place where
  schema : Json
  path : String
  isBranch : Bool := false

namespace Place

/-- The places one step further: the branches of a union, the schemas of the items of an array. -/
def children (place : Place) : List Place :=
  match place.schema.node with
  | .union _ branches =>
      branches.zipIdx.map fun (branch, i) => ⟨branch, branchPath place.path i, true⟩
  | .array _ (.single item) => [⟨item, itemsPath place.path, false⟩]
  | .array _ (.tuple schemas) =>
      schemas.zipIdx.map fun (schema, i) => ⟨schema, tuplePath place.path i, false⟩
  | _ => []

/-- The place at the end of a route, a list of positions. -/
def at? (place : Place) : List Nat → Option Place
  | [] => some place
  | i :: route => place.children[i]?.bind fun child => child.at? route

/-- A leaf where no leaf may stand: any but a branch of the type `null`. -/
def IsStray (place : Place) : Prop :=
  place.schema.node = .leaf ∧
    ¬ (place.isBranch = true ∧ place.schema.member? "type" = some (.string "null"))

/-- The stray place that comes before all others on a walk from a start. -/
def FirstStray (start stray : Place) : Prop :=
  ∃ route, start.at? route = some stray ∧ stray.IsStray ∧
    ∀ other place, start.at? other = some place → place.IsStray → other ≠ route →
      List.Lex (· < ·) route other

/-- The stops of a walk from a place: none at a branch that admits nothing but `null`. -/
def stops (place : Place) : List Visit :=
  if place.isBranch && place.schema.isNullSchema then [] else visits place.schema place.path

variable {place start stray : Place}

/-! ## Stops at the children -/

theorem isNullSchema_iff {schema : Json} :
    schema.isNullSchema = true ↔
      schema.node = .leaf ∧ schema.member? "type" = some (.string "null") := by
  unfold Json.isNullSchema
  split
  · rename_i name leaf isText
    simp [leaf, isText]
  · rename_i other
    constructor
    · exact nofun
    · rintro ⟨leaf, isText⟩
      exact (other "null" leaf isText).elim

/-- A leaf is stray unless the walk passes over it. -/
theorem isStray_iff :
    place.IsStray ↔
      place.schema.node = .leaf ∧ (place.isBranch && place.schema.isNullSchema) = false := by
  rw [IsStray, ← Bool.not_eq_true, Bool.and_eq_true, isNullSchema_iff]
  grind

theorem visitsOfBranches_eq_flatMap (branches : List Json) (path : String) (i : Nat) :
    visitsOfBranches branches path i =
      ((branches.zipIdx i).map fun (branch, i) =>
        (⟨branch, branchPath path i, true⟩ : Place)).flatMap stops := by
  induction branches generalizing i with
  | nil => rw [visitsOfBranches]; rfl
  | cons branch rest ih =>
      rw [visitsOfBranches, ih, List.zipIdx_cons, List.map_cons, List.flatMap_cons, stops]
      rfl

theorem visitsOfTuple_eq_flatMap (schemas : List Json) (path : String) (i : Nat) :
    visitsOfTuple schemas path i =
      ((schemas.zipIdx i).map fun (schema, i) =>
        (⟨schema, tuplePath path i, false⟩ : Place)).flatMap stops := by
  induction schemas generalizing i with
  | nil => rw [visitsOfTuple]; rfl
  | cons schema rest ih =>
      rw [visitsOfTuple, ih, List.zipIdx_cons, List.map_cons, List.flatMap_cons, stops]
      rfl

/-- The stops at a place: an object, a stray leaf, or the stops at its children in order. -/
theorem stops_eq (place : Place) :
    place.stops =
      match place.schema.node with
      | .object members => [.object members place.path]
      | .leaf =>
          if place.isBranch && place.schema.isNullSchema then []
          else [.stray place.schema place.path]
      | _ => place.children.flatMap stops := by
  by_cases passed : place.isBranch && place.schema.isNullSchema
  · have leaf := node_of_isNullSchema (Bool.and_eq_true_iff.1 passed).2
    rw [stops, if_pos passed, leaf]
    exact (if_pos passed).symm
  · rw [stops, if_neg passed, visits_eq, children]
    cases shape : place.schema.node with
    | reference target => rfl
    | union members branches => exact visitsOfBranches_eq_flatMap branches place.path 0
    | object members => rfl
    | array members items =>
        cases items with
        | single item => simp [stops]
        | tuple schemas => exact visitsOfTuple_eq_flatMap schemas place.path 0
        | missing => rfl
    | leaf => exact (if_neg passed).symm

/-- Nothing stands below a leaf or an object. -/
theorem children_of_leaf (leaf : place.schema.node = .leaf) : place.children = [] := by
  rw [children, leaf]

theorem children_of_object {members : List (String × Json)}
    (shape : place.schema.node = .object members) : place.children = [] := by
  rw [children, shape]

/-- A child is smaller than the place it is a child of. -/
theorem sizeOf_child_lt {child : Place} (mem : child ∈ place.children) :
    sizeOf child.schema < sizeOf place.schema := by
  unfold children at mem
  split at mem
  · rename_i members branches shape
    rcases List.mem_map.1 mem with ⟨⟨branch, i⟩, inside, rfl⟩
    have inBranches : branch ∈ branches := List.fst_mem_of_mem_zipIdx inside
    exact Nat.lt_trans (List.sizeOf_lt_of_mem inBranches) (sizeOf_branches_lt shape)
  · rename_i members item shape
    cases List.mem_singleton.1 mem
    exact sizeOf_single_lt shape
  · rename_i members schemas shape
    rcases List.mem_map.1 mem with ⟨⟨schema, i⟩, inside, rfl⟩
    have inSchemas : schema ∈ schemas := List.fst_mem_of_mem_zipIdx inside
    exact Nat.lt_trans (List.sizeOf_lt_of_mem inSchemas) (sizeOf_tuple_lt shape)
  · cases mem

end Place

/-! ## The first stray place -/

/-- The schema at a stray stop, with its address. -/
def Visit.stray? : Visit → Option (Json × String)
  | object _ _ => none
  | stray schema path => some (schema, path)

namespace Place

variable {place start stray : Place}

theorem at?_nil : place.at? [] = some place := rfl

theorem at?_cons {i : Nat} {route : List Nat} :
    place.at? (i :: route) = some stray ↔
      ∃ child, place.children[i]? = some child ∧ child.at? route = some stray :=
  Option.bind_eq_some_iff

/-- Induction over places, from the children up. -/
theorem induct {P : Place → Prop}
    (step : ∀ place : Place, (∀ child ∈ place.children, P child) → P place) (place : Place) :
    P place := by
  induction h : sizeOf place.schema using Nat.strongRecOn generalizing place with
  | _ size ih =>
      subst h
      exact step place fun child mem => ih _ (sizeOf_child_lt mem) child rfl

/-- The stray stop that comes first, as a place. -/
def firstStop? (place : Place) : Option (Json × String) :=
  place.stops.findSome? Visit.stray?

theorem firstStop?_of_isStray (h : place.IsStray) :
    place.firstStop? = some (place.schema, place.path) := by
  rcases isStray_iff.1 h with ⟨leaf, noNull⟩
  rw [firstStop?, stops_eq, leaf, noNull]
  rfl

/-- At a place that is not stray itself, the first stray stop is that of the first child that has
one. -/
theorem firstStop?_of_not_isStray (h : ¬ place.IsStray) :
    place.firstStop? = place.children.findSome? firstStop? := by
  rw [firstStop?, stops_eq]
  split
  · rename_i members shape
    rw [children_of_object shape]
    rfl
  · rename_i leaf
    rw [children_of_leaf leaf]
    split
    · rfl
    · rename_i noNull
      exact (h (isStray_iff.2 ⟨leaf, Bool.not_eq_true _ ▸ noNull⟩)).elim
  · induction place.children with
    | nil => rfl
    | cons child rest ih =>
        rw [List.flatMap_cons, List.findSome?_append, ih, List.findSome?_cons]
        cases first : List.findSome? Visit.stray? child.stops <;> simp [firstStop?, first]

/-- There is a stray stop if and only if some place is stray. -/
theorem firstStop?_eq_none_iff (place : Place) :
    place.firstStop? = none ↔ ∀ route found, place.at? route = some found → ¬ found.IsStray := by
  induction place using induct with
  | step place ih =>
      by_cases isStray : place.IsStray
      · rw [firstStop?_of_isStray isStray]
        exact iff_of_false nofun fun none => none [] place rfl isStray
      · rw [firstStop?_of_not_isStray isStray, List.findSome?_eq_none_iff]
        -- A route ends here, where nothing is stray, or goes through a child.
        constructor
        · intro none route found stands
          cases route with
          | nil =>
              cases stands
              exact isStray
          | cons i route =>
              rcases at?_cons.1 stands with ⟨child, isChild, below⟩
              have mem := List.mem_of_getElem? isChild
              exact (ih child mem).1 (none child mem) route found below
        · intro none child mem
          rcases List.mem_iff_getElem?.1 mem with ⟨i, isChild⟩
          refine (ih child mem).2 fun route found below => ?_
          exact none (i :: route) found (at?_cons.2 ⟨child, isChild, below⟩)

/-- A stray place is the first one on a walk from it, and the only one. -/
theorem firstStray_of_isStray (h : place.IsStray) : place.FirstStray stray ↔ stray = place := by
  have noChildren := children_of_leaf h.1
  constructor
  · rintro ⟨route, stands, -, -⟩
    cases route with
    | nil => exact (Option.some.inj stands).symm
    | cons i route => simp [at?, noChildren] at stands
  · rintro rfl
    refine ⟨[], rfl, h, ?_⟩
    intro other found stands _ different
    cases other with
    | nil => exact (different rfl).elim
    | cons i other => exact .nil

/-- Below a place that is not stray itself, the first stray place stands below the first child that
has one. -/
theorem firstStray_of_not_isStray (h : ¬ place.IsStray) :
    place.FirstStray stray ↔
      ∃ (i : Nat) (child : Place), place.children[i]? = some child ∧ child.FirstStray stray ∧
        ∀ j < i, ∀ other : Place, place.children[j]? = some other → other.firstStop? = none := by
  constructor
  · rintro ⟨route, stands, isStray, first⟩
    cases route with
    | nil =>
        cases stands
        exact (h isStray).elim
    | cons i route =>
        rcases at?_cons.1 stands with ⟨child, isChild, below⟩
        refine ⟨i, child, isChild, ⟨route, below, isStray, ?_⟩, ?_⟩
        · intro other found stands' isStray' different
          have later := first (i :: other) found (at?_cons.2 ⟨child, isChild, stands'⟩) isStray'
            (by simpa using different)
          simpa using List.cons_lex_cons_iff.1 later
        · intro j before other isOther
          rw [firstStop?_eq_none_iff]
          intro route' found stands' isStray'
          have later := first (j :: route') found (at?_cons.2 ⟨other, isOther, stands'⟩) isStray'
            (by simp only [ne_eq, List.cons.injEq]; omega)
          rcases List.cons_lex_cons_iff.1 later with after | ⟨same, -⟩ <;> omega
  · rintro ⟨i, child, isChild, ⟨route, below, isStray, first⟩, before⟩
    refine ⟨i :: route, at?_cons.2 ⟨child, isChild, below⟩, isStray, ?_⟩
    intro other found stands isStray' different
    cases other with
    | nil =>
        cases stands
        exact (h isStray').elim
    | cons j other =>
        rcases at?_cons.1 stands with ⟨sibling, isSibling, below'⟩
        -- Below a later child the route is greater at once, below an earlier one nothing is stray.
        rcases Nat.lt_trichotomy i j with later | rfl | earlier
        · exact .rel later
        · cases isChild.symm.trans isSibling
          exact .cons (first other found below' isStray' (by simpa using different))
        · have none := (firstStop?_eq_none_iff sibling).1 (before j earlier sibling isSibling)
          exact (none other found below' isStray').elim

/-- The first stray stop of a walk is the first stray place. -/
theorem firstStray_iff (place : Place) (schema : Json) (path : String) :
    place.firstStop? = some (schema, path) ↔
      ∃ stray, place.FirstStray stray ∧ stray.schema = schema ∧ stray.path = path := by
  induction place using induct with
  | step place ih =>
      by_cases isStray : place.IsStray
      · rw [firstStop?_of_isStray isStray]
        simp only [firstStray_of_isStray isStray, exists_eq_left, Option.some.injEq, Prod.mk.injEq]
      · rw [firstStop?_of_not_isStray isStray, List.findSome?_eq_some_iff]
        simp only [firstStray_of_not_isStray isStray]
        -- The children in front of the first one with a stray stop are those at lower positions.
        constructor
        · rintro ⟨front, child, back, split, first, before⟩
          have isChild : place.children[front.length]? = some child := by rw [split]; simp
          have mem : child ∈ place.children := List.mem_of_getElem? isChild
          rcases (ih child mem).1 first with ⟨stray, isFirst, same, same'⟩
          refine ⟨stray, ⟨front.length, child, isChild, isFirst, ?_⟩, same, same'⟩
          intro j earlier other isOther
          refine before other ?_
          rw [split, List.getElem?_append_left earlier] at isOther
          exact List.mem_of_getElem? isOther
        · rintro ⟨stray, ⟨i, child, isChild, isFirst, before⟩, same, same'⟩
          have mem := List.mem_of_getElem? isChild
          refine ⟨place.children.take i, child, place.children.drop (i + 1), ?_,
            (ih child mem).2 ⟨stray, isFirst, same, same'⟩, ?_⟩
          · rcases List.getElem?_eq_some_iff.1 isChild with ⟨bound, rfl⟩
            rw [← List.drop_eq_getElem_cons bound, List.take_append_drop]
          · intro other inside
            rcases List.mem_iff_getElem?.1 inside with ⟨j, isOther⟩
            rw [List.getElem?_take] at isOther
            split at isOther
            · rename_i earlier
              exact before j earlier other isOther
            · cases isOther

end Place

end HyperSchema.Schema
