import HyperSchema.Declaration.Printer

/-!
# Structure — induction over types and the documentation in them

Types contain members and members contain types.  This file defines:

* `Member.types`, the types written in a member;
* `TypeExpr.induct`, induction over types, where a member counts through its types;
* `TypeExpr.docs` and `TypeExpr.mapDocs`, the documentation inside a type and its replacement,
  with the same for members, bodies and declarations, and the laws of replacements;
* the equations that turn the list versions of recursive functions into `map` and `flatMap`.
-/

namespace HyperSchema

/-! ## Induction -/

/-- The types written in a member. -/
def Member.types : Member → List TypeExpr
  | .property _ type _ _ _ => [type]
  | .index _ keyType value _ _ => [keyType, value]

/-- Induction over types.  Rest elements are read with their tuple, so a tuple also counts through
the elements of those. -/
theorem TypeExpr.induct {P : TypeExpr → Prop}
    (keyword : ∀ word, P (.keyword word)) (string : ∀ text, P (.string text))
    (number : ∀ spelling, P (.number spelling)) (boolean : ∀ value, P (.boolean value))
    (reference : ∀ name args, (∀ t ∈ args, P t) → P (.reference name args))
    (array : ∀ element, P element → P (.array element))
    (tuple : ∀ items, (∀ t ∈ items, P t) → (∀ element, .rest element ∈ items → P element) →
      P (.tuple items))
    (rest : ∀ element, P element → P (.rest element))
    (union : ∀ alternatives, (∀ t ∈ alternatives, P t) → P (.union alternatives))
    (intersection : ∀ parts, (∀ t ∈ parts, P t) → P (.intersection parts))
    (object : ∀ members : List Member, (∀ m ∈ members, ∀ t ∈ m.types, P t) → P (.object members))
    (keyOf : ∀ operand, P operand → P (.keyOf operand))
    (conditional : ∀ check bound whenTrue whenFalse, P check → P bound → P whenTrue → P whenFalse →
      P (.conditional check bound whenTrue whenFalse))
    (access : ∀ object index, P object → P index → P (.access object index)) (t : TypeExpr) :
    P t := by
  -- The recursor gives a tuple its rest elements as items only, so the motive for a type also speaks
  -- of the element of a rest element.
  have only : ∀ {t : TypeExpr}, P t → (∀ element, t ≠ .rest element) →
      P t ∧ ∀ element, t = .rest element → P element :=
    fun h other => ⟨h, fun element he => (other element he).elim⟩
  refine (@TypeExpr.rec (fun t => P t ∧ ∀ element, t = .rest element → P element)
    (fun m => ∀ t ∈ m.types, P t)
    (fun ts => ∀ t ∈ ts, P t ∧ ∀ element, t = .rest element → P element)
    (fun ms => ∀ m ∈ ms, ∀ t ∈ m.types, P t) ?_ ?_ ?_ ?_ ?_ ?_ ?_ ?_ ?_ ?_ ?_ ?_ ?_ ?_ ?_ ?_ ?_ ?_
    ?_ ?_ t).1
  · exact fun word => only (keyword word) nofun
  · exact fun text => only (string text) nofun
  · exact fun spelling => only (number spelling) nofun
  · exact fun value => only (boolean value) nofun
  · exact fun name args h => only (reference name args fun t ht => (h t ht).1) nofun
  · exact fun element h => only (array element h.1) nofun
  · exact fun items h => only
      (tuple items (fun t ht => (h t ht).1) fun element he => (h _ he).2 element rfl) nofun
  · intro element h
    refine ⟨rest element h.1, ?_⟩
    rintro element ⟨⟩
    exact h.1
  · exact fun alternatives h => only (union alternatives fun t ht => (h t ht).1) nofun
  · exact fun parts h => only (intersection parts fun t ht => (h t ht).1) nofun
  · exact fun members h => only (object members h) nofun
  · exact fun operand h => only (keyOf operand h.1) nofun
  · exact fun check bound whenTrue whenFalse hc hb ht hf =>
      only (conditional check bound whenTrue whenFalse hc.1 hb.1 ht.1 hf.1) nofun
  · exact fun object index ho hi => only (access object index ho.1 hi.1) nofun
  -- Members and lists hand on what is known of the types in them.
  · intro name type isOptional isReadonly doc h t ht
    rw [Member.types, List.mem_singleton] at ht
    exact ht ▸ h.1
  · intro key keyType value isReadonly doc hk hv t ht
    rcases List.mem_cons.1 ht with rfl | ht
    · exact hk.1
    · exact List.mem_singleton.1 ht ▸ hv.1
  · intro t ht
    cases ht
  · intro head tail hh ht
    exact List.forall_mem_cons.2 ⟨hh, ht⟩
  · intro m hm
    cases hm
  · intro head tail hh ht
    exact List.forall_mem_cons.2 ⟨hh, ht⟩

/-! ## Documentation -/

mutual

/-- The texts of all comments inside a type, in order. -/
@[simp] def TypeExpr.docs : TypeExpr → List String
  | .reference _ args => TypeExpr.docsAll args
  | .array element => element.docs
  | .tuple items => TypeExpr.docsAll items
  | .rest element => element.docs
  | .union alternatives => TypeExpr.docsAll alternatives
  | .intersection parts => TypeExpr.docsAll parts
  | .object members => Member.docsAll members
  | .keyOf operand => operand.docs
  | .conditional check bound whenTrue whenFalse =>
      check.docs ++ bound.docs ++ whenTrue.docs ++ whenFalse.docs
  | .access object index => object.docs ++ index.docs
  | _ => []

def TypeExpr.docsAll : List TypeExpr → List String
  | [] => []
  | type :: rest => type.docs ++ TypeExpr.docsAll rest

/-- The texts of all comments of a member: its own and those inside its types. -/
def Member.docs : Member → List String
  | .property _ type _ _ doc => doc.toList ++ type.docs
  | .index _ keyType value _ doc => doc.toList ++ keyType.docs ++ value.docs

def Member.docsAll : List Member → List String
  | [] => []
  | member :: rest => member.docs ++ Member.docsAll rest

end

mutual

/-- The type with the text of every comment replaced. -/
@[simp] def TypeExpr.mapDocs (f : String → String) : TypeExpr → TypeExpr
  | .reference name args => .reference name (TypeExpr.mapDocsAll f args)
  | .array element => .array (element.mapDocs f)
  | .tuple items => .tuple (TypeExpr.mapDocsAll f items)
  | .rest element => .rest (element.mapDocs f)
  | .union alternatives => .union (TypeExpr.mapDocsAll f alternatives)
  | .intersection parts => .intersection (TypeExpr.mapDocsAll f parts)
  | .object members => .object (Member.mapDocsAll f members)
  | .keyOf operand => .keyOf (operand.mapDocs f)
  | .conditional check bound whenTrue whenFalse =>
      .conditional (check.mapDocs f) (bound.mapDocs f) (whenTrue.mapDocs f) (whenFalse.mapDocs f)
  | .access object index => .access (object.mapDocs f) (index.mapDocs f)
  | type => type

def TypeExpr.mapDocsAll (f : String → String) : List TypeExpr → List TypeExpr
  | [] => []
  | type :: rest => type.mapDocs f :: TypeExpr.mapDocsAll f rest

/-- The member with its own comment and those inside its types replaced. -/
def Member.mapDocs (f : String → String) : Member → Member
  | .property name type isOptional isReadonly doc =>
      .property name (type.mapDocs f) isOptional isReadonly (doc.map f)
  | .index key keyType value isReadonly doc =>
      .index key (keyType.mapDocs f) (value.mapDocs f) isReadonly (doc.map f)

def Member.mapDocsAll (f : String → String) : List Member → List Member
  | [] => []
  | member :: rest => member.mapDocs f :: Member.mapDocsAll f rest

end

@[simp] theorem TypeExpr.docsAll_eq_flatMap (types : List TypeExpr) :
    TypeExpr.docsAll types = types.flatMap TypeExpr.docs := by
  induction types with
  | nil => rfl
  | cons type rest ih => rw [TypeExpr.docsAll, ih, List.flatMap_cons]

@[simp] theorem Member.docsAll_eq_flatMap (members : List Member) :
    Member.docsAll members = members.flatMap Member.docs := by
  induction members with
  | nil => rfl
  | cons member rest ih => rw [Member.docsAll, ih, List.flatMap_cons]

@[simp] theorem TypeExpr.mapDocsAll_eq_map (f : String → String) (types : List TypeExpr) :
    TypeExpr.mapDocsAll f types = types.map (TypeExpr.mapDocs f) := by
  induction types with
  | nil => rfl
  | cons type rest ih => rw [TypeExpr.mapDocsAll, ih, List.map_cons]

@[simp] theorem Member.mapDocsAll_eq_map (f : String → String) (members : List Member) :
    Member.mapDocsAll f members = members.map (Member.mapDocs f) := by
  induction members with
  | nil => rfl
  | cons member rest ih => rw [Member.mapDocsAll, ih, List.map_cons]

/-! ### Declarations -/

def TypeParam.docs (param : TypeParam) : List String :=
  (param.bound.map TypeExpr.docs).getD [] ++ (param.default.map TypeExpr.docs).getD []

def TypeParam.mapDocs (f : String → String) (param : TypeParam) : TypeParam :=
  { param with
    bound := param.bound.map (TypeExpr.mapDocs f)
    default := param.default.map (TypeExpr.mapDocs f) }

def Body.docs : Body → List String
  | .interface bases members => bases.flatMap TypeExpr.docs ++ members.flatMap Member.docs
  | .alias type => type.docs

def Body.mapDocs (f : String → String) : Body → Body
  | .interface bases members =>
      .interface (bases.map (TypeExpr.mapDocs f)) (members.map (Member.mapDocs f))
  | .alias type => .alias (type.mapDocs f)

/-- The texts of all comments of a declaration. -/
def Declaration.docs (declaration : Declaration) : List String :=
  declaration.doc.toList ++ declaration.params.flatMap TypeParam.docs ++ declaration.body.docs

/-- The declaration with the text of every comment replaced. -/
def Declaration.mapDocs (f : String → String) (declaration : Declaration) : Declaration :=
  { declaration with
    doc := declaration.doc.map f
    params := declaration.params.map (TypeParam.mapDocs f)
    body := declaration.body.mapDocs f }

/-! ### A replacement that changes no text -/

section Unchanged

variable {f : String → String}

theorem mapDoc_eq_self {doc : Option String} (h : ∀ text ∈ doc.toList, f text = text) :
    doc.map f = doc := by
  cases doc with
  | none => rfl
  | some text => rw [Option.map_some, h text (by simp)]

theorem map_eq_self_of_docs {α : Type} {docs : α → List String} {g : α → α} {xs : List α}
    (step : ∀ x ∈ xs, (∀ text ∈ docs x, f text = text) → g x = x)
    (h : ∀ text ∈ xs.flatMap docs, f text = text) : xs.map g = xs := by
  have each : ∀ x ∈ xs, g x = x := by
    intro x hx
    refine step x hx ?_
    intro text ht
    exact h text (List.mem_flatMap.2 ⟨x, hx, ht⟩)
  exact (List.map_congr_left each).trans (List.map_id' xs)

theorem Member.mapDocs_eq_self_of_types {m : Member}
    (types : ∀ t ∈ m.types, (∀ text ∈ t.docs, f text = text) → t.mapDocs f = t)
    (h : ∀ text ∈ m.docs, f text = text) : m.mapDocs f = m := by
  cases m with
  | property name type isOptional isReadonly doc =>
      simp only [Member.docs, List.forall_mem_append] at h
      rw [Member.mapDocs, mapDoc_eq_self h.1, types type (by simp [Member.types]) h.2]
  | index key keyType value isReadonly doc =>
      simp only [Member.docs, List.forall_mem_append] at h
      obtain ⟨⟨hdoc, hkey⟩, hvalue⟩ := h
      rw [Member.mapDocs, mapDoc_eq_self hdoc,
        types keyType (by simp [Member.types]) hkey, types value (by simp [Member.types]) hvalue]

theorem TypeExpr.mapDocs_eq_self {t : TypeExpr} (h : ∀ text ∈ t.docs, f text = text) :
    t.mapDocs f = t := by
  -- Comments stand at members only, so a type hands its texts on to the types inside.
  induction t using TypeExpr.induct with
  | keyword word => rfl
  | string text => rfl
  | number spelling => rfl
  | boolean value => rfl
  | reference name args ih =>
      simp only [TypeExpr.docs, TypeExpr.docsAll_eq_flatMap] at h
      rw [TypeExpr.mapDocs, TypeExpr.mapDocsAll_eq_map, map_eq_self_of_docs ih h]
  | tuple items ih _ =>
      simp only [TypeExpr.docs, TypeExpr.docsAll_eq_flatMap] at h
      rw [TypeExpr.mapDocs, TypeExpr.mapDocsAll_eq_map, map_eq_self_of_docs ih h]
  | union alternatives ih =>
      simp only [TypeExpr.docs, TypeExpr.docsAll_eq_flatMap] at h
      rw [TypeExpr.mapDocs, TypeExpr.mapDocsAll_eq_map, map_eq_self_of_docs ih h]
  | intersection parts ih =>
      simp only [TypeExpr.docs, TypeExpr.docsAll_eq_flatMap] at h
      rw [TypeExpr.mapDocs, TypeExpr.mapDocsAll_eq_map, map_eq_self_of_docs ih h]
  | object members ih =>
      simp only [TypeExpr.docs, Member.docsAll_eq_flatMap] at h
      have step : ∀ m ∈ members, (∀ text ∈ m.docs, f text = text) → m.mapDocs f = m :=
        fun m hm => Member.mapDocs_eq_self_of_types (ih m hm)
      rw [TypeExpr.mapDocs, Member.mapDocsAll_eq_map, map_eq_self_of_docs step h]
  | array element ih => rw [TypeExpr.mapDocs, ih h]
  | rest element ih => rw [TypeExpr.mapDocs, ih h]
  | keyOf operand ih => rw [TypeExpr.mapDocs, ih h]
  | conditional check bound whenTrue whenFalse ihc ihb iht ihf =>
      simp only [TypeExpr.docs, List.forall_mem_append] at h
      obtain ⟨⟨⟨hc, hb⟩, ht⟩, hf⟩ := h
      rw [TypeExpr.mapDocs, ihc hc, ihb hb, iht ht, ihf hf]
  | access object index iho ihi =>
      simp only [TypeExpr.docs, List.forall_mem_append] at h
      rw [TypeExpr.mapDocs, iho h.1, ihi h.2]

theorem Member.mapDocs_eq_self {m : Member} (h : ∀ text ∈ m.docs, f text = text) :
    m.mapDocs f = m :=
  Member.mapDocs_eq_self_of_types (fun _ _ ht => TypeExpr.mapDocs_eq_self ht) h

theorem TypeParam.mapDocs_eq_self {param : TypeParam} (h : ∀ text ∈ param.docs, f text = text) :
    param.mapDocs f = param := by
  obtain ⟨name, bound, default⟩ := param
  simp only [TypeParam.docs, List.forall_mem_append] at h
  have same : ∀ {type? : Option TypeExpr},
      (∀ text ∈ (type?.map TypeExpr.docs).getD [], f text = text) →
        type?.map (TypeExpr.mapDocs f) = type? := by
    intro type? ht
    cases type? with
    | none => rfl
    | some type => rw [Option.map_some, TypeExpr.mapDocs_eq_self ht]
  rw [TypeParam.mapDocs, same h.1, same h.2]

theorem Body.mapDocs_eq_self {body : Body} (h : ∀ text ∈ body.docs, f text = text) :
    body.mapDocs f = body := by
  cases body with
  | «interface» bases members =>
      simp only [Body.docs, List.forall_mem_append] at h
      rw [Body.mapDocs, map_eq_self_of_docs (fun _ _ => TypeExpr.mapDocs_eq_self) h.1,
        map_eq_self_of_docs (fun _ _ => Member.mapDocs_eq_self) h.2]
  | «alias» type => rw [Body.mapDocs, TypeExpr.mapDocs_eq_self h]

/-- A replacement that leaves every comment as it is leaves the declaration as it is. -/
theorem Declaration.mapDocs_eq_self {declaration : Declaration}
    (h : ∀ text ∈ declaration.docs, f text = text) : declaration.mapDocs f = declaration := by
  obtain ⟨name, doc, params, body, isExported⟩ := declaration
  simp only [Declaration.docs, List.forall_mem_append] at h
  obtain ⟨⟨hdoc, hparams⟩, hbody⟩ := h
  rw [Declaration.mapDocs, mapDoc_eq_self hdoc,
    map_eq_self_of_docs (fun _ _ => TypeParam.mapDocs_eq_self) hparams,
    Body.mapDocs_eq_self hbody]

end Unchanged

/-! ### The texts after a replacement, and replacements one after the other -/

section Replaced

variable {f g : String → String}

theorem flatMap_docs_map {α : Type} {docs : α → List String} {r : α → α} {xs : List α}
    (each : ∀ x ∈ xs, docs (r x) = (docs x).map f) :
    (xs.map r).flatMap docs = (xs.flatMap docs).map f := by
  rw [List.flatMap_map, List.map_flatMap, List.flatMap_def, List.flatMap_def,
    List.map_congr_left each]

theorem map_map_of_each {α : Type} {r r' whole : α → α} {xs : List α}
    (each : ∀ x ∈ xs, r' (r x) = whole x) : (xs.map r).map r' = xs.map whole := by
  rw [List.map_map]
  exact List.map_congr_left each

theorem toList_map_doc (doc : Option String) : (doc.map f).toList = doc.toList.map f := by
  cases doc <;> rfl

theorem Member.docs_mapDocs_of_types {m : Member}
    (types : ∀ t ∈ m.types, (t.mapDocs f).docs = t.docs.map f) :
    (m.mapDocs f).docs = m.docs.map f := by
  cases m with
  | property name type isOptional isReadonly doc =>
      simp only [Member.mapDocs, Member.docs, types type (by simp [Member.types]), toList_map_doc,
        List.map_append]
  | index key keyType value isReadonly doc =>
      simp only [Member.mapDocs, Member.docs, types keyType (by simp [Member.types]),
        types value (by simp [Member.types]), toList_map_doc, List.map_append]

theorem TypeExpr.docs_mapDocs (t : TypeExpr) : (t.mapDocs f).docs = t.docs.map f := by
  induction t using TypeExpr.induct with
  | keyword word => rfl
  | string text => rfl
  | number spelling => rfl
  | boolean value => rfl
  | reference name args ih =>
      simp only [TypeExpr.mapDocs, TypeExpr.docs, TypeExpr.mapDocsAll_eq_map,
        TypeExpr.docsAll_eq_flatMap, flatMap_docs_map ih]
  | tuple items ih _ =>
      simp only [TypeExpr.mapDocs, TypeExpr.docs, TypeExpr.mapDocsAll_eq_map,
        TypeExpr.docsAll_eq_flatMap, flatMap_docs_map ih]
  | union alternatives ih =>
      simp only [TypeExpr.mapDocs, TypeExpr.docs, TypeExpr.mapDocsAll_eq_map,
        TypeExpr.docsAll_eq_flatMap, flatMap_docs_map ih]
  | intersection parts ih =>
      simp only [TypeExpr.mapDocs, TypeExpr.docs, TypeExpr.mapDocsAll_eq_map,
        TypeExpr.docsAll_eq_flatMap, flatMap_docs_map ih]
  | object members ih =>
      have each : ∀ m ∈ members, (m.mapDocs f).docs = m.docs.map f :=
        fun m hm => Member.docs_mapDocs_of_types (ih m hm)
      simp only [TypeExpr.mapDocs, TypeExpr.docs, Member.mapDocsAll_eq_map,
        Member.docsAll_eq_flatMap, flatMap_docs_map each]
  | array element ih => rw [TypeExpr.mapDocs, TypeExpr.docs, ih, TypeExpr.docs]
  | rest element ih => rw [TypeExpr.mapDocs, TypeExpr.docs, ih, TypeExpr.docs]
  | keyOf operand ih => rw [TypeExpr.mapDocs, TypeExpr.docs, ih, TypeExpr.docs]
  | conditional check bound whenTrue whenFalse ihc ihb iht ihf =>
      simp only [TypeExpr.mapDocs, TypeExpr.docs, ihc, ihb, iht, ihf, List.map_append]
  | access object index iho ihi =>
      simp only [TypeExpr.mapDocs, TypeExpr.docs, iho, ihi, List.map_append]

theorem Member.docs_mapDocs (m : Member) : (m.mapDocs f).docs = m.docs.map f :=
  docs_mapDocs_of_types fun t _ => t.docs_mapDocs

theorem TypeParam.docs_mapDocs (param : TypeParam) :
    (param.mapDocs f).docs = param.docs.map f := by
  have each : ∀ type? : Option TypeExpr,
      ((type?.map (TypeExpr.mapDocs f)).map TypeExpr.docs).getD [] =
        ((type?.map TypeExpr.docs).getD []).map f := by
    intro type?
    cases type? with
    | none => rfl
    | some type => exact type.docs_mapDocs
  simp only [TypeParam.docs, TypeParam.mapDocs, each, List.map_append]

theorem Body.docs_mapDocs (body : Body) : (body.mapDocs f).docs = body.docs.map f := by
  cases body with
  | «interface» bases members =>
      simp only [Body.mapDocs, Body.docs, List.map_append,
        flatMap_docs_map fun t (_ : t ∈ bases) => t.docs_mapDocs,
        flatMap_docs_map fun m (_ : m ∈ members) => m.docs_mapDocs]
  | «alias» type => exact type.docs_mapDocs

/-- A replacement replaces the texts one by one, in order. -/
theorem Declaration.docs_mapDocs (declaration : Declaration) :
    (declaration.mapDocs f).docs = declaration.docs.map f := by
  simp only [Declaration.docs, Declaration.mapDocs, toList_map_doc, Body.docs_mapDocs,
    flatMap_docs_map fun param (_ : param ∈ declaration.params) => param.docs_mapDocs,
    List.map_append]

theorem Member.mapDocs_mapDocs_of_types {m : Member}
    (types : ∀ t ∈ m.types, (t.mapDocs f).mapDocs g = t.mapDocs (g ∘ f)) :
    (m.mapDocs f).mapDocs g = m.mapDocs (g ∘ f) := by
  cases m with
  | property name type isOptional isReadonly doc =>
      simp only [Member.mapDocs, types type (by simp [Member.types]), Option.map_map]
  | index key keyType value isReadonly doc =>
      simp only [Member.mapDocs, types keyType (by simp [Member.types]),
        types value (by simp [Member.types]), Option.map_map]

theorem TypeExpr.mapDocs_mapDocs (t : TypeExpr) :
    (t.mapDocs f).mapDocs g = t.mapDocs (g ∘ f) := by
  induction t using TypeExpr.induct with
  | keyword word => rfl
  | string text => rfl
  | number spelling => rfl
  | boolean value => rfl
  | reference name args ih =>
      simp only [TypeExpr.mapDocs, TypeExpr.mapDocsAll_eq_map, map_map_of_each ih]
  | tuple items ih _ =>
      simp only [TypeExpr.mapDocs, TypeExpr.mapDocsAll_eq_map, map_map_of_each ih]
  | union alternatives ih =>
      simp only [TypeExpr.mapDocs, TypeExpr.mapDocsAll_eq_map, map_map_of_each ih]
  | intersection parts ih =>
      simp only [TypeExpr.mapDocs, TypeExpr.mapDocsAll_eq_map, map_map_of_each ih]
  | object members ih =>
      have each : ∀ m ∈ members, (m.mapDocs f).mapDocs g = m.mapDocs (g ∘ f) :=
        fun m hm => Member.mapDocs_mapDocs_of_types (ih m hm)
      simp only [TypeExpr.mapDocs, Member.mapDocsAll_eq_map, map_map_of_each each]
  | array element ih => rw [TypeExpr.mapDocs, TypeExpr.mapDocs, ih, TypeExpr.mapDocs]
  | rest element ih => rw [TypeExpr.mapDocs, TypeExpr.mapDocs, ih, TypeExpr.mapDocs]
  | keyOf operand ih => rw [TypeExpr.mapDocs, TypeExpr.mapDocs, ih, TypeExpr.mapDocs]
  | conditional check bound whenTrue whenFalse ihc ihb iht ihf =>
      simp only [TypeExpr.mapDocs, ihc, ihb, iht, ihf]
  | access object index iho ihi => simp only [TypeExpr.mapDocs, iho, ihi]

theorem Member.mapDocs_mapDocs (m : Member) : (m.mapDocs f).mapDocs g = m.mapDocs (g ∘ f) :=
  mapDocs_mapDocs_of_types fun t _ => t.mapDocs_mapDocs

theorem TypeParam.mapDocs_mapDocs (param : TypeParam) :
    (param.mapDocs f).mapDocs g = param.mapDocs (g ∘ f) := by
  have each : TypeExpr.mapDocs g ∘ TypeExpr.mapDocs f = TypeExpr.mapDocs (g ∘ f) :=
    funext fun t => t.mapDocs_mapDocs
  simp only [TypeParam.mapDocs, Option.map_map, each]

theorem Body.mapDocs_mapDocs (body : Body) :
    (body.mapDocs f).mapDocs g = body.mapDocs (g ∘ f) := by
  cases body with
  | «interface» bases members =>
      simp only [Body.mapDocs,
        map_map_of_each fun t (_ : t ∈ bases) => t.mapDocs_mapDocs (f := f) (g := g),
        map_map_of_each fun m (_ : m ∈ members) => m.mapDocs_mapDocs (f := f) (g := g)]
  | «alias» type => rw [Body.mapDocs, Body.mapDocs, type.mapDocs_mapDocs, Body.mapDocs]

/-- Of two replacements one after the other, a text sees both. -/
theorem Declaration.mapDocs_mapDocs (declaration : Declaration) :
    (declaration.mapDocs f).mapDocs g = declaration.mapDocs (g ∘ f) := by
  simp only [Declaration.mapDocs, Option.map_map, Body.mapDocs_mapDocs,
    map_map_of_each fun param (_ : param ∈ declaration.params) =>
      param.mapDocs_mapDocs (f := f) (g := g)]

end Replaced

/-! ## Lists of types and members -/

theorem TypeExpr.charsAll_eq_map (level wanted : Nat) (types : List TypeExpr) :
    TypeExpr.charsAll level wanted types =
      types.map fun type => type.parenthesize wanted (type.chars level) := by
  induction types with
  | nil => rfl
  | cons type rest ih => rw [TypeExpr.charsAll, ih, List.map_cons]

end HyperSchema
