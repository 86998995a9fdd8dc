import HyperSchema.Proofs.Json.Replacement
import HyperSchema.Proofs.Schema.Agreement

/-!
# Changes — what a walk through a schema replaces

A walk hands every object of a schema to a function and rebuilds the unions and arrays around what
the function makes of it.  This file defines:

* `Schema.Change`, an object, the way to it and what takes its place, and `Schema.replaceAll`, a
  schema with some changes made;
* `Schema.Changed`, changes that lead to the objects they replace and do not meet, with the laws for
  what stands below a name and for changes one after the other;
* `Schema.Performs`, an analysis that calls a function at the objects of some changes, with the laws
  for one step after another;
* `Schema.mapObjects_performs`: a walk performs the changes that it makes;
* `Schema.mapObjects_changes`, all of this together.

Pointers are compared segment by segment: `/anyOf/1` is the beginning of `/anyOf/1/items` and not of
`/anyOf/10`.
-/

namespace HyperSchema.Schema

open Json (Apart IsPlain Pointer.ofSegments)

/-! ## Changes -/

/-- An object of a schema: the names on the way to it, its members, and those that take their
place. -/
structure Change where
  segments : List String
  members : List (String × Json)
  made : List (String × Json)

namespace Change

/-- The pointer to the object. -/
def pointer (change : Change) : String :=
  Pointer.ofSegments change.segments

/-- The call at the object, in a walk that starts at an address. -/
def call (path : String) (change : Change) : Call :=
  (change.members, path ++ change.pointer)

/-- The change as seen from the value that holds the schema under a name. -/
def under (name : String) (change : Change) : Change :=
  { change with segments := name :: change.segments }

theorem call_under (path name : String) (change : Change) :
    (change.under name).call path = change.call (path ++ "/" ++ name) := by
  simp only [call, pointer, under, Pointer.ofSegments, String.append_assoc]

end Change

/-- The schema with all changes made, one after the other. -/
def replaceAll (schema : Json) (changes : List Change) : Option Json :=
  changes.foldlM (fun value change => value.replaceAt? change.segments (.object change.made)) schema

/-- A schema that comes from another by changes: each leads to the object that it replaces, and none
leads through another. -/
structure Changed (schema : Json) (changes : List Change) (out : Json) : Prop where
  plain : ∀ change ∈ changes, ∀ name ∈ change.segments, IsPlain name
  stands : ∀ change ∈ changes, schema.at? change.segments = some (.object change.members)
  apart : changes.Pairwise fun first second => Apart first.segments second.segments
  replaced : replaceAll schema changes = some out

variable {schema out between child child' : Json} {changes others : List Change} {change : Change}
  {name : String}

/-! ## What changes and what stays -/

theorem replaceAll_cons (schema : Json) (change : Change) (changes : List Change) :
    replaceAll schema (change :: changes) =
      (schema.replaceAt? change.segments (.object change.made)).bind fun between =>
        replaceAll between changes :=
  List.foldlM_cons

theorem replaceAll_append (schema : Json) (changes others : List Change) :
    replaceAll schema (changes ++ others) =
      (replaceAll schema changes).bind fun between => replaceAll between others :=
  List.foldlM_append

/-- Apart from all changes, everything stays. -/
theorem at?_replaceAll_of_apart (replaced : replaceAll schema changes = some out)
    {segments : List String} (apart : ∀ change ∈ changes, Apart change.segments segments) :
    out.at? segments = schema.at? segments := by
  induction changes generalizing schema with
  | nil => exact congrArg (Json.at? · segments) (Option.some.inj replaced).symm
  | cons change rest ih =>
      rcases List.forall_mem_cons.1 apart with ⟨first, others⟩
      rw [replaceAll_cons] at replaced
      rcases Option.bind_eq_some_iff.1 replaced with ⟨between, put, replaced⟩
      calc
        out.at? segments = between.at? segments := ih replaced others
        _ = schema.at? segments := Json.at?_replaceAt?_of_apart put first

/-- Except at the changes and below them, the order of names and the number of items stay, and so
does every value that has none. -/
theorem outline_at?_replaceAll (replaced : replaceAll schema changes = some out)
    {segments : List String} (outside : ∀ change ∈ changes, ¬ change.segments <+: segments) :
    (out.at? segments).map Json.outline = (schema.at? segments).map Json.outline := by
  induction changes generalizing schema with
  | nil =>
      cases replaced
      rfl
  | cons change rest ih =>
      rcases List.forall_mem_cons.1 outside with ⟨first, others⟩
      rw [replaceAll_cons] at replaced
      rcases Option.bind_eq_some_iff.1 replaced with ⟨between, put, replaced⟩
      calc
        (out.at? segments).map Json.outline = (between.at? segments).map Json.outline :=
          ih replaced others
        _ = (schema.at? segments).map Json.outline := Json.outline_at?_replaceAt? put first

/-- What a change made stands where the change leads, as no other change comes there. -/
theorem at?_replaceAll_of_mem (replaced : replaceAll schema changes = some out)
    (apart : changes.Pairwise fun first second => Apart first.segments second.segments)
    (mem : change ∈ changes) : out.at? change.segments = some (.object change.made) := by
  induction changes generalizing schema with
  | nil => cases mem
  | cons first rest ih =>
      rcases List.pairwise_cons.1 apart with ⟨fromFirst, apart⟩
      rw [replaceAll_cons] at replaced
      rcases Option.bind_eq_some_iff.1 replaced with ⟨between, put, onward⟩
      rcases List.mem_cons.1 mem with rfl | mem
      · have later : ∀ other ∈ rest, Apart other.segments change.segments :=
          fun other mem => (fromFirst other mem).symm
        calc
          out.at? change.segments = between.at? change.segments :=
            at?_replaceAll_of_apart onward later
          _ = some (.object change.made) := Json.at?_replaceAt? put
      · exact ih onward apart mem

/-- Changes that put back what they found change nothing. -/
theorem replaceAll_of_made_eq
    (stands : ∀ change ∈ changes, schema.at? change.segments = some (.object change.members))
    (same : ∀ change ∈ changes, change.made = change.members) :
    replaceAll schema changes = some schema := by
  induction changes with
  | nil => rfl
  | cons change rest ih =>
      rcases List.forall_mem_cons.1 stands with ⟨first, stands⟩
      rcases List.forall_mem_cons.1 same with ⟨isSame, same⟩
      rw [replaceAll_cons, isSame, Json.replaceAt?_of_at? first]
      exact ih stands same

/-- Below a name, what becomes of the value under the name is put there: it is put there after every
change, and the last one stays. -/
theorem replaceAll_under (found : schema.child? name = some child)
    (replaced : replaceAll child changes = some child') :
    replaceAll schema (changes.map (Change.under name)) = schema.replaceAt? [name] child' := by
  induction changes generalizing schema child with
  | nil =>
      cases replaced
      exact (Json.replaceAt?_singleton_of_child? found).symm
  | cons change rest ih =>
      rw [replaceAll_cons] at replaced
      rcases Option.bind_eq_some_iff.1 replaced with ⟨inner, put, replaced⟩
      rcases Json.exists_replaceAt?_singleton found inner with ⟨between, isBetween⟩
      have step : schema.replaceAt? (change.under name).segments (.object change.made) =
          some between := by
        rw [Change.under, Json.replaceAt?_cons found, put]
        exact isBetween
      calc
        replaceAll schema ((change :: rest).map (Change.under name))
            = replaceAll between (rest.map (Change.under name)) := by
              rw [List.map_cons, replaceAll_cons]
              exact congrArg (Option.bind · _) step
        _ = between.replaceAt? [name] child' :=
              ih (Json.of_replaceAt?_singleton isBetween).1 replaced
        _ = schema.replaceAt? [name] child' :=
              Json.replaceAt?_replaceAt?_singleton isBetween child'

/-! ## Laws of changes -/

namespace Changed

theorem none (schema : Json) : Changed schema [] schema :=
  ⟨nofun, nofun, .nil, rfl⟩

theorem here (members made : List (String × Json)) :
    Changed (.object members) [⟨[], members, made⟩] (.object made) where
  plain change mem := by
    cases List.mem_singleton.1 mem
    exact nofun
  stands change mem := by
    cases List.mem_singleton.1 mem
    rfl
  apart := List.pairwise_singleton _ _
  replaced := rfl

/-- Changes below a name change the value under the name. -/
theorem under (found : schema.child? name = some child) (plain : IsPlain name)
    (below : Changed child changes child') (put : schema.replaceAt? [name] child' = some out) :
    Changed schema (changes.map (Change.under name)) out where
  plain change mem := by
    rcases List.mem_map.1 mem with ⟨inner, inside, rfl⟩
    exact List.forall_mem_cons.2 ⟨plain, below.plain inner inside⟩
  stands change mem := by
    rcases List.mem_map.1 mem with ⟨inner, inside, rfl⟩
    show (schema.child? name).bind _ = _
    rw [found]
    exact below.stands inner inside
  apart := List.pairwise_map.2 (below.apart.imp Json.apart_cons_iff.2)
  replaced := by
    rw [replaceAll_under found below.replaced, put]

/-- Changes after others, none of which leads through one of the others. -/
theorem append (first : Changed schema changes between) (second : Changed between others out)
    (separate : ∀ change ∈ changes, ∀ other ∈ others, Apart change.segments other.segments) :
    Changed schema (changes ++ others) out where
  plain change mem := (List.mem_append.1 mem).elim (first.plain change) (second.plain change)
  stands change mem := by
    rcases List.mem_append.1 mem with mem | mem
    · exact first.stands change mem
    · have untouched : between.at? change.segments = schema.at? change.segments :=
        at?_replaceAll_of_apart first.replaced fun other inside => separate other inside change mem
      exact untouched.symm.trans (second.stands change mem)
  apart := List.pairwise_append.2 ⟨first.apart, second.apart, separate⟩
  replaced := by
    rw [replaceAll_append, first.replaced]
    exact second.replaced

/-- Changes below a member. -/
theorem member {members : Entries Json} (found : members.get? name = some child)
    (plain : IsPlain name) (below : Changed child changes child') :
    Changed (.object members) (changes.map (Change.under name))
      (.object (members.insert name child')) :=
  under found plain below (Json.replaceAt?_member found child')

end Changed

/-- Changes in the items of an array from position `i` on, whatever stands in front of them. -/
structure ChangedItems (i : Nat) (items : List Json) (changes : List Change) (out : List Json) :
    Prop where
  changed : ∀ front : List Json, front.length = i →
    Changed (.array (front ++ items)) changes (.array (front ++ out))
  later : ∀ change ∈ changes, ∃ j rest, i ≤ j ∧ change.segments = toString j :: rest

namespace ChangedItems

theorem nil (i : Nat) : ChangedItems i [] [] [] where
  changed _ _ := .none _
  later := nofun

/-- The changes in the first item do not lead through later items. -/
theorem cons {i : Nat} {item item' : Json} {items items' : List Json}
    (first : Changed item changes item') (rest : ChangedItems (i + 1) items others items') :
    ChangedItems i (item :: items) (changes.map (Change.under (toString i)) ++ others)
      (item' :: items') where
  changed front isLength := by
    subst isLength
    have stands : (front ++ item :: items)[front.length]? = some item := by simp
    have head : Changed (.array (front ++ item :: items))
        (changes.map (Change.under (toString front.length))) (.array (front ++ item' :: items)) :=
      .under (Json.child?_toString stands) (Json.isPlain_toString _) first
        (Json.replaceAt?_item front item items item')
    have tail : Changed (.array (front ++ item' :: items)) others
        (.array (front ++ item' :: items')) := by
      simpa using rest.changed (front ++ [item']) (by simp)
    -- The later changes start with another index.
    refine head.append tail fun change mem other inside => ?_
    rcases List.mem_map.1 mem with ⟨inner, -, rfl⟩
    rcases rest.later other inside with ⟨j, back, behind, isOther⟩
    have different : toString front.length ≠ toString j := by
      intro same
      have : front.length = j := by
        have read := Json.Pointer.index?_toString front.length
        rw [same, Json.Pointer.index?_toString] at read
        exact (Option.some.inj read).symm
      omega
    rw [isOther]
    exact Json.apart_of_head_ne different _ _
  later change mem := by
    rcases List.mem_append.1 mem with mem | mem
    · rcases List.mem_map.1 mem with ⟨inner, -, rfl⟩
      exact ⟨i, inner.segments, Nat.le_refl i, rfl⟩
    · rcases rest.later change mem with ⟨j, back, behind, isChange⟩
      exact ⟨j, back, by omega, isChange⟩

/-- Changes in all items of an array. -/
theorem array {items items' : List Json} (all : ChangedItems 0 items changes items') :
    Changed (.array items) changes (.array items') :=
  all.changed [] rfl

end ChangedItems

/-! ## Analyses that perform changes -/

section Performing

variable {σ α β : Type} {f : List (String × Json) → String → Stateful σ (List (String × Json))}
  {path : String}

/-- An analysis, beside the one without notes, makes changes: if it succeeds, it has called a
function at the objects of some changes, in order and at addresses behind a given one, and the
results of the calls are what the changes made. -/
def Performs (f : List (String × Json) → String → Stateful σ (List (String × Json))) (path : String)
    (x : Stateful (σ × List Call) α) (x₀ : Stateful σ α) (P : List Change → α → Prop) : Prop :=
  ∀ s s' a, x₀.outcome s = (.ok a, s') → ∃ changes, P changes a ∧
    (∀ before, x.outcome (s, before) = (.ok a, s', before ++ changes.map (Change.call path))) ∧
    ((changes.map (Change.call path)).mapM fun call => f call.1 call.2).outcome s =
      (.ok (changes.map Change.made), s')

namespace Performs

theorem pure {P : List Change → α → Prop} {a : α} (made : P [] a) :
    Performs f path (Pure.pure a) (Pure.pure a) P := by
  intro s s' b ran
  cases ran
  exact ⟨[], made, fun before => by simp, rfl⟩

theorem throw {P : List Change → α → Prop} (e : SchemaError) :
    Performs f path (MonadExcept.throw e) (MonadExcept.throw e) P := by
  intro s s' a ran
  cases ran

/-- A call at an object changes the object. -/
theorem call {P : List Change → List (String × Json) → Prop} {members : List (String × Json)}
    (made : ∀ made, P [⟨[], members, made⟩] made) :
    Performs f path (noting f members path) (f members path) P := by
  intro s s' out ran
  have address : path ++ Pointer.ofSegments [] = path := String.append_empty
  refine ⟨[⟨[], members, out⟩], made out, fun before => ?_, ?_⟩
  · rw [outcome_noting, ran, List.map_singleton, Change.call, Change.pointer, address]
  · rw [List.map_singleton, Change.call, Change.pointer, address, List.mapM_cons,
      Stateful.outcome_bind_ok ran]
    rfl

/-- One step after another makes the changes of the first one and of the second one. -/
theorem bind {x : Stateful (σ × List Call) α} {x₀ : Stateful σ α}
    {next : α → Stateful (σ × List Call) β} {next₀ : α → Stateful σ β}
    {P : List Change → α → Prop} {Q : List Change → β → Prop} (first : Performs f path x x₀ P)
    (rest : ∀ changes a, P changes a →
      Performs f path (next a) (next₀ a) fun others b => Q (changes ++ others) b) :
    Performs f path (x >>= next) (x₀ >>= next₀) Q := by
  intro s s'' b ran
  rcases Stateful.ok_of_bind ran with ⟨a, s', ran, ranNext⟩
  rcases first s s' a ran with ⟨changes, made, noted, results⟩
  rcases rest changes a made s' s'' b ranNext with ⟨others, madeThen, notedThen, resultsThen⟩
  refine ⟨changes ++ others, madeThen, fun before => ?_, ?_⟩
  · rw [Stateful.outcome_bind_ok (noted before), notedThen, List.map_append, List.append_assoc]
  · rw [List.map_append, List.mapM_append, Stateful.outcome_bind_ok results,
      Stateful.outcome_bind_ok resultsThen, List.map_append]
    rfl

theorem mono {x : Stateful (σ × List Call) α} {x₀ : Stateful σ α} {P Q : List Change → α → Prop}
    (performs : Performs f path x x₀ P) (weaker : ∀ changes a, P changes a → Q changes a) :
    Performs f path x x₀ Q := by
  intro s s' a ran
  rcases performs s s' a ran with ⟨changes, made, noted, results⟩
  exact ⟨changes, weaker changes a made, noted, results⟩

/-- What is performed below a name is performed, with the name in front of all pointers. -/
theorem under {x : Stateful (σ × List Call) α} {x₀ : Stateful σ α} {P Q : List Change → α → Prop}
    {path' name : String} (isBelow : path' = path ++ "/" ++ name) (below : Performs f path' x x₀ P)
    (made : ∀ changes a, P changes a → Q (changes.map (Change.under name)) a) :
    Performs f path x x₀ Q := by
  subst isBelow
  intro s s' a ran
  rcases below s s' a ran with ⟨changes, isMade, noted, results⟩
  have calls : (changes.map (Change.under name)).map (Change.call path) =
      changes.map (Change.call (path ++ "/" ++ name)) := by
    rw [List.map_map]
    exact List.map_congr_left fun change _ => Change.call_under path name change
  have sameMade : (changes.map (Change.under name)).map Change.made = changes.map Change.made :=
    List.map_map
  refine ⟨changes.map (Change.under name), made changes a isMade, fun before => ?_, ?_⟩
  · rw [calls, noted]
  · rw [calls, sameMade, results]

/-- Rebuilding an object around a member makes the changes in the member. -/
theorem member {x : Stateful (σ × List Call) α} {x₀ : Stateful σ α} {path' name : String}
    {members : Entries Json} {child : Json} {toJson : α → Json}
    (isBelow : path' = path ++ "/" ++ name) (found : members.get? name = some child)
    (plain : IsPlain name)
    (below : Performs f path' x x₀ fun changes a => Changed child changes (toJson a)) :
    Performs f path (x >>= fun a => Pure.pure (.object (Entries.insert members name (toJson a))))
      (x₀ >>= fun a => Pure.pure (.object (Entries.insert members name (toJson a))))
      (Changed (.object members)) := by
  have first : Performs f path x x₀ fun changes a =>
      Changed (.object members) changes (.object (Entries.insert members name (toJson a))) :=
    below.under isBelow fun changes a changed => changed.member found plain
  refine first.bind fun changes a changed => .pure ?_
  rwa [List.append_nil]

/-- An item and those behind it are changed one after the other. -/
theorem items {x : Stateful (σ × List Call) Json} {x₀ : Stateful σ Json}
    {y : Stateful (σ × List Call) (List Json)} {y₀ : Stateful σ (List Json)} {path' : String}
    {i : Nat} {item : Json} {others : List Json} (isBelow : path' = path ++ "/" ++ toString i)
    (first : Performs f path' x x₀ (Changed item))
    (rest : Performs f path y y₀ (ChangedItems (i + 1) others)) :
    Performs f path (x >>= fun item => y >>= fun others => Pure.pure (item :: others))
      (x₀ >>= fun item => y₀ >>= fun others => Pure.pure (item :: others))
      (ChangedItems i (item :: others)) := by
  have head : Performs f path x x₀ fun changes item' =>
      ∀ later others', ChangedItems (i + 1) others later others' →
        ChangedItems i (item :: others) (changes ++ later) (item' :: others') :=
    first.under isBelow fun changes item' changed later others' => .cons changed
  refine head.bind fun changes item' changed => rest.bind fun later others' changedThen => .pure ?_
  rw [List.append_nil]
  exact changed later others' changedThen

end Performs

/-! ## A walk performs its changes -/

theorem itemsPath_eq (path : String) : itemsPath path = path ++ "/" ++ "items" := by
  have word : "/items" = "/" ++ "items" := by decide
  rw [itemsPath, word, String.append_assoc]

theorem tuplePath_eq (path : String) (i : Nat) :
    tuplePath path i = itemsPath path ++ "/" ++ toString i := by
  have word : "/items/" = "/items" ++ "/" := by decide
  rw [tuplePath, word, itemsPath]
  simp only [String.append_assoc]

theorem branchPath_eq (path : String) (i : Nat) :
    branchPath path i = path ++ "/" ++ "anyOf" ++ "/" ++ toString i := by
  have word : "/anyOf/" = "/" ++ "anyOf" ++ "/" := by decide
  rw [branchPath, word]
  simp only [String.append_assoc]

/-- A walk changes the objects that it calls its function at, and nothing else. -/
theorem mapObjects_performs (f : List (String × Json) → String → Stateful σ (List (String × Json)))
    (schema : Json) (path : String) :
    Performs f path (mapObjects (noting f) schema path) (mapObjects f schema path)
      (Changed schema) := by
  -- The branches of a union are changed below `anyOf`, the schemas of a tuple below `items`.
  refine visits.induct
    (fun schema path => Performs f path (mapObjects (noting f) schema path)
      (mapObjects f schema path) (Changed schema))
    (fun schemas path i => Performs f (itemsPath path) (mapTuple (noting f) schemas path i)
      (mapTuple f schemas path i) (ChangedItems i schemas))
    (fun branches path i => Performs f (path ++ "/" ++ "anyOf")
      (mapBranches (noting f) branches path i) (mapBranches f branches path i)
      (ChangedItems i branches))
    ?reference ?object ?union ?items ?tuple ?missing ?leaf ?noPlace ?place ?noBranch ?branch
    schema path
  case reference =>
      intro schema path target shape
      rw [mapObjects_eq, mapObjects_eq, shape]
      exact .pure (.none schema)
  case object =>
      intro schema path members shape
      rcases eq_object_of_node_object shape
      rw [mapObjects_eq, mapObjects_eq, shape]
      have first : Performs f path (noting f members path) (f members path)
          fun changes made => changes = [⟨[], members, made⟩] :=
        .call fun made => rfl
      refine first.bind fun changes made isCall => .pure ?_
      rw [isCall]
      exact .here members made
  case union =>
      intro schema path members branches shape ih
      rcases eq_object_of_node_union shape with ⟨rfl, found⟩
      rw [mapObjects_eq, mapObjects_eq, shape]
      exact .member rfl found (by decide) (ih.mono fun changes out changed => changed.array)
  case items =>
      intro schema path members item shape ih
      rcases eq_object_of_node_single shape with ⟨rfl, found⟩
      rw [mapObjects_eq, mapObjects_eq, shape]
      exact Performs.member (itemsPath_eq path) found (by decide) ih
  case tuple =>
      intro schema path members schemas shape ih
      rcases eq_object_of_node_tuple shape with ⟨rfl, found⟩
      rw [mapObjects_eq, mapObjects_eq, shape]
      exact .member (itemsPath_eq path) found (by decide)
        (ih.mono fun changes out changed => changed.array)
  case missing =>
      intro schema path members shape
      rw [mapObjects_eq, mapObjects_eq, shape]
      exact .pure (.none schema)
  case leaf =>
      intro schema path shape
      rw [mapObjects_eq, mapObjects_eq, shape]
      exact .throw _
  case noPlace =>
      intro path i
      rw [mapTuple, mapTuple]
      exact .pure (.nil i)
  case place =>
      intro path i schema rest ih ihRest
      rw [mapTuple, mapTuple]
      exact ih.items (tuplePath_eq path i) ihRest
  case noBranch =>
      intro path i
      rw [mapBranches, mapBranches]
      exact .pure (.nil i)
  case branch =>
      intro path i branch rest ih ihRest
      rw [mapBranches, mapBranches]
      -- A branch that admits nothing but `null` is left as it is.
      split
      · exact Performs.items (branchPath_eq path i) (.pure (.none branch)) ihRest
      · exact ih.items (branchPath_eq path i) ihRest

/-- A function that gives back what it is called with makes no change. -/
theorem results_eq_of_identity
    (same : ∀ members path s, ((f members path).outcome s).1 = .ok members)
    {calls : List Call} {s s' : σ} {results : List (List (String × Json))}
    (ran : (calls.mapM fun call => f call.1 call.2).outcome s = (.ok results, s')) :
    results = calls.map Prod.fst := by
  induction calls generalizing s results with
  | nil =>
      cases ran
      rfl
  | cons call rest ih =>
      rw [List.mapM_cons] at ran
      rcases Stateful.ok_of_bind ran with ⟨made, s₁, called, ran⟩
      rcases Stateful.ok_of_bind ran with ⟨others, s₂, calledThen, ran⟩
      cases ran
      have isSame := same call.1 call.2 s
      rw [called] at isSame
      cases isSame
      rw [ih calledThen, List.map_cons]

/-- A walk that succeeds has called its function at some objects.  The addresses of the calls are
that of the schema with pointers to the objects behind it; the pointers are distinct, and none is
the beginning of another one.  The walk returns the schema with the result of each call at its
pointer; apart from the pointers all values stay, and above them the names, their order and the
number of items.  If the function gives back what it is called with, the schema stays. -/
theorem mapObjects_changes {schema out : Json} {s s' : σ}
    (walked : (mapObjects f schema path).outcome s = (.ok out, s')) :
    ∃ changes : List Change,
      (mapObjects (noting f) schema path).outcome (s, []) =
        (.ok out, s', changes.map fun change => (change.members, path ++ change.pointer)) ∧
      (changes.mapM fun change => f change.members (path ++ change.pointer)).outcome s =
        (.ok (changes.map Change.made), s') ∧
      (∀ change ∈ changes,
        Json.Pointer.segments? change.pointer.toList = some change.segments ∧
        schema.pointer? change.pointer = some (.object change.members) ∧
        out.pointer? change.pointer = some (.object change.made)) ∧
      (changes.map Change.pointer).Nodup ∧
      (changes.Pairwise fun first second => Apart first.segments second.segments) ∧
      replaceAll schema changes = some out ∧
      (∀ segments, (∀ change ∈ changes, Apart change.segments segments) →
        out.at? segments = schema.at? segments) ∧
      (∀ segments, (∀ change ∈ changes, ¬ change.segments <+: segments) →
        (out.at? segments).map Json.outline = (schema.at? segments).map Json.outline) ∧
      ((∀ members path s, ((f members path).outcome s).1 = .ok members) → out = schema) := by
  rcases mapObjects_performs f schema path s s' out walked with ⟨changes, changed, noted, results⟩
  have read (change : Change) (mem : change ∈ changes) :
      Json.Pointer.segments? change.pointer.toList = some change.segments :=
    Json.Pointer.segments?_ofSegments (changed.plain change mem)
  have standsAt (value : Json) (change : Change) (mem : change ∈ changes) :
      value.pointer? change.pointer = value.at? change.segments := by
    rw [Json.pointer?, read change mem]
    rfl
  refine ⟨changes, ?_, ?_, fun change mem => ⟨read change mem, ?_, ?_⟩, ?_, changed.apart,
    changed.replaced, fun segments => at?_replaceAll_of_apart changed.replaced,
    fun segments => outline_at?_replaceAll changed.replaced, fun same => ?_⟩
  · exact noted []
  · rwa [List.mapM_map] at results
  · rw [standsAt schema change mem]
    exact changed.stands change mem
  · rw [standsAt out change mem]
    exact at?_replaceAll_of_mem changed.replaced changed.apart mem
  · refine List.pairwise_map.2 (changed.apart.imp_of_mem ?_)
    intro first second mem mem' apart samePointer
    have sameSegments : some first.segments = some second.segments := by
      rw [← read first mem, samePointer, read second mem']
    exact apart.1 (Option.some.inj sameSegments ▸ List.prefix_refl _)
  · have made := results_eq_of_identity same results
    rw [List.map_map] at made
    have unchanged := replaceAll_of_made_eq changed.stands (List.map_inj_left.1 made)
    exact Option.some.inj (changed.replaced.symm.trans unchanged)

end Performing

/-! ## Numbered objects -/

/-- Objects get a member with their number. -/
def withNumber (members : List (String × Json)) (_ : String) :
    Stateful Nat (List (String × Json)) := do
  modify (· + 1)
  return Entries.insert members "number" (.number (.integer (← get)))

/-- Beside `null`, two objects and a reference in a tuple, and another object. -/
def tupleOrObject : Json :=
  .object [
    ("anyOf", .array [
      .object [("type", .string "null")],
      .object [("items", .array [.object [("properties", .object [])],
        .object [("$ref", .string "#")], .object [("type", .string "object")]])],
      .object [("properties", .object [])]]),
    ("title", .string "pair")]

/-- The objects in order, each with its number behind what it had. -/
def tupleOrObjectNumbered : Json :=
  .object [
    ("anyOf", .array [
      .object [("type", .string "null")],
      .object [("items", .array [
        .object [("properties", .object []), ("number", .number (.integer 1))],
        .object [("$ref", .string "#")],
        .object [("type", .string "object"), ("number", .number (.integer 2))]])],
      .object [("properties", .object []), ("number", .number (.integer 3))]]),
    ("title", .string "pair")]

/-- Three objects are changed, each where its address says; the reference and `null` stay. -/
theorem mapObjects_changes_tupleOrObject :
    (mapObjects withNumber tupleOrObject "#").outcome 0 = (.ok tupleOrObjectNumbered, 3) ∧
      ∃ changes : List Change,
        changes.map (fun change => "#" ++ change.pointer) =
          ["#/anyOf/1/items/0", "#/anyOf/1/items/2", "#/anyOf/2"] ∧
        (∀ change ∈ changes,
          tupleOrObjectNumbered.pointer? change.pointer = some (.object change.made)) ∧
        replaceAll tupleOrObject changes = some tupleOrObjectNumbered := by
  have walked : (mapObjects withNumber tupleOrObject "#").outcome 0 =
      (.ok tupleOrObjectNumbered, 3) := by
    decide +kernel
  have called : (mapObjects (noting withNumber) tupleOrObject "#").outcome (0, []) =
      (.ok tupleOrObjectNumbered, 3,
        [([("properties", .object [])], "#/anyOf/1/items/0"),
          ([("type", .string "object")], "#/anyOf/1/items/2"),
          ([("properties", .object [])], "#/anyOf/2")]) := by
    decide +kernel
  rcases mapObjects_changes walked with ⟨changes, noted, -, stands, -, -, replaced, -, -, -⟩
  have calls := congrArg (fun ending => ending.2.2.map Prod.snd) (noted.symm.trans called)
  have addresses :
      (changes.map fun change => (change.members, "#" ++ change.pointer)).map Prod.snd =
        ["#/anyOf/1/items/0", "#/anyOf/1/items/2", "#/anyOf/2"] :=
    calls
  rw [List.map_map] at addresses
  exact ⟨walked, changes, addresses, fun change mem => (stands change mem).2.2, replaced⟩

end HyperSchema.Schema
