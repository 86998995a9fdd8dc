import HyperSchema.Proofs.Json.Part
import HyperSchema.Schema.Inline

/-!
# Inlining — which references stay

The references in progress form a path in the graph of references, so that one of them that is met
again lies on a cycle.  This file defines:

* `Json.Outermost`, the references in a value that stand inside no other reference;
* `Schema.Refers` and `Schema.Cyclic`, the graph of references of a document and its cycles;
* `Schema.Stays`, why a reference is not replaced;
* `Schema.StandsFor` and `Schema.Formed`: where a reference to a text stands under `$ref`, replacing
  it forms a new reference;
* `Schema.inlineValue_induct`, induction over inlining, for what does not depend on the references
  in progress;
* `Schema.Leads`, the invariant: the references in progress lead to what stands in the value at
  hand;
* `Schema.outermost_inlineValue`, by induction on the references that are idle and on the value;
* `Json.outermost_inlined`: the references that a document keeps.
-/

namespace HyperSchema

namespace Json

/-! ## References in a value -/

/-- A reference stands in a value, and not inside another reference. -/
inductive Outermost (reference : String) : Json → Prop where
  | here {members : List (String × Json)} :
      Schema.referenceIn? members = some reference → Outermost reference (.object members)
  | item {items : List Json} {item : Json} :
      item ∈ items → Outermost reference item → Outermost reference (.array items)
  | member {members : List (String × Json)} {name : String} {value : Json} :
      Schema.referenceIn? members = none → (name, value) ∈ members → Outermost reference value →
        Outermost reference (.object members)

/-- Where no reference is outermost, there is none at all. -/
theorem reference?_eq_none {value part : Json} (none : ∀ reference, ¬ Outermost reference value)
    (h : Part part value) : part.reference? = Option.none := by
  induction h with
  | whole =>
      cases found : part.reference? with
      | none => rfl
      | some reference =>
          rcases Option.bind_eq_some_iff.1 found with ⟨members, shape, found⟩
          cases part with
          | object members' =>
              cases shape
              exact (none reference (.here found)).elim
          | _ => cases shape
  | item mem _ ih =>
      refine ih ?_
      intro reference inside
      exact none reference (.item mem inside)
  | member mem _ ih =>
      refine ih ?_
      intro reference inside
      rename_i members name value _
      -- An object with a reference of its own would be an outermost one itself.
      cases plain : Schema.referenceIn? members with
      | none => exact none reference (.member plain mem inside)
      | some other => exact none other (.here plain)

theorem referencesOfItems_eq_flatMap (items : List Json) :
    referencesOfItems items = items.flatMap references := by
  induction items with
  | nil => rfl
  | cons item others ih => rw [referencesOfItems, ih, List.flatMap_cons]

theorem referencesOfMembers_eq_flatMap (members : List (String × Json)) :
    referencesOfMembers members = members.flatMap fun entry =>
      (if entry.1 = "$ref" then entry.2.string?.toList else []) ++ entry.2.references := by
  induction members with
  | nil => rfl
  | cons entry others ih => rw [referencesOfMembers, ih, List.flatMap_cons]

theorem mem_references {members : List (String × Json)} {reference : String} {value : Json}
    (h : ("$ref", .string reference) ∈ members) (part : Part (.object members) value) :
    reference ∈ value.references := by
  induction part with
  | whole =>
      rw [references, referencesOfMembers_eq_flatMap]
      exact List.mem_flatMap.2 ⟨_, h, by simp [string?]⟩
  | item mem _ ih =>
      rw [references, referencesOfItems_eq_flatMap]
      exact List.mem_flatMap.2 ⟨_, mem, ih⟩
  | member mem _ ih =>
      rw [references, referencesOfMembers_eq_flatMap]
      exact List.mem_flatMap.2 ⟨_, mem, List.mem_append_right _ ih⟩

end Json

namespace Schema

/-! ## The graph of references -/

/-- The target of one reference holds another as an outermost one. -/
def Refers (root : Json) (a b : String) : Prop :=
  ∃ target, root.target? a = some target ∧ (withoutLinks target).Outermost b

/-- A reference leads back to itself. -/
def Cyclic (root : Json) (reference : String) : Prop :=
  Relation.TransGen (Refers root) reference reference

/-- A reference cannot be replaced: it is not local, has no target, or is cyclic. -/
def Stays (root : Json) (reference : String) : Prop :=
  localPointer? reference = none ∨ root.target? reference = none ∨ Cyclic root reference

/-- A reference stands for a text, at once or through other references. -/
inductive StandsFor (root : Json) : String → String → Prop where
  | text {reference text : String} :
      root.target? reference = some (.string text) → StandsFor root reference text
  | through {reference other text : String} {target : Json} :
      root.target? reference = some target → (withoutLinks target).reference? = some other →
        StandsFor root other text → StandsFor root reference text

/-- A text comes to stand under `$ref` where another reference stood for it. -/
def Formed (root : Json) (text : String) : Prop :=
  ∃ members value reference, Json.Part (.object members) root ∧ ("$ref", value) ∈ members ∧
    value.reference? = some reference ∧ StandsFor root reference text

/-! ## Values of the inlining -/

section Values

variable (root : Json) (known inProgress : List String)

theorem value_inlineItems (items : List Json) :
    (inlineItems root known inProgress items).value =
      items.map fun item => (inlineValue root known inProgress item).value := by
  induction items with
  | nil =>
      rw [inlineItems]
      rfl
  | cons item others ih =>
      rw [inlineItems, List.map_cons, ← ih]
      rfl

theorem value_inlineMembers (members : List (String × Json)) :
    (inlineMembers root known inProgress members).value =
      members.map fun entry => (entry.1, (inlineValue root known inProgress entry.2).value) := by
  induction members with
  | nil =>
      rw [inlineMembers]
      rfl
  | cons entry others ih =>
      rcases entry with ⟨name, value⟩
      rw [inlineMembers, List.map_cons, ← ih]
      rfl

theorem value_inlineValue_array (items : List Json) :
    (inlineValue root known inProgress (.array items)).value =
      .array (items.map fun item => (inlineValue root known inProgress item).value) := by
  rw [inlineValue, ← value_inlineItems]
  rfl

theorem value_inlineValue_object {members : List (String × Json)}
    (plain : referenceIn? members = none) :
    (inlineValue root known inProgress (.object members)).value =
      .object (members.map fun entry =>
        (entry.1, (inlineValue root known inProgress entry.2).value)) := by
  rw [inlineValue, plain, ← value_inlineMembers]
  rfl

/-- A reference is kept for one of four reasons, or what it stands for is inlined in its place. -/
theorem value_inlineValue_reference {members : List (String × Json)} {reference : String}
    (found : referenceIn? members = some reference) :
    (inlineValue root known inProgress (.object members)).value = .object members ∧
        (localPointer? reference = none ∨ reference ∈ inProgress ∨
          root.target? reference = none ∨ reference ∉ known) ∨
      ∃ target, root.target? reference = some target ∧ reference ∈ idle known inProgress ∧
        (inlineValue root known inProgress (.object members)).value =
          (inlineValue root known (reference :: inProgress) (withoutLinks target)).value := by
  rw [inlineValue, found]
  dsimp only
  split
  · rename_i elsewhere
    exact .inl ⟨rfl, .inl elsewhere⟩
  · rename_i pointer isLocal
    have target? : root.target? reference = root.pointer? pointer := by
      rw [Json.target?, isLocal, Option.bind_some]
    split
    · rename_i busy
      exact .inl ⟨rfl, .inr (.inl busy)⟩
    · rename_i free
      split
      · rename_i missing
        exact .inl ⟨rfl, .inr (.inr (.inl (target?.trans missing)))⟩
      · rename_i target given
        split
        · rename_i isKnown
          exact .inr ⟨target, target?.trans given, mem_idle.2 ⟨isKnown, free⟩, rfl⟩
        · rename_i unknown
          exact .inl ⟨rfl, .inr (.inr (.inr unknown))⟩

end Values

/-- Induction over inlining: a value and what it becomes are related if their parts are, and what
stands for a reference is related to what its target becomes. -/
theorem inlineValue_induct {root : Json} {known : List String} {P : Json → Json → Prop}
    (plain : ∀ value, value.items? = none → value.members? = none → P value value)
    (array : ∀ items (made : Json → Json), (∀ item ∈ items, P item (made item)) →
      P (.array items) (.array (items.map made)))
    (object : ∀ (members : List (String × Json)) (made : Json → Json),
      referenceIn? members = none → (∀ entry ∈ members, P entry.2 (made entry.2)) →
      P (.object members) (.object (members.map fun entry => (entry.1, made entry.2))))
    (kept : ∀ members reference, referenceIn? members = some reference →
      P (.object members) (.object members))
    (replaced : ∀ members reference target made, referenceIn? members = some reference →
      root.target? reference = some target → P (withoutLinks target) made →
      P (.object members) made)
    (inProgress : List String) (value : Json) :
    P value (inlineValue root known inProgress value).value := by
  induction hn : (idle known inProgress).length using Nat.strongRecOn
    generalizing inProgress value with
  | ind n ih =>
      subst hn
      -- The references in progress are the same throughout a value, so the second induction is on
      -- the value.
      induction value using Json.induct with
      | null => simpa only [inlineValue, Noted.value_pure] using plain .null rfl rfl
      | bool value => simpa only [inlineValue, Noted.value_pure] using plain (.bool value) rfl rfl
      | number value =>
          simpa only [inlineValue, Noted.value_pure] using plain (.number value) rfl rfl
      | string text => simpa only [inlineValue, Noted.value_pure] using plain (.string text) rfl rfl
      | array items ihItems =>
          rw [value_inlineValue_array]
          exact array items _ ihItems
      | object members ihMembers =>
          cases found : referenceIn? members with
          | none =>
              rw [value_inlineValue_object root known inProgress found]
              exact object members (fun value => (inlineValue root known inProgress value).value)
                found ihMembers
          | some reference =>
              rcases value_inlineValue_reference root known inProgress found with
                ⟨same, -⟩ | ⟨target, given, isIdle, copied⟩
              · rw [same]
                exact kept members reference found
              · rw [copied]
                exact replaced members reference target _ found given
                  (ih _ (length_idle_lt isIdle) _ _ rfl)

/-! ## Values inside the root -/

/-- A value is a part of the root, or such a part without some of its members. -/
inductive Within (root : Json) : Json → Prop where
  | part {value : Json} : Json.Part value root → Within root value
  | trimmed {members whole : List (String × Json)} :
      Json.Part (.object whole) root → (∀ entry ∈ members, entry ∈ whole) →
        Within root (.object members)

theorem Within.whole {root : Json} {members : List (String × Json)}
    (h : Within root (.object members)) :
    ∃ whole, Json.Part (.object whole) root ∧ ∀ entry ∈ members, entry ∈ whole := by
  cases h with
  | part part => exact ⟨members, part, fun entry mem => mem⟩
  | trimmed part inside => exact ⟨_, part, inside⟩

theorem Within.member {root value : Json} {members : List (String × Json)} {name : String}
    (h : Within root (.object members)) (mem : (name, value) ∈ members) : Within root value := by
  rcases h.whole with ⟨whole, part, inside⟩
  exact .part ((Json.Part.member (inside _ mem) .whole).trans part)

theorem Within.item {root item : Json} {items : List Json} (h : Within root (.array items))
    (mem : item ∈ items) : Within root item := by
  cases h with
  | part part => exact .part ((Json.Part.item mem .whole).trans part)

theorem Within.target {root target : Json} {reference : String}
    (h : root.target? reference = some target) : Within root (withoutLinks target) := by
  rcases Option.bind_eq_some_iff.1 h with ⟨pointer, -, found⟩
  have part := Json.part_of_pointer? found
  cases target with
  | object members => exact .trimmed part fun entry mem => Entries.mem_of_mem_swapErase mem
  | _ => exact .part part

/-- A text under `$ref` is that of the first member of this name. -/
theorem mem_of_referenceIn? {members : List (String × Json)} {reference : String}
    (h : referenceIn? members = some reference) : ("$ref", .string reference) ∈ members := by
  rcases Option.bind_eq_some_iff.1 h with ⟨value, found, text⟩
  cases value with
  | string text' =>
      cases text
      exact Entries.mem_of_get? found
  | _ => cases text

/-- Where no reference occurs, no part is one. -/
theorem reference?_of_references_eq_nil {value part : Json} (none : value.references = [])
    (h : Json.Part part value) : part.reference? = Option.none := by
  rw [Option.eq_none_iff_forall_not_mem]
  intro reference found
  rcases Option.bind_eq_some_iff.1 found with ⟨members, shape, found⟩
  cases part with
  | object members' =>
      cases shape
      have occurs := Json.mem_references (mem_of_referenceIn? found) h
      rw [none] at occurs
      cases occurs
  | _ => cases shape

theorem Within.mem_references {root : Json} {members : List (String × Json)} {reference : String}
    (h : Within root (.object members)) (found : referenceIn? members = some reference) :
    reference ∈ root.references := by
  rcases h.whole with ⟨whole, part, inside⟩
  exact Json.mem_references (inside _ (mem_of_referenceIn? found)) part

/-! ## The invariant -/

/-- Every reference in progress leads to each outermost reference of a value. -/
def Leads (root : Json) (inProgress : List String) (value : Json) : Prop :=
  ∀ above ∈ inProgress, ∀ reference, value.Outermost reference →
    Relation.TransGen (Refers root) above reference

variable {root : Json} {inProgress : List String}

theorem Leads.nil (value : Json) : Leads root [] value :=
  fun _ busy => absurd busy List.not_mem_nil

theorem Leads.item {items : List Json} {item : Json} (h : Leads root inProgress (.array items))
    (mem : item ∈ items) : Leads root inProgress item := by
  intro above busy reference outer
  exact h above busy reference (.item mem outer)

theorem Leads.member {members : List (String × Json)} {name : String} {value : Json}
    (h : Leads root inProgress (.object members)) (plain : referenceIn? members = none)
    (mem : (name, value) ∈ members) : Leads root inProgress value := by
  intro above busy reference outer
  exact h above busy reference (.member plain mem outer)

/-- A reference goes into progress at the end of the path that leads to it. -/
theorem Leads.target {members : List (String × Json)} {reference : String} {target : Json}
    (h : Leads root inProgress (.object members)) (found : referenceIn? members = some reference)
    (given : root.target? reference = some target) :
    Leads root (reference :: inProgress) (withoutLinks target) := by
  intro above busy other outer
  have step : Refers root reference other := ⟨target, given, outer⟩
  rcases List.mem_cons.1 busy with rfl | busy
  · exact .single step
  · exact (h above busy reference (.here found)).tail step

/-- A value becomes a text only if it is that text or stands for it. -/
theorem standsFor_of_inlineValue {known : List String} {value : Json} {text : String}
    (h : (inlineValue root known inProgress value).value = .string text) :
    value = .string text ∨ ∃ reference, value.reference? = some reference ∧
      StandsFor root reference text := by
  revert h
  refine inlineValue_induct (P := fun value made => made = .string text →
    value = .string text ∨ ∃ reference, value.reference? = some reference ∧
      StandsFor root reference text) ?_ ?_ ?_ ?_ ?_ inProgress value
  · exact fun value _ _ same => .inl same
  · exact fun items made _ same => nomatch same
  · exact fun members made _ _ same => nomatch same
  · exact fun members reference _ same => nomatch same
  · intro members reference target made found given ih same
    refine .inr ⟨reference, found, ?_⟩
    rcases ih same with isText | ⟨other, next, stands⟩
    · have whole : target = .string text := by
        cases target with
        | object members => cases isText
        | _ => exact isText
      exact .text (whole ▸ given)
    · exact .through given next stands

/-- An object that becomes a reference had a reference under `$ref`, which stood for a text. -/
theorem formed_of_inlined {known : List String} {members : List (String × Json)}
    {reference : String}
    (within : Within root (.object members)) (plain : referenceIn? members = none)
    (h : referenceIn? (members.map fun entry =>
      (entry.1, (inlineValue root known inProgress entry.2).value)) = some reference) :
    Formed root reference := by
  rcases Option.bind_eq_some_iff.1 h with ⟨made, found, text⟩
  rw [Entries.get?_map fun _ value => (inlineValue root known inProgress value).value] at found
  rcases Option.map_eq_some_iff.1 found with ⟨value, given, rfl⟩
  have made : (inlineValue root known inProgress value).value = .string reference := by
    cases shape : (inlineValue root known inProgress value).value with
    | string text' =>
        rw [shape] at text
        cases text
        rfl
    | _ =>
        rw [shape] at text
        cases text
  rcases standsFor_of_inlineValue made with rfl | ⟨other, under, stands⟩
  · rw [referenceIn?, given] at plain
    cases plain
  · rcases within.whole with ⟨whole, part, inside⟩
    exact ⟨whole, value, other, part, inside _ (Entries.mem_of_get? given), under, stands⟩

/-- A reference in progress that is met again lies on a cycle, and what else is kept has no target to
replace it. -/
theorem outermost_inlineValue {value : Json} (within : Within root value)
    (path : Leads root inProgress value) {reference : String}
    (h : (inlineValue root root.references inProgress value).value.Outermost reference) :
    reference ∈ root.references ∧ Stays root reference ∨ Formed root reference := by
  induction hn : (idle root.references inProgress).length using Nat.strongRecOn
    generalizing inProgress value with
  | ind n ih =>
      subst hn
      -- The references in progress are the same throughout a value, so the second induction is on
      -- the value.
      induction value using Json.induct with
      | null =>
          simp only [inlineValue, Noted.value_pure] at h
          cases h
      | bool value =>
          simp only [inlineValue, Noted.value_pure] at h
          cases h
      | number value =>
          simp only [inlineValue, Noted.value_pure] at h
          cases h
      | string text =>
          simp only [inlineValue, Noted.value_pure] at h
          cases h
      | array items ihItems =>
          rw [value_inlineValue_array] at h
          cases h with
          | item mapped inside =>
              rcases List.mem_map.1 mapped with ⟨item, mem, rfl⟩
              exact ihItems item mem (within.item mem) (path.item mem) inside
      | object members ihMembers =>
          cases found : referenceIn? members with
          | none =>
              rw [value_inlineValue_object root root.references inProgress found] at h
              cases h with
              | here formed => exact .inr (formed_of_inlined within found formed)
              | member _ mapped inside =>
                  rcases List.mem_map.1 mapped with ⟨⟨name, value⟩, mem, same⟩
                  cases same
                  exact ihMembers _ mem (within.member mem) (path.member found mem) inside
          | some own =>
              rcases value_inlineValue_reference root root.references inProgress found with
                ⟨kept, reason⟩ | ⟨target, given, isIdle, replaced⟩
              · -- The reference stays as it is: one in progress reaches itself.
                rw [kept] at h
                have isKnown := within.mem_references found
                have same : own = reference := by
                  cases h with
                  | here found' => exact Option.some.inj (found.symm.trans found')
                  | member plain => cases found.symm.trans plain
                subst same
                refine .inl ⟨isKnown, ?_⟩
                rcases reason with elsewhere | busy | missing | unknown
                · exact .inl elsewhere
                · exact .inr (.inr (path own busy own (.here found)))
                · exact .inr (.inl missing)
                · exact (unknown isKnown).elim
              · -- The target takes its place, one step further along the path.
                rw [replaced] at h
                exact ih _ (length_idle_lt isIdle) (.target given) (path.target found given) h rfl

/-- Without outgoing references a reference is not cyclic. -/
theorem not_cyclic {reference : String} (h : ∀ other, ¬ Refers root reference other) :
    ¬ Cyclic root reference := by
  have none : ∀ other, ¬ Relation.TransGen (Refers root) reference other := by
    intro other path
    induction path with
    | single step => exact h _ step
    | tail _ _ ih => exact ih
  exact none reference

end Schema

namespace Json

/-! ## Documents -/

/-- Every reference that inlining leaves outermost is one of the document that is not local, has no
target or is cyclic, or was formed where a reference to a text stood under `$ref`.  If all
references of a document are local, have targets and are not cyclic, and none stands under `$ref`,
none is left. -/
theorem outermost_inlined (document : Json) :
    (∀ reference, document.inlined.value.Outermost reference →
      reference ∈ document.references ∧ Schema.Stays document reference ∨
        Schema.Formed document reference) ∧
    ((∀ reference ∈ document.references, Schema.localPointer? reference ≠ none ∧
        document.target? reference ≠ none ∧ ¬ Schema.Cyclic document reference) →
      (∀ members value, Part (.object members) document → ("$ref", value) ∈ members →
        value.reference? = none) →
      ∀ part, Part part document.inlined.value → part.reference? = none) := by
  have kept : ∀ reference, document.inlined.value.Outermost reference →
      reference ∈ document.references ∧ Schema.Stays document reference ∨
        Schema.Formed document reference := by
    intro reference h
    exact Schema.outermost_inlineValue (.part .whole) (fun _ busy => absurd busy List.not_mem_nil) h
  refine ⟨kept, ?_⟩
  intro replaceable flat part inside
  refine reference?_eq_none ?_ inside
  intro reference h
  rcases kept reference h with ⟨known, stays⟩ | ⟨members, value, other, part, mem, under, -⟩
  · rcases replaceable reference known with ⟨isLocal, hasTarget, acyclic⟩
    rcases stays with elsewhere | missing | cyclic
    · exact isLocal elsewhere
    · exact hasTarget missing
    · exact acyclic cyclic
  · rw [flat members value part mem] at under
    cases under

/-- A document with one reference to a value that holds no others. -/
def flatDocument : Json :=
  .object [("a", .object [("$ref", .string "#/b")]), ("b", .object [("type", .string "null")])]

theorem flatDocument_replaceable : ∀ reference ∈ flatDocument.references,
    Schema.localPointer? reference ≠ none ∧ flatDocument.target? reference ≠ none ∧
      ¬ Schema.Cyclic flatDocument reference := by
  intro reference h
  have same : reference = "#/b" := List.mem_singleton.1 h
  subst same
  refine ⟨nofun, nofun, Schema.not_cyclic ?_⟩
  rintro other ⟨target, given, outer⟩
  cases given
  cases outer with
  | here found => cases found
  | member _ mem inside =>
      cases List.mem_singleton.1 mem
      cases inside

theorem flatDocument_flat : ∀ members value, Part (.object members) flatDocument →
    ("$ref", value) ∈ members → value.reference? = none := by
  intro members value part mem
  cases part with
  | whole => simp at mem
  | member entry inside =>
      simp only [List.mem_cons, Prod.mk.injEq, List.not_mem_nil, or_false] at entry
      rcases entry with ⟨-, rfl⟩ | ⟨-, rfl⟩
      · cases inside with
        | whole =>
            cases List.mem_singleton.1 mem
            rfl
        | member entry inside =>
            cases List.mem_singleton.1 entry
            cases inside
      · cases inside with
        | whole => simp at mem
        | member entry inside =>
            cases List.mem_singleton.1 entry
            cases inside

theorem inlined_flatDocument :
    (∀ reference ∈ flatDocument.references, Schema.localPointer? reference ≠ none ∧
        flatDocument.target? reference ≠ none ∧ ¬ Schema.Cyclic flatDocument reference) ∧
      (∀ members value, Part (.object members) flatDocument → ("$ref", value) ∈ members →
        value.reference? = none) ∧
      ∀ part, Part part flatDocument.inlined.value → part.reference? = none :=
  ⟨flatDocument_replaceable, flatDocument_flat,
    (outermost_inlined flatDocument).2 flatDocument_replaceable flatDocument_flat⟩

/-- A document where the reference to a text stands under `$ref`. -/
def nestedDocument : Json :=
  .object [("$ref", .object [("$ref", .string "#/name")]), ("name", .string "#/foo"), ("foo", .null)]

theorem inlined_nestedReference (known : List String) (isKnown : "#/name" ∈ known) :
    (Schema.inlineValue nestedDocument known [] (.object [("$ref", .string "#/name")])).value =
      .string "#/foo" := by
  have found : Schema.referenceIn? [("$ref", .string "#/name")] = some "#/name" := rfl
  rcases Schema.value_inlineValue_reference nestedDocument known [] found with
    ⟨-, elsewhere | busy | missing | unknown⟩ | ⟨target, given, -, replaced⟩
  · cases elsewhere
  · cases busy
  · cases missing
  · exact (unknown isKnown).elim
  · cases given
    rw [replaced]
    simp only [Schema.withoutLinks, Schema.inlineValue, Noted.value_pure]

/-- Where the reference under `$ref` is replaced by a text, a reference is left that the document
does not hold, although all its references can be replaced. -/
theorem nestedDocument_keeps :
    nestedDocument.inlined.value.Outermost "#/foo" ∧ ¬ Schema.Stays nestedDocument "#/foo" ∧
      ∀ reference ∈ nestedDocument.references, Schema.localPointer? reference ≠ none ∧
        nestedDocument.target? reference ≠ none ∧ ¬ Schema.Cyclic nestedDocument reference := by
  have leaf : ∀ reference target, nestedDocument.target? reference = some target →
      (∀ other, ¬ (Schema.withoutLinks target).Outermost other) →
        ¬ Schema.Cyclic nestedDocument reference := by
    intro reference target given none
    refine Schema.not_cyclic ?_
    rintro other ⟨target', given', outer⟩
    cases given.symm.trans given'
    exact none other outer
  refine ⟨?_, ?_, ?_⟩
  · have replaced := inlined_nestedReference nestedDocument.references (by decide)
    show Outermost "#/foo" (Schema.inlineValue nestedDocument nestedDocument.references []
      (.object _)).value
    rw [Schema.value_inlineValue_object _ _ _ rfl]
    refine .here ?_
    show Json.string? (Schema.inlineValue nestedDocument nestedDocument.references []
      (.object [("$ref", .string "#/name")])).value = some "#/foo"
    rw [replaced]
    rfl
  · rintro (elsewhere | missing | cyclic)
    · cases elsewhere
    · cases missing
    · exact leaf "#/foo" .null rfl (fun other outer => nomatch outer) cyclic
  · intro reference h
    have same : reference = "#/name" := List.mem_singleton.1 h
    subst same
    exact ⟨nofun, nofun, leaf "#/name" (.string "#/foo") rfl fun other outer => nomatch outer⟩

end Json

end HyperSchema
