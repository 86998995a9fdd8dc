import HyperSchema.Proofs.Schema.Inlining

/-!
# Expansion — inlining without cycles

Where no reference is cyclic, none is met again below itself.  The references in progress then have
no part in the result, so that a reference has one expansion wherever it stands.  This file defines:

* `Schema.Meets`, the values that the inlining of a document comes to, each with the references that
  are in progress there;
* `Schema.expansion`, a value inlined on its own;
* `Schema.inlineValue_eq_of_leads`, the comparison of two lists of references in progress, by the
  same induction as the invariant;
* `Schema.inlineValue_of_meets`: every value that is met is inlined as on its own, and a reference
  as its target.
-/

namespace HyperSchema

namespace Schema

/-! ## Values that are met -/

/-- The inlining of a document comes to a value while some references are in progress, the newest
first. -/
inductive Meets (root : Json) : List String → Json → Prop where
  | document : Meets root [] root
  | item {inProgress : List String} {items : List Json} {item : Json} :
      Meets root inProgress (.array items) → item ∈ items → Meets root inProgress item
  | member {inProgress : List String} {members : List (String × Json)} {name : String}
      {value : Json} :
      Meets root inProgress (.object members) → referenceIn? members = none →
        (name, value) ∈ members → Meets root inProgress value
  | target {inProgress : List String} {members : List (String × Json)} {reference : String}
      {target : Json} :
      Meets root inProgress (.object members) → referenceIn? members = some reference →
        reference ∉ inProgress → root.target? reference = some target →
          Meets root (reference :: inProgress) (withoutLinks target)

/-- A value of a document with its references replaced, when none is in progress. -/
def expansion (root value : Json) : Noted Json :=
  inlineValue root root.references [] value

variable {root : Json} {inProgress : List String}

theorem Meets.within {value : Json} (h : Meets root inProgress value) : Within root value := by
  induction h with
  | document => exact .part .whole
  | item _ mem ih => exact ih.item mem
  | member _ _ mem ih => exact ih.member mem
  | target _ _ _ given _ => exact .target given

theorem Meets.leads {value : Json} (h : Meets root inProgress value) :
    Leads root inProgress value := by
  induction h with
  | document => exact .nil root
  | item _ mem ih => exact ih.item mem
  | member _ plain mem ih => exact ih.member plain mem
  | target _ found _ given ih => exact ih.target found given

/-! ## Cycles -/

/-- An outermost reference of a value inside the root is one of the references of the root. -/
theorem Within.mem_references_of_outermost {value : Json} {reference : String}
    (h : Within root value) (outer : value.Outermost reference) : reference ∈ root.references := by
  induction outer with
  | here found => exact h.mem_references found
  | item mem _ ih => exact ih (h.item mem)
  | member _ mem _ ih => exact ih (h.member mem)

/-- A cyclic reference is one of the references of the root. -/
theorem mem_references_of_cyclic {reference : String} (h : Cyclic root reference) :
    reference ∈ root.references := by
  have last : ∃ before, Refers root before reference := by
    cases h with
    | single step => exact ⟨_, step⟩
    | tail _ step => exact ⟨_, step⟩
  rcases last with ⟨before, target, given, outer⟩
  exact (Within.target given).mem_references_of_outermost outer

/-- Where no reference is cyclic, none in progress is outermost in what it leads to. -/
theorem Leads.not_mem {value : Json} {reference : String} (h : Leads root inProgress value)
    (acyclic : ∀ reference, ¬ Cyclic root reference) (outer : value.Outermost reference) :
    reference ∉ inProgress := by
  intro busy
  exact acyclic reference (h reference busy reference outer)

/-! ## Two lists of references in progress -/

theorem inlineItems_congr {known first second : List String} {items : List Json}
    (h : ∀ item ∈ items, inlineValue root known first item = inlineValue root known second item) :
    inlineItems root known first items = inlineItems root known second items := by
  induction items with
  | nil => rw [inlineItems, inlineItems]
  | cons item others ih =>
      rw [inlineItems, inlineItems, h item List.mem_cons_self,
        ih fun other mem => h other (List.mem_cons_of_mem _ mem)]

theorem inlineMembers_congr {known first second : List String} {members : List (String × Json)}
    (h : ∀ entry ∈ members,
      inlineValue root known first entry.2 = inlineValue root known second entry.2) :
    inlineMembers root known first members = inlineMembers root known second members := by
  induction members with
  | nil => rw [inlineMembers, inlineMembers]
  | cons entry others ih =>
      rcases entry with ⟨name, value⟩
      rw [inlineMembers, inlineMembers, h _ List.mem_cons_self,
        ih fun other mem => h other (List.mem_cons_of_mem _ mem)]

/-- A known reference that is not in progress is inlined as its target. -/
theorem inlineValue_reference {known : List String} {members : List (String × Json)}
    {reference : String} {target : Json} (found : referenceIn? members = some reference)
    (free : reference ∉ inProgress) (given : root.target? reference = some target)
    (isKnown : reference ∈ known) :
    inlineValue root known inProgress (.object members) =
      inlineValue root known (reference :: inProgress) (withoutLinks target) := by
  rcases Option.bind_eq_some_iff.1 given with ⟨pointer, isLocal, stands⟩
  rw [inlineValue, found]
  dsimp only
  split
  · rename_i elsewhere
    cases elsewhere.symm.trans isLocal
  · rename_i pointer' isLocal'
    cases isLocal'.symm.trans isLocal
    rw [dif_neg free, stands]
    dsimp only
    rw [dif_pos isKnown]

/-- References in progress that lead to a value have no part in its inlining, unless there are
cycles. -/
theorem inlineValue_eq_of_leads (acyclic : ∀ reference, ¬ Cyclic root reference)
    {known first second : List String} {value : Json} (path : Leads root first value)
    (path' : Leads root second value) :
    inlineValue root known first value = inlineValue root known second value := by
  induction hn : (idle known first).length using Nat.strongRecOn
    generalizing first second value with
  | ind n ih =>
      subst hn
      induction value using Json.induct with
      | null => simp only [inlineValue]
      | bool value => simp only [inlineValue]
      | number value => simp only [inlineValue]
      | string text => simp only [inlineValue]
      | array items ihItems =>
          have same := inlineItems_congr fun item mem =>
            ihItems item mem (path.item mem) (path'.item mem)
          rw [inlineValue, inlineValue, same]
      | object members ihMembers =>
          cases found : referenceIn? members with
          | none =>
              have same := inlineMembers_congr fun entry mem =>
                ihMembers entry mem (path.member found mem) (path'.member found mem)
              rw [inlineValue, inlineValue, found]
              dsimp only
              rw [same]
          | some reference =>
              -- Neither list holds the reference: both go on below it, or both keep it.
              have free : reference ∉ first := path.not_mem acyclic (.here found)
              have free' : reference ∉ second := path'.not_mem acyclic (.here found)
              rw [inlineValue, inlineValue, found]
              dsimp only
              split
              · rfl
              · rename_i pointer isLocal
                rw [dif_neg free, dif_neg free']
                split
                · rfl
                · rename_i target stands
                  have given : root.target? reference = some target :=
                    Option.bind_eq_some_iff.2 ⟨pointer, isLocal, stands⟩
                  split
                  · rename_i isKnown
                    exact ih _ (length_idle_lt (mem_idle.2 ⟨isKnown, free⟩))
                      (path.target found given) (path'.target found given) rfl
                  · rfl

/-! ## Documents without cycles -/

/-- In a document without cyclic references every value that is met is inlined as on its own; a
reference with a target is inlined as this target without its links, and so in the same way wherever
it stands. -/
theorem inlineValue_of_meets (root : Json)
    (acyclic : ∀ reference ∈ root.references, ¬ Cyclic root reference) :
    (∀ inProgress value, Meets root inProgress value →
      inlineValue root root.references inProgress value = expansion root value) ∧
    (∀ inProgress value reference target, Meets root inProgress value →
      value.reference? = some reference → root.target? reference = some target →
        inlineValue root root.references inProgress value =
          expansion root (withoutLinks target)) ∧
    ∀ inProgress value inProgress' value' reference, Meets root inProgress value →
      Meets root inProgress' value' → value.reference? = some reference →
        value'.reference? = some reference → root.target? reference ≠ none →
          inlineValue root root.references inProgress value =
            inlineValue root root.references inProgress' value' := by
  have acyclic : ∀ reference, ¬ Cyclic root reference := fun reference cyclic =>
    acyclic reference (mem_references_of_cyclic cyclic) cyclic
  have alone : ∀ inProgress value, Meets root inProgress value →
      inlineValue root root.references inProgress value = expansion root value :=
    fun inProgress value met => inlineValue_eq_of_leads acyclic met.leads (.nil value)
  have replaced : ∀ inProgress value reference target, Meets root inProgress value →
      value.reference? = some reference → root.target? reference = some target →
        inlineValue root root.references inProgress value =
          expansion root (withoutLinks target) := by
    intro inProgress value reference target met isReference given
    rcases Option.bind_eq_some_iff.1 isReference with ⟨members, shape, found⟩
    cases value with
    | object members' =>
        cases shape
        have free := met.leads.not_mem acyclic (.here found)
        rw [inlineValue_reference found free given (met.within.mem_references found)]
        exact alone _ _ (met.target found free given)
    | _ => cases shape
  refine ⟨alone, replaced, ?_⟩
  intro inProgress value inProgress' value' reference met met' isReference isReference' hasTarget
  rcases Option.ne_none_iff_exists'.1 hasTarget with ⟨target, given⟩
  exact (replaced inProgress value reference target met isReference given).trans
    (replaced inProgress' value' reference target met' isReference' given).symm

/-- A document where one reference leads to another. -/
def chainDocument : Json :=
  .object [
    ("a", .array [.object [("$ref", .string "#/b")]]),
    ("b", .object [("links", .array []), ("c", .object [("$ref", .string "#/d")])]),
    ("d", .object [("type", .string "null")])]

theorem refers_chainDocument {other : String} (h : Refers chainDocument "#/b" other) :
    other = "#/d" := by
  rcases h with ⟨target, given, outer⟩
  cases given
  cases outer with
  | here found => cases found
  | member _ mem inside =>
      cases List.mem_singleton.1 mem
      cases inside with
      | here found =>
          cases found
          rfl
      | member plain => cases plain

theorem not_refers_chainDocument {other : String} : ¬ Refers chainDocument "#/d" other := by
  rintro ⟨target, given, outer⟩
  cases given
  cases outer with
  | here found => cases found
  | member _ mem inside =>
      cases List.mem_singleton.1 mem
      cases inside

theorem not_cyclic_chainDocument :
    ∀ reference ∈ chainDocument.references, ¬ Cyclic chainDocument reference := by
  have ends : ∀ other, Relation.TransGen (Refers chainDocument) "#/b" other → other = "#/d" := by
    intro other path
    induction path with
    | single step => exact refers_chainDocument step
    | tail _ step ih => exact (not_refers_chainDocument (ih ▸ step)).elim
  intro reference mem
  have known : reference = "#/b" ∨ reference = "#/d" := by
    simpa [chainDocument, Json.references, Json.referencesOfMembers, Json.referencesOfItems,
      Json.string?] using mem
  rcases known with rfl | rfl
  · intro cyclic
    exact absurd (ends "#/b" cyclic) (by decide)
  · exact not_cyclic fun _ => not_refers_chainDocument

theorem inlineValue_chainDocument :
    (∀ reference ∈ chainDocument.references, ¬ Cyclic chainDocument reference) ∧
      Meets chainDocument ["#/b"] (.object [("$ref", .string "#/d")]) ∧
      inlineValue chainDocument chainDocument.references ["#/b"]
          (.object [("$ref", .string "#/d")]) =
        expansion chainDocument (.object [("type", .string "null")]) := by
  have first : Meets chainDocument [] (.object [("$ref", .string "#/b")]) :=
    (Meets.document.member rfl (List.mem_cons_self)).item (List.mem_singleton.2 rfl)
  have second : Meets chainDocument ["#/b"] (.object [("$ref", .string "#/d")]) :=
    (first.target rfl List.not_mem_nil rfl).member rfl (List.mem_singleton.2 rfl)
  exact ⟨not_cyclic_chainDocument, second,
    (inlineValue_of_meets chainDocument not_cyclic_chainDocument).2.1 _ _ "#/d" _ second rfl rfl⟩

end Schema

end HyperSchema
