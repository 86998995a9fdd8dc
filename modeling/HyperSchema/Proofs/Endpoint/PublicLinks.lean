import HyperSchema.Proofs.Endpoint.MethodNames
import HyperSchema.Proofs.Endpoint.Relocation

/-!
# Public links — a resource has all of its endpoints or none

The links of a definition become endpoints one after another, and the first fault ends this.  This
file defines:

* `Endpoint.ofPublic`, the endpoints of links of which none is passed over, and
  `Endpoint.ofLinks_eq_ofPublic`: private links have no part in what is made of links;
* `Endpoint.Fine` and `Endpoint.FirstFault`, the links that become endpoints and the fault of those
  that do not;
* `Endpoint.result_ofPublic_eq_ok_iff` and `Endpoint.result_ofPublic_eq_error_iff`, by induction
  over the links with the names that are taken;
* `SchemaError.SameButPosition`, errors that tell two positions of one link;
* `Resource.ofLinks_all_or_nothing`: the two outcomes for the links of a definition, and that
  private links change the position in an error at most.
-/

namespace HyperSchema

namespace Endpoint

variable {docsBase : Option String} {resource : String} {names : List String}
  {entries others : List (Link × Nat)} {endpoints : List Endpoint} {e : SchemaError}

/-! ## Links without the private ones -/

/-- The endpoints of links with their positions, after methods with the given names. -/
def ofPublic (docsBase : Option String) (resource : String) :
    List String → List (Link × Nat) → Checked (List Endpoint)
  | _, [] => pure []
  | names, (link, i) :: rest => do
      let endpoint ← ofLink docsBase resource link (linkPath resource i)
      if names.contains endpoint.name then
        throw (SchemaError.repeatedMethod resource endpoint.name)
      return endpoint :: (← ofPublic docsBase resource (endpoint.name :: names) rest)

theorem ofLinks_eq_ofPublic (i : Nat) (names : List String) (links : List Link) :
    ofLinks docsBase resource i names links =
      ofPublic docsBase resource names (publicLinks i links) := by
  induction links generalizing i names with
  | nil => rfl
  | cons link rest ih =>
      rw [ofLinks, publicLinks, List.zipIdx_cons]
      split
      · rename_i isPrivate
        rw [List.filter_cons_of_neg (by simp [isPrivate])]
        exact ih (i + 1) names
      · rename_i isPublic
        rw [List.filter_cons_of_pos (by simp [isPublic]), ofPublic]
        simp only [ih]
        rfl

/-! ## Links that become endpoints, and others -/

/-- A link at its position becomes an endpoint. -/
def Made (docsBase : Option String) (resource : String) (entry : Link × Nat) (endpoint : Endpoint) :
    Prop :=
  (ofLink docsBase resource entry.1 (linkPath resource entry.2)).result = .ok endpoint

/-- The method of a link. -/
def methodOfEntry (entry : Link × Nat) : String := methodName entry.1.rel

/-- Each of some links becomes an endpoint, and their methods have names that are distinct and none
of the given ones. -/
structure Fine (docsBase : Option String) (resource : String) (names : List String)
    (entries : List (Link × Nat)) : Prop where
  made : ∀ entry ∈ entries, ∃ endpoint, Made docsBase resource entry endpoint
  distinct : (names ++ entries.map methodOfEntry).Nodup

/-- The fault of the first link at fault: it becomes no endpoint, or its method is called like one
of the given ones or that of a link before it. -/
def FirstFault (docsBase : Option String) (resource : String) (names : List String)
    (entries : List (Link × Nat)) (e : SchemaError) : Prop :=
  ∃ before entry after, entries = before ++ entry :: after ∧ Fine docsBase resource names before ∧
    ((ofLink docsBase resource entry.1 (linkPath resource entry.2)).result = .error e ∨
      (∃ endpoint, Made docsBase resource entry endpoint) ∧
        methodOfEntry entry ∈ names ++ before.map methodOfEntry ∧
        e = .repeatedMethod resource (methodOfEntry entry))

theorem name_of_made {entry : Link × Nat} {endpoint : Endpoint}
    (h : Made docsBase resource entry endpoint) : endpoint.name = methodOfEntry entry :=
  (names_of_ofLink h).1

theorem nodup_append_cons {name : String} {rest : List String} :
    (names ++ name :: rest).Nodup ↔ name ∉ names ∧ (name :: names ++ rest).Nodup := by
  rw [List.cons_append, List.nodup_middle]
  refine ⟨fun distinct => ⟨fun mem => ?_, distinct⟩, And.right⟩
  exact (List.nodup_cons.1 distinct).1 (List.mem_append_left _ mem)

/-- A link in front of others is fine if it becomes an endpoint with a name that is not taken and
the others are fine behind it. -/
theorem fine_cons_iff {entry : Link × Nat} :
    Fine docsBase resource names (entry :: entries) ↔
      (∃ endpoint, Made docsBase resource entry endpoint) ∧ methodOfEntry entry ∉ names ∧
        Fine docsBase resource (methodOfEntry entry :: names) entries := by
  constructor
  · rintro ⟨made, distinct⟩
    rw [List.forall_mem_cons] at made
    rw [List.map_cons, nodup_append_cons] at distinct
    exact ⟨made.1, distinct.1, made.2, distinct.2⟩
  · rintro ⟨first, fresh, made, distinct⟩
    refine ⟨List.forall_mem_cons.2 ⟨first, made⟩, ?_⟩
    rw [List.map_cons, nodup_append_cons]
    exact ⟨fresh, distinct⟩

/-! ## The first link -/

section Cons

variable {entry : Link × Nat}

theorem result_ofPublic_of_error
    (h : (ofLink docsBase resource entry.1 (linkPath resource entry.2)).result = .error e) :
    (ofPublic docsBase resource names (entry :: entries)).result = .error e := by
  rw [ofPublic]
  exact Checked.result_bind_of_error h

theorem result_ofPublic_of_taken {endpoint : Endpoint} (made : Made docsBase resource entry endpoint)
    (taken : methodOfEntry entry ∈ names) :
    (ofPublic docsBase resource names (entry :: entries)).result =
      .error (.repeatedMethod resource (methodOfEntry entry)) := by
  rw [ofPublic, Checked.result_bind_of_ok made, name_of_made made]
  dsimp only
  rw [if_pos (List.contains_iff_mem.2 taken)]
  rfl

theorem result_ofPublic_of_fresh {endpoint : Endpoint} (made : Made docsBase resource entry endpoint)
    (fresh : methodOfEntry entry ∉ names) :
    (ofPublic docsBase resource names (entry :: entries)).result =
      (ofPublic docsBase resource (methodOfEntry entry :: names) entries).result.map
        (endpoint :: ·) := by
  rw [ofPublic, Checked.result_bind_of_ok made, name_of_made made]
  dsimp only
  rw [if_neg (mt List.contains_iff_mem.1 fresh), Checked.result_bind]
  cases (ofPublic docsBase resource (methodOfEntry entry :: names) entries).result with
  | error failure => rfl
  | ok found => rfl

end Cons

/-! ## Outcomes -/

/-- Links give their endpoints, in order, if and only if they are fine. -/
theorem result_ofPublic_eq_ok_iff (free : names.Nodup) :
    (ofPublic docsBase resource names entries).result = .ok endpoints ↔
      Fine docsBase resource names entries ∧
        List.Forall₂ (Made docsBase resource) entries endpoints := by
  induction entries generalizing names endpoints with
  | nil =>
      constructor
      · rintro ⟨⟩
        exact ⟨⟨nofun, by simpa using free⟩, .nil⟩
      · rintro ⟨-, ⟨⟩⟩
        rfl
  | cons entry rest ih =>
      cases made : (ofLink docsBase resource entry.1 (linkPath resource entry.2)).result with
      | error failure =>
          rw [result_ofPublic_of_error made]
          refine iff_of_false nofun ?_
          rintro ⟨fine, -⟩
          rcases fine.made entry List.mem_cons_self with ⟨endpoint, made'⟩
          cases made.symm.trans made'
      | ok first =>
          -- The name of the first link counts as taken for the others.
          by_cases taken : methodOfEntry entry ∈ names
          · rw [result_ofPublic_of_taken made taken]
            exact iff_of_false nofun fun h => (fine_cons_iff.1 h.1).2.1 taken
          · rw [result_ofPublic_of_fresh made taken]
            constructor
            · intro h
              rcases ok_of_map h with ⟨found, tail, rfl⟩
              rcases (ih (List.nodup_cons.2 ⟨taken, free⟩)).1 tail with ⟨fine, each⟩
              exact ⟨fine_cons_iff.2 ⟨⟨first, made⟩, taken, fine⟩, .cons made each⟩
            · rintro ⟨fine, each⟩
              cases each with
              | cons head tail =>
                  cases made.symm.trans head
                  rw [(ih (List.nodup_cons.2 ⟨taken, free⟩)).2 ⟨(fine_cons_iff.1 fine).2.2, tail⟩]
                  rfl

/-- The first fault is that of the link in front, or it is behind a link without one. -/
theorem firstFault_cons_iff {entry : Link × Nat} (free : names.Nodup) :
    FirstFault docsBase resource names (entry :: entries) e ↔
      ((ofLink docsBase resource entry.1 (linkPath resource entry.2)).result = .error e ∨
        (∃ endpoint, Made docsBase resource entry endpoint) ∧ methodOfEntry entry ∈ names ∧
          e = .repeatedMethod resource (methodOfEntry entry)) ∨
      (∃ endpoint, Made docsBase resource entry endpoint) ∧ methodOfEntry entry ∉ names ∧
        FirstFault docsBase resource (methodOfEntry entry :: names) entries e := by
  -- The name of this link is among the given ones or among those in front.
  have moved : ∀ (before : List (Link × Nat)) (name : String),
      name ∈ methodOfEntry entry :: names ++ before.map methodOfEntry ↔
        name ∈ names ++ (entry :: before).map methodOfEntry := by
    intro before name
    simp only [List.map_cons, List.cons_append, List.mem_cons, List.mem_append]
    exact or_left_comm
  constructor
  · rintro ⟨before, other, after, split, fine, fault⟩
    cases before with
    | nil =>
        cases split
        rw [List.map_nil, List.append_nil] at fault
        exact .inl fault
    | cons first before =>
        cases split
        rcases fine_cons_iff.1 fine with ⟨made, fresh, fine⟩
        rw [← moved] at fault
        exact .inr ⟨made, fresh, before, other, after, rfl, fine, fault⟩
  · rintro (fault | ⟨made, fresh, before, other, after, rfl, fine, fault⟩)
    · have nothing : Fine docsBase resource names [] := ⟨nofun, by simpa using free⟩
      refine ⟨[], entry, entries, rfl, nothing, ?_⟩
      rwa [List.map_nil, List.append_nil]
    · refine ⟨entry :: before, other, after, rfl, fine_cons_iff.2 ⟨made, fresh, fine⟩, ?_⟩
      rwa [← moved]

/-- Links give an error if and only if it is that of the first of them at fault. -/
theorem result_ofPublic_eq_error_iff (free : names.Nodup) :
    (ofPublic docsBase resource names entries).result = .error e ↔
      FirstFault docsBase resource names entries e := by
  induction entries generalizing names with
  | nil =>
      refine iff_of_false nofun ?_
      rintro ⟨before, entry, after, split, -⟩
      simp at split
  | cons entry rest ih =>
      rw [firstFault_cons_iff free]
      cases made : (ofLink docsBase resource entry.1 (linkPath resource entry.2)).result with
      | error failure =>
          have unmade : ¬ ∃ endpoint, Made docsBase resource entry endpoint :=
            fun ⟨_, made'⟩ => nomatch made.symm.trans made'
          rw [result_ofPublic_of_error made]
          simp only [unmade, false_and, or_false, Except.error.injEq]
      | ok first =>
          have isMade : ∃ endpoint, Made docsBase resource entry endpoint := ⟨first, made⟩
          by_cases taken : methodOfEntry entry ∈ names
          · rw [result_ofPublic_of_taken made taken]
            simp [isMade, taken, eq_comm]
          · rw [result_ofPublic_of_fresh made taken, map_eq_error_iff,
              ih (List.nodup_cons.2 ⟨taken, free⟩)]
            simp [isMade, taken]

end Endpoint

/-- Two errors are the same, or they show the same node of one link, at two positions of it. -/
def SchemaError.SameButPosition (resource : String) (e e' : SchemaError) : Prop :=
  e' = e ∨ ∃ i j rest snippet, e = .unknownShape (Endpoint.linkPath resource i ++ rest) snippet ∧
    e' = .unknownShape (Endpoint.linkPath resource j ++ rest) snippet

namespace Endpoint

variable {docsBase : Option String} {resource : String} {names : List String}
  {entries others : List (Link × Nat)} {endpoints : List Endpoint} {e : SchemaError}

/-! ## The same links at other positions -/

theorem made_iff {entry other : Link × Nat} (same : entry.1 = other.1) {endpoint : Endpoint} :
    Made docsBase resource entry endpoint ↔ Made docsBase resource other endpoint := by
  rw [Made, Made, result_ofLink entry.1, result_ofLink other.1, same]
  cases (ofLink docsBase resource other.1 "").result with
  | error failure => exact iff_of_false nofun nofun
  | ok found => exact Iff.rfl

/-- A link becomes the same endpoint wherever it stands. -/
theorem made_iff_first (entry : Link × Nat) (endpoint : Endpoint) :
    Made docsBase resource entry endpoint ↔ Made docsBase resource (entry.1, 0) endpoint :=
  made_iff (by rfl)

theorem error_of_same {entry other : Link × Nat} (same : entry.1 = other.1)
    (h : (ofLink docsBase resource entry.1 (linkPath resource entry.2)).result = .error e) :
    ∃ e', (ofLink docsBase resource other.1 (linkPath resource other.2)).result = .error e' ∧
      e.SameButPosition resource e' := by
  rw [result_ofLink] at h
  rcases error_of_mapError h with ⟨e₀, failed, rfl⟩
  have failed' := failed
  rw [same] at failed'
  refine ⟨e₀.under (linkPath resource other.2), ?_, ?_⟩
  · rw [result_ofLink, failed']
    rfl
  · cases e₀ with
    | unknownShape rest snippet => exact .inr ⟨entry.2, other.2, rest, snippet, rfl, rfl⟩
    | noProperties rest =>
        -- The walks through a body turn this error into an open block.
        rcases faultBelow_of_ofLink failed rfl with ⟨body, -, path, node, -, shown⟩
        cases shown
    | _ => exact .inl rfl

/-- The positions have no part in whether links are fine. -/
theorem fine_iff :
    Fine docsBase resource names entries ↔
      (∀ link ∈ entries.map Prod.fst, ∃ endpoint, Made docsBase resource (link, 0) endpoint) ∧
        (names ++ (entries.map Prod.fst).map fun link => methodName link.rel).Nodup := by
  have names_eq : entries.map methodOfEntry =
      (entries.map Prod.fst).map fun link => methodName link.rel := by
    rw [List.map_map]
    rfl
  constructor
  · rintro ⟨made, distinct⟩
    refine ⟨List.forall_mem_map.2 fun entry mem => ?_, names_eq ▸ distinct⟩
    rcases made entry mem with ⟨endpoint, made⟩
    exact ⟨endpoint, (made_iff_first entry endpoint).1 made⟩
  · rintro ⟨made, distinct⟩
    refine ⟨fun entry mem => ?_, names_eq ▸ distinct⟩
    rcases List.forall_mem_map.1 made entry mem with ⟨endpoint, made⟩
    exact ⟨endpoint, (made_iff_first entry endpoint).2 made⟩

theorem fine_of_same (same : entries.map Prod.fst = others.map Prod.fst)
    (h : Fine docsBase resource names entries) : Fine docsBase resource names others :=
  fine_iff.2 (same ▸ fine_iff.1 h)

theorem forall₂_made_iff :
    List.Forall₂ (Made docsBase resource) entries endpoints ↔
      List.Forall₂ (fun link => Made docsBase resource (link, 0)) (entries.map Prod.fst)
        endpoints := by
  rw [List.forall₂_map_left_iff]
  have each : Made docsBase resource = fun entry => Made docsBase resource (entry.1, 0) :=
    funext fun entry => funext fun endpoint => propext (made_iff_first entry endpoint)
  rw [← each]

theorem ok_of_same (same : entries.map Prod.fst = others.map Prod.fst)
    (h : (ofPublic docsBase resource [] entries).result = .ok endpoints) :
    (ofPublic docsBase resource [] others).result = .ok endpoints := by
  rcases (result_ofPublic_eq_ok_iff List.nodup_nil).1 h with ⟨fine, each⟩
  refine (result_ofPublic_eq_ok_iff List.nodup_nil).2 ⟨fine_of_same same fine, ?_⟩
  exact forall₂_made_iff.2 (same ▸ forall₂_made_iff.1 each)

theorem fault_of_same (same : entries.map Prod.fst = others.map Prod.fst)
    (h : (ofPublic docsBase resource [] entries).result = .error e) :
    ∃ e', (ofPublic docsBase resource [] others).result = .error e' ∧
      e.SameButPosition resource e' := by
  rcases (result_ofPublic_eq_error_iff List.nodup_nil).1 h with
    ⟨before, entry, after, rfl, fine, fault⟩
  -- The other list splits at the same link.
  rw [List.map_append, List.map_cons] at same
  rcases List.map_eq_append_iff.1 same.symm with ⟨before', rest, rfl, sameBefore, sameRest⟩
  rcases List.map_eq_cons_iff.1 sameRest with ⟨other, after', rfl, sameLink, -⟩
  have fine' := fine_of_same sameBefore.symm fine
  rcases fault with failed | ⟨⟨endpoint, made⟩, clash, rfl⟩
  · rcases error_of_same sameLink.symm failed with ⟨e', failed', shown⟩
    exact ⟨e', (result_ofPublic_eq_error_iff List.nodup_nil).2
      ⟨before', other, after', rfl, fine', .inl failed'⟩, shown⟩
  · have names_eq : before.map methodOfEntry = before'.map methodOfEntry := by
      have := congrArg (List.map fun link : Link => methodName link.rel) sameBefore
      rw [List.map_map, List.map_map] at this
      exact this.symm
    have name_eq : methodOfEntry entry = methodOfEntry other :=
      congrArg (fun link : Link => methodName link.rel) sameLink.symm
    refine ⟨.repeatedMethod resource (methodOfEntry entry),
      (result_ofPublic_eq_error_iff List.nodup_nil).2
        ⟨before', other, after', rfl, fine', .inr ⟨⟨endpoint, ?_⟩, ?_, ?_⟩⟩, .inl rfl⟩
    · exact (made_iff sameLink.symm).1 made
    · rwa [← names_eq, ← name_eq]
    · rw [name_eq]

/-- Links without the private ones are the same links wherever these stand. -/
theorem links_publicLinks (i : Nat) (links : List Link) :
    (publicLinks i links).map Prod.fst = links.filter fun link => !link.isPrivate := by
  rw [publicLinks, ← List.zipIdx_map_fst i links, List.filter_map, List.zipIdx_map_fst]
  rfl

end Endpoint

/-! ## Resources -/

namespace Resource

open Endpoint

theorem result_ofLinks (docsBase : Option String) (name : String) (links : List Link) :
    (ofLinks docsBase name links).result =
      (ofPublic docsBase name [] (publicLinks 0 links)).result.map fun endpoints =>
        { typeName := name
          client := Naming.camelCase (Naming.plural name)
          className := Naming.pascalCase name
          endpoints } := by
  rw [ofLinks, ofLinks_eq_ofPublic, Checked.result_bind]
  cases (ofPublic docsBase name [] (publicLinks 0 links)).result with
  | error failure => rfl
  | ok endpoints => rfl

/-- A resource is made if and only if each public link becomes an endpoint and the names of their
methods are distinct, and then it has these endpoints in order.  Else the error is that of the first
public link at fault.  Other links with the same public ones, in the same order, give the same
resource, or an error that differs in the position of a link at most. -/
theorem ofLinks_all_or_nothing (docsBase : Option String) (name : String) (links : List Link) :
    ((∃ resource, (ofLinks docsBase name links).result = .ok resource) ↔
      Fine docsBase name [] (publicLinks 0 links)) ∧
    (∀ resource, (ofLinks docsBase name links).result = .ok resource →
      resource.typeName = name ∧
      resource.client = Naming.camelCase (Naming.plural name) ∧
      resource.className = Naming.pascalCase name ∧
      List.Forall₂ (Made docsBase name) (publicLinks 0 links) resource.endpoints) ∧
    (∀ e, (ofLinks docsBase name links).result = .error e ↔
      FirstFault docsBase name [] (publicLinks 0 links) e) ∧
    (∀ others : List Link,
      (others.filter fun link => !link.isPrivate) = (links.filter fun link => !link.isPrivate) →
      (∀ resource, (ofLinks docsBase name links).result = .ok resource →
        (ofLinks docsBase name others).result = .ok resource) ∧
      (∀ e, (ofLinks docsBase name links).result = .error e →
        ∃ e', (ofLinks docsBase name others).result = .error e' ∧
          e.SameButPosition name e')) := by
  have error_iff : ∀ e, (ofLinks docsBase name links).result = .error e ↔
      (ofPublic docsBase name [] (publicLinks 0 links)).result = .error e := by
    intro e
    rw [result_ofLinks, map_eq_error_iff]
  refine ⟨?_, ?_, ?_, ?_⟩
  · constructor
    · rintro ⟨resource, h⟩
      rw [result_ofLinks] at h
      rcases ok_of_map h with ⟨endpoints, made, -⟩
      exact ((result_ofPublic_eq_ok_iff List.nodup_nil).1 made).1
    · intro fine
      rcases exists_forall₂ fine.made with ⟨endpoints, each⟩
      rw [result_ofLinks, (result_ofPublic_eq_ok_iff List.nodup_nil).2 ⟨fine, each⟩]
      exact ⟨_, rfl⟩
  · intro resource h
    rw [result_ofLinks] at h
    rcases ok_of_map h with ⟨endpoints, made, rfl⟩
    exact ⟨rfl, rfl, rfl, ((result_ofPublic_eq_ok_iff List.nodup_nil).1 made).2⟩
  · intro e
    rw [error_iff, result_ofPublic_eq_error_iff List.nodup_nil]
  · intro others samePublic
    have same : (publicLinks 0 links).map Prod.fst = (publicLinks 0 others).map Prod.fst := by
      rw [links_publicLinks, links_publicLinks, samePublic]
    constructor
    · intro resource h
      rw [result_ofLinks] at h ⊢
      rcases ok_of_map h with ⟨endpoints, made, rfl⟩
      rw [ok_of_same same made]
      rfl
    · intro e h
      rcases fault_of_same same ((error_iff e).1 h) with ⟨e', failed, shown⟩
      exact ⟨e', by rw [result_ofLinks, failed]; rfl, shown⟩

/-- A private link with a method that is none. -/
def hiddenLink : Link :=
  { bareLink "create" with method := "TRACE", isPrivate := true }

/-- A link whose request body has a leaf for its data. -/
def leafLink : Link :=
  { bareLink "update" with
    schema := some (.object [("properties",
      .object [("data", .object [("type", .string "string")])])]) }

/-- A private link is passed over, although it is faulty and has the relation of a public one, and
the error of the link behind it tells the position of that link. -/
theorem ofLinks_all_or_nothing_hiddenLink :
    (ofLinks none "article" [hiddenLink, bareLink "create"]).result = .ok {
      typeName := "article"
      client := "articles"
      className := "Article"
      endpoints := [bareEndpoint "create" "create" "rawCreate"] } ∧
    ∃ e', (ofLinks none "article" [hiddenLink, leafLink]).result = .error e' ∧
      SchemaError.SameButPosition "article"
        (.unknownShape "#/definitions/article/links/0/schema/properties/data"
          "\x7b\"type\":\"string\"\x7d") e' := by
  have made : (ofLinks none "article" [bareLink "create"]).result = .ok {
      typeName := "article"
      client := "articles"
      className := "Article"
      endpoints := [bareEndpoint "create" "create" "rawCreate"] } := by decide +kernel
  have failed : (ofLinks none "article" [leafLink]).result =
      .error (.unknownShape "#/definitions/article/links/0/schema/properties/data"
        "\x7b\"type\":\"string\"\x7d") := by decide +kernel
  exact ⟨((ofLinks_all_or_nothing none "article" [bareLink "create"]).2.2.2
      [hiddenLink, bareLink "create"] rfl).1 _ made,
    ((ofLinks_all_or_nothing none "article" [leafLink]).2.2.2 [hiddenLink, leafLink] rfl).2 _
      failed⟩

end Resource

end HyperSchema
