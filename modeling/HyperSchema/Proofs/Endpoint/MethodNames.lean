import HyperSchema.Proofs.Endpoint.Extraction
import HyperSchema.Proofs.Naming
import Mathlib.Data.List.Infix
import Mathlib.Data.List.Nodup

/-!
# Method names — when the methods of a resource have distinct names

An endpoint has two methods, and only the names of the first ones are compared when a resource is
made.  This file shows:

* `Endpoint.rawMethodName_eq`: the second name is `raw` and the first name with a capital;
* `Endpoint.methodName_raw`: a relation behind `raw_` has for its first name the second one of the
  relation;
* `Endpoint.nodup_names_of_ofLinks`: first names are distinct;
* `Resource.nodup_methodNames_iff`: all names are distinct if and only if no first name is a second
  one and no two first names differ in a capital alone.
-/

namespace HyperSchema

namespace Endpoint

open Naming

/-! ## Names of a relation -/

/-- The raw method is called like the other one, with a capital behind `raw`. -/
theorem rawMethodName_eq (rel : String) :
    rawMethodName rel = "raw" ++ capitalizeFirst (methodName rel) := by
  rw [rawMethodName, pascalCase_eq, methodName]

theorem methodStem_instances {rel : String} {stem : List Char}
    (plain : conventionalRels.lookup rel = none) (h : rel.toList = stem ++ "_instances".toList) :
    methodStem rel = String.ofList stem ++ "_list" := by
  have ends : endsWith rel.toList "_instances".toList = true :=
    List.isSuffixOf_iff_suffix.2 ⟨stem, h.symm⟩
  simp only [methodStem, plain, ends, if_true]
  rw [h, List.length_append, Nat.add_sub_cancel, List.take_left]

theorem methodStem_plain {rel : String} (plain : conventionalRels.lookup rel = none)
    (h : ¬ "_instances".toList <:+ rel.toList) : methodStem rel = rel := by
  have other : endsWith rel.toList "_instances".toList = false := by
    rw [Bool.eq_false_iff]
    exact fun ends => h (List.isSuffixOf_iff_suffix.1 ends)
  simp only [methodStem, plain, other, Bool.false_eq_true, if_false]

theorem lookup_raw (rel : String) : conventionalRels.lookup ("raw_" ++ rel) = none := by
  have first : ∀ entry ∈ conventionalRels, entry.1.toList.head? ≠ some 'r' := by decide
  refine List.lookup_eq_none_iff.2 fun entry mem => ?_
  rw [bne_iff_ne]
  intro same
  exact first entry mem (by simp [← same])

/-- What ends in `_instances` behind `raw_` did so before, or is `instances`. -/
theorem suffix_of_suffix_raw {rel : List Char} (other : rel ≠ "instances".toList)
    (h : "_instances".toList <:+ "raw_".toList ++ rel) : "_instances".toList <:+ rel := by
  rcases List.suffix_or_suffix_of_suffix h (List.suffix_append "raw_".toList rel) with
    inside | ⟨front, overlap⟩
  · exact inside
  · -- The ending starts inside of `raw_`, so that it starts with an end of it.
    rcases h with ⟨before, same⟩
    rw [← overlap, ← List.append_assoc] at same
    have split : before ++ front = ['r', 'a', 'w', '_'] := List.append_cancel_right same
    have cut : front ∈ ['r', 'a', 'w', '_'].tails := (List.mem_tails _ _).2 ⟨before, split⟩
    have bare : front ≠ ['_'] := by
      rintro rfl
      exact other (List.cons.inj overlap).2
    have empty : front = [] := by
      simp only [List.tails, List.mem_cons, bare, List.not_mem_nil, or_false, false_or] at cut
      rcases cut with rfl | rfl | rfl | rfl
      · cases overlap
      · cases overlap
      · cases overlap
      · rfl
    rw [empty, List.nil_append] at overlap
    exact overlap ▸ List.suffix_refl _

/-- Only relations with a name of their own lose it behind `raw_`. -/
theorem methodStem_raw {rel : String} (notSelf : rel ≠ "self") (notMe : rel ≠ "me") :
    methodStem ("raw_" ++ rel) = "raw_" ++ methodStem rel := by
  by_cases isInstances : rel = "instances"
  · subst isInstances
    decide
  · have plain : conventionalRels.lookup rel = none := by
      simp [conventionalRels, isInstances, notSelf, notMe]
    by_cases ends : "_instances".toList <:+ rel.toList
    · rcases ends with ⟨stem, h⟩
      have behind : ("raw_" ++ rel).toList = ("raw_".toList ++ stem) ++ "_instances".toList := by
        rw [String.toList_append, ← h, List.append_assoc]
      rw [methodStem_instances (lookup_raw rel) behind, methodStem_instances plain h.symm,
        String.ofList_append, String.ofList_toList, String.append_assoc]
    · have notBehind : ¬ "_instances".toList <:+ ("raw_" ++ rel).toList := by
        rw [String.toList_append]
        exact fun h => ends
          (suffix_of_suffix_raw (fun same => isInstances (String.toList_inj.1 same)) h)
      rw [methodStem_plain (lookup_raw rel) notBehind, methodStem_plain plain ends]

/-- Behind `raw_` a relation has for its method the raw method of the relation. -/
theorem methodName_raw {rel : String} (notSelf : rel ≠ "self") (notMe : rel ≠ "me") :
    methodName ("raw_" ++ rel) = rawMethodName rel := by
  have words_raw : words ("raw_" ++ methodStem rel).toList =
      "raw".toList :: words (methodStem rel).toList := by
    rw [String.toList_append]
    rfl
  rw [methodName, methodStem_raw notSelf notMe, camelCase, words_raw, rawMethodName, pascalCase]
  dsimp only
  rw [String.ofList_append, String.ofList_toList]

/-- The stem of a relation of ASCII is of ASCII. -/
theorem ascii_methodStem {rel : String} (ascii : ∀ c ∈ rel.toList, c.toNat < 128) :
    ∀ c ∈ (methodStem rel).toList, c.toNat < 128 := by
  unfold methodStem
  split
  · rename_i name found
    have all : (conventionalRels.all fun entry => entry.2.toList.all (·.toNat < 128)) = true := by
      decide
    simp only [List.all_eq_true, decide_eq_true_eq] at all
    rcases List.lookup_eq_some_iff.1 found with ⟨front, back, split, -⟩
    exact all (rel, name) (split ▸ by simp)
  · dsimp only
    split
    · have ending : ("_list".toList.all (·.toNat < 128)) = true := by decide
      simp only [List.all_eq_true, decide_eq_true_eq] at ending
      intro c mem
      rw [String.toList_append, String.toList_ofList, List.mem_append] at mem
      rcases mem with mem | mem
      · exact ascii c (List.mem_of_mem_take mem)
      · exact ending c mem
    · exact ascii

theorem methodName_inj_of_ascii {rel other : String} (ascii : ∀ c ∈ rel.toList, c.toNat < 128)
    (asciiOther : ∀ c ∈ other.toList, c.toNat < 128)
    (h : capitalizeFirst (methodName rel) = capitalizeFirst (methodName other)) :
    methodName rel = methodName other :=
  camelCase_inj_of_ascii (ascii_methodStem ascii) (ascii_methodStem asciiOther) h

/-! ## Names of endpoints -/

/-- The relations of the links that are not private. -/
def publicRels (links : List Link) : List String :=
  (links.filter fun link => !link.isPrivate).map Link.rel

variable {docsBase : Option String} {resource : String}

/-- The methods of the endpoints of some links are called after the public relations, in order. -/
theorem names_of_ofLinks {i : Nat} {names : List String} {links : List Link}
    {endpoints : List Endpoint}
    (h : (ofLinks docsBase resource i names links).result = .ok endpoints) :
    endpoints.map Endpoint.name = (publicRels links).map methodName ∧
      endpoints.map Endpoint.rawName = (publicRels links).map rawMethodName := by
  have rels : (publicLinks i links).map (fun entry => entry.1.rel) = publicRels links := by
    have links_eq : (publicLinks i links).map Prod.fst =
        links.filter fun link => !link.isPrivate := by
      rw [publicLinks, ← List.zipIdx_map_fst i links, List.filter_map, List.zipIdx_map_fst]
      rfl
    rw [publicRels, ← links_eq, List.map_map]
    rfl
  rw [← rels, List.map_map, List.map_map]
  constructor
  · refine map_eq_of_forall₂ ?_ (forall₂_of_ofLinks h)
    intro entry endpoint made
    exact (names_of_ofLink made).1
  · refine map_eq_of_forall₂ ?_ (forall₂_of_ofLinks h)
    intro entry endpoint made
    exact (names_of_ofLink made).2

/-- The first names are distinct, and none of them was taken before. -/
theorem nodup_names_of_ofLinks {i : Nat} {names : List String} {links : List Link}
    {endpoints : List Endpoint}
    (h : (ofLinks docsBase resource i names links).result = .ok endpoints) :
    (endpoints.map Endpoint.name).Nodup ∧ ∀ name ∈ endpoints.map Endpoint.name, name ∉ names := by
  induction links generalizing i names endpoints with
  | nil =>
      cases h
      exact ⟨List.nodup_nil, nofun⟩
  | cons link rest ih =>
      rw [ofLinks] at h
      split at h
      · exact ih h
      · rcases Checked.ok_of_bind h with ⟨endpoint, made, h⟩
        dsimp only at h
        split at h
        · cases h
        · rename_i fresh
          rcases Checked.ok_of_bind h with ⟨others, tail, h⟩
          cases h
          rcases ih tail with ⟨distinct, apart⟩
          refine ⟨List.nodup_cons.2 ⟨?_, distinct⟩, List.forall_mem_cons.2 ⟨?_, ?_⟩⟩
          · exact fun mem => apart _ mem List.mem_cons_self
          · exact fun mem => fresh (List.contains_iff_mem.2 mem)
          · exact fun name mem taken => apart name mem (List.mem_cons_of_mem _ taken)

/-- Names of relations and raw names together are distinct, where the names are, if and only if they
are apart and no two names differ in a first capital alone. -/
theorem nodup_append_rawNames_iff {rels : List String} (distinct : (rels.map methodName).Nodup) :
    (rels.map methodName ++ rels.map rawMethodName).Nodup ↔
      ∀ rel ∈ rels, ∀ other ∈ rels, methodName rel ≠ rawMethodName other ∧
        (capitalizeFirst (methodName rel) = capitalizeFirst (methodName other) →
          methodName rel = methodName other) := by
  have raw : rels.map rawMethodName =
      (rels.map methodName).map fun name => "raw" ++ capitalizeFirst name := by
    rw [List.map_map]
    exact List.map_congr_left fun rel _ => rawMethodName_eq rel
  rw [List.nodup_append, raw, List.nodup_map_iff_inj_on distinct, ← raw]
  simp only [List.forall_mem_map, String.append_right_inj]
  constructor
  · rintro ⟨-, injective, apart⟩ rel mem other mem'
    exact ⟨apart rel mem other mem', injective rel mem other mem'⟩
  · intro each
    exact ⟨distinct, fun rel mem other mem' => (each rel mem other mem').2,
      fun rel mem other mem' => (each rel mem other mem').1⟩

end Endpoint

/-! ## Methods of a resource -/

namespace Resource

open Endpoint Naming

/-- The names of all methods of a resource: those that work on entities, and the raw ones. -/
def methodNames (resource : Resource) : List String :=
  resource.endpoints.map Endpoint.name ++ resource.endpoints.map Endpoint.rawName

/-- The methods of a resource have distinct names if and only if no public relation has for its
method the raw method of another, and no two of their methods differ in a first capital alone.  The
latter never happens within ASCII; the former always does where a relation stands beside itself
behind `raw_`, unless its method has a name of its own. -/
theorem nodup_methodNames_iff {docsBase : Option String} {name : String} {links : List Link}
    {resource : Resource} (h : (ofLinks docsBase name links).result = .ok resource) :
    (resource.methodNames.Nodup ↔
      ∀ rel ∈ publicRels links, ∀ other ∈ publicRels links,
        methodName rel ≠ rawMethodName other ∧
          (capitalizeFirst (methodName rel) = capitalizeFirst (methodName other) →
            methodName rel = methodName other)) ∧
    ((∀ rel ∈ publicRels links, ∀ c ∈ rel.toList, c.toNat < 128) →
      (resource.methodNames.Nodup ↔
        ∀ rel ∈ publicRels links, ∀ other ∈ publicRels links,
          methodName rel ≠ rawMethodName other)) ∧
    (∀ rel ∈ publicRels links, "raw_" ++ rel ∈ publicRels links → rel ≠ "self" → rel ≠ "me" →
      ¬ resource.methodNames.Nodup) := by
  have made := (endpoints_of_ofLinks h).2
  have distinct := (nodup_names_of_ofLinks made).1
  rcases names_of_ofLinks made with ⟨names, rawNames⟩
  rw [names] at distinct
  have nodup_iff := nodup_append_rawNames_iff distinct
  rw [← names, ← rawNames] at nodup_iff
  refine ⟨nodup_iff, ?_, ?_⟩
  · intro ascii
    rw [methodNames, nodup_iff]
    constructor
    · exact fun each rel mem other mem' => (each rel mem other mem').1
    · intro apart rel mem other mem'
      exact ⟨apart rel mem other mem', methodName_inj_of_ascii (ascii rel mem) (ascii other mem')⟩
  · intro rel mem behind notSelf notMe nodup
    exact (nodup_iff.1 nodup _ behind rel mem).1 (methodName_raw notSelf notMe)

/-- A link of which nothing is known but its relation. -/
def bareLink (rel : String) : Link where
  method := "POST"
  rel
  title := ""
  description := none
  href := "/articles"
  hrefSchema := none
  schema := none
  targetSchema := none
  jobSchema := none
  isPrivate := false
  deprecation := none

/-- The endpoint of such a link, with the names of its methods. -/
def bareEndpoint (rel name rawName : String) : Endpoint where
  rel
  name
  rawName
  returnsCollection := false
  address := "/articles"
  method := .post
  comment := ""
  docs := none
  parameter := none
  requestTypeName := none
  requestShape := none
  queryTypeName := none
  queryRequired := false
  responseTypeName := none
  pageLimits := none
  deprecationNote := none
  simpleMethodAvailable := true

/-- What is made of a relation and of the same one behind `raw_`. -/
def clashingResource : Resource where
  typeName := "article"
  client := "articles"
  className := "Article"
  endpoints := [bareEndpoint "create" "create" "rawCreate",
    bareEndpoint "raw_create" "rawCreate" "rawRawCreate"]

/-- Two links are accepted although the raw method of the first is called like the method of the
second. -/
theorem not_nodup_methodNames_clashingResource :
    (ofLinks none "article" [bareLink "create", bareLink "raw_create"]).result =
        .ok clashingResource ∧
      ¬ clashingResource.methodNames.Nodup := by
  have made : (ofLinks none "article" [bareLink "create", bareLink "raw_create"]).result =
      .ok clashingResource := by decide +kernel
  exact ⟨made, (nodup_methodNames_iff made).2.2 "create" (by decide) (by decide) (by decide)
    (by decide)⟩

end Resource

end HyperSchema
