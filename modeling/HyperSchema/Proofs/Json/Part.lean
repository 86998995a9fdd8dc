import HyperSchema.Json.Pointer

/-!
# Part — the values inside a value

What stands somewhere inside a document.  This file defines:

* `Json.induct`, induction over values, where a list counts through its elements;
* `Json.Part`, the values inside a value, the value itself included;
* `Json.part_of_pointer?`: what stands at a pointer is a part.
-/

namespace HyperSchema.Json

theorem induct {P : Json → Prop} (null : P null) (bool : ∀ value, P (bool value))
    (number : ∀ value, P (number value)) (string : ∀ text, P (string text))
    (array : ∀ items, (∀ item ∈ items, P item) → P (array items))
    (object : ∀ members : List (String × Json), (∀ entry ∈ members, P entry.2) → P (object members))
    (value : Json) : P value := by
  refine @Json.rec P (fun items => ∀ item ∈ items, P item)
    (fun members => ∀ entry ∈ members, P entry.2)
    (fun entry => P entry.2) null bool number string array object ?_ ?_ ?_ ?_ ?_ value
  · exact nofun
  · intro head tail hh ht
    exact List.forall_mem_cons.2 ⟨hh, ht⟩
  · exact nofun
  · intro head tail hh ht
    exact List.forall_mem_cons.2 ⟨hh, ht⟩
  · intro name value h
    exact h

/-- A value stands somewhere inside another, or is that other itself. -/
inductive Part (part : Json) : Json → Prop where
  | whole : Part part part
  | item {items : List Json} {item : Json} :
      item ∈ items → Part part item → Part part (.array items)
  | member {members : List (String × Json)} {name : String} {value : Json} :
      (name, value) ∈ members → Part part value → Part part (.object members)

theorem Part.trans {a b c : Json} (ab : Part a b) (bc : Part b c) : Part a c := by
  induction bc with
  | whole => exact ab
  | item mem _ ih => exact .item mem ih
  | member mem _ ih => exact .member mem ih

theorem part_of_member? {value part : Json} {name : String} (h : value.member? name = some part) :
    Part part value := by
  cases value with
  | object members => exact .member (Entries.mem_of_get? h) .whole
  | _ => cases h

theorem part_of_child? {value child : Json} {segment : String}
    (h : value.child? segment = some child) : Part child value := by
  unfold child? at h
  split at h
  · exact .member (Entries.mem_of_get? h) .whole
  · rcases Option.bind_eq_some_iff.1 h with ⟨i, -, found⟩
    exact .item (List.mem_of_getElem? found) .whole
  · cases h

theorem part_of_at? {value part : Json} {segments : List String}
    (h : value.at? segments = some part) : Part part value := by
  induction segments generalizing value with
  | nil =>
      cases h
      exact .whole
  | cons segment others ih =>
      rcases Option.bind_eq_some_iff.1 h with ⟨child, found, rest⟩
      exact (ih rest).trans (part_of_child? found)

/-- What stands at a pointer is a part. -/
theorem part_of_pointer? {value part : Json} {text : String} (h : value.pointer? text = some part) :
    Part part value := by
  rcases Option.bind_eq_some_iff.1 h with ⟨segments, -, found⟩
  exact part_of_at? found

end HyperSchema.Json
