import HyperSchema.Proofs.Entries
import HyperSchema.Proofs.Schema.Places
import HyperSchema.Proofs.Schema.Stops

/-!
# Rearrangement — other orders of the branches of unions

The branches of a union stand in some order, and a schema means the same in every other one.  This
file defines:

* `Schema.Rearranged`, values that differ in the order of the branches under some `anyOf`, at any
  depth, with `Schema.Rearranged.symm`;
* `Schema.MembersRearranged` and `Schema.NodeRearranged`, what stays of an object and of a node;
* `Schema.exists_stop_of_rearranged`: a rearranged schema has the same stops, in some order.
-/

namespace HyperSchema.Schema

/-! ## Other orders -/

/-- A value comes from another one if the branches under some `anyOf` are put into another order,
anywhere in it and any number of times. -/
inductive Rearranged : Json → Json → Prop where
  | refl (value : Json) : Rearranged value value
  | branches {members : Entries Json} {branches branches' : List Json} :
      members.get? "anyOf" = some (.array branches) → branches.Perm branches' →
        Rearranged (.object members) (.object (members.insert "anyOf" (.array branches')))
  | member {members : Entries Json} {name : String} {value value' : Json} :
      members.get? name = some value → Rearranged value value' →
        Rearranged (.object members) (.object (members.insert name value'))
  | item {items : List Json} {i : Nat} {value value' : Json} :
      items[i]? = some value → Rearranged value value' →
        Rearranged (.array items) (.array (items.set i value'))
  | trans {value between value' : Json} :
      Rearranged value between → Rearranged between value' → Rearranged value value'

variable {value value' schema schema' : Json} {members members' : Entries Json}
  {items : List Json}

namespace Rearranged

/-- Other orders under a name, where the members afterwards are known. -/
theorem under (name : String) (found : members.get? name = some value)
    (inner : Rearranged value value') (put : members.insert name value' = members') :
    Rearranged (.object members) (.object members') :=
  put ▸ .member found inner

theorem symm (rearranged : Rearranged value value') : Rearranged value' value := by
  -- What was put under a name is put back, and the first value stands there again.
  induction rearranged with
  | refl value => exact .refl value
  | @branches members branches branches' found perm =>
      have stored : (members.insert "anyOf" (.array branches')).get? "anyOf" =
          some (.array branches') := by
        rw [Entries.get?_insert, if_pos rfl]
      have back := Rearranged.branches stored perm.symm
      rwa [Entries.insert_insert, Entries.insert_eq_self found] at back
  | @member members name value value' found _ ih =>
      have stored : (members.insert name value').get? name = some value' := by
        rw [Entries.get?_insert, if_pos rfl]
      have back := Rearranged.member stored ih
      rwa [Entries.insert_insert, Entries.insert_eq_self found] at back
  | @item items i value value' found _ ih =>
      rcases List.getElem?_eq_some_iff.1 found with ⟨inside, rfl⟩
      have stored : (items.set i value')[i]? = some value' := List.getElem?_set_self inside
      have back := Rearranged.item stored ih
      rwa [List.set_set, List.set_getElem_self] at back
  | trans _ _ first second => exact second.trans first

/-! ## What stays of a value -/

/-- Where the items of an array are put into other forms one at a time, each keeps its place. -/
theorem forall₂_set {i : Nat} (found : items[i]? = some value)
    (rearranged : Rearranged value value') :
    List.Forall₂ Rearranged items (items.set i value') := by
  induction items generalizing i with
  | nil => cases found
  | cons first rest ih =>
      cases i with
      | zero =>
          cases found
          exact .cons rearranged (List.forall₂_same.2 fun item _ => .refl item)
      | succ i => exact .cons (.refl first) (ih found)

/-- An array stays an array, and its items stay in their places. -/
theorem of_array (rearranged : Rearranged (.array items) value') :
    ∃ items', value' = .array items' ∧ List.Forall₂ Rearranged items items' := by
  generalize whole : Json.array items = value at rearranged
  induction rearranged generalizing items with
  | refl value =>
      subst whole
      exact ⟨items, rfl, List.forall₂_same.2 fun item _ => .refl item⟩
  | branches => cases whole
  | member => cases whole
  | item found inner _ =>
      cases whole
      exact ⟨_, rfl, forall₂_set found inner⟩
  | trans _ _ first second =>
      rcases first whole with ⟨between, rfl, front⟩
      rcases second rfl with ⟨items', rfl, back⟩
      exact ⟨items', rfl, forall₂_trans (fun _ _ _ => .trans) front back⟩

/-- What is neither an array nor an object stays. -/
theorem eq_of_plain (rearranged : Rearranged value value') (noArray : value.items? = none)
    (noObject : value.members? = none) : value' = value := by
  induction rearranged with
  | refl value => rfl
  | branches => cases noObject
  | member => cases noObject
  | item => cases noArray
  | trans _ _ first second =>
      rcases first noArray noObject
      exact second noArray noObject

end Rearranged

/-- The members of an object after other orders of branches: the same names, of which all but
`anyOf` have rearranged values; an array under `anyOf` has the same items, rearranged, in some
order. -/
structure MembersRearranged (members members' : Entries Json) : Prop where
  keys : members'.keys = members.keys
  other : ∀ name, name ≠ "anyOf" → Option.Rel Rearranged (members.get? name) (members'.get? name)
  branches : ∀ branches, members.get? "anyOf" = some (.array branches) →
    ∃ branches', members'.get? "anyOf" = some (.array branches') ∧
      ∀ branch ∈ branches, ∃ branch' ∈ branches', Rearranged branch branch'

namespace MembersRearranged

theorem refl (members : Entries Json) : MembersRearranged members members where
  keys := rfl
  other name _ := by
    cases members.get? name with
    | none => exact .none
    | some value => exact .some (.refl value)
  branches branches found := ⟨branches, found, fun branch mem => ⟨branch, mem, .refl branch⟩⟩

theorem trans {between : Entries Json} (first : MembersRearranged members between)
    (second : MembersRearranged between members') : MembersRearranged members members' where
  keys := second.keys.trans first.keys
  other name different := by
    have front := first.other name different
    have back := second.other name different
    revert front back
    cases members.get? name <;> cases between.get? name <;> cases members'.get? name <;>
      rintro ⟨front⟩ ⟨back⟩
    · exact .none
    · exact .some (front.trans back)
  branches branches found := by
    rcases first.branches branches found with ⟨middle, found, front⟩
    rcases second.branches middle found with ⟨branches', found', back⟩
    refine ⟨branches', found', fun branch mem => ?_⟩
    rcases front branch mem with ⟨inner, mem, toInner⟩
    rcases back inner mem with ⟨branch', mem, fromInner⟩
    exact ⟨branch', mem, toInner.trans fromInner⟩

end MembersRearranged

namespace Rearranged

/-- An object stays an object. -/
theorem of_object (rearranged : Rearranged (.object members) value') :
    ∃ members', value' = .object members' ∧ MembersRearranged members members' := by
  generalize whole : Json.object members = value at rearranged
  induction rearranged generalizing members with
  | refl value =>
      subst whole
      exact ⟨members, rfl, .refl members⟩
  | @branches inner branches branches' found perm =>
      -- Nothing but the array under `anyOf` is another one, and it has the same items.
      cases whole
      have known : "anyOf" ∈ Entries.keys inner :=
        List.mem_map.2 ⟨_, Entries.mem_of_get? found, rfl⟩
      refine ⟨_, rfl, ⟨?_, fun name different => ?_, fun others isOthers => ?_⟩⟩
      · rw [Entries.keys_insert, if_pos known]
      · rw [Entries.get?_insert, if_neg (Ne.symm different)]
        exact (MembersRearranged.refl inner).other name different
      · cases found.symm.trans isOthers
        refine ⟨branches', by rw [Entries.get?_insert, if_pos rfl], fun branch mem => ?_⟩
        exact ⟨branch, perm.mem_iff.1 mem, .refl branch⟩
  | @member inner name value value' found within _ =>
      -- The name may be `anyOf` as well: then the branches stay in order and are rearranged inside.
      cases whole
      have known : name ∈ Entries.keys inner :=
        List.mem_map.2 ⟨_, Entries.mem_of_get? found, rfl⟩
      refine ⟨_, rfl, ⟨?_, fun other different => ?_, fun branches isBranches => ?_⟩⟩
      · rw [Entries.keys_insert, if_pos known]
      · rw [Entries.get?_insert]
        split
        · rename_i same
          rw [← same, found]
          exact .some within
        · exact (MembersRearranged.refl inner).other other different
      · rw [Entries.get?_insert]
        split
        · rename_i same
          subst same
          cases found.symm.trans isBranches
          rcases within.of_array with ⟨branches', rfl, itemwise⟩
          exact ⟨branches', rfl, fun branch mem => exists_of_forall₂ itemwise mem⟩
        · exact (MembersRearranged.refl inner).branches branches isBranches
  | item => cases whole
  | trans _ _ first second =>
      rcases first whole with ⟨between, rfl, front⟩
      rcases second rfl with ⟨members', rfl, back⟩
      exact ⟨members', rfl, front.trans back⟩

theorem string?_eq (rearranged : Rearranged value value') : value'.string? = value.string? := by
  cases value with
  | array items =>
      rcases rearranged.of_array with ⟨items', rfl, -⟩
      rfl
  | object members =>
      rcases rearranged.of_object with ⟨members', rfl, -⟩
      rfl
  | _ => rw [rearranged.eq_of_plain rfl rfl]

end Rearranged

/-! ## What stays of the keywords -/

namespace MembersRearranged

theorem string?_eq (rearranged : MembersRearranged members members') {name : String}
    (different : name ≠ "anyOf") :
    (members'.get? name).bind Json.string? = (members.get? name).bind Json.string? := by
  have related := rearranged.other name different
  revert related
  cases members.get? name <;> cases members'.get? name <;> rintro ⟨related⟩
  · rfl
  · exact related.string?_eq

theorem contains_eq (rearranged : MembersRearranged members members') (name : String) :
    members'.contains name = members.contains name := by
  rw [Bool.eq_iff_iff, Entries.contains_iff, Entries.contains_iff, rearranged.keys]

theorem admitsType_eq (rearranged : MembersRearranged members members') (wanted : String) :
    admitsType members' wanted = admitsType members wanted := by
  have related := rearranged.other "type" (by decide)
  unfold admitsType
  revert related
  cases members.get? "type" <;> cases members'.get? "type" <;> rintro ⟨related⟩
  · rfl
  · rename_i value value'
    cases value with
    | array names =>
        rcases related.of_array with ⟨names', rfl, itemwise⟩
        have same : names'.map Json.string? = names.map Json.string? :=
          map_eq_of_forall₂ (fun _ _ related => related.string?_eq) itemwise
        have any (names : List Json) : (names.any fun name => name.string? == some wanted) =
            (names.map Json.string?).any fun name => name == some wanted := by
          rw [List.any_map]
          rfl
        show names'.any _ = names.any _
        rw [any, any, same]
    | object members =>
        rcases related.of_object with ⟨members', rfl, -⟩
        rfl
    | _ => rw [related.eq_of_plain rfl rfl]

end MembersRearranged

theorem Rearranged.within (rearranged : Rearranged (.object members) (.object members')) :
    MembersRearranged members members' := by
  rcases rearranged.of_object with ⟨_, same, within⟩
  cases same
  exact within

theorem member?_rearranged (rearranged : Rearranged value value') {name : String}
    (different : name ≠ "anyOf") :
    Option.Rel Rearranged (value.member? name) (value'.member? name) := by
  cases value with
  | object members =>
      rcases rearranged.of_object with ⟨members', rfl, within⟩
      exact within.other name different
  | array items =>
      rcases rearranged.of_array with ⟨items', rfl, -⟩
      exact .none
  | _ =>
      rw [rearranged.eq_of_plain rfl rfl]
      exact .none

/-- A text under a name other than `anyOf` stays. -/
theorem member?_text_of_rearranged (rearranged : Rearranged value value') {name text : String}
    (different : name ≠ "anyOf") (isText : value.member? name = some (.string text)) :
    value'.member? name = some (.string text) := by
  rcases exists_of_rel (member?_rearranged rearranged different) isText with ⟨found, stands, inner⟩
  rw [stands, inner.eq_of_plain rfl rfl]

/-- Properties that are declared stay declared, with the same names and rearranged schemas. -/
theorem properties_rearranged (rearranged : Rearranged (.object members) (.object members')) :
    Option.Rel (fun props props' => Rearranged (.object props) (.object props'))
      (properties members) (properties members') := by
  have related := rearranged.within.other "properties" (by decide)
  unfold properties
  revert related
  cases members.get? "properties" <;> cases members'.get? "properties" <;> rintro ⟨related⟩
  · exact .none
  · rename_i value value'
    cases value with
    | object props =>
        rcases related.of_object with ⟨props', rfl, -⟩
        exact .some related
    | array items =>
        rcases related.of_array with ⟨items', rfl, -⟩
        exact .none
    | _ =>
        rw [related.eq_of_plain rfl rfl]
        exact .none

/-! ## What stays of a node -/

/-- The shapes of a value and of one with other orders of branches. -/
inductive NodeRearranged : Node → Node → Prop where
  | reference (target : String) : NodeRearranged (.reference target) (.reference target)
  | union {members members' : Entries Json} {branches branches' : List Json} :
      (∀ branch ∈ branches, ∃ branch' ∈ branches', Rearranged branch branch') →
        NodeRearranged (.union members branches) (.union members' branches')
  | object {members members' : Entries Json} :
      Rearranged (.object members) (.object members') →
        NodeRearranged (.object members) (.object members')
  | single {members members' : Entries Json} {item item' : Json} :
      Rearranged item item' →
        NodeRearranged (.array members (.single item)) (.array members' (.single item'))
  | tuple {members members' : Entries Json} {schemas schemas' : List Json} :
      List.Forall₂ Rearranged schemas schemas' →
        NodeRearranged (.array members (.tuple schemas)) (.array members' (.tuple schemas'))
  | missing {members members' : Entries Json} :
      NodeRearranged (.array members .missing) (.array members' .missing)
  | leaf : NodeRearranged .leaf .leaf

theorem itemsOf_rearranged (rearranged : Rearranged (.object members) (.object members')) :
    NodeRearranged (.array members (itemsOf members)) (.array members' (itemsOf members')) := by
  have related := rearranged.within.other "items" (by decide)
  unfold itemsOf
  revert related
  cases members.get? "items" <;> cases members'.get? "items" <;> rintro ⟨related⟩
  · exact .missing
  · rename_i value value'
    cases value with
    | array schemas =>
        rcases related.of_array with ⟨schemas', rfl, itemwise⟩
        exact .tuple itemwise
    | object members =>
        rcases related.of_object with ⟨members', rfl, -⟩
        exact .single related
    | _ =>
        rw [related.eq_of_plain rfl rfl]
        exact .single (.refl _)

theorem plain_rearranged (rearranged : Rearranged (.object members) (.object members')) :
    NodeRearranged (Node.plain members) (Node.plain members') := by
  have within := rearranged.within
  rw [Node.plain, Node.plain, within.contains_eq, within.contains_eq, within.admitsType_eq,
    within.admitsType_eq]
  split
  · exact .object rearranged
  · split
    · exact itemsOf_rearranged rearranged
    · exact .leaf

theorem get?_of_items? {name : String} {items : List Json}
    (found : (members.get? name).bind Json.items? = some items) :
    members.get? name = some (.array items) := by
  rcases Option.bind_eq_some_iff.1 found with ⟨value, stands, isArray⟩
  cases value with
  | array items' =>
      cases isArray
      exact stands
  | _ => cases isArray

theorem node_rearranged (rearranged : Rearranged schema schema') :
    NodeRearranged schema.node schema'.node := by
  cases schema with
  | object members =>
      rcases rearranged.of_object with ⟨members', rfl, within⟩
      have back := rearranged.symm.within
      show NodeRearranged (Node.ofMembers members) (Node.ofMembers members')
      have sameTarget : (Entries.get? members' "$ref").bind Json.string? =
          (Entries.get? members "$ref").bind Json.string? :=
        within.string?_eq (by decide)
      rw [Node.ofMembers_eq, Node.ofMembers_eq, sameTarget]
      cases (Entries.get? members "$ref").bind Json.string? with
      | some target => exact .reference target
      | none =>
          cases found : (Entries.get? members "anyOf").bind Json.items? with
          | some branches =>
              rcases within.branches branches (get?_of_items? found) with
                ⟨branches', isArray, related⟩
              rw [isArray]
              exact .union related
          | none =>
              -- Branches on the other side only would be branches on this side, too.
              cases found' : (Entries.get? members' "anyOf").bind Json.items? with
              | none => exact plain_rearranged rearranged
              | some branches' =>
                  rcases back.branches branches' (get?_of_items? found') with ⟨branches, isArray, -⟩
                  rw [isArray] at found
                  cases found
  | array items =>
      rcases rearranged.of_array with ⟨items', rfl, -⟩
      exact .leaf
  | _ =>
      rw [rearranged.eq_of_plain rfl rfl]
      exact .leaf

theorem isNullSchema_of_rearranged (rearranged : Rearranged schema schema')
    (isNull : schema.isNullSchema = true) : schema'.isNullSchema = true := by
  rcases Place.isNullSchema_iff.1 isNull with ⟨leaf, isText⟩
  refine Place.isNullSchema_iff.2 ⟨?_, ?_⟩
  · have nodes := node_rearranged rearranged
    rw [leaf] at nodes
    generalize schema'.node = node at nodes
    cases nodes
    rfl
  · exact member?_text_of_rearranged rearranged (by decide) isText

theorem isNullSchema_rearranged (rearranged : Rearranged schema schema') :
    schema'.isNullSchema = schema.isNullSchema :=
  Bool.eq_iff_iff.2
    ⟨isNullSchema_of_rearranged rearranged.symm, isNullSchema_of_rearranged rearranged⟩

/-! ## What stays of the stops -/

/-- A rearranged schema has the same stops, rearranged, in some order. -/
theorem exists_stop_of_rearranged (rearranged : Rearranged schema schema')
    {stop : Option (Entries Json)} (mem : stop ∈ stops schema) :
    ∃ stop' ∈ stops schema',
      Option.Rel (fun object object' => Rearranged (.object object) (.object object'))
        stop stop' := by
  -- The induction is on the size: a branch has its partner at another position of the union.
  induction size : sizeOf schema using Nat.strongRecOn generalizing schema schema' with
  | _ n ih =>
      subst size
      have nodes := node_rearranged rearranged
      generalize shape : schema.node = node, shape' : schema'.node = node' at nodes
      rw [stops_eq, shape] at mem
      rw [stops_eq, shape']
      cases nodes with
      | reference target => cases mem
      | object inner =>
          cases List.mem_singleton.1 mem
          exact ⟨_, List.mem_singleton.2 rfl, .some inner⟩
      | union related =>
          rcases List.mem_flatMap.1 mem with ⟨branch, isBranch, mem⟩
          rcases related branch isBranch with ⟨branch', isBranch', inner⟩
          split at mem
          · cases mem
          · rename_i admits
            have smaller : sizeOf branch < sizeOf schema :=
              Nat.lt_trans (List.sizeOf_lt_of_mem isBranch) (sizeOf_branches_lt shape)
            rcases ih _ smaller inner mem rfl with ⟨stop', mem', alike⟩
            refine ⟨stop', List.mem_flatMap.2 ⟨branch', isBranch', ?_⟩, alike⟩
            rwa [isNullSchema_rearranged inner, if_neg admits]
      | single inner => exact ih _ (sizeOf_single_lt shape) inner mem rfl
      | tuple related =>
          rcases List.mem_flatMap.1 mem with ⟨place, isPlace, mem⟩
          rcases exists_of_forall₂ related isPlace with ⟨place', isPlace', inner⟩
          have smaller : sizeOf place < sizeOf schema :=
            Nat.lt_trans (List.sizeOf_lt_of_mem isPlace) (sizeOf_tuple_lt shape)
          rcases ih _ smaller inner mem rfl with ⟨stop', mem', alike⟩
          exact ⟨stop', List.mem_flatMap.2 ⟨place', isPlace', mem'⟩, alike⟩
      | missing => cases mem
      | leaf =>
          cases List.mem_singleton.1 mem
          exact ⟨none, List.mem_singleton.2 rfl, .none⟩

/-- A rearranged schema reaches the same object schemas, rearranged, in some order. -/
theorem exists_object_of_rearranged (rearranged : Rearranged schema schema')
    {object : Entries Json} (mem : object ∈ objects schema) :
    ∃ object' ∈ objects schema', Rearranged (.object object) (.object object') := by
  rcases exists_stop_of_rearranged rearranged (mem_objects_iff.1 mem) with ⟨stop', mem', alike⟩
  cases alike with
  | some inner => exact ⟨_, mem_objects_iff.2 mem', inner⟩

/-- A rearranged schema reaches a stray leaf if the schema does. -/
theorem none_mem_stops_rearranged (rearranged : Rearranged schema schema')
    (mem : none ∈ stops schema) : none ∈ stops schema' := by
  rcases exists_stop_of_rearranged rearranged mem with ⟨stop', mem', alike⟩
  cases alike
  exact mem'

/-- What all object schemas in reach have in common, all of them have in common afterwards. -/
theorem forall_objects_of_rearranged {P : Entries Json → Prop}
    (stays : ∀ object object', Rearranged (.object object) (.object object') → P object → P object')
    (rearranged : Rearranged schema schema')
    (all : objects schema ≠ [] ∧ ∀ object ∈ objects schema, P object) :
    objects schema' ≠ [] ∧ ∀ object ∈ objects schema', P object := by
  rcases all with ⟨nonempty, all⟩
  constructor
  · rcases List.exists_mem_of_ne_nil _ nonempty with ⟨object, mem⟩
    rcases exists_object_of_rearranged rearranged mem with ⟨object', mem', -⟩
    exact List.ne_nil_of_mem mem'
  · intro object' mem'
    rcases exists_object_of_rearranged rearranged.symm mem' with ⟨object, mem, back⟩
    exact stays object object' back.symm (all object mem)

/-- What one of the object schemas in reach has, one of them has afterwards. -/
theorem mem_flatMap_objects_of_rearranged {α : Type} {f : Entries Json → List α}
    (stays : ∀ object object', Rearranged (.object object) (.object object') → f object ⊆ f object')
    (rearranged : Rearranged schema schema') :
    (objects schema).flatMap f ⊆ (objects schema').flatMap f := by
  intro element mem
  rcases List.mem_flatMap.1 mem with ⟨object, inside, mem⟩
  rcases exists_object_of_rearranged rearranged inside with ⟨object', inside', alike⟩
  exact List.mem_flatMap.2 ⟨object', inside', stays object object' alike mem⟩

end HyperSchema.Schema
