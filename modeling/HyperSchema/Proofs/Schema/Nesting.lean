import HyperSchema.Proofs.Schema.Inlining
import Mathlib.Data.List.Dedup
import Mathlib.Data.List.Perm.Subperm

/-!
# Nesting — how deep references are replaced inside each other

Inlining with the references in progress on one stack, where a reference is pushed before its target
is inlined and popped behind it.  This file defines:

* `Schema.Stacked`, steps on a stack that record the calls on the way, with `push`, `pop` and
  `enter`;
* `Schema.inlineOnStack` and `Schema.replaceOnStack`, which give up where references are nested
  deeper than a limit, and replace every other one;
* `Schema.InlineCall.IsSound`, the invariant: what is on the stack is distinct and occurs in the
  document;
* `Schema.Returns`, what a step gives when it leaves the stack as it was, with a law for each kind
  of step;
* `Json.inlined_on_stack`: inlining ends within as many nested references as the document has, at
  every call the invariant holds, and every call returns.
-/

namespace HyperSchema

namespace Schema

/-! ## Steps on a stack -/

/-- A point where the inlining of a value begins: the references on the stack, the newest first, and
the value. -/
structure InlineCall where
  stack : List String
  value : Json

/-- The stack, and the calls that were made. -/
structure Progress where
  stack : List String
  calls : List InlineCall

/-- A step on a stack; it gives nothing where references are nested too deep. -/
abbrev Stacked (α : Type) := StateT Progress Option α

/-- Records a call. -/
def enter (value : Json) : Stacked Unit :=
  modify fun progress => { progress with calls := progress.calls ++ [⟨progress.stack, value⟩] }

/-- The references on the stack. -/
def onStack : Stacked (List String) := return (← get).stack

/-- Puts a reference on the stack. -/
def push (reference : String) : Stacked Unit :=
  modify fun progress => { progress with stack := reference :: progress.stack }

/-- Takes the newest reference from the stack. -/
def pop : Stacked Unit :=
  modify fun progress => { progress with stack := progress.stack.tail }

mutual

/-- A value with its references replaced, with at most `depth` of them nested. -/
def inlineOnStack (root : Json) (depth : Nat) (value : Json) : Stacked (Noted Json) := do
  enter value
  match value with
  | .object members =>
      match referenceIn? members with
      | none => do
          let made ← inlineMembersOnStack root depth members
          return do return .object (← made)
      | some reference => replaceOnStack root depth (.object members) reference
  | .array items => do
      let made ← inlineItemsOnStack root depth items
      return do return .array (← made)
  | _ => return pure value
termination_by (depth, sizeOf value, 1)

/-- What stands for a reference. -/
def replaceOnStack (root : Json) (depth : Nat) (value : Json) (reference : String) :
    Stacked (Noted Json) :=
  match localPointer? reference with
  | none => return do
      Noted.warn (.nonLocalReference reference)
      return value
  | some pointer => do
      if reference ∈ (← onStack) then return pure value
      else
        match root.pointer? pointer with
        | none => return do
            Noted.warn (.missingTarget reference)
            return value
        | some target =>
            match depth with
            | 0 => failure
            | depth + 1 => do
                push reference
                let made ← inlineOnStack root depth (withoutLinks target)
                pop
                return made
termination_by (depth, sizeOf value, 0)

/-- Items with their references replaced. -/
def inlineItemsOnStack (root : Json) (depth : Nat) (items : List Json) :
    Stacked (Noted (List Json)) :=
  match items with
  | [] => return pure []
  | item :: rest => do
      let first ← inlineOnStack root depth item
      let others ← inlineItemsOnStack root depth rest
      return do return (← first) :: (← others)
termination_by (depth, sizeOf items, 0)

/-- Members with their references replaced. -/
def inlineMembersOnStack (root : Json) (depth : Nat) (members : List (String × Json)) :
    Stacked (Noted (List (String × Json))) :=
  match members with
  | [] => return pure []
  | (name, value) :: rest => do
      let first ← inlineOnStack root depth value
      let others ← inlineMembersOnStack root depth rest
      return do return (name, ← first) :: (← others)
termination_by (depth, sizeOf members, 0)

end

/-! ## The invariant -/

variable {root : Json} {stack : List String}

/-- The references on the stack are distinct and occur in the document, which holds the value. -/
structure InlineCall.IsSound (root : Json) (call : InlineCall) : Prop where
  distinct : call.stack.Nodup
  occur : call.stack ⊆ root.references
  within : Within root call.value

/-- The references on the stack and those that are left are no more than the document has. -/
theorem InlineCall.IsSound.length_add_length_idle_le {call : InlineCall}
    (sound : call.IsSound root) :
    call.stack.length + (idle root.references.dedup call.stack).length ≤
      root.references.dedup.length := by
  have inside : call.stack ⊆ root.references.dedup.filter (call.stack.contains ·) := by
    intro reference mem
    rw [List.mem_filter, List.mem_dedup, List.contains_iff_mem]
    exact ⟨sound.occur mem, mem⟩
  have used := (sound.distinct.subperm inside).length_le
  have split :=
    List.length_eq_length_filter_add (l := root.references.dedup) (call.stack.contains ·)
  rw [idle]
  omega

/-- A step gives a result, passes sound calls only, and leaves the stack as it was. -/
def Returns {α : Type} (root : Json) (stack : List String) (step : Stacked α) (result : α) : Prop :=
  ∃ calls, (∀ call ∈ calls, InlineCall.IsSound root call) ∧
    ∀ passed, step.run ⟨stack, passed⟩ = some (result, ⟨stack, passed ++ calls⟩)

namespace Returns

variable {α β : Type} {step : Stacked α} {result : α}

theorem pure (result : α) : Returns root stack (Pure.pure result) result :=
  ⟨[], fun _ mem => absurd mem List.not_mem_nil, fun passed => by rw [List.append_nil]; rfl⟩

theorem bind {next : α → Stacked β} {final : β} (first : Returns root stack step result)
    (second : Returns root stack (next result) final) :
    Returns root stack (step >>= next) final := by
  rcases first with ⟨calls, sound, ends⟩
  rcases second with ⟨calls', sound', ends'⟩
  refine ⟨calls ++ calls', ?_, ?_⟩
  · intro call mem
    exact (List.mem_append.1 mem).elim (sound call) (sound' call)
  · intro passed
    rw [StateT.run_bind, ends]
    show (next result).run ⟨stack, passed ++ calls⟩ = _
    rw [ends', List.append_assoc]

theorem enter {value : Json} (sound : InlineCall.IsSound root ⟨stack, value⟩) :
    Returns root stack (Schema.enter value) () :=
  ⟨[⟨stack, value⟩], fun _ mem => List.mem_singleton.1 mem ▸ sound, fun _ => rfl⟩

theorem onStack : Returns root stack Schema.onStack stack :=
  ⟨[], fun _ mem => absurd mem List.not_mem_nil, fun passed => by rw [List.append_nil]; rfl⟩

/-- What is pushed in front of a step is popped behind it. -/
theorem nested {reference : String} (inner : Returns root (reference :: stack) step result) :
    Returns root stack (do push reference; let made ← step; pop; return made) result := by
  rcases inner with ⟨calls, sound, ends⟩
  refine ⟨calls, sound, ?_⟩
  intro passed
  rw [StateT.run_bind]
  show (step >>= fun made => pop >>= fun _ => Pure.pure made).run ⟨reference :: stack, passed⟩ = _
  rw [StateT.run_bind, ends]
  rfl

end Returns

/-! ## The run -/

/-- Items return where each of them does. -/
theorem returns_inlineItems {depth : Nat} {items : List Json}
    (each : ∀ item ∈ items, Returns root stack (inlineOnStack root depth item)
      (inlineValue root root.references stack item)) :
    Returns root stack (inlineItemsOnStack root depth items)
      (inlineItems root root.references stack items) := by
  induction items with
  | nil =>
      rw [inlineItemsOnStack, inlineItems]
      exact .pure _
  | cons item rest ih =>
      rw [inlineItemsOnStack, inlineItems]
      exact (each item List.mem_cons_self).bind
        ((ih fun other mem => each other (List.mem_cons_of_mem _ mem)).bind (.pure _))

/-- Members return where each of them does. -/
theorem returns_inlineMembers {depth : Nat} {members : List (String × Json)}
    (each : ∀ entry ∈ members, Returns root stack (inlineOnStack root depth entry.2)
      (inlineValue root root.references stack entry.2)) :
    Returns root stack (inlineMembersOnStack root depth members)
      (inlineMembers root root.references stack members) := by
  induction members with
  | nil =>
      rw [inlineMembersOnStack, inlineMembers]
      exact .pure _
  | cons entry rest ih =>
      rcases entry with ⟨name, value⟩
      rw [inlineMembersOnStack, inlineMembers]
      exact (each _ List.mem_cons_self).bind
        ((ih fun other mem => each other (List.mem_cons_of_mem _ mem)).bind (.pure _))

/-- A reference returns where all calls that may nest fewer references do. -/
theorem returns_replace {depth : Nat} {members : List (String × Json)} {reference : String}
    (sound : InlineCall.IsSound root ⟨stack, .object members⟩)
    (found : referenceIn? members = some reference)
    (enough : (idle root.references.dedup stack).length ≤ depth)
    (below : ∀ less < depth, ∀ {stack : List String} {value : Json},
      InlineCall.IsSound root ⟨stack, value⟩ → (idle root.references.dedup stack).length ≤ less →
        Returns root stack (inlineOnStack root less value)
          (inlineValue root root.references stack value)) :
    Returns root stack (replaceOnStack root depth (.object members) reference)
      (inlineValue root root.references stack (.object members)) := by
  have occurs := sound.within.mem_references found
  rw [replaceOnStack, inlineValue, found]
  dsimp only
  cases isLocal : localPointer? reference with
  | none => exact .pure _
  | some pointer =>
      refine Returns.onStack.bind ?_
      dsimp only
      by_cases busy : reference ∈ stack
      · rw [if_pos busy, dif_pos busy]
        exact .pure _
      · rw [if_neg busy, dif_neg busy]
        cases stands : root.pointer? pointer with
        | none => exact .pure _
        | some target =>
            have given : root.target? reference = some target :=
              Option.bind_eq_some_iff.2 ⟨pointer, isLocal, stands⟩
            have fewer := length_idle_lt (mem_idle.2 ⟨List.mem_dedup.2 occurs, busy⟩)
            dsimp only
            rw [dif_pos occurs]
            cases depth with
            | zero => omega
            | succ less =>
                -- The reference goes onto the stack, and one less is left for what it stands for.
                have sound' : InlineCall.IsSound root ⟨reference :: stack, withoutLinks target⟩ :=
                  ⟨List.nodup_cons.2 ⟨busy, sound.distinct⟩,
                    List.cons_subset.2 ⟨occurs, sound.occur⟩, .target given⟩
                exact (below less (Nat.lt_succ_self less) sound' (by omega)).nested

/-- Every call returns if it may nest the references that are not on the stack. -/
theorem returns_inlineValue {depth : Nat} {value : Json}
    (sound : InlineCall.IsSound root ⟨stack, value⟩)
    (enough : (idle root.references.dedup stack).length ≤ depth) :
    Returns root stack (inlineOnStack root depth value)
      (inlineValue root root.references stack value) := by
  induction depth using Nat.strongRecOn generalizing stack value with
  | ind depth ih =>
      -- The stack is the same throughout a value, so the second induction is on the value.
      induction value using Json.induct with
      | null | bool _ | number _ | string _ =>
          simp only [inlineOnStack, inlineValue]
          exact (Returns.enter sound).bind (.pure _)
      | array items ihItems =>
          rw [inlineOnStack, inlineValue]
          refine (Returns.enter sound).bind ((returns_inlineItems ?_).bind (.pure _))
          intro item mem
          exact ihItems item mem ⟨sound.distinct, sound.occur, sound.within.item mem⟩
      | object members ihMembers =>
          rw [inlineOnStack]
          refine (Returns.enter sound).bind ?_
          cases found : referenceIn? members with
          | none =>
              rw [inlineValue, found]
              refine (returns_inlineMembers ?_).bind (.pure _)
              intro entry mem
              exact ihMembers entry mem ⟨sound.distinct, sound.occur, sound.within.member mem⟩
          | some reference =>
              exact returns_replace sound found enough ih

end Schema

namespace Json

open Schema

/-- Inlining a document ends with at most as many references nested inside each other as occur in
it, and leaves an empty stack.  At every call on the way the references on the stack are distinct and
occur in the document, and the call returns with the stack as it was, for a value and for a
reference alike. -/
theorem inlined_on_stack (document : Json) :
    ∃ calls, (inlineOnStack document document.references.dedup.length document).run ⟨[], []⟩ =
        some (document.inlined, ⟨[], calls⟩) ∧
      ∀ call ∈ calls, ∃ left,
        (call.stack.Nodup ∧ call.stack ⊆ document.references ∧
          call.stack.length + left = document.references.dedup.length) ∧
        (∀ passed, ∃ passed',
          (inlineOnStack document left call.value).run ⟨call.stack, passed⟩ =
            some (inlineValue document document.references call.stack call.value,
              ⟨call.stack, passed'⟩)) ∧
        ∀ reference, call.value.reference? = some reference → ∀ passed, ∃ passed',
          (replaceOnStack document left call.value reference).run ⟨call.stack, passed⟩ =
            some (inlineValue document document.references call.stack call.value,
              ⟨call.stack, passed'⟩) := by
  have start : InlineCall.IsSound document ⟨[], document⟩ :=
    ⟨List.nodup_nil, List.nil_subset _, .part .whole⟩
  rcases returns_inlineValue start (List.length_filter_le _ _) with ⟨calls, sound, ends⟩
  refine ⟨calls, by simpa [inlined] using ends [], ?_⟩
  intro call mem
  have isSound := sound call mem
  have fits := isSound.length_add_length_idle_le
  have enough : (idle document.references.dedup call.stack).length ≤
      document.references.dedup.length - call.stack.length := by omega
  refine ⟨_, ⟨isSound.distinct, isSound.occur, Nat.add_sub_of_le (by omega)⟩, ?_, ?_⟩
  · rcases returns_inlineValue isSound enough with ⟨made, -, returns⟩
    exact fun passed => ⟨_, returns passed⟩
  · intro reference isReference passed
    rcases call with ⟨stack, value⟩
    rcases Option.bind_eq_some_iff.1 isReference with ⟨members, shape, found⟩
    cases value with
    | object members' =>
        cases shape
        rcases returns_replace isSound found enough fun _ _ => returns_inlineValue with
          ⟨made, -, returns⟩
        exact ⟨_, returns passed⟩
    | _ => cases shape

end Json

end HyperSchema
