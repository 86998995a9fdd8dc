import HyperSchema.Proofs.Declaration.Lexemes
import HyperSchema.Proofs.Declaration.Reader

/-!
# Image — what is read can be said

The readers of declarations give nothing that a text cannot say, and only comments that have the
form of comments.  This file defines:

* `TypeExpr.Said` and its like for members, parameters and declarations;
* `Parser.Gives`, the property that holds of what a reader finds;
* `Parser.Sound`, what the readers of types give with some fuel, and `Parser.sound`, by induction on
  the fuel with one lemma for each reader;
* `Declaration.said_of_parse`: all declarations of a text can be said.

What is missing for a round trip is that bases and bounds need no parentheses, see
`Declaration.isGrouped`.
-/

namespace HyperSchema

/-! ## What can be said -/

/-- A text can say a type and the comments in it.  With `head`, the leftmost name may be `keyof`. -/
structure TypeExpr.Said (head : Bool) (t : TypeExpr) : Prop where
  legible : t.isLegible head = true
  docs : ∀ text ∈ t.docs, Declaration.isDocText text = true

structure TypeExpr.SaidItem (t : TypeExpr) : Prop where
  legible : t.isLegibleItem = true
  docs : ∀ text ∈ t.docs, Declaration.isDocText text = true

structure Member.Said (m : Member) : Prop where
  legible : m.isLegible = true
  docs : ∀ text ∈ m.docs, Declaration.isDocText text = true

structure TypeParam.Said (param : TypeParam) : Prop where
  legible : param.isLegible = true
  docs : ∀ text ∈ param.docs, Declaration.isDocText text = true

/-- A text can say a declaration and the comments in it, parentheses apart. -/
structure Declaration.Said (declaration : Declaration) : Prop where
  legible : declaration.isLegible true = true
  docs : ∀ text ∈ declaration.docs, isDocText text = true

theorem Member.said_property {name : String} {type : TypeExpr} {isOptional isReadonly : Bool}
    {doc : Option String} (hd : ∀ text ∈ doc, Declaration.isDocText text = true)
    (h : type.Said false) : (property name type isOptional isReadonly doc).Said := by
  refine ⟨h.legible, ?_⟩
  rw [docs, List.forall_mem_append]
  exact ⟨by simpa using hd, h.docs⟩

theorem Member.said_index {key : String} {keyType value : TypeExpr} {isReadonly : Bool}
    {doc : Option String} (named : Lexer.isIdentifier key.toList = true)
    (hd : ∀ text ∈ doc, Declaration.isDocText text = true) (hk : keyType.Said false)
    (hv : value.Said false) : (index key keyType value isReadonly doc).Said := by
  refine ⟨by simp [isLegible, named, hk.legible, hv.legible], ?_⟩
  simp only [docs, List.forall_mem_append]
  exact ⟨⟨by simpa using hd, hk.docs⟩, hv.docs⟩

namespace TypeExpr

variable {head : Bool}

theorem isLegible_true {t : TypeExpr} (h : t.isLegible head = true) : t.isLegible true = true := by
  -- Only names, arrays and accesses ask whether the leftmost name may be `keyof`.
  induction t using TypeExpr.induct generalizing head with
  | reference name args _ =>
      simp only [isLegible, Bool.and_eq_true] at h ⊢
      refine ⟨?_, h.2⟩
      unfold Declaration.isReferenceName at h ⊢
      split
      · rename_i none
        simp [none] at h
      · rename_i first others split
        simp only [split, Bool.and_eq_true] at h ⊢
        exact ⟨h.1.1, rfl⟩
  | array element ih =>
      rw [isLegible] at h ⊢
      cases strong : decide (4 ≤ element.strength) with
      | true => exact ih h
      | false => simpa [strong] using h
  | access object index iho _ =>
      rw [isLegible, Bool.and_eq_true] at h ⊢
      refine ⟨?_, h.2⟩
      cases strong : decide (4 ≤ object.strength) with
      | true => exact iho h.1
      | false => simpa [strong] using h.1
  | _ => exact h

theorem Said.any {t : TypeExpr} (h : t.Said head) : t.Said true :=
  ⟨isLegible_true h.legible, h.docs⟩

theorem Said.item {t : TypeExpr} (h : t.Said false) : t.SaidItem := by
  refine ⟨?_, h.docs⟩
  cases t with
  | rest element => cases h.legible
  | _ => exact h.legible

theorem said_rest {element : TypeExpr} (h : element.Said false) : (rest element).SaidItem :=
  ⟨h.legible, by simpa using h.docs⟩

theorem said_array {element : TypeExpr} (h : element.Said head)
    (strong : head = true → 4 ≤ element.strength) : (array element).Said head := by
  refine ⟨?_, by simpa using h.docs⟩
  cases head with
  | false => simpa using h.legible
  | true => simpa [strong rfl] using h.legible

theorem said_access {object index : TypeExpr} (h : object.Said head)
    (strong : head = true → 4 ≤ object.strength) (hi : index.Said false) :
    (access object index).Said head := by
  have legible := (said_array h strong).legible
  rw [isLegible] at legible
  refine ⟨by rw [isLegible, legible, hi.legible]; rfl, ?_⟩
  rw [docs, List.forall_mem_append]
  exact ⟨h.docs, hi.docs⟩

theorem docs_of_said {ts : List TypeExpr} (h : ∀ t ∈ ts, t.Said head) :
    ∀ text ∈ ts.flatMap docs, Declaration.isDocText text = true := by
  intro text ht
  rcases List.mem_flatMap.1 ht with ⟨t, mem, ht⟩
  exact (h t mem).docs text ht

theorem said_reference {name : String} {args : List TypeExpr}
    (hn : Declaration.isReferenceName head name = true) (h : ∀ t ∈ args, t.Said false) :
    (reference name args).Said head := by
  refine ⟨?_, by simpa using docs_of_said h⟩
  simp only [isLegible, areLegible_eq_all, hn, Bool.true_and, List.all_eq_true]
  exact fun t ht => (h t ht).legible

theorem said_tuple {items : List TypeExpr} (h : ∀ t ∈ items, t.SaidItem) :
    (tuple items).Said head := by
  refine ⟨?_, ?_⟩
  · simp only [isLegible, areLegibleItems_eq_all, List.all_eq_true]
    exact fun t ht => (h t ht).legible
  · intro text ht
    rw [docs, docsAll_eq_flatMap] at ht
    rcases List.mem_flatMap.1 ht with ⟨t, mem, ht⟩
    exact (h t mem).docs text ht

theorem said_object {members : List Member} (h : ∀ m ∈ members, m.Said) :
    (object members).Said head := by
  refine ⟨?_, ?_⟩
  · simp only [isLegible, Member.areLegible_eq_all, List.all_eq_true]
    exact fun m hm => (h m hm).legible
  · intro text ht
    rw [docs, Member.docsAll_eq_flatMap] at ht
    rcases List.mem_flatMap.1 ht with ⟨m, mem, ht⟩
    exact (h m mem).docs text ht

theorem said_keyOf {operand : TypeExpr} (h : operand.Said false) : (keyOf operand).Said head :=
  ⟨by simpa using h.legible, by simpa using h.docs⟩

theorem said_conditional {check bound whenTrue whenFalse : TypeExpr} (hc : check.Said false)
    (hb : bound.Said false) (ht : whenTrue.Said false) (hf : whenFalse.Said false) :
    (conditional check bound whenTrue whenFalse).Said head := by
  refine ⟨by simp [hc.legible, hb.legible, ht.legible, hf.legible], ?_⟩
  simp only [docs, List.forall_mem_append]
  exact ⟨⟨⟨hc.docs, hb.docs⟩, ht.docs⟩, hf.docs⟩

/-- At least two types can be said as a union and as an intersection. -/
theorem said_several {alternatives : List TypeExpr} (several : 2 ≤ alternatives.length)
    (h : ∀ t ∈ alternatives, t.Said false) :
    (union alternatives).Said false ∧ (intersection alternatives).Said false := by
  have legible : (decide (2 ≤ alternatives.length) && areLegible alternatives) = true := by
    simp only [areLegible_eq_all, Bool.and_eq_true, List.all_eq_true, decide_eq_true_eq]
    exact ⟨several, fun t ht => (h t ht).legible⟩
  have docs : ∀ text ∈ docsAll alternatives, Declaration.isDocText text = true := by
    simpa using docs_of_said h
  exact ⟨⟨legible, docs⟩, ⟨legible, docs⟩⟩

theorem said_joinUnion {first : TypeExpr} {others : List TypeExpr} (hf : first.Said false)
    (h : ∀ t ∈ others, t.Said false) : (Parser.joinUnion first others).Said false := by
  cases others with
  | nil => exact hf
  | cons second others => exact (said_several (by simp) (List.forall_mem_cons.2 ⟨hf, h⟩)).1

theorem said_joinIntersection {first : TypeExpr} {others : List TypeExpr} (hf : first.Said false)
    (h : ∀ t ∈ others, t.Said false) : (Parser.joinIntersection first others).Said false := by
  cases others with
  | nil => exact hf
  | cons second others => exact (said_several (by simp) (List.forall_mem_cons.2 ⟨hf, h⟩)).2

end TypeExpr

namespace Parser

/-- Tokens of forms that a text can have. -/
def WellFormed (tokens : List Token) : Prop :=
  ∀ token ∈ tokens, token.lexeme.isWellFormed = true

/-- What a reader finds has a property, and the tokens behind it are well-formed. -/
def Gives {α : Type} (read : Except Failure (α × List Token)) (P : α → Prop) : Prop :=
  ∀ found rest, read = .ok (found, rest) → P found ∧ WellFormed rest

/-- Whether tokens start with the word `keyof`. -/
def startsKeyof (tokens : List Token) : Bool :=
  (eatWord "keyof" tokens).isSome

variable {tokens rest : List Token}

/-! ## Single tokens -/

theorem WellFormed.tail {token : Token} (h : WellFormed (token :: rest)) : WellFormed rest :=
  (List.forall_mem_cons.1 h).2

theorem WellFormed.eatMark {sign : Char} (h : WellFormed tokens)
    (eaten : eatMark sign tokens = some rest) : WellFormed rest := by
  unfold Parser.eatMark at eaten
  split at eaten
  · split at eaten
    · cases eaten
      exact h.tail
    · cases eaten
  · cases eaten

theorem WellFormed.eatWord {word : String} (h : WellFormed tokens)
    (eaten : eatWord word tokens = some rest) : WellFormed rest := by
  unfold Parser.eatWord at eaten
  split at eaten
  · split at eaten
    · cases eaten
      exact h.tail
    · cases eaten
  · cases eaten

theorem WellFormed.skipMark (sign : Char) (h : WellFormed tokens) :
    WellFormed (skipMark sign tokens) := by
  unfold Parser.skipMark
  cases eaten : Parser.eatMark sign tokens with
  | none => exact h
  | some rest => exact h.eatMark eaten

theorem WellFormed.takeReadonly (h : WellFormed tokens) : WellFormed (takeReadonly tokens).2 := by
  unfold Parser.takeReadonly
  split
  · exact h
  · rename_i rest eaten
    have behind := h.eatWord eaten
    split
    · split
      · exact h
      · exact behind
    · exact behind

/-- The documentation in front of other tokens has the form of a comment. -/
theorem WellFormed.takeDoc (h : WellFormed tokens) :
    (∀ text ∈ (takeDoc tokens).1, Declaration.isDocText text = true) ∧
      WellFormed (takeDoc tokens).2 := by
  -- Of several comments in a row only the last can be documentation.
  have missing : ∀ text ∈ (none : Option String), Declaration.isDocText text = true := nofun
  fun_induction Parser.takeDoc tokens with
  | case1 => exact ⟨missing, h⟩
  | case2 token text _ => exact ⟨missing, h.tail⟩
  | case3 token text _ next others _ ih => exact ih h.tail
  | case4 token text lexeme next others _ =>
      refine ⟨?_, h.tail⟩
      have form := h token List.mem_cons_self
      rw [lexeme] at form
      split
      · rintro _ ⟨⟩
        exact form
      · exact missing
  | case5 token others _ => exact ⟨missing, h⟩

/-! ## Readers in sequence -/

section Gives

variable {α β : Type} {P : α → Prop} {Q : β → Prop}

theorem Gives.fail (fault : SyntaxFault) (rest : List Token) :
    Gives (Parser.fail fault rest) P :=
  nofun

theorem Gives.ok {found : α} (h : P found) (wf : WellFormed rest) :
    Gives (.ok (found, rest)) P := by
  rintro _ _ ⟨⟩
  exact ⟨h, wf⟩

theorem Gives.bind {read : Except Failure (α × List Token)}
    {next : α × List Token → Except Failure (β × List Token)} (h : Gives read P)
    (continued : ∀ found rest, P found → WellFormed rest → Gives (next (found, rest)) Q) :
    Gives (read >>= next) Q := by
  cases read with
  | error failure => exact nofun
  | ok read =>
      have first := h read.1 read.2 rfl
      exact continued read.1 read.2 first.1 first.2

theorem Gives.expect {sign : Char} {next : List Token → Except Failure (α × List Token)}
    (wf : WellFormed tokens) (continued : ∀ rest, WellFormed rest → Gives (next rest) P) :
    Gives (expectMark sign tokens >>= next) P := by
  unfold expectMark
  cases eaten : eatMark sign tokens with
  | none => exact nofun
  | some rest => exact continued rest (wf.eatMark eaten)

theorem Gives.memberEnd {next : List Token → Except Failure (α × List Token)}
    (wf : WellFormed tokens) (continued : ∀ rest, WellFormed rest → Gives (next rest) P) :
    Gives (memberEnd tokens >>= next) P := by
  unfold Parser.memberEnd
  split
  · exact continued _ (wf.eatMark ‹_›)
  · split
    · exact continued _ (wf.eatMark ‹_›)
    · split
      · exact continued _ wf
      · exact nofun

theorem Gives.identifier {next : String × List Token → Except Failure (α × List Token)}
    (wf : WellFormed tokens)
    (continued : ∀ name rest, Lexer.isIdentifier name.toList = true → WellFormed rest →
      Gives (next (name, rest)) P) : Gives (identifier tokens >>= next) P := by
  unfold Parser.identifier
  split
  · exact continued _ _ (wf _ List.mem_cons_self) wf.tail
  · exact nofun

theorem Gives.propertyName {next : String × List Token → Except Failure (α × List Token)}
    (wf : WellFormed tokens)
    (continued : ∀ name rest, WellFormed rest → Gives (next (name, rest)) P) :
    Gives (propertyName tokens >>= next) P := by
  unfold Parser.propertyName
  split
  · exact continued _ _ wf.tail
  · exact continued _ _ wf.tail
  · exact continued _ _ wf.tail
  · exact nofun

end Gives

/-! ## Names -/

theorem plainWord?_cases {word : String} {t : TypeExpr} (h : plainWord? word = some t) :
    (∃ keyword, t = .keyword keyword) ∨ ∃ value, t = .boolean value := by
  unfold plainWord? at h
  split at h
  · cases h
    exact .inl ⟨_, rfl⟩
  · split at h
    · cases h
      exact .inr ⟨_, rfl⟩
    · split at h
      · cases h
        exact .inr ⟨_, rfl⟩
      · cases h

theorem not_reserved_of_plainWord? {word : String} (h : plainWord? word = none) :
    word ∉ Declaration.reservedNames := by
  intro reserved
  unfold plainWord? at h
  cases found : Keyword.ofName? word with
  | some keyword => simp [found] at h
  | none =>
      simp only [found] at h
      simp only [Declaration.reservedNames, List.mem_append, List.mem_map, List.mem_cons,
        List.not_mem_nil, or_false] at reserved
      rcases reserved with ⟨keyword, known, rfl⟩ | rfl | rfl
      · rw [Keyword.ofName?, List.find?_eq_none] at found
        exact found keyword known (by simp)
      · cases h
      · cases h

theorem not_mem_of_isIdentifier {name : List Char} (h : Lexer.isIdentifier name = true) :
    '.' ∉ name := by
  cases name with
  | nil => cases h
  | cons first others =>
      simp only [Lexer.isIdentifier, Bool.and_eq_true, List.all_eq_true] at h
      intro found
      rcases List.mem_cons.1 found with rfl | found
      · exact absurd h.1 (by decide)
      · exact absurd (h.2 _ found) (by decide)

/-- A word that is no type of its own is a name; only `keyof` needs a place without operators. -/
theorem isReferenceName_word {word : String} (named : Lexer.isIdentifier word.toList = true)
    (free : plainWord? word = none) : Declaration.isReferenceName (word = "keyof") word = true := by
  have unreserved := not_reserved_of_plainWord? free
  unfold Declaration.isReferenceName
  rw [Text.splitOn_of_free (not_mem_of_isIdentifier named)]
  simpa [named, unreserved] using Decidable.em (word = "keyof")

theorem isReferenceName_append {head : Bool} {name part : String}
    (hn : Declaration.isReferenceName head name = true)
    (hp : Lexer.isIdentifier part.toList = true) :
    Declaration.isReferenceName head (name ++ "." ++ part) = true := by
  have free := not_mem_of_isIdentifier hp
  -- The new part has no point in it, so it is one part more.
  have split : Text.splitOn '.' (name ++ "." ++ part).toList =
      Text.splitOn '.' name.toList ++ [part.toList] := by
    have joined : (name ++ "." ++ part).toList = name.toList ++ '.' :: part.toList := by simp
    rw [joined, Text.splitOn_eq, Text.splitOn_eq, List.splitOn_append_cons_self,
      List.splitOn_eq_singleton free]
  unfold Declaration.isReferenceName at hn ⊢
  rw [split]
  cases parts : Text.splitOn '.' name.toList with
  | nil => simp [parts] at hn
  | cons first others => simpa [parts, hp, and_assoc] using hn

theorem dotted_gives {head : Bool} {name : String}
    (hn : Declaration.isReferenceName head name = true) (wf : WellFormed tokens) :
    Gives (dotted name tokens) fun name => Declaration.isReferenceName head name = true := by
  fun_induction dotted name tokens with
  | case1 name start line part start' line' rest ih =>
      have part : Lexer.isIdentifier part.toList = true := wf.tail _ List.mem_cons_self
      exact ih (isReferenceName_append hn part) wf.tail.tail
  | case2 name start line rest _ => exact .fail _ _
  | case3 name tokens _ => exact .ok hn wf

/-! ## Types -/

/-- What the readers of types give with some fuel, behind well-formed tokens. -/
structure Sound (fuel : Nat) : Prop where
  type : ∀ {tokens}, WellFormed tokens → Gives (type fuel tokens) (TypeExpr.Said false)
  union : ∀ {tokens}, WellFormed tokens → Gives (union fuel tokens) (TypeExpr.Said false)
  unionRest : ∀ {tokens}, WellFormed tokens →
    Gives (unionRest fuel tokens) fun others => ∀ t ∈ others, t.Said false
  intersection : ∀ {tokens}, WellFormed tokens →
    Gives (intersection fuel tokens) (TypeExpr.Said false)
  intersectionRest : ∀ {tokens}, WellFormed tokens →
    Gives (intersectionRest fuel tokens) fun others => ∀ t ∈ others, t.Said false
  keyed : ∀ {tokens}, WellFormed tokens → Gives (keyed fuel tokens) (TypeExpr.Said false)
  indexed : ∀ {tokens}, WellFormed tokens →
    Gives (indexed fuel tokens) (TypeExpr.Said (startsKeyof tokens))
  indices : ∀ {head base tokens}, base.Said head → (head = true → 4 ≤ base.strength) →
    WellFormed tokens → Gives (indices fuel base tokens) (TypeExpr.Said head)
  primary : ∀ {tokens}, WellFormed tokens → Gives (primary fuel tokens) fun t =>
    t.Said (startsKeyof tokens) ∧ (startsKeyof tokens = true → 4 ≤ t.strength)
  arguments : ∀ {tokens}, WellFormed tokens →
    Gives (arguments fuel tokens) fun args => ∀ t ∈ args, t.Said false
  tupleItems : ∀ {tokens}, WellFormed tokens →
    Gives (tupleItems fuel tokens) fun items => ∀ t ∈ items, t.SaidItem
  tupleItem : ∀ {tokens}, WellFormed tokens → Gives (tupleItem fuel tokens) TypeExpr.SaidItem
  members : ∀ {tokens}, WellFormed tokens →
    Gives (members fuel tokens) fun found => ∀ m ∈ found, m.Said
  member : ∀ {doc tokens}, (∀ text ∈ doc, Declaration.isDocText text = true) →
    WellFormed tokens → Gives (member fuel doc tokens) Member.Said

/-! ### One lemma for each reader -/

section Readers

variable {fuel : Nat} {head : Bool}

theorem Sound.type_succ (h : Sound fuel) (wf : WellFormed tokens) :
    Gives (Parser.type (fuel + 1) tokens) (TypeExpr.Said false) := by
  rw [Parser.type]
  refine (h.union wf).bind ?_
  intro check rest hc wf
  dsimp only
  split
  · exact .ok hc wf
  · rename_i eaten
    refine (h.union (wf.eatWord eaten)).bind ?_
    intro bound rest hb wf
    refine .expect wf ?_
    intro rest wf
    refine (h.type wf).bind ?_
    intro whenTrue rest ht wf
    refine .expect wf ?_
    intro rest wf
    refine (h.type wf).bind ?_
    intro whenFalse rest hf wf
    exact .ok (TypeExpr.said_conditional hc hb ht hf) wf

theorem Sound.union_succ (h : Sound fuel) (wf : WellFormed tokens) :
    Gives (Parser.union (fuel + 1) tokens) (TypeExpr.Said false) := by
  rw [Parser.union]
  refine (h.intersection (wf.skipMark _)).bind ?_
  intro first rest hf wf
  refine (h.unionRest wf).bind ?_
  intro others rest ho wf
  exact .ok (TypeExpr.said_joinUnion hf ho) wf

theorem Sound.unionRest_succ (h : Sound fuel) (wf : WellFormed tokens) :
    Gives (Parser.unionRest (fuel + 1) tokens) fun others => ∀ t ∈ others, t.Said false := by
  rw [Parser.unionRest]
  split
  · exact .ok (List.forall_mem_nil _) wf
  · rename_i eaten
    refine (h.intersection (wf.eatMark eaten)).bind ?_
    intro next rest hn wf
    refine (h.unionRest wf).bind ?_
    intro others rest ho wf
    exact .ok (List.forall_mem_cons.2 ⟨hn, ho⟩) wf

theorem Sound.intersection_succ (h : Sound fuel) (wf : WellFormed tokens) :
    Gives (Parser.intersection (fuel + 1) tokens) (TypeExpr.Said false) := by
  rw [Parser.intersection]
  refine (h.keyed (wf.skipMark _)).bind ?_
  intro first rest hf wf
  refine (h.intersectionRest wf).bind ?_
  intro others rest ho wf
  exact .ok (TypeExpr.said_joinIntersection hf ho) wf

theorem Sound.intersectionRest_succ (h : Sound fuel) (wf : WellFormed tokens) :
    Gives (Parser.intersectionRest (fuel + 1) tokens) fun others => ∀ t ∈ others, t.Said false := by
  rw [Parser.intersectionRest]
  split
  · exact .ok (List.forall_mem_nil _) wf
  · rename_i eaten
    refine (h.keyed (wf.eatMark eaten)).bind ?_
    intro next rest hn wf
    refine (h.intersectionRest wf).bind ?_
    intro others rest ho wf
    exact .ok (List.forall_mem_cons.2 ⟨hn, ho⟩) wf

theorem Sound.keyed_succ (h : Sound fuel) (wf : WellFormed tokens) :
    Gives (Parser.keyed (fuel + 1) tokens) (TypeExpr.Said false) := by
  rw [Parser.keyed]
  split
  · rename_i eaten
    refine (h.keyed (wf.eatWord eaten)).bind ?_
    intro operand rest ho wf
    exact .ok (TypeExpr.said_keyOf ho) wf
  · rename_i absent
    have found := h.indexed wf
    rwa [startsKeyof, absent] at found

theorem Sound.indexed_succ (h : Sound fuel) (wf : WellFormed tokens) :
    Gives (Parser.indexed (fuel + 1) tokens) (TypeExpr.Said (startsKeyof tokens)) := by
  rw [Parser.indexed]
  refine (h.primary wf).bind ?_
  intro base rest hb wf
  exact h.indices hb.1 hb.2 wf

theorem Sound.indices_succ (h : Sound fuel) {base : TypeExpr} (hb : base.Said head)
    (strong : head = true → 4 ≤ base.strength) (wf : WellFormed tokens) :
    Gives (Parser.indices (fuel + 1) base tokens) (TypeExpr.Said head) := by
  rw [Parser.indices]
  split
  · exact .ok hb wf
  · rename_i eaten
    have behind := wf.eatMark eaten
    split
    · rename_i closed
      exact h.indices (TypeExpr.said_array hb strong) (fun _ => Nat.le_refl 4)
        (behind.eatMark closed)
    · refine (h.type behind).bind ?_
      intro index rest hi wf
      refine .expect wf ?_
      intro rest wf
      exact h.indices (TypeExpr.said_access hb strong hi) (fun _ => Nat.le_refl 4) wf

theorem Sound.arguments_succ (h : Sound fuel) (wf : WellFormed tokens) :
    Gives (Parser.arguments (fuel + 1) tokens) fun args => ∀ t ∈ args, t.Said false := by
  rw [Parser.arguments]
  refine (h.type wf).bind ?_
  intro first rest hf wf
  dsimp only
  split
  · rename_i eaten
    refine (h.arguments (wf.eatMark eaten)).bind ?_
    intro others rest ho wf
    exact .ok (List.forall_mem_cons.2 ⟨hf, ho⟩) wf
  · refine .expect wf ?_
    intro rest wf
    exact .ok (List.forall_mem_singleton.2 hf) wf

theorem Sound.tupleItems_succ (h : Sound fuel) (wf : WellFormed tokens) :
    Gives (Parser.tupleItems (fuel + 1) tokens) fun items => ∀ t ∈ items, t.SaidItem := by
  rw [Parser.tupleItems]
  split
  · rename_i eaten
    exact .ok (List.forall_mem_nil _) (wf.eatMark eaten)
  · refine (h.tupleItem wf).bind ?_
    intro first rest hf wf
    dsimp only
    split
    · rename_i eaten
      refine (h.tupleItems (wf.eatMark eaten)).bind ?_
      intro others rest ho wf
      exact .ok (List.forall_mem_cons.2 ⟨hf, ho⟩) wf
    · refine .expect wf ?_
      intro rest wf
      exact .ok (List.forall_mem_singleton.2 hf) wf

theorem Sound.tupleItem_succ (h : Sound fuel) (wf : WellFormed tokens) :
    Gives (Parser.tupleItem (fuel + 1) tokens) TypeExpr.SaidItem := by
  unfold Parser.tupleItem
  split
  · refine (h.type wf.tail).bind ?_
    intro element rest he wf
    exact .ok (TypeExpr.said_rest he) wf
  · exact fun found rest read => (h.type wf found rest read).imp_left TypeExpr.Said.item

theorem Sound.members_succ (h : Sound fuel) (wf : WellFormed tokens) :
    Gives (Parser.members (fuel + 1) tokens) fun found => ∀ m ∈ found, m.Said := by
  have doc := wf.takeDoc
  rw [Parser.members]
  dsimp only
  split
  · rename_i eaten
    exact .ok (List.forall_mem_nil _) (doc.2.eatMark eaten)
  · refine (h.member doc.1 doc.2).bind ?_
    intro first rest hf wf
    refine .memberEnd wf ?_
    intro rest wf
    refine (h.members wf).bind ?_
    intro others rest ho wf
    exact .ok (List.forall_mem_cons.2 ⟨hf, ho⟩) wf

theorem Sound.member_succ (h : Sound fuel) {doc : Option String}
    (hd : ∀ text ∈ doc, Declaration.isDocText text = true) (wf : WellFormed tokens) :
    Gives (Parser.member (fuel + 1) doc tokens) Member.Said := by
  have behind := wf.takeReadonly
  rw [Parser.member]
  dsimp only
  split
  · rename_i eaten
    refine .identifier (behind.eatMark eaten) ?_
    intro key rest named wf
    refine .expect wf ?_
    intro rest wf
    refine (h.type wf).bind ?_
    intro keyType rest hk wf
    refine .expect wf ?_
    intro rest wf
    refine .expect wf ?_
    intro rest wf
    refine (h.type wf).bind ?_
    intro value rest hv wf
    exact .ok (Member.said_index named hd hk hv) wf
  · refine .propertyName behind ?_
    intro name rest wf
    refine .expect (wf.skipMark _) ?_
    intro rest wf
    refine (h.type wf).bind ?_
    intro found rest hf wf
    exact .ok (Member.said_property hd hf) wf

/-- A word is a type of its own, or a name with arguments. -/
theorem Sound.primary_word (h : Sound fuel) {word : String} {start : Position} {line : Nat}
    (named : Lexer.isIdentifier word.toList = true) (wf : WellFormed rest) :
    Gives (Parser.primary (fuel + 1) (⟨.word word, start, line⟩ :: rest)) fun t =>
      t.Said (word = "keyof") ∧ (decide (word = "keyof") = true → 4 ≤ t.strength) := by
  cases plain : plainWord? word with
  | some t =>
      rw [primary_plain plain]
      refine .ok ?_ wf
      rcases plainWord?_cases plain with ⟨keyword, rfl⟩ | ⟨value, rfl⟩
      · exact ⟨⟨rfl, nofun⟩, fun _ => Nat.le_succ 4⟩
      · exact ⟨⟨rfl, nofun⟩, fun _ => Nat.le_succ 4⟩
  | none =>
      -- Arguments do not matter for what stands leftmost, which is the name.
      rw [Parser.primary_word plain]
      refine (dotted_gives (isReferenceName_word named plain) wf).bind ?_
      intro name rest hn wf
      dsimp only
      split
      · exact .ok ⟨TypeExpr.said_reference hn nofun, fun _ => Nat.le_succ 4⟩ wf
      · rename_i eaten
        refine (h.arguments (wf.eatMark eaten)).bind ?_
        intro args rest ha wf
        exact .ok ⟨TypeExpr.said_reference hn ha, fun _ => Nat.le_succ 4⟩ wf

theorem Sound.primary_succ (h : Sound fuel) (wf : WellFormed tokens) :
    Gives (Parser.primary (fuel + 1) tokens) fun t =>
      t.Said (startsKeyof tokens) ∧ (startsKeyof tokens = true → 4 ≤ t.strength) := by
  cases tokens with
  | nil => exact .fail _ _
  | cons token rest =>
      rcases token with ⟨lexeme, start, line⟩
      cases lexeme with
      | word word =>
          have same : startsKeyof (⟨.word word, start, line⟩ :: rest) =
              decide (word = "keyof") := by
            by_cases hw : word = "keyof" <;> simp [startsKeyof, eatWord, hw]
          rw [same]
          exact h.primary_word (wf _ List.mem_cons_self) wf.tail
      | text value => exact .ok ⟨⟨rfl, List.forall_mem_nil _⟩, (absurd · Bool.false_ne_true)⟩ wf.tail
      | number spelling =>
          have digits : Lexer.isNumeral spelling.toList = true := wf _ List.mem_cons_self
          exact .ok ⟨⟨Declaration.isNumber_of_isNumeral digits, List.forall_mem_nil _⟩,
            (absurd · Bool.false_ne_true)⟩ wf.tail
      | ellipsis => exact .fail _ _
      | doc text => exact .fail _ _
      | mark sign =>
          -- No type that starts with a sign starts with `keyof`.
          show Gives _ fun t : TypeExpr => t.Said false ∧ (false = true → 4 ≤ t.strength)
          unfold Parser.primary
          dsimp only
          split
          · refine (h.type wf.tail).bind ?_
            intro inner rest hi wf
            refine .expect wf ?_
            intro rest wf
            exact .ok ⟨hi, (absurd · Bool.false_ne_true)⟩ wf
          · refine (h.members wf.tail).bind ?_
            intro found rest hf wf
            exact .ok ⟨TypeExpr.said_object hf, (absurd · Bool.false_ne_true)⟩ wf
          · refine (h.tupleItems wf.tail).bind ?_
            intro items rest hi wf
            exact .ok ⟨TypeExpr.said_tuple hi, (absurd · Bool.false_ne_true)⟩ wf
          · split
            · have digits := wf.tail _ List.mem_cons_self
              exact .ok ⟨⟨Declaration.isNumber_minus digits, List.forall_mem_nil _⟩,
                (absurd · Bool.false_ne_true)⟩ wf.tail.tail
            · exact .fail _ _
          -- Literals and words are no signs.
          · rename_i apart
            cases apart
          · rename_i apart
            cases apart
          · rename_i apart
            cases apart
          · exact .fail _ _

end Readers

/-- The readers of types give what a text can say, whatever the fuel. -/
theorem sound (fuel : Nat) : Sound fuel := by
  induction fuel with
  | zero =>
      -- Without fuel every reader fails.
      constructor
      all_goals intros
      all_goals exact .fail _ _
  | succ fuel ih =>
      exact
        { type := ih.type_succ
          union := ih.union_succ
          unionRest := ih.unionRest_succ
          intersection := ih.intersection_succ
          intersectionRest := ih.intersectionRest_succ
          keyed := ih.keyed_succ
          indexed := ih.indexed_succ
          indices := ih.indices_succ
          primary := ih.primary_succ
          arguments := ih.arguments_succ
          tupleItems := ih.tupleItems_succ
          tupleItem := ih.tupleItem_succ
          members := ih.members_succ
          member := ih.member_succ }

/-! ## Declarations -/

section Declarations

variable {fuel : Nat}

theorem optional_gives {read : List Token → Except Failure (TypeExpr × List Token)}
    {behind : Option (List Token)} (wf : WellFormed tokens)
    (behindWf : ∀ rest ∈ behind, WellFormed rest)
    (each : ∀ {rest}, WellFormed rest → Gives (read rest) (TypeExpr.Said false)) :
    Gives (optional read behind tokens) fun found => ∀ t ∈ found, t.Said false := by
  unfold optional
  split
  · refine (each (behindWf _ rfl)).bind ?_
    intro found rest hf wf
    refine .ok ?_ wf
    rintro t ⟨⟩
    exact hf
  · exact .ok nofun wf

theorem typeParam_gives (wf : WellFormed tokens) :
    Gives (typeParam fuel tokens) TypeParam.Said := by
  unfold typeParam
  refine .identifier wf ?_
  intro name rest named wf
  refine (optional_gives wf (fun rest eaten => wf.eatWord eaten) (sound fuel).union).bind ?_
  intro bound rest hb wf
  refine (optional_gives wf (fun rest eaten => wf.eatMark eaten) (sound fuel).type).bind ?_
  intro default rest hd wf
  -- The bound and the default are judged alike, each if it is there.
  have legible : ∀ {type? : Option TypeExpr}, (∀ t ∈ type?, t.Said false) →
      type?.all (TypeExpr.isLegible false) = true := by
    intro type? h
    cases type? with
    | none => rfl
    | some t => exact (h t rfl).legible
  have docs : ∀ {type? : Option TypeExpr}, (∀ t ∈ type?, t.Said false) →
      ∀ text ∈ (type?.map TypeExpr.docs).getD [], Declaration.isDocText text = true := by
    intro type? h
    cases type? with
    | none => exact nofun
    | some t => exact (h t rfl).docs
  refine .ok ⟨by simp [TypeParam.isLegible, named, legible hb, legible hd], ?_⟩ wf
  simp only [TypeParam.docs, List.forall_mem_append]
  exact ⟨docs hb, docs hd⟩

theorem typeParamList_gives (wf : WellFormed tokens) :
    Gives (typeParamList fuel tokens) fun params => ∀ p ∈ params, p.Said := by
  induction fuel generalizing tokens with
  | zero => exact .fail _ _
  | succ fuel ih =>
      rw [typeParamList]
      split
      · rename_i eaten
        exact .ok (List.forall_mem_nil _) (wf.eatMark eaten)
      · refine (typeParam_gives wf).bind ?_
        intro first rest hf wf
        dsimp only
        split
        · rename_i eaten
          refine (ih (wf.eatMark eaten)).bind ?_
          intro others rest ho wf
          exact .ok (List.forall_mem_cons.2 ⟨hf, ho⟩) wf
        · refine .expect wf ?_
          intro rest wf
          exact .ok (List.forall_mem_singleton.2 hf) wf

theorem typeParams_gives (wf : WellFormed tokens) :
    Gives (typeParams fuel tokens) fun params => ∀ p ∈ params, p.Said := by
  unfold typeParams
  split
  · exact typeParamList_gives (wf.eatMark ‹_›)
  · exact .ok (List.forall_mem_nil _) wf

theorem bases_gives (wf : WellFormed tokens) :
    Gives (bases fuel tokens) fun extended => ∀ t ∈ extended, t.Said true := by
  induction fuel generalizing tokens with
  | zero => exact .fail _ _
  | succ fuel ih =>
      rw [bases]
      refine ((sound fuel).indexed wf).bind ?_
      intro first rest hf wf
      dsimp only
      split
      · rename_i eaten
        refine (ih (wf.eatMark eaten)).bind ?_
        intro others rest ho wf
        exact .ok (List.forall_mem_cons.2 ⟨hf.any, ho⟩) wf
      · exact .ok (List.forall_mem_singleton.2 hf.any) wf

theorem said_params {params : List TypeParam} (h : ∀ p ∈ params, p.Said) :
    params.all TypeParam.isLegible = true ∧
      ∀ text ∈ params.flatMap TypeParam.docs, Declaration.isDocText text = true := by
  refine ⟨List.all_eq_true.2 fun p hp => (h p hp).legible, ?_⟩
  intro text ht
  rcases List.mem_flatMap.1 ht with ⟨p, mem, ht⟩
  exact (h p mem).docs text ht

variable {doc : Option String} {isExported : Bool}

theorem interfaceBody_gives (hd : ∀ text ∈ doc, Declaration.isDocText text = true)
    (wf : WellFormed tokens) :
    Gives (interfaceBody fuel doc isExported tokens) Declaration.Said := by
  have hd : ∀ text ∈ doc.toList, Declaration.isDocText text = true := by simpa using hd
  unfold interfaceBody
  refine .identifier wf ?_
  intro name rest named wf
  refine (typeParams_gives wf).bind ?_
  intro params rest hp wf
  have head := said_params hp
  -- Both ways, with bases and without, end in the members.
  have object : ∀ extended rest, (∀ t ∈ extended, TypeExpr.Said true t) → WellFormed rest → Gives
      (do
        let rest ← expectMark '{' rest
        let read ← members fuel rest
        .ok (Declaration.mk name doc params (.interface extended read.1) isExported, read.2))
      Declaration.Said := by
    intro extended rest he wf
    refine .expect wf ?_
    intro rest wf
    refine ((sound fuel).members wf).bind ?_
    intro found rest hm wf
    have object : (TypeExpr.object found).Said true := TypeExpr.said_object hm
    refine .ok ⟨?_, ?_⟩ wf
    · have bases : extended.all (TypeExpr.isLegible true) = true :=
        List.all_eq_true.2 fun t ht => (he t ht).legible
      have members := object.legible
      simp only [TypeExpr.isLegible, Member.areLegible_eq_all] at members
      simp [Declaration.isLegible, Body.isLegible, named, head.1, bases, members]
    · have members := object.docs
      simp only [TypeExpr.docs, Member.docsAll_eq_flatMap] at members
      simp only [Declaration.docs, Body.docs, List.forall_mem_append]
      exact ⟨⟨hd, head.2⟩, TypeExpr.docs_of_said he, members⟩
  dsimp only
  split
  · refine (bases_gives (wf.eatWord ‹_›)).bind ?_
    intro extended rest he wf
    exact object extended rest he wf
  · exact object [] rest (List.forall_mem_nil _) wf

theorem aliasBody_gives (hd : ∀ text ∈ doc, Declaration.isDocText text = true)
    (wf : WellFormed tokens) : Gives (aliasBody fuel doc isExported tokens) Declaration.Said := by
  have hd : ∀ text ∈ doc.toList, Declaration.isDocText text = true := by simpa using hd
  unfold aliasBody
  refine .identifier wf ?_
  intro name rest named wf
  refine (typeParams_gives wf).bind ?_
  intro params rest hp wf
  refine .expect wf ?_
  intro rest wf
  refine ((sound fuel).type wf).bind ?_
  intro found rest hf wf
  have params := said_params hp
  refine .ok ⟨?_, ?_⟩ (wf.skipMark _)
  · simp [Declaration.isLegible, Body.isLegible, named, params.1, hf.legible]
  · simp only [Declaration.docs, Body.docs, List.forall_mem_append]
    exact ⟨⟨hd, params.2⟩, hf.docs⟩

theorem WellFormed.skipWord (word : String) (wf : WellFormed tokens) :
    WellFormed ((Parser.eatWord word tokens).getD tokens) := by
  cases eaten : Parser.eatWord word tokens with
  | none => exact wf
  | some rest => exact wf.eatWord eaten

theorem declaration_gives (hd : ∀ text ∈ doc, Declaration.isDocText text = true)
    (wf : WellFormed tokens) : Gives (declaration fuel doc tokens) Declaration.Said := by
  have behind := (wf.skipWord "export").skipWord "declare"
  unfold declaration
  dsimp only
  split
  · exact interfaceBody_gives hd (behind.eatWord ‹_›)
  · split
    · exact aliasBody_gives hd (behind.eatWord ‹_›)
    · exact .fail _ _

theorem declarations_said (wf : WellFormed tokens) {found : List Declaration}
    (h : declarations fuel tokens = .ok found) : ∀ d ∈ found, d.Said := by
  induction fuel generalizing tokens found with
  | zero => cases h
  | succ fuel ih =>
      have behind := wf.takeDoc
      rw [declarations] at h
      dsimp only at h
      split at h
      · cases h
        exact List.forall_mem_nil _
      · split at h
        · -- A stray semicolon is skipped with the comment before it.
          exact ih (behind.2.eatMark ‹_›) h
        · cases read : declaration fuel (takeDoc tokens).1 (takeDoc tokens).2 with
          | error failure => simp [read, bind, Except.bind] at h
          | ok first =>
              have said := declaration_gives behind.1 behind.2 first.1 first.2 read
              cases more : declarations fuel first.2 with
              | error failure => simp [read, more, bind, Except.bind] at h
              | ok others =>
                  simp only [read, more, bind, Except.bind, Except.ok.injEq] at h
                  subst h
                  exact List.forall_mem_cons.2 ⟨said.1, ih said.2 more⟩

end Declarations

end Parser

/-- A text is read where its tokens are, and these are read as declarations. -/
theorem Declaration.parse_eq_ok_iff {source : String} {declarations : List Declaration} :
    parse source = .ok declarations ↔ ∃ tokens, Lexer.tokens source = .ok tokens ∧
      Parser.declarations (Parser.fuelFor tokens) tokens = .ok declarations := by
  unfold parse
  cases lexed : Lexer.tokens source with
  | error e => simp
  | ok tokens =>
      cases read : Parser.declarations (Parser.fuelFor tokens) tokens with
      | error failure => simp [read]
      | ok found => simp [read]

theorem Declaration.parse_eq_ok_iff_of_tokens {source : String} {tokens : List Token}
    {declarations : List Declaration} (lexed : Lexer.tokens source = .ok tokens) :
    parse source = .ok declarations ↔
      Parser.declarations (Parser.fuelFor tokens) tokens = .ok declarations := by
  simp [parse_eq_ok_iff, lexed]

/-- Whatever is read of a text can be said. -/
theorem Declaration.said_of_parse {source : String} {declarations : List Declaration}
    (h : parse source = .ok declarations) : ∀ d ∈ declarations, d.Said := by
  rcases parse_eq_ok_iff.1 h with ⟨tokens, lexed, read⟩
  exact Parser.declarations_said (Lexer.tokens_isWellFormed lexed) read

end HyperSchema
