import HyperSchema.Proofs.Declaration.Image
import HyperSchema.Proofs.Outcome

/-!
# Spans — where declarations and members stand

A comment can document a declaration or a member of an object type.  The readers keep no places, so
here what they find is told together with the tokens at which it starts.  This file defines:

* `Subject`, a declaration or a member, and the subjects inside types and declarations, in the order
  of the text;
* `Parser.Spans`, tokens that hold subjects, each with the tokens at which it starts;
* `Parser.Finds`, a reader that finds what the tokens hold, and `Parser.tracks`: the readers of
  types do so, by induction on the fuel with one lemma for each reader;
* `Parser.holds_declarations`: all tokens of a text hold the declarations that are read and the
  members in them.
-/

namespace HyperSchema

/-! ## Subjects -/

/-- What a comment can document. -/
inductive Subject where
  | declaration (declaration : Declaration)
  | member (member : Member)

mutual

/-- The members inside a type, each in front of those inside its own types. -/
@[simp] def TypeExpr.subjects : TypeExpr → List Subject
  | .reference _ args => TypeExpr.subjectsAll args
  | .array element => element.subjects
  | .tuple items => TypeExpr.subjectsAll items
  | .rest element => element.subjects
  | .union alternatives => TypeExpr.subjectsAll alternatives
  | .intersection parts => TypeExpr.subjectsAll parts
  | .object members => Member.subjectsAll members
  | .keyOf operand => operand.subjects
  | .conditional check bound whenTrue whenFalse =>
      check.subjects ++ bound.subjects ++ whenTrue.subjects ++ whenFalse.subjects
  | .access object index => object.subjects ++ index.subjects
  | _ => []

@[simp] def TypeExpr.subjectsAll : List TypeExpr → List Subject
  | [] => []
  | type :: rest => type.subjects ++ TypeExpr.subjectsAll rest

/-- The members inside the types of a member. -/
@[simp] def Member.inner : Member → List Subject
  | .property _ type _ _ _ => type.subjects
  | .index _ keyType value _ _ => keyType.subjects ++ value.subjects

@[simp] def Member.subjectsAll : List Member → List Subject
  | [] => []
  | member :: rest => .member member :: (member.inner ++ Member.subjectsAll rest)

end

def TypeParam.subjects (param : TypeParam) : List Subject :=
  (param.bound.map TypeExpr.subjects).getD [] ++ (param.default.map TypeExpr.subjects).getD []

/-- The members inside a declaration. -/
def Declaration.inner (declaration : Declaration) : List Subject :=
  declaration.params.flatMap TypeParam.subjects ++
    match declaration.body with
    | .interface bases members => TypeExpr.subjectsAll bases ++ Member.subjectsAll members
    | .alias type => type.subjects

/-- The declarations of a text and the members in them, in the order of the text. -/
def Declaration.subjects (declarations : List Declaration) : List Subject :=
  declarations.flatMap fun declaration => .declaration declaration :: declaration.inner

/-- The documentation of a member. -/
def Member.doc : Member → Option String
  | .property _ _ _ _ doc => doc
  | .index _ _ _ _ doc => doc

namespace Subject

/-- The documentation of a subject. -/
def doc : Subject → Option String
  | declaration d => d.doc
  | member m => m.doc

/-- The subjects inside a subject. -/
def inner : Subject → List Subject
  | declaration d => d.inner
  | member m => m.inner

/-- The subject is read at the first of these tokens, and the others are left. -/
def ReadAt (subject : Subject) (tokens rest : List Token) : Prop :=
  match subject with
  | declaration d => ∃ fuel, Parser.declaration fuel d.doc tokens = .ok (d, rest)
  | member m => ∃ fuel, Parser.member fuel m.doc tokens = .ok (m, rest)

end Subject

namespace Parser

/-! ## Tokens with subjects -/

/-- The signs that may stand behind a comment that documents nothing. -/
def isCloser (token : Token) : Bool :=
  match token.lexeme with
  | .mark sign => sign == '}' || sign == ';'
  | _ => false

/-- Up to the rest, tokens hold subjects, each with the tokens at which it starts.  Comments stand
only in front of subjects, of closing signs and of the end. -/
inductive Spans : List Token → List (Subject × List Token) → List Token → Prop
  | done (tokens : List Token) : Spans tokens [] tokens
  | past {token : Token} {tokens rest : List Token} {located : List (Subject × List Token)} :
      isDoc token = false → Spans tokens located rest → Spans (token :: tokens) located rest
  | closer {doc : Option String} {token : Token} {tokens behind rest : List Token}
      {located : List (Subject × List Token)} :
      takeDoc tokens = (doc, token :: behind) → isCloser token = true →
        Spans behind located rest → Spans tokens located rest
  | stop {doc : Option String} {tokens : List Token} : takeDoc tokens = (doc, []) →
      Spans tokens [] []
  /-- The subjects inside a subject lie between its first token and its end. -/
  | subject {subject : Subject} {token : Token} {tokens behind middle rest : List Token}
      {inner others : List (Subject × List Token)} :
      takeDoc tokens = (subject.doc, token :: behind) →
        subject.ReadAt (token :: behind) middle → inner.map Prod.fst = subject.inner →
          Spans behind inner middle → Spans middle others rest →
            Spans tokens ((subject, token :: behind) :: (inner ++ others)) rest

/-- Up to the rest, tokens hold these subjects. -/
def Holds (tokens : List Token) (subjects : List Subject) (rest : List Token) : Prop :=
  ∃ located, located.map Prod.fst = subjects ∧ Spans tokens located rest

variable {start tokens middle rest : List Token} {before subjects others : List Subject}

theorem spans_nil {located : List (Subject × List Token)} (h : Spans [] located rest) :
    located = [] ∧ rest = [] := by
  cases h with
  | done => exact ⟨rfl, rfl⟩
  | closer found => cases found
  | stop => exact ⟨rfl, rfl⟩
  | subject found => cases congrArg Prod.snd found

theorem Spans.trans {located more : List (Subject × List Token)}
    (first : Spans tokens located middle) (second : Spans middle more rest) :
    Spans tokens (located ++ more) rest := by
  induction first with
  | done => exact second
  | past plain _ ih => exact .past plain (ih second)
  | closer found closes _ ih => exact .closer found closes (ih second)
  | stop found =>
      obtain ⟨rfl, rfl⟩ := spans_nil second
      exact .stop found
  | subject found read inside within _ _ ih =>
      rw [List.cons_append, List.append_assoc]
      exact .subject found read inside within (ih second)

theorem holds_refl (tokens : List Token) : Holds tokens [] tokens :=
  ⟨[], rfl, .done tokens⟩

theorem Holds.trans (first : Holds tokens subjects middle) (second : Holds middle others rest) :
    Holds tokens (subjects ++ others) rest := by
  rcases first with ⟨located, same, spans⟩
  rcases second with ⟨more, same', spans'⟩
  exact ⟨located ++ more, by rw [List.map_append, same, same'], spans.trans spans'⟩

/-! ## Single tokens -/

theorem holds_past {token : Token} (plain : isDoc token = false) (tokens : List Token) :
    Holds (token :: tokens) [] tokens :=
  ⟨[], rfl, .past plain (.done tokens)⟩

/-- One token was passed. -/
theorem Holds.past {token : Token} (h : Holds start before (token :: rest))
    (plain : isDoc token = false) : Holds start before rest := by
  have both := h.trans (holds_past plain rest)
  rwa [List.append_nil] at both

theorem exists_of_eatMark {sign : Char} (h : eatMark sign tokens = some rest) :
    ∃ line place, tokens = ⟨.mark sign, place, line⟩ :: rest := by
  unfold eatMark at h
  split at h
  · split at h
    · rename_i same
      cases h
      exact ⟨_, _, by rw [same]⟩
    · cases h
  · cases h

theorem exists_of_eatWord {word : String} (h : eatWord word tokens = some rest) :
    ∃ line place, tokens = ⟨.word word, place, line⟩ :: rest := by
  unfold eatWord at h
  split at h
  · split at h
    · rename_i same
      cases h
      exact ⟨_, _, by rw [same]⟩
    · cases h
  · cases h

theorem Holds.eatMark {sign : Char} (h : Holds start before tokens)
    (eaten : eatMark sign tokens = some rest) : Holds start before rest := by
  rcases exists_of_eatMark eaten with ⟨line, place, rfl⟩
  exact h.past rfl

theorem Holds.eatWord {word : String} (h : Holds start before tokens)
    (eaten : eatWord word tokens = some rest) : Holds start before rest := by
  rcases exists_of_eatWord eaten with ⟨line, place, rfl⟩
  exact h.past rfl

theorem Holds.skipMark (sign : Char) (h : Holds start before tokens) :
    Holds start before (skipMark sign tokens) := by
  unfold Parser.skipMark
  cases eaten : Parser.eatMark sign tokens with
  | none => exact h
  | some rest => exact h.eatMark eaten

theorem Holds.expect {sign : Char} (h : Holds start before tokens)
    (read : expectMark sign tokens = .ok rest) : Holds start before rest := by
  unfold expectMark at read
  split at read
  · rename_i eaten
    cases read
    exact h.eatMark eaten
  · cases read

theorem Holds.memberEnd (h : Holds start before tokens) (read : memberEnd tokens = .ok rest) :
    Holds start before rest := by
  unfold Parser.memberEnd at read
  split at read
  · rename_i eaten
    cases read
    exact h.eatMark eaten
  split at read
  · rename_i eaten
    cases read
    exact h.eatMark eaten
  split at read
  · cases read
    exact h
  · cases read

theorem Holds.identifier {name : String} (h : Holds start before tokens)
    (read : identifier tokens = .ok (name, rest)) : Holds start before rest := by
  unfold Parser.identifier at read
  split at read
  · cases read
    exact h.past rfl
  · cases read

/-! ## Readers in sequence -/

/-- What a reader finds is held by the tokens from a start on. -/
def Finds {α : Type} (start : List Token) (read : Except Failure (α × List Token))
    (subjects : α → List Subject) : Prop :=
  ∀ found rest, read = .ok (found, rest) → Holds start (subjects found) rest

section Finds

variable {α β : Type} {f : α → List Subject} {g : β → List Subject}

theorem Finds.fail (fault : SyntaxFault) (rest : List Token) :
    Finds start (Parser.fail fault rest) f :=
  nofun

theorem Finds.ok {found : α} (h : Holds start before rest) (same : f found = before) :
    Finds start (.ok (found, rest)) f := by
  rintro _ _ ⟨⟩
  rw [same]
  exact h

theorem Finds.bind {read : Except Failure (α × List Token)}
    {next : α × List Token → Except Failure (β × List Token)} (sofar : Holds start before tokens)
    (h : Finds tokens read f)
    (continued : ∀ found rest, Holds start (before ++ f found) rest →
      Finds start (next (found, rest)) g) : Finds start (read >>= next) g := by
  cases read with
  | error failure => exact nofun
  | ok read => exact continued read.1 read.2 (sofar.trans (h read.1 read.2 rfl))

theorem Finds.step {step : Except Failure α} {next : α → Except Failure (β × List Token)}
    (continued : ∀ found, step = .ok found → Finds start (next found) g) :
    Finds start (step >>= next) g := by
  cases step with
  | error failure => exact nofun
  | ok found => exact continued found rfl

theorem Finds.expect {sign : Char} {next : List Token → Except Failure (α × List Token)}
    (sofar : Holds start before tokens)
    (continued : ∀ rest, Holds start before rest → Finds start (next rest) f) :
    Finds start (expectMark sign tokens >>= next) f :=
  .step fun rest read => continued rest (sofar.expect read)

theorem dotted_finds {name : String} (sofar : Holds start before tokens) :
    Finds start (dotted name tokens) fun _ => before := by
  fun_induction dotted name tokens with
  | case1 name place line part place' line' rest ih => exact ih ((sofar.past rfl).past rfl)
  | case2 name place line rest _ => exact .fail _ _
  | case3 name tokens _ => exact .ok sofar rfl

end Finds

/-! ## Types -/

/-- What the readers of types find with some fuel is what the tokens hold. -/
structure Tracks (fuel : Nat) : Prop where
  type : ∀ tokens, Finds tokens (type fuel tokens) TypeExpr.subjects
  union : ∀ tokens, Finds tokens (union fuel tokens) TypeExpr.subjects
  unionRest : ∀ tokens, Finds tokens (unionRest fuel tokens) TypeExpr.subjectsAll
  intersection : ∀ tokens, Finds tokens (intersection fuel tokens) TypeExpr.subjects
  intersectionRest : ∀ tokens, Finds tokens (intersectionRest fuel tokens) TypeExpr.subjectsAll
  keyed : ∀ tokens, Finds tokens (keyed fuel tokens) TypeExpr.subjects
  indexed : ∀ tokens, Finds tokens (indexed fuel tokens) TypeExpr.subjects
  indices : ∀ {start base tokens}, Holds start base.subjects tokens →
    Finds start (indices fuel base tokens) TypeExpr.subjects
  primary : ∀ tokens, Finds tokens (primary fuel tokens) TypeExpr.subjects
  arguments : ∀ tokens, Finds tokens (arguments fuel tokens) TypeExpr.subjectsAll
  tupleItems : ∀ tokens, Finds tokens (tupleItems fuel tokens) TypeExpr.subjectsAll
  tupleItem : ∀ tokens, Finds tokens (tupleItem fuel tokens) TypeExpr.subjects
  members : ∀ tokens, Finds tokens (members fuel tokens) Member.subjectsAll
  member : ∀ {doc tokens found rest}, member fuel doc tokens = .ok (found, rest) →
    found.doc = doc ∧ ∃ token behind, tokens = token :: behind ∧ Holds behind found.inner rest

theorem subjects_joinUnion (first : TypeExpr) (others : List TypeExpr) :
    (joinUnion first others).subjects = first.subjects ++ TypeExpr.subjectsAll others := by
  cases others with
  | nil => exact (List.append_nil _).symm
  | cons second others => rfl

theorem subjects_joinIntersection (first : TypeExpr) (others : List TypeExpr) :
    (joinIntersection first others).subjects = first.subjects ++ TypeExpr.subjectsAll others := by
  cases others with
  | nil => exact (List.append_nil _).symm
  | cons second others => rfl

/-! ### One lemma for each reader -/

section Readers

variable {fuel : Nat}

theorem Tracks.type_succ (h : Tracks fuel) (tokens : List Token) :
    Finds tokens (Parser.type (fuel + 1) tokens) TypeExpr.subjects := by
  rw [Parser.type]
  refine .bind (holds_refl tokens) (h.union tokens) ?_
  intro check rest sofar
  dsimp only
  split
  · exact .ok sofar (List.nil_append _).symm
  · rename_i eaten
    refine .bind (sofar.eatWord eaten) (h.union _) ?_
    intro bound rest sofar
    refine .expect sofar ?_
    intro rest sofar
    refine .bind sofar (h.type rest) ?_
    intro whenTrue rest sofar
    refine .expect sofar ?_
    intro rest sofar
    refine .bind sofar (h.type rest) ?_
    intro whenFalse rest sofar
    exact .ok sofar rfl

theorem Tracks.union_succ (h : Tracks fuel) (tokens : List Token) :
    Finds tokens (Parser.union (fuel + 1) tokens) TypeExpr.subjects := by
  rw [Parser.union]
  refine .bind ((holds_refl tokens).skipMark _) (h.intersection _) ?_
  intro first rest sofar
  refine .bind sofar (h.unionRest rest) ?_
  intro others rest sofar
  exact .ok sofar (subjects_joinUnion first others)

theorem Tracks.unionRest_succ (h : Tracks fuel) (tokens : List Token) :
    Finds tokens (Parser.unionRest (fuel + 1) tokens) TypeExpr.subjectsAll := by
  rw [Parser.unionRest]
  split
  · exact .ok (holds_refl tokens) rfl
  · rename_i eaten
    refine .bind ((holds_refl tokens).eatMark eaten) (h.intersection _) ?_
    intro next rest sofar
    refine .bind sofar (h.unionRest rest) ?_
    intro others rest sofar
    exact .ok sofar rfl

theorem Tracks.intersection_succ (h : Tracks fuel) (tokens : List Token) :
    Finds tokens (Parser.intersection (fuel + 1) tokens) TypeExpr.subjects := by
  rw [Parser.intersection]
  refine .bind ((holds_refl tokens).skipMark _) (h.keyed _) ?_
  intro first rest sofar
  refine .bind sofar (h.intersectionRest rest) ?_
  intro others rest sofar
  exact .ok sofar (subjects_joinIntersection first others)

theorem Tracks.intersectionRest_succ (h : Tracks fuel) (tokens : List Token) :
    Finds tokens (Parser.intersectionRest (fuel + 1) tokens) TypeExpr.subjectsAll := by
  rw [Parser.intersectionRest]
  split
  · exact .ok (holds_refl tokens) rfl
  · rename_i eaten
    refine .bind ((holds_refl tokens).eatMark eaten) (h.keyed _) ?_
    intro next rest sofar
    refine .bind sofar (h.intersectionRest rest) ?_
    intro others rest sofar
    exact .ok sofar rfl

theorem Tracks.keyed_succ (h : Tracks fuel) (tokens : List Token) :
    Finds tokens (Parser.keyed (fuel + 1) tokens) TypeExpr.subjects := by
  rw [Parser.keyed]
  split
  · rename_i eaten
    refine .bind ((holds_refl tokens).eatWord eaten) (h.keyed _) ?_
    intro operand rest sofar
    exact .ok sofar rfl
  · exact h.indexed tokens

theorem Tracks.indexed_succ (h : Tracks fuel) (tokens : List Token) :
    Finds tokens (Parser.indexed (fuel + 1) tokens) TypeExpr.subjects := by
  rw [Parser.indexed]
  refine .bind (holds_refl tokens) (h.primary tokens) ?_
  intro base rest sofar
  exact h.indices sofar

theorem Tracks.indices_succ (h : Tracks fuel) {base : TypeExpr}
    (sofar : Holds start base.subjects tokens) :
    Finds start (Parser.indices (fuel + 1) base tokens) TypeExpr.subjects := by
  rw [Parser.indices]
  split
  · exact .ok sofar rfl
  · rename_i eaten
    have behind := sofar.eatMark eaten
    split
    · rename_i closed
      exact h.indices (behind.eatMark closed)
    · refine .bind behind (h.type _) ?_
      intro index rest sofar
      refine .expect sofar ?_
      intro rest sofar
      exact h.indices sofar

theorem Tracks.arguments_succ (h : Tracks fuel) (tokens : List Token) :
    Finds tokens (Parser.arguments (fuel + 1) tokens) TypeExpr.subjectsAll := by
  rw [Parser.arguments]
  refine .bind (holds_refl tokens) (h.type tokens) ?_
  intro first rest sofar
  dsimp only
  split
  · rename_i eaten
    refine .bind (sofar.eatMark eaten) (h.arguments _) ?_
    intro others rest sofar
    exact .ok sofar rfl
  · refine .expect sofar ?_
    intro rest sofar
    exact .ok sofar (List.append_nil _)

theorem Tracks.tupleItems_succ (h : Tracks fuel) (tokens : List Token) :
    Finds tokens (Parser.tupleItems (fuel + 1) tokens) TypeExpr.subjectsAll := by
  rw [Parser.tupleItems]
  split
  · rename_i eaten
    exact .ok ((holds_refl tokens).eatMark eaten) rfl
  · refine .bind (holds_refl tokens) (h.tupleItem tokens) ?_
    intro first rest sofar
    dsimp only
    split
    · rename_i eaten
      refine .bind (sofar.eatMark eaten) (h.tupleItems _) ?_
      intro others rest sofar
      exact .ok sofar rfl
    · refine .expect sofar ?_
      intro rest sofar
      exact .ok sofar (List.append_nil _)

theorem Tracks.tupleItem_succ (h : Tracks fuel) (tokens : List Token) :
    Finds tokens (Parser.tupleItem (fuel + 1) tokens) TypeExpr.subjects := by
  unfold Parser.tupleItem
  split
  · refine .bind (holds_past rfl _) (h.type _) ?_
    intro element rest sofar
    exact .ok sofar rfl
  · exact h.type _

theorem Tracks.primary_succ (h : Tracks fuel) (tokens : List Token) :
    Finds tokens (Parser.primary (fuel + 1) tokens) TypeExpr.subjects := by
  cases tokens with
  | nil => exact .fail _ _
  | cons token rest =>
      rcases token with ⟨lexeme, place, line⟩
      cases lexeme with
      | word word =>
          have behind : Holds (⟨.word word, place, line⟩ :: rest) [] rest := holds_past rfl rest
          cases plain : plainWord? word with
          | some t =>
              rw [primary_plain plain]
              refine .ok behind ?_
              rcases plainWord?_cases plain with ⟨keyword, rfl⟩ | ⟨value, rfl⟩
              · rfl
              · rfl
          | none =>
              rw [Parser.primary_word plain]
              refine .bind behind (dotted_finds (holds_refl rest)) ?_
              intro name rest sofar
              dsimp only
              split
              · exact .ok sofar rfl
              · rename_i eaten
                refine .bind (sofar.eatMark eaten) (h.arguments _) ?_
                intro args rest sofar
                exact .ok sofar rfl
      | text value => exact .ok (holds_past rfl rest) rfl
      | number spelling => exact .ok (holds_past rfl rest) rfl
      | ellipsis => exact .fail _ _
      | doc text => exact .fail _ _
      | mark sign =>
          have behind : Holds (⟨.mark sign, place, line⟩ :: rest) [] rest := holds_past rfl rest
          unfold Parser.primary
          dsimp only
          split
          · refine .bind behind (h.type rest) ?_
            intro inner rest sofar
            refine .expect sofar ?_
            intro rest sofar
            exact .ok sofar rfl
          · refine .bind behind (h.members rest) ?_
            intro found rest sofar
            exact .ok sofar rfl
          · refine .bind behind (h.tupleItems rest) ?_
            intro items rest sofar
            exact .ok sofar rfl
          · split
            · exact .ok (behind.past rfl) rfl
            · exact .fail _ _
          -- Literals and words are no signs.
          · rename_i apart
            cases apart
          · rename_i apart
            cases apart
          · rename_i apart
            cases apart
          · exact .fail _ _

/-- Some tokens lead to others, and no comment is among those in between. -/
def LeadsTo (tokens rest : List Token) : Prop :=
  ∃ passed, tokens = passed ++ rest ∧ ∀ token ∈ passed, isDoc token = false

theorem leadsTo_skipWord (word : String) (tokens : List Token) :
    LeadsTo tokens ((eatWord word tokens).getD tokens) := by
  cases eaten : eatWord word tokens with
  | none => exact ⟨[], rfl, nofun⟩
  | some rest =>
      rcases exists_of_eatWord eaten with ⟨line, place, rfl⟩
      exact ⟨[_], rfl, List.forall_mem_singleton.2 rfl⟩

theorem leadsTo_takeReadonly (tokens : List Token) : LeadsTo tokens (takeReadonly tokens).2 := by
  have skipped := leadsTo_skipWord "readonly" tokens
  unfold takeReadonly
  split
  · exact ⟨[], rfl, nofun⟩
  · rename_i rest eaten
    rw [eaten] at skipped
    split
    · split
      · exact ⟨[], rfl, nofun⟩
      · exact skipped
    · exact skipped

theorem LeadsTo.trans (first : LeadsTo tokens middle) (second : LeadsTo middle rest) :
    LeadsTo tokens rest := by
  rcases first with ⟨passed, rfl, plain⟩
  rcases second with ⟨more, rfl, plain'⟩
  exact ⟨passed ++ more, by rw [List.append_assoc], List.forall_mem_append.2 ⟨plain, plain'⟩⟩

theorem LeadsTo.holds (h : LeadsTo tokens rest) : Holds tokens [] rest := by
  rcases h with ⟨passed, rfl, plain⟩
  induction passed with
  | nil => exact holds_refl rest
  | cons token passed ih =>
      rw [List.forall_mem_cons] at plain
      exact (holds_past plain.1 _).trans (ih plain.2)

/-- What leads to a token leads behind it from behind the first token on. -/
theorem LeadsTo.behind {token : Token} (h : LeadsTo tokens (token :: rest))
    (plain : isDoc token = false) :
    ∃ first behind, tokens = first :: behind ∧ Holds behind [] rest := by
  rcases h with ⟨passed, rfl, allPlain⟩
  cases passed with
  | nil => exact ⟨token, rest, rfl, holds_refl rest⟩
  | cons first passed =>
      have lead : LeadsTo (passed ++ token :: rest) (token :: rest) :=
        ⟨passed, rfl, (List.forall_mem_cons.1 allPlain).2⟩
      exact ⟨first, _, rfl, lead.holds.past plain⟩

theorem exists_of_propertyName {name : String} (h : propertyName tokens = .ok (name, rest)) :
    ∃ token, tokens = token :: rest ∧ isDoc token = false := by
  unfold propertyName at h
  split at h
  · cases h
    exact ⟨_, rfl, rfl⟩
  · cases h
    exact ⟨_, rfl, rfl⟩
  · cases h
    exact ⟨_, rfl, rfl⟩
  · cases h

theorem Tracks.member_succ (h : Tracks fuel) {doc : Option String} {found : Member}
    (read : Parser.member (fuel + 1) doc tokens = .ok (found, rest)) :
    found.doc = doc ∧
      ∃ token behind, tokens = token :: behind ∧ Holds behind found.inner rest := by
  rw [Parser.member] at read
  dsimp only at read
  split at read
  · rename_i eaten
    rcases exists_of_eatMark eaten with ⟨line, place, opened⟩
    -- The first token is the word `readonly` or the bracket itself.
    have lead := leadsTo_takeReadonly tokens
    rw [opened] at lead
    rcases lead.behind rfl with ⟨first, behind, split, sofar⟩
    rcases ok_of_bind read with ⟨⟨key, _⟩, named, read⟩
    rcases ok_of_bind read with ⟨_, colon, read⟩
    rcases ok_of_bind read with ⟨⟨keyType, _⟩, keyRead, read⟩
    rcases ok_of_bind read with ⟨_, closed, read⟩
    rcases ok_of_bind read with ⟨_, colon', read⟩
    rcases ok_of_bind read with ⟨⟨value, _⟩, valueRead, read⟩
    cases read
    have keyHeld := ((sofar.identifier named).expect colon).trans (h.type _ _ _ keyRead)
    exact ⟨rfl, first, behind, split,
      ((keyHeld.expect closed).expect colon').trans (h.type _ _ _ valueRead)⟩
  · rcases ok_of_bind read with ⟨⟨name, _⟩, named, read⟩
    rcases exists_of_propertyName named with ⟨token, opened, plain⟩
    have lead := leadsTo_takeReadonly tokens
    rw [opened] at lead
    rcases lead.behind plain with ⟨first, behind, split, sofar⟩
    rcases ok_of_bind read with ⟨_, colon, read⟩
    rcases ok_of_bind read with ⟨⟨type, _⟩, typeRead, read⟩
    cases read
    exact ⟨rfl, first, behind, split,
      ((sofar.skipMark _).expect colon).trans (h.type _ _ _ typeRead)⟩

theorem holds_subject {subject : Subject} {token : Token} {behind : List Token}
    (found : takeDoc tokens = (subject.doc, token :: behind))
    (read : subject.ReadAt (token :: behind) middle)
    (inside : Holds behind subject.inner middle) :
    Holds tokens (subject :: subject.inner) middle := by
  rcases inside with ⟨located, same, spans⟩
  have whole := Spans.subject found read same spans (.done middle)
  refine ⟨_, ?_, whole⟩
  rw [List.append_nil, List.map_cons, same]

theorem Tracks.members_succ (h : Tracks fuel) (tokens : List Token) :
    Finds tokens (Parser.members (fuel + 1) tokens) Member.subjectsAll := by
  rw [Parser.members]
  dsimp only
  split
  · rename_i rest eaten
    rcases exists_of_eatMark eaten with ⟨line, place, closed⟩
    have found : takeDoc tokens = ((takeDoc tokens).1, ⟨.mark '}', place, line⟩ :: rest) := by
      rw [← closed]
    exact .ok ⟨[], rfl, .closer found rfl (.done rest)⟩ rfl
  · refine .step fun found read => ?_
    rcases found with ⟨first, rest⟩
    rcases h.member read with ⟨same, token, behind, split, inside⟩
    have found : takeDoc tokens = (first.doc, token :: behind) := Prod.ext same.symm split
    have here : (Subject.member first).ReadAt (token :: behind) rest :=
      ⟨fuel, by rw [← split, same]; exact read⟩
    have held : Holds tokens (.member first :: first.inner) rest :=
      holds_subject found here inside
    refine .step fun rest ended => ?_
    refine .bind (held.memberEnd ended) (h.members rest) ?_
    intro others rest sofar
    exact .ok sofar rfl

end Readers

theorem tracks (fuel : Nat) : Tracks fuel := by
  induction fuel with
  | zero =>
      -- Without fuel every reader fails.
      constructor
      case member => exact nofun
      all_goals intros
      all_goals exact .fail _ _
  | succ fuel ih =>
      exact
        { type := ih.type_succ
          union := ih.union_succ
          unionRest := ih.unionRest_succ
          intersection := ih.intersection_succ
          intersectionRest := ih.intersectionRest_succ
          keyed := ih.keyed_succ
          indexed := ih.indexed_succ
          indices := ih.indices_succ
          primary := ih.primary_succ
          arguments := ih.arguments_succ
          tupleItems := ih.tupleItems_succ
          tupleItem := ih.tupleItem_succ
          members := ih.members_succ
          member := ih.member_succ }

/-! ## Declarations -/

section Declarations

variable {fuel : Nat}

theorem optional_finds {read : List Token → Except Failure (TypeExpr × List Token)}
    {behind : Option (List Token)} (skipped : ∀ rest ∈ behind, Holds tokens [] rest)
    (each : ∀ rest, Finds rest (read rest) TypeExpr.subjects) :
    Finds tokens (optional read behind tokens) fun found =>
      (found.map TypeExpr.subjects).getD [] := by
  unfold optional
  split
  · rename_i rest
    refine .bind (skipped rest rfl) (each rest) ?_
    intro found rest sofar
    exact .ok sofar rfl
  · exact .ok (holds_refl tokens) rfl

theorem typeParam_finds (tokens : List Token) :
    Finds tokens (typeParam fuel tokens) TypeParam.subjects := by
  unfold typeParam
  refine .step fun ⟨name, rest⟩ named => ?_
  refine .bind ((holds_refl tokens).identifier named)
    (optional_finds (fun _ eaten => (holds_refl rest).eatWord eaten) (tracks fuel).union) ?_
  intro bound rest sofar
  refine .bind sofar
    (optional_finds (fun _ eaten => (holds_refl rest).eatMark eaten) (tracks fuel).type) ?_
  intro default rest sofar
  exact .ok sofar rfl

theorem typeParamList_finds (tokens : List Token) :
    Finds tokens (typeParamList fuel tokens) fun params => params.flatMap TypeParam.subjects := by
  induction fuel generalizing tokens with
  | zero => exact .fail _ _
  | succ fuel ih =>
      rw [typeParamList]
      split
      · rename_i eaten
        exact .ok ((holds_refl tokens).eatMark eaten) rfl
      · refine .bind (holds_refl tokens) (typeParam_finds tokens) ?_
        intro first rest sofar
        dsimp only
        split
        · rename_i eaten
          refine .bind (sofar.eatMark eaten) (ih _) ?_
          intro others rest sofar
          exact .ok sofar rfl
        · refine .expect sofar ?_
          intro rest sofar
          exact .ok sofar (List.append_nil _)

theorem typeParams_finds (tokens : List Token) :
    Finds tokens (typeParams fuel tokens) fun params => params.flatMap TypeParam.subjects := by
  unfold typeParams
  split
  · rename_i rest eaten
    intro found behind read
    exact ((holds_refl tokens).eatMark eaten).trans (typeParamList_finds rest found behind read)
  · exact .ok (holds_refl tokens) rfl

theorem bases_finds (tokens : List Token) :
    Finds tokens (bases fuel tokens) TypeExpr.subjectsAll := by
  induction fuel generalizing tokens with
  | zero => exact .fail _ _
  | succ fuel ih =>
      rw [bases]
      refine .bind (holds_refl tokens) ((tracks fuel).indexed tokens) ?_
      intro first rest sofar
      dsimp only
      split
      · rename_i eaten
        refine .bind (sofar.eatMark eaten) (ih _) ?_
        intro others rest sofar
        exact .ok sofar rfl
      · exact .ok sofar (List.append_nil _)

variable {doc : Option String} {isExported : Bool}

theorem interfaceBody_finds (tokens : List Token) :
    Finds tokens (interfaceBody fuel doc isExported tokens) Declaration.inner := by
  unfold interfaceBody
  refine .step fun ⟨name, rest⟩ named => ?_
  refine .bind ((holds_refl tokens).identifier named) (typeParams_finds rest) ?_
  intro params rest sofar
  -- Both ways, with bases and without, end in the members.
  have object : ∀ extended rest,
      Holds tokens (params.flatMap TypeParam.subjects ++ TypeExpr.subjectsAll extended) rest →
        Finds tokens
          (do
            let rest ← expectMark '{' rest
            let read ← members fuel rest
            .ok (Declaration.mk name doc params (.interface extended read.1) isExported, read.2))
          Declaration.inner := by
    intro extended rest sofar
    refine .expect sofar ?_
    intro rest sofar
    refine .bind sofar ((tracks fuel).members rest) ?_
    intro found rest sofar
    exact .ok sofar (List.append_assoc _ _ _).symm
  dsimp only
  split
  · rename_i eaten
    refine .bind (sofar.eatWord eaten) (bases_finds _) ?_
    intro extended rest sofar
    exact object extended rest sofar
  · refine object [] rest ?_
    rw [TypeExpr.subjectsAll, List.append_nil]
    exact sofar

theorem aliasBody_finds (tokens : List Token) :
    Finds tokens (aliasBody fuel doc isExported tokens) Declaration.inner := by
  unfold aliasBody
  refine .step fun ⟨name, rest⟩ named => ?_
  refine .bind ((holds_refl tokens).identifier named) (typeParams_finds rest) ?_
  intro params rest sofar
  refine .expect sofar ?_
  intro rest sofar
  refine .bind sofar ((tracks fuel).type rest) ?_
  intro found rest sofar
  exact .ok (sofar.skipMark _) rfl

theorem doc_of_interfaceBody {found : Declaration}
    (read : interfaceBody fuel doc isExported tokens = .ok (found, rest)) : found.doc = doc := by
  unfold interfaceBody at read
  rcases ok_of_bind read with ⟨_, _, read⟩
  rcases ok_of_bind read with ⟨_, _, read⟩
  -- Both ways, with bases and without, end alike.
  dsimp only at read
  split at read
  all_goals rcases ok_of_bind read with ⟨_, _, read⟩
  all_goals rcases ok_of_bind read with ⟨_, _, read⟩
  all_goals rcases ok_of_bind read with ⟨_, _, read⟩
  all_goals cases read
  all_goals rfl

theorem doc_of_aliasBody {found : Declaration}
    (read : aliasBody fuel doc isExported tokens = .ok (found, rest)) : found.doc = doc := by
  unfold aliasBody at read
  rcases ok_of_bind read with ⟨_, _, read⟩
  rcases ok_of_bind read with ⟨_, _, read⟩
  rcases ok_of_bind read with ⟨_, _, read⟩
  rcases ok_of_bind read with ⟨_, _, read⟩
  cases read
  rfl

/-- A declaration has the documentation that was found in front of it, and the subjects inside it
stand behind its first token. -/
theorem declaration_finds {found : Declaration}
    (read : declaration fuel doc tokens = .ok (found, rest)) :
    found.doc = doc ∧
      ∃ token behind, tokens = token :: behind ∧ Holds behind found.inner rest := by
  have lead := (leadsTo_skipWord "export" tokens).trans (leadsTo_skipWord "declare" _)
  unfold declaration at read
  dsimp only at read
  split at read
  · rename_i eaten
    rcases exists_of_eatWord eaten with ⟨line, place, opened⟩
    rw [opened] at lead
    rcases lead.behind rfl with ⟨first, behind, split, sofar⟩
    exact ⟨doc_of_interfaceBody read, first, behind, split,
      sofar.trans (interfaceBody_finds _ found rest read)⟩
  · split at read
    · rename_i eaten
      rcases exists_of_eatWord eaten with ⟨line, place, opened⟩
      rw [opened] at lead
      rcases lead.behind rfl with ⟨first, behind, split, sofar⟩
      exact ⟨doc_of_aliasBody read, first, behind, split,
        sofar.trans (aliasBody_finds _ found rest read)⟩
    · cases read

/-- All tokens hold the declarations that are read, and the members in them. -/
theorem holds_declarations {found : List Declaration}
    (read : declarations fuel tokens = .ok found) :
    Holds tokens (Declaration.subjects found) [] := by
  induction fuel generalizing tokens found with
  | zero => cases read
  | succ fuel ih =>
      rw [declarations] at read
      dsimp only at read
      split at read
      · rename_i none
        cases read
        exact ⟨[], rfl, .stop (Prod.ext rfl none)⟩
      · split at read
        · rename_i rest eaten
          rcases exists_of_eatMark eaten with ⟨line, place, closed⟩
          have looked :
              takeDoc tokens = ((takeDoc tokens).1, ⟨.mark ';', place, line⟩ :: rest) := by
            rw [← closed]
          rcases ih read with ⟨located, same, spans⟩
          exact ⟨located, same, .closer looked rfl spans⟩
        · rcases ok_of_bind read with ⟨⟨first, rest⟩, firstRead, read⟩
          rcases ok_of_bind read with ⟨others, othersRead, read⟩
          cases read
          rcases declaration_finds firstRead with ⟨same, token, behind, split, inside⟩
          have found : takeDoc tokens = (first.doc, token :: behind) := Prod.ext same.symm split
          have here : (Subject.declaration first).ReadAt (token :: behind) rest :=
            ⟨fuel, by rw [← split, same]; exact firstRead⟩
          have held : Holds tokens (.declaration first :: first.inner) rest :=
            holds_subject found here inside
          exact held.trans (ih othersRead)

end Declarations

end Parser

end HyperSchema
