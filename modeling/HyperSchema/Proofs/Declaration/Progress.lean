import HyperSchema.Proofs.Declaration.Mirrors

/-!
# Progress — reading declarations comes to an end

A head that can step over the end of the tokens, and back, might stand still in a loop or leave the
tokens.  It does neither, whatever the tokens are.  This file defines:

* `Head.Ends`, how a head ends that is never in front of the first token;
* `Head.Advances` and `Head.AdvancesOrReturns`, progress of a call and of a round of a loop;
* `Head.Progress`, the progress of all calls and of all loops with some fuel;
* `Head.parse_eq`: the declarations of a text are those that the head reads;
* `Head.reading_progresses`: every call and every round makes progress, success is at the end of the
  tokens, and the fuel is no bound.
-/

namespace HyperSchema

namespace Head

open HyperSchema.Parser (Failure)

variable {α β : Type} {all : List Token} {pos fuel : Nat}

/-! ## Calls -/

/-- A head ends well behind something, or at a fault of the text.  It never steps back from the
first token. -/
def Ends (good : α → Nat → Prop) (moved : Except Stop (α × Nat)) : Prop :=
  (∃ found next, moved = .ok (found, next) ∧ good found next) ∨
    ∃ error, moved = .error (.fault error)

/-- From any position a head reads what a reader of the tokens reads, and where it succeeds it has
moved ahead, and not over the end.  So the next call is made from such a position again. -/
def Advances (all : List Token) (read : Head α)
    (read' : List Token → Except Failure (α × List Token)) : Prop :=
  ∀ pos, pos ≤ all.length →
    read all pos = told all (read' (all.drop pos)) ∧
      Ends (fun _ next => pos < next ∧ next ≤ all.length) (read all pos)

/-- Wherever a round of a loop succeeds the head has not moved over the end, and has moved ahead
unless the loop is left. -/
def AdvancesOrReturns (all : List Token) (round : Head (α × Bool)) : Prop :=
  ∀ pos, pos ≤ all.length →
    Ends (fun result next =>
      pos ≤ next ∧ next ≤ all.length ∧ (result.2 = true → pos < next)) (round all pos)

section

variable {good : α → Nat → Prop} {good' : β → Nat → Prop} {low : Nat} {short : Prop}

theorem Ends.pure {found : α} (h : good found pos) :
    Ends good ((Pure.pure found : Head α) all pos) :=
  .inl ⟨found, pos, rfl, h⟩

theorem Ends.bind {read : Head α} {next : α → Head β} (first : Ends good (read all pos))
    (continued : ∀ found mid, good found mid → Ends good' (next found all mid)) :
    Ends good' ((read >>= next) all pos) := by
  rcases first with ⟨found, mid, moved, h⟩ | ⟨error, moved⟩
  · rw [bind_of_ok moved]
    exact continued found mid h
  · rw [bind_apply, moved]
    exact .inr ⟨error, rfl⟩

theorem Agrees.ends {moved : Except Stop (α × Nat)} {read : Except Failure (α × List Token)}
    (h : Agrees all low short moved read) :
    Ends (fun _ next => low ≤ next ∧ next ≤ all.length) moved := by
  cases h with
  | ok found ahead inside => exact .inl ⟨found, _, rfl, ahead, inside⟩
  | fault pos _ => exact .inr ⟨_, rfl⟩

theorem Mirrors.advances {rank : Nat} {read : Head α}
    {read' : List Token → Except Failure (α × List Token)}
    (h : Mirrors all fuel fuel rank 1 read read') : Advances all read read' := by
  intro pos inside
  have agreed := h pos inside (.inl rfl)
  exact ⟨agreed.eq_told, agreed.ends⟩

end

/-! ## Rounds -/

theorem eat_ends (lexeme : Lexeme) (all : List Token) (pos : Nat) :
    Ends (fun eaten next => (eaten = false ∧ next = pos) ∨
      (eaten = true ∧ next = pos + 1 ∧ pos < all.length)) (eat lexeme all pos) := by
  rcases eat_cases lexeme all pos with ⟨moved, -⟩ | ⟨moved, -, inside⟩
  · exact .inl ⟨false, pos, moved, .inl ⟨rfl, rfl⟩⟩
  · exact .inl ⟨true, pos + 1, moved, .inr ⟨rfl, rfl, inside⟩⟩

theorem expect_ends (sign : Char) (all : List Token) (pos : Nat) :
    Ends (fun _ next => pos < next ∧ next ≤ all.length) (expect sign all pos) := by
  apply (eat_ends _ all pos).bind
  rintro eaten mid (⟨rfl, rfl⟩ | ⟨rfl, rfl, inside⟩)
  · exact .inr ⟨_, rfl⟩
  · exact .pure ⟨Nat.lt_succ_self _, inside⟩

theorem takeDoc_ends (inside : pos ≤ all.length) :
    Ends (fun _ next => pos ≤ next ∧ next ≤ all.length) (takeDoc all pos) := by
  rcases exists_takeDoc inside with ⟨doc, next, moved, -, ahead, within⟩
  exact .inl ⟨doc, next, moved, ahead, within⟩

theorem memberEnd_ends (inside : pos ≤ all.length) :
    Ends (fun _ next => pos ≤ next ∧ next ≤ all.length) (memberEnd all pos) := by
  have plain : Agrees all pos True ((memberEnd >>= pure) all pos)
      (Parser.memberEnd (all.drop pos) >>= fun rest => .ok ((), rest)) :=
    .memberEnd inside fun mid ahead within => .ok () ahead within
  rw [bind_pure] at plain
  exact plain.ends

theorem joinedRound_advances {part : Head TypeExpr}
    {part' : List Token → Except Failure (TypeExpr × List Token)}
    (sign : Char) (h : Advances all part part') :
    AdvancesOrReturns all (joinedRound sign part) := by
  intro pos inside
  apply (eat_ends _ all pos).bind
  rintro eaten mid (⟨rfl, rfl⟩ | ⟨rfl, rfl, within⟩)
  -- Without the sign nothing is passed, and the loop is left.
  · exact .pure ⟨Nat.le_refl _, inside, nofun⟩
  · apply (h (pos + 1) within).2.bind
    intro found next ⟨ahead, within⟩
    exact .pure ⟨by omega, within, fun _ => by omega⟩

theorem indexRound_advances {type : Head TypeExpr}
    {type' : List Token → Except Failure (TypeExpr × List Token)}
    (h : Advances all type type') (base : TypeExpr) :
    AdvancesOrReturns all (indexRound type base) := by
  intro pos inside
  apply (eat_ends _ all pos).bind
  rintro eaten mid (⟨rfl, rfl⟩ | ⟨rfl, rfl, within⟩)
  · exact .pure ⟨Nat.le_refl _, inside, nofun⟩
  · apply (eat_ends _ all (pos + 1)).bind
    rintro eaten mid (⟨rfl, rfl⟩ | ⟨rfl, rfl, within⟩)
    · apply (h (pos + 1) within).2.bind
      intro index mid ⟨ahead, within⟩
      apply (expect_ends _ all mid).bind
      intro _ next ⟨further, within⟩
      exact .pure ⟨by omega, within, fun _ => by omega⟩
    · exact .pure ⟨by omega, within, fun _ => by omega⟩

theorem itemRound_advances {item : Head α}
    {item' : List Token → Except Failure (α × List Token)}
    (close : Char) (h : Advances all item item') :
    AdvancesOrReturns all (itemRound close item) := by
  intro pos inside
  apply (h pos inside).2.bind
  intro first mid ⟨ahead, within⟩
  apply (eat_ends _ all mid).bind
  rintro eaten next (⟨rfl, rfl⟩ | ⟨rfl, rfl, within⟩)
  · apply (expect_ends _ all _).bind
    intro _ last ⟨further, within⟩
    exact .pure ⟨by omega, within, nofun⟩
  · exact .pure ⟨by omega, within, fun _ => by omega⟩

theorem closableRound_advances {item : Head α}
    {item' : List Token → Except Failure (α × List Token)}
    (close : Char) (h : Advances all item item') :
    AdvancesOrReturns all (closableRound close item) := by
  intro pos inside
  apply (eat_ends _ all pos).bind
  rintro eaten mid (⟨rfl, rfl⟩ | ⟨rfl, rfl, within⟩)
  · exact itemRound_advances close h _ inside
  · exact .pure ⟨Nat.le_succ _, within, nofun⟩

theorem memberRound_advances {member : Option String → Head Member}
    {member' : Option String → List Token → Except Failure (Member × List Token)}
    (h : ∀ doc, Advances all (member doc) (member' doc)) :
    AdvancesOrReturns all (memberRound member) := by
  intro pos inside
  -- Neither the comments nor what ends the member need be there; the member itself is.
  apply (takeDoc_ends inside).bind
  intro doc start ⟨ahead, within⟩
  apply (eat_ends _ all start).bind
  rintro eaten mid (⟨rfl, rfl⟩ | ⟨rfl, rfl, within⟩)
  · apply (h doc _ within).2.bind
    intro first mid ⟨further, within⟩
    apply (memberEnd_ends within).bind
    intro _ next ⟨last, within⟩
    exact .pure ⟨by omega, within, fun _ => by omega⟩
  · exact .pure ⟨by omega, within, nofun⟩

theorem baseRound_advances {base : Head TypeExpr}
    {base' : List Token → Except Failure (TypeExpr × List Token)} (h : Advances all base base') :
    AdvancesOrReturns all (baseRound base) := by
  intro pos inside
  apply (h pos inside).2.bind
  intro first mid ⟨ahead, within⟩
  apply (eat_ends _ all mid).bind
  rintro eaten next (⟨rfl, rfl⟩ | ⟨rfl, rfl, within⟩)
  · exact .pure ⟨by omega, within, nofun⟩
  · exact .pure ⟨by omega, within, fun _ => by omega⟩

theorem declarationRound_advances {declaration : Option String → Head Declaration}
    {declaration' : Option String → List Token → Except Failure (Declaration × List Token)}
    (h : ∀ doc, Advances all (declaration doc) (declaration' doc)) :
    AdvancesOrReturns all (declarationRound declaration) := by
  intro pos inside
  apply (takeDoc_ends inside).bind
  intro doc start ⟨ahead, within⟩
  rcases drop_cases all start with ⟨nothing, -⟩ | ⟨token, found, -, -⟩
  · rw [bind_of_ok (peek_of_nothing nothing)]
    exact .pure ⟨ahead, within, nofun⟩
  · rw [bind_of_ok (peek_of_found found)]
    apply (eat_ends _ all start).bind
    rintro eaten mid (⟨rfl, rfl⟩ | ⟨rfl, rfl, within⟩)
    · apply (h doc _ within).2.bind
      intro first next ⟨further, within⟩
      exact .pure ⟨by omega, within, fun _ => by omega⟩
    · exact .pure ⟨by omega, within, fun _ => by omega⟩

/-! ## The whole grammar -/

/-- Every call of a reader moves ahead where it succeeds, and so does every round of a loop unless
it is the last. -/
structure Progress (all : List Token) (fuel : Nat) : Prop where
  type : Advances all (type fuel) (Parser.type fuel)
  union : Advances all (union fuel) (Parser.union fuel)
  intersection : Advances all (intersection fuel) (Parser.intersection fuel)
  keyed : Advances all (keyed fuel) (Parser.keyed fuel)
  indexed : Advances all (indexed fuel) (Parser.indexed fuel)
  primary : Advances all (primary fuel) (Parser.primary fuel)
  member (doc : Option String) : Advances all (member fuel doc) (Parser.member fuel doc)
  members : Advances all (members fuel) (Parser.members fuel)
  declaration (doc : Option String) :
    Advances all (declaration fuel doc) (Parser.declaration fuel doc)
  unionRound : AdvancesOrReturns all (joinedRound '|' (Head.intersection fuel))
  intersectionRound : AdvancesOrReturns all (joinedRound '&' (Head.keyed fuel))
  indexRound (base : TypeExpr) : AdvancesOrReturns all (indexRound (Head.type fuel) base)
  argumentRound : AdvancesOrReturns all (itemRound '>' (Head.type fuel))
  tupleRound : AdvancesOrReturns all (closableRound ']' (tupleItem fuel))
  memberRound : AdvancesOrReturns all (memberRound (Head.member fuel))
  typeParamRound : AdvancesOrReturns all (closableRound '>' (typeParam fuel))
  baseRound : AdvancesOrReturns all (baseRound (Head.indexed fuel))
  declarationRound : AdvancesOrReturns all (declarationRound (Head.declaration fuel))

/-- All tokens, malformed ones included, are read with progress. -/
theorem progress (all : List Token) (fuel : Nat) : Progress all fuel :=
  have h := follows all fuel fuel
  have declaration (doc : Option String) := (declaration_mirrored all fuel fuel doc).advances
  { type := h.type.advances
    union := h.union.advances
    intersection := h.intersection.advances
    keyed := h.keyed.advances
    indexed := h.indexed.advances
    primary := h.primary.advances
    member := fun doc => (h.member doc).advances
    members := h.members.advances
    declaration
    unionRound := joinedRound_advances '|' h.intersection.advances
    intersectionRound := joinedRound_advances '&' h.keyed.advances
    indexRound := indexRound_advances h.type.advances
    argumentRound := itemRound_advances '>' h.type.advances
    tupleRound := closableRound_advances ']' h.tupleItem.advances
    memberRound := memberRound_advances fun doc => (h.member doc).advances
    typeParamRound := closableRound_advances '>' (typeParam_mirrored all fuel fuel).advances
    baseRound := baseRound_advances h.indexed.advances
    declarationRound := declarationRound_advances declaration }

/-! ## The end of the tokens -/

/-- With the same fuel, or enough, the head reads the declarations that the readers read. -/
theorem declarations_eq_told {fuel' : Nat} (enough : Fuelled all fuel fuel' 1 0) :
    declarations fuel all 0 = told all (declarationsToEnd fuel' all) :=
  (declarations_mirrored all fuel fuel' 0 (Nat.zero_le _) enough).eq_told

/-- All declarations are read at the end of the tokens, and nowhere else. -/
theorem declarations_ends (all : List Token) (fuel : Nat) :
    Ends (fun _ next => next = all.length) (declarations fuel all 0) := by
  rw [declarations_eq_told (.inl rfl), declarationsToEnd]
  cases Parser.declarations fuel all with
  | ok found => exact .inl ⟨found, all.length, rfl, rfl⟩
  | error failure => exact .inr ⟨_, rfl⟩

theorem need_le_fuelFor (all : List Token) : need all 1 0 ≤ Parser.fuelFor all := by
  rw [need, Parser.fuelFor]
  omega

/-- More fuel than that for a list of tokens changes nothing. -/
theorem declarations_fuelFor_add (all : List Token) (more : Nat) :
    declarations (Parser.fuelFor all + more) all 0 = declarations (Parser.fuelFor all) all 0 := by
  have enough := need_le_fuelFor all
  rw [declarations_eq_told (.inr ⟨Nat.le_add_right_of_le enough, enough⟩),
    declarations_eq_told (.inl rfl)]

/-- The fuel for a list of tokens is never used up. -/
theorem declarations_fuelFor_ne (all : List Token) (position : Position) :
    declarations (Parser.fuelFor all) all 0 ≠ .error (.fault ⟨position, .nestingTooDeep⟩) := by
  intro out
  have h := declarations_mirrored all (Parser.fuelFor all) (Parser.fuelFor all) 0 (Nat.zero_le _)
    (.inl rfl)
  exact Nat.not_lt.2 (need_le_fuelFor all) (h.short_of_nestingTooDeep out)

/-- The declarations of a text are those that the head reads. -/
theorem parse_eq (source : String) :
    (parse source).map Prod.fst = (Declaration.parse source).mapError .fault := by
  rw [parse, Declaration.parse]
  cases Lexer.tokens source with
  | error e => rfl
  | ok all =>
      simp only [declarations_eq_told (.inl rfl), declarationsToEnd]
      cases Parser.declarations (Parser.fuelFor all) all <;> rfl

-- Success is behind the seventh of seven tokens.
example : parse "type A = [];;" =
    .ok ([⟨"A", none, [], .alias (.tuple []), false⟩], 7) := by cbv

-- Behind the minus sign the head steps over the end, finds no number, and steps back.
example : parse "type A = -" = .error (.fault ⟨⟨1, 10⟩, .expectedNumber⟩) := by cbv

/-- A step over a text passes at least one character. -/
theorem step_passes (here : Position) (c : Char) (rest : List Char) :
    ∀ read ∈ (Lexer.step here c rest).toOption,
      ∃ passed, passed ≠ [] ∧ c :: rest = passed ++ read.2.text := by
  intro read h
  cases found : Lexer.step here c rest with
  | error e =>
      rw [found] at h
      cases h
  | ok read' =>
      rw [found] at h
      obtain rfl : read' = read := Option.some.inj h
      rcases Lexer.step_reaches found with ⟨passed, left, -⟩
      exact ⟨c :: passed, List.cons_ne_nil _ _, congrArg (c :: ·) left⟩

/-- Reading comes to an end on every text, with its tokens and without.  A step over the text passes
characters; over any tokens every call and every round of a loop makes progress, without a step back
from the first token; all declarations are read only at the end of the tokens; and no fuel beyond
that for the tokens changes what is read, nor is that fuel ever used up. -/
theorem reading_progresses :
    (∀ here c rest, ∀ read ∈ (Lexer.step here c rest).toOption,
      ∃ passed, passed ≠ [] ∧ c :: rest = passed ++ read.2.text) ∧
    (∀ all fuel, Progress all fuel) ∧
    (∀ all fuel, Ends (fun _ next => next = all.length) (declarations fuel all 0)) ∧
    (∀ all more, declarations (Parser.fuelFor all + more) all 0 =
      declarations (Parser.fuelFor all) all 0) ∧
    (∀ all position,
      declarations (Parser.fuelFor all) all 0 ≠ .error (.fault ⟨position, .nestingTooDeep⟩)) ∧
    ∀ source, (parse source).map Prod.fst = (Declaration.parse source).mapError .fault :=
  ⟨step_passes, progress, declarations_ends, declarations_fuelFor_add, declarations_fuelFor_ne,
    parse_eq⟩

end Head

end HyperSchema
