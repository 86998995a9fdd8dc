import HyperSchema.Proofs.Declaration.Following
import HyperSchema.Proofs.Declaration.Reader

/-!
# Mirrors — types and declarations read by position

The grammar of a head and that of the readers are the same.  This file defines:

* `Head.Mirrors`, the relation between a head and a reader from any position on;
* `Head.follows`: the readers of types are mirrored, by induction on the fuel with one lemma for
  each reader;
* `Head.declarations_mirrored`: so are those of declarations.

The fuel of both may differ where it is enough.  A reader needs eight for each token that is left,
and its rank: the readers that call each other without a token between them have falling ranks.
-/

namespace HyperSchema

namespace Head

open HyperSchema.Parser (Failure)

variable {α β : Type} {all : List Token} {pos low mid : Nat} {fuel fuel' rank rank' gain : Nat}

/-! ## Fuel -/

/-- The fuel for the tokens from a position on. -/
def need (all : List Token) (rank pos : Nat) : Nat :=
  8 * (all.length - pos) + rank

/-- Both have the same fuel, or both have enough. -/
def Fuelled (all : List Token) (fuel fuel' rank pos : Nat) : Prop :=
  fuel = fuel' ∨ need all rank pos ≤ fuel ∧ need all rank pos ≤ fuel'

/-- From every position on a head agrees with a reader.  The gain is what it moves at least, and
only where it has less fuel than it needs it may give up. -/
def Mirrors (all : List Token) (fuel fuel' rank gain : Nat) (read : Head α)
    (read' : List Token → Except Failure (α × List Token)) : Prop :=
  ∀ pos, pos ≤ all.length → Fuelled all fuel fuel' rank pos →
    Agrees all (pos + gain) (fuel < need all rank pos) (read all pos) (read' (all.drop pos))

section

variable {read : Head α} {read' : List Token → Except Failure (α × List Token)}

/-- What is called from further behind, or with a lower rank, has enough fuel. -/
theorem Mirrors.last {start : Nat} (spent : Nat) (h : Mirrors all fuel fuel' rank' gain read read')
    (enough : Fuelled all (fuel + spent) (fuel' + spent) rank start) (inside : pos ≤ all.length)
    (lower : 8 * start + rank' + spent ≤ 8 * pos + rank) (further : low ≤ pos + gain) :
    Agrees all low (fuel + spent < need all rank start) (read all pos) (read' (all.drop pos)) := by
  -- The tokens that were passed in between pay for a higher rank.
  have less : need all rank' pos + spent ≤ need all rank start := by
    simp only [need]
    omega
  have enough' : Fuelled all fuel fuel' rank' pos := by
    rcases enough with same | ⟨enough, enough'⟩
    · exact .inl (Nat.add_right_cancel same)
    · exact .inr ⟨by omega, by omega⟩
  exact (h pos inside enough').mono further (by omega)

/-- The same for a call with something behind it. -/
theorem Mirrors.call {start : Nat} (spent : Nat) (h : Mirrors all fuel fuel' rank' gain read read')
    (enough : Fuelled all (fuel + spent) (fuel' + spent) rank start) (inside : pos ≤ all.length)
    (lower : 8 * start + rank' + spent ≤ 8 * pos + rank)
    {next : α → Head β} {next' : α × List Token → Except Failure (β × List Token)}
    (continued : ∀ found mid, pos + gain ≤ mid → mid ≤ all.length →
      Agrees all low (fuel + spent < need all rank start) (next found all mid)
        (next' (found, all.drop mid))) :
    Agrees all low (fuel + spent < need all rank start) ((read >>= next) all pos)
      (read' (all.drop pos) >>= next') :=
  (h.last spent enough inside lower (Nat.le_refl _)).bind id continued

end

/-- Without fuel both give up at once. -/
theorem Mirrors.exhausted (read : Nat → Head α)
    (read' : Nat → List Token → Except Failure (α × List Token)) (out : fuel = 0 ∨ fuel' = 0)
    (gives : read 0 = fail .nestingTooDeep) (gives' : read' 0 = Parser.fail .nestingTooDeep)
    (positive : 0 < rank) : Mirrors all fuel fuel' rank gain (read fuel) (read' fuel') := by
  intro pos inside enough
  have positive : 0 < need all rank pos := Nat.lt_of_lt_of_le positive (Nat.le_add_left ..)
  -- No fuel is enough, so where one has none the other has the same.
  obtain ⟨rfl, rfl⟩ : fuel = 0 ∧ fuel' = 0 := by
    rcases enough with same | enough <;> omega
  rw [gives, gives']
  exact .fault pos fun _ => positive

/-- A loop is mirrored if each of its rounds is, in front of the others. -/
theorem Mirrors.of_succ (read : Nat → Head α)
    (read' : Nat → List Token → Except Failure (α × List Token))
    (gives : read 0 = fail .nestingTooDeep) (gives' : read' 0 = Parser.fail .nestingTooDeep)
    (positive : 0 < rank)
    (step : ∀ fuel fuel', Mirrors all fuel fuel' rank gain (read fuel) (read' fuel') →
      Mirrors all (fuel + 1) (fuel' + 1) rank gain (read (fuel + 1)) (read' (fuel' + 1)))
    (fuel fuel' : Nat) : Mirrors all fuel fuel' rank gain (read fuel) (read' fuel') := by
  induction fuel generalizing fuel' with
  | zero => exact .exhausted read read' (.inl rfl) gives gives' positive
  | succ fuel ih =>
      cases fuel' with
      | zero => exact .exhausted read read' (.inr rfl) gives gives' positive
      | succ fuel' => exact step fuel fuel' (ih fuel')

/-! ## Loops -/

/-- A part and its sign in front, and others behind it. -/
theorem again_joinedRound (sign : Char) (part : Head TypeExpr) (others : Head (List TypeExpr)) :
    again (joinedRound sign part) others = do
      if ← eat (.mark sign) then
        let next ← part
        let others ← others
        return next :: others
      else return [] := by
  rw [again, joinedRound, bind_assoc]
  congr 1
  funext eaten
  cases eaten <;> simp

theorem again_itemRound (close : Char) (item : Head α) (others : Head (List α)) :
    again (itemRound close item) others = do
      let first ← item
      if ← eat (.mark ',') then
        let others ← others
        return first :: others
      else
        expect close
        return [first] := by
  rw [again, itemRound, bind_assoc]
  congr 1
  funext first
  rw [bind_assoc]
  congr 1
  funext eaten
  cases eaten <;> simp

theorem again_closableRound (close : Char) (item : Head α) (others : Head (List α)) :
    again (closableRound close item) others = (do
      if ← eat (.mark close) then return []
      else again (itemRound close item) others) := by
  rw [again, closableRound, bind_assoc]
  congr 1
  funext eaten
  cases eaten <;> simp [again]

theorem again_memberRound (member : Option String → Head Member) (others : Head (List Member)) :
    again (memberRound member) others = do
      let doc ← takeDoc
      if ← eat (.mark '}') then return []
      else
        let first ← member doc
        memberEnd
        let others ← others
        return first :: others := by
  rw [again, memberRound, bind_assoc]
  congr 1
  funext doc
  rw [bind_assoc]
  congr 1
  funext eaten
  cases eaten <;> simp

theorem again_baseRound (base : Head TypeExpr) (others : Head (List TypeExpr)) :
    again (baseRound base) others = do
      let first ← base
      if ← eat (.mark ',') then
        let others ← others
        return first :: others
      else return [first] := by
  rw [again, baseRound, bind_assoc]
  congr 1
  funext first
  rw [bind_assoc]
  congr 1

theorem again_declarationRound (declaration : Option String → Head Declaration)
    (others : Head (List Declaration)) :
    again (declarationRound declaration) others = do
      let doc ← takeDoc
      if (← peek).isNone then return []
      else if ← eat (.mark ';') then others
      else
        let first ← declaration doc
        let others ← others
        return first :: others := by
  rw [again, declarationRound, bind_assoc]
  congr 1
  funext doc
  rw [bind_assoc]
  congr 1
  funext seen
  cases seen with
  | none => simp
  | some _ =>
      rw [Option.isNone_some, if_neg Bool.false_ne_true, if_neg Bool.false_ne_true, bind_assoc]
      congr 1
      funext eaten
      cases eaten <;> simp

section

variable {item : Head α} {item' : List Token → Except Failure (α × List Token)}
  {others : Head (List α)} {others' : List Token → Except Failure (List α × List Token)}
  {more : Nat}

/-- An item and the others behind its comma, or the sign that closes the list. -/
theorem Mirrors.items {spent : Nat} (close : Char)
    (first : Mirrors all fuel fuel' rank' 1 item item')
    (behind : Mirrors all fuel fuel' rank more others others')
    (lower : rank' + spent ≤ rank) (cheap : spent ≤ 8) :
    Mirrors all (fuel + spent) (fuel' + spent) rank 1 (again (itemRound close item) others)
      (fun tokens => do
        let (first, rest) ← item' tokens
        match Parser.eatMark ',' rest with
        | some rest => do
            let (others, rest) ← others' rest
            .ok (first :: others, rest)
        | none => do
            let rest ← Parser.expectMark close rest
            .ok ([first], rest)) := by
  intro pos inside enough
  rw [again_itemRound]
  apply first.call spent enough inside (by omega)
  intro found mid ahead within
  apply Agrees.eatMark
  · intro missing
    simp only [missing]
    apply Agrees.expect
    intro within
    exact .ok _ (by omega) within
  · intro eaten within
    simp only [eaten]
    apply behind.call spent enough within (by omega)
    intro found' last ahead within
    exact .ok _ (by omega) within

/-- The same for a list that may be closed at once. -/
theorem Mirrors.closable {spent : Nat} (close : Char)
    (first : Mirrors all fuel fuel' rank' 1 item item')
    (behind : Mirrors all fuel fuel' rank more others others')
    (lower : rank' + spent ≤ rank) (cheap : spent ≤ 8) :
    Mirrors all (fuel + spent) (fuel' + spent) rank 0 (again (closableRound close item) others)
      (fun tokens =>
        match Parser.eatMark close tokens with
        | some rest => .ok ([], rest)
        | none => do
            let (first, rest) ← item' tokens
            match Parser.eatMark ',' rest with
            | some rest => do
                let (others, rest) ← others' rest
                .ok (first :: others, rest)
            | none => do
                let rest ← Parser.expectMark close rest
                .ok ([first], rest)) := by
  intro pos inside enough
  rw [again_closableRound]
  apply Agrees.eatMark
  · intro missing
    simp only [missing]
    exact (Mirrors.items close first behind lower cheap pos inside enough).mono (Nat.le_succ _) id
  · intro eaten within
    simp only [eaten]
    exact .ok [] (Nat.le_succ _) within

end

section

variable {part : Head TypeExpr} {part' : List Token → Except Failure (TypeExpr × List Token)}
  {others : Head (List TypeExpr)}
  {others' : List Token → Except Failure (List TypeExpr × List Token)}

/-- The parts of a union or an intersection behind the first. -/
theorem Mirrors.joinedRest (sign : Char) (next : Mirrors all fuel fuel' rank' 1 part part')
    (behind : Mirrors all fuel fuel' 1 0 others others') (lower : rank' ≤ 8) :
    Mirrors all (fuel + 1) (fuel' + 1) 1 0 (again (joinedRound sign part) others)
      (fun tokens =>
        match Parser.eatMark sign tokens with
        | none => .ok ([], tokens)
        | some rest => do
            let (next, rest) ← part' rest
            let (others, rest) ← others' rest
            .ok (next :: others, rest)) := by
  intro pos inside enough
  rw [again_joinedRound]
  apply Agrees.eatMark
  · intro missing
    simp only [missing]
    exact .ok [] (Nat.le_refl _) inside
  · intro eaten within
    simp only [eaten]
    apply next.call 1 enough within (by omega)
    intro found mid ahead within
    apply behind.call 1 enough within (by omega)
    intro found' last ahead within
    exact .ok _ (by omega) within

/-- All its parts, the first with or without its sign. -/
theorem Mirrors.joined (sign : Char) (join : TypeExpr → List TypeExpr → TypeExpr)
    (first : Mirrors all fuel fuel' rank' 1 part part')
    (behind : Mirrors all fuel fuel' 1 0 others others') (lower : rank' < rank) :
    Mirrors all (fuel + 1) (fuel' + 1) rank 1 (joined sign join part others)
      (fun tokens => do
        let (first, rest) ← part' (Parser.skipMark sign tokens)
        let (others, rest) ← others' rest
        .ok (join first others, rest)) := by
  intro pos inside enough
  rcases exists_skip (.mark sign) inside with ⟨start, moved, left, ahead, within⟩
  have skipped : Parser.skipMark sign (all.drop pos) = all.drop start := by
    rw [Parser.skipMark, eatMark_eq, left]
  rw [Head.joined, bind_of_ok moved]
  simp only [skipped]
  apply first.call 1 enough within (by omega)
  intro found mid ahead within
  apply behind.call 1 enough within (by omega)
  intro found' last ahead within
  exact .ok _ (by omega) within

end

/-! ## Types -/

theorem indices_unrolled (fuel : Nat) (base : TypeExpr) :
    indices (fuel + 1) base = do
      if ← eat (.mark '[') then
        if ← eat (.mark ']') then indices fuel (.array base)
        else
          let index ← type fuel
          expect ']'
          indices fuel (.access base index)
      else return base := by
  rw [indices, indexRound, bind_assoc]
  congr 1
  funext opened
  cases opened with
  | false => rfl
  | true =>
      rw [if_pos rfl, if_pos rfl, bind_assoc]
      congr 1
      funext closed
      cases closed <;> simp

theorem negative_agrees (all : List Token) (pos fuel : Nat) (start : Position) (line : Nat) :
    Agrees all (pos + 1) False (negative all pos)
      (Parser.primary (fuel + 1) (⟨.mark '-', start, line⟩ :: all.drop pos)) := by
  rw [negative]
  rcases drop_cases all pos with ⟨nothing, left⟩ | ⟨⟨lexeme, start', line'⟩, found, left, within⟩
  · rw [bind_of_ok (advance_of_nothing nothing)]
    exact .failed (by simp) (by rw [left]; rfl)
  · rw [bind_of_ok (advance_of_found found)]
    cases lexeme with
    | number spelling => exact .passed within (by rw [left, Parser.primary_minus])
    | _ => exact .failed (by simp) (by rw [left]; rfl)

/-- All readers of types with the given fuel are mirrored.  The ranks fall along the calls that are
made before a token is passed: from a tuple over its item, a type, a union and an intersection down
to a type without signs. -/
structure Follows (all : List Token) (fuel fuel' : Nat) : Prop where
  type : Mirrors all fuel fuel' 6 1 (type fuel) (Parser.type fuel')
  union : Mirrors all fuel fuel' 5 1 (union fuel) (Parser.union fuel')
  unionRest : Mirrors all fuel fuel' 1 0 (unionRest fuel) (Parser.unionRest fuel')
  intersection : Mirrors all fuel fuel' 4 1 (intersection fuel) (Parser.intersection fuel')
  intersectionRest :
    Mirrors all fuel fuel' 1 0 (intersectionRest fuel) (Parser.intersectionRest fuel')
  keyed : Mirrors all fuel fuel' 3 1 (keyed fuel) (Parser.keyed fuel')
  indexed : Mirrors all fuel fuel' 2 1 (indexed fuel) (Parser.indexed fuel')
  indices (base : TypeExpr) :
    Mirrors all fuel fuel' 1 0 (indices fuel base) (Parser.indices fuel' base)
  primary : Mirrors all fuel fuel' 1 1 (primary fuel) (Parser.primary fuel')
  arguments : Mirrors all fuel fuel' 7 1 (arguments fuel) (Parser.arguments fuel')
  tupleItems : Mirrors all fuel fuel' 8 0 (tupleItems fuel) (Parser.tupleItems fuel')
  tupleItem : Mirrors all fuel fuel' 7 1 (tupleItem fuel) (Parser.tupleItem fuel')
  members : Mirrors all fuel fuel' 2 1 (members fuel) (Parser.members fuel')
  member (doc : Option String) :
    Mirrors all fuel fuel' 1 1 (member fuel doc) (Parser.member fuel' doc)

namespace Follows

variable (ih : Follows all fuel fuel')

include ih

theorem type_succ :
    Mirrors all (fuel + 1) (fuel' + 1) 6 1 (Head.type (fuel + 1)) (Parser.type (fuel' + 1)) := by
  intro pos inside enough
  rw [Head.type, typeOf, Parser.type]
  apply ih.union.call 1 enough inside (by omega)
  intro check mid ahead within
  apply Agrees.eatWord
  · intro missing
    simp only [missing]
    exact .ok check ahead within
  · intro eaten within
    simp only [eaten]
    apply ih.union.call 1 enough within (by omega)
    intro bound second ahead within
    apply Agrees.expect
    intro within
    apply ih.type.call 1 enough within (by omega)
    intro whenTrue third ahead within
    apply Agrees.expect
    intro within
    apply ih.type.call 1 enough within (by omega)
    intro whenFalse last ahead within
    exact .ok _ (by omega) within

theorem keyed_succ :
    Mirrors all (fuel + 1) (fuel' + 1) 3 1 (Head.keyed (fuel + 1)) (Parser.keyed (fuel' + 1)) := by
  intro pos inside enough
  rw [Head.keyed, keyedOf, Parser.keyed]
  apply Agrees.eatWord
  · intro missing
    simp only [missing]
    exact ih.indexed.last 1 enough inside (by omega) (Nat.le_refl _)
  · intro eaten within
    simp only [eaten]
    apply ih.keyed.call 1 enough within (by omega)
    intro operand mid ahead within
    exact .ok _ (by omega) within

theorem indexed_succ :
    Mirrors all (fuel + 1) (fuel' + 1) 2 1 (Head.indexed (fuel + 1))
      (Parser.indexed (fuel' + 1)) := by
  intro pos inside enough
  rw [Head.indexed, Parser.indexed]
  apply ih.primary.call 1 enough inside (by omega)
  intro base mid ahead within
  exact (ih.indices base).last 1 enough within (by omega) ahead

theorem indices_succ (base : TypeExpr) :
    Mirrors all (fuel + 1) (fuel' + 1) 1 0 (Head.indices (fuel + 1) base)
      (Parser.indices (fuel' + 1) base) := by
  intro pos inside enough
  rw [indices_unrolled, Parser.indices]
  apply Agrees.eatMark
  · intro missing
    simp only [missing]
    exact .ok base (Nat.le_refl _) inside
  · intro eaten within
    simp only [eaten]
    apply Agrees.eatMark
    · intro missing
      simp only [missing]
      apply ih.type.call 1 enough within (by omega)
      intro index mid ahead within
      apply Agrees.expect
      intro within
      exact (ih.indices _).last 1 enough within (by omega) (by omega)
    · intro eaten within
      simp only [eaten]
      exact (ih.indices _).last 1 enough within (by omega) (by omega)

theorem named_agrees {start : Position} {line : Nat} (word : String)
    (enough : Fuelled all (fuel + 1) (fuel' + 1) 1 pos) (within : pos < all.length) :
    Agrees all (pos + 1) (fuel + 1 < need all 1 pos)
      (named word (Head.arguments fuel) all (pos + 1))
      (Parser.primary (fuel' + 1) (⟨.word word, start, line⟩ :: all.drop (pos + 1))) := by
  rw [named]
  cases plain : Parser.plainWord? word with
  | some found =>
      rw [Parser.primary_plain plain]
      exact .ok found (Nat.le_refl _) within
  | none =>
      rw [Parser.primary_word plain]
      refine (dotted_agrees word within).bind False.elim ?_
      intro name mid ahead within
      apply Agrees.eatMark
      · intro missing
        simp only [missing]
        exact .ok _ ahead within
      · intro eaten within
        simp only [eaten]
        apply ih.arguments.call 1 enough within (by omega)
        intro args last ahead within
        exact .ok _ (by omega) within

theorem primary_succ :
    Mirrors all (fuel + 1) (fuel' + 1) 1 1 (Head.primary (fuel + 1))
      (Parser.primary (fuel' + 1)) := by
  intro pos inside enough
  rw [Head.primary, primaryOf]
  rcases drop_cases all pos with ⟨nothing, left⟩ | ⟨⟨lexeme, start, line⟩, found, left, within⟩
  · have failed : Parser.primary (fuel' + 1) (all.drop pos) =
        .error ⟨.unexpectedEnd, all.drop (pos + 1)⟩ := by
      rw [List.drop_eq_nil_of_le (Nat.le_succ_of_le (List.getElem?_eq_none_iff.1 nothing)), left]
      rfl
    rw [bind_of_ok (advance_of_nothing nothing), failed]
    exact .fault (pos + 1) (by simp)
  · rw [bind_of_ok (advance_of_found found), left]
    cases lexeme with
    | word word => exact ih.named_agrees word enough within
    | mark sign =>
        unfold Parser.primary
        dsimp only
        split
        · rename_i same
          obtain rfl := Lexeme.mark.inj same
          apply ih.type.call 1 enough within (by omega)
          intro inner mid ahead within
          apply Agrees.expect
          intro within
          exact .ok inner (by omega) within
        · rename_i same
          obtain rfl := Lexeme.mark.inj same
          apply ih.members.call 1 enough within (by omega)
          intro members mid ahead within
          exact .ok _ (by omega) within
        · rename_i same
          obtain rfl := Lexeme.mark.inj same
          apply ih.tupleItems.call 1 enough within (by omega)
          intro items mid ahead within
          exact .ok _ ahead within
        · rename_i same
          obtain rfl := Lexeme.mark.inj same
          exact (negative_agrees all (pos + 1) fuel' start line).mono (Nat.le_succ _) False.elim
        -- Literals and words are no signs.
        · rename_i apart
          cases apart
        · rename_i apart
          cases apart
        · rename_i apart
          cases apart
        · rename_i group object tuple minus _ _ _
          have refused : primaryAfter (Head.type fuel) (Head.members fuel) (Head.tupleItems fuel)
              (Head.arguments fuel) (.mark sign) = (do retreat; fail .expectedType) := by
            unfold primaryAfter
            split <;> simp_all
          simp only [refused, ← left]
          exact .failed (by simp) rfl
    | text value => exact .ok _ (Nat.le_refl _) within
    | number spelling => exact .ok _ (Nat.le_refl _) within
    | _ =>
        rw [← left]
        exact .failed (by simp) (by rw [left]; rfl)

theorem tupleItem_succ :
    Mirrors all (fuel + 1) (fuel' + 1) 7 1 (Head.tupleItem (fuel + 1))
      (Parser.tupleItem (fuel' + 1)) := by
  intro pos inside enough
  have chosen : Parser.tupleItem (fuel' + 1) (all.drop pos) =
      match eatLexeme .ellipsis (all.drop pos) with
      | some rest => do
          let (element, rest) ← Parser.type fuel' rest
          .ok (.rest element, rest)
      | none => Parser.type fuel' (all.drop pos) := by
    rcases all.drop pos with _ | ⟨⟨lexeme, start, line⟩, rest⟩
    · rfl
    · cases lexeme <;> rfl
  rw [Head.tupleItem, tupleItemOf, chosen]
  apply Agrees.eat
  · intro missing
    simp only [missing]
    exact ih.type.last 1 enough inside (by omega) (Nat.le_refl _)
  · intro eaten within
    simp only [eaten]
    apply ih.type.call 1 enough within (by omega)
    intro element mid ahead within
    exact .ok _ (by omega) within

theorem members_succ :
    Mirrors all (fuel + 1) (fuel' + 1) 2 1 (Head.members (fuel + 1))
      (Parser.members (fuel' + 1)) := by
  intro pos inside enough
  rcases exists_takeDoc inside with ⟨doc, start, moved, left, ahead, within⟩
  rw [Head.members, again_memberRound, Parser.members, bind_of_ok moved]
  simp only [left]
  apply Agrees.eatMark
  · intro missing
    simp only [missing]
    apply (ih.member doc).call 1 enough within (by omega)
    intro first mid ahead within
    apply Agrees.memberEnd within
    intro last ahead within
    apply ih.members.call 1 enough within (by omega)
    intro others behind ahead within
    exact .ok _ (by omega) within
  · intro eaten within
    simp only [eaten]
    exact .ok [] (by omega) within

theorem member_succ (doc : Option String) :
    Mirrors all (fuel + 1) (fuel' + 1) 1 1 (Head.member (fuel + 1) doc)
      (Parser.member (fuel' + 1) doc) := by
  intro pos inside enough
  -- The modifier may be missing, but behind it a bracket or a name is passed.
  rcases exists_takeReadonly inside with ⟨isReadonly, start, moved, left, ahead, within⟩
  rw [Head.member, memberOf, Parser.member, bind_of_ok moved]
  simp only [left]
  apply Agrees.eatMark
  · intro missing
    simp only [missing]
    refine (propertyName_agrees all start).bind False.elim ?_
    intro name mid ahead within
    rcases exists_skip (.mark '?') within with ⟨behind, moved', left', ahead, within⟩
    simp only [Parser.skipMark, eatMark_eq, left']
    rw [bind_of_ok moved']
    apply Agrees.expect
    intro within
    apply ih.type.call 1 enough within (by omega)
    intro found last ahead within
    exact .ok _ (by omega) within
  · intro eaten within
    simp only [eaten]
    refine (identifier_agrees all (start + 1)).bind False.elim ?_
    intro key mid ahead within
    apply Agrees.expect
    intro within
    apply ih.type.call 1 enough within (by omega)
    intro keyType second ahead within
    apply Agrees.expect
    intro within
    apply Agrees.expect
    intro within
    apply ih.type.call 1 enough within (by omega)
    intro value last ahead within
    exact .ok _ (by omega) within

theorem succ : Follows all (fuel + 1) (fuel' + 1) where
  type := ih.type_succ
  union := .joined '|' Parser.joinUnion ih.intersection ih.unionRest (by decide)
  unionRest := .joinedRest '|' ih.intersection ih.unionRest (by decide)
  intersection :=
    .joined '&' Parser.joinIntersection ih.keyed ih.intersectionRest (by decide)
  intersectionRest := .joinedRest '&' ih.keyed ih.intersectionRest (by decide)
  keyed := ih.keyed_succ
  indexed := ih.indexed_succ
  indices := ih.indices_succ
  primary := ih.primary_succ
  arguments := .items '>' ih.type ih.arguments (by decide) (by decide)
  tupleItems := .closable ']' ih.tupleItem ih.tupleItems (by decide) (by decide)
  tupleItem := ih.tupleItem_succ
  members := ih.members_succ
  member := ih.member_succ

end Follows

theorem Follows.exhausted (out : fuel = 0 ∨ fuel' = 0) : Follows all fuel fuel' where
  type := .exhausted Head.type Parser.type out rfl rfl (by decide)
  union := .exhausted Head.union Parser.union out rfl rfl (by decide)
  unionRest := .exhausted Head.unionRest Parser.unionRest out rfl rfl (by decide)
  intersection := .exhausted Head.intersection Parser.intersection out rfl rfl (by decide)
  intersectionRest :=
    .exhausted Head.intersectionRest Parser.intersectionRest out rfl rfl (by decide)
  keyed := .exhausted Head.keyed Parser.keyed out rfl rfl (by decide)
  indexed := .exhausted Head.indexed Parser.indexed out rfl rfl (by decide)
  indices base :=
    .exhausted (Head.indices · base) (Parser.indices · base) out rfl rfl (by decide)
  primary := .exhausted Head.primary Parser.primary out rfl rfl (by decide)
  arguments := .exhausted Head.arguments Parser.arguments out rfl rfl (by decide)
  tupleItems := .exhausted Head.tupleItems Parser.tupleItems out rfl rfl (by decide)
  tupleItem := .exhausted Head.tupleItem Parser.tupleItem out rfl rfl (by decide)
  members := .exhausted Head.members Parser.members out rfl rfl (by decide)
  member doc := .exhausted (Head.member · doc) (Parser.member · doc) out rfl rfl (by decide)

/-- The head reads types as the readers do. -/
theorem follows (all : List Token) (fuel fuel' : Nat) : Follows all fuel fuel' := by
  induction fuel generalizing fuel' with
  | zero => exact .exhausted (.inl rfl)
  | succ fuel ih =>
      cases fuel' with
      | zero => exact .exhausted (.inr rfl)
      | succ fuel' => exact (ih fuel').succ

/-! ## Declarations -/

/-- A type behind something that may be missing. -/
theorem Mirrors.optional {read : Head TypeExpr}
    {read' : List Token → Except Failure (TypeExpr × List Token)} (lexeme : Lexeme)
    (h : Mirrors all fuel fuel' rank 1 read read') (lower : rank ≤ 8) :
    Mirrors all fuel fuel' 0 0 (optional lexeme read)
      (fun tokens => Parser.optional read' (eatLexeme lexeme tokens) tokens) := by
  intro pos inside enough
  rw [Head.optional]
  apply Agrees.eat
  · intro missing
    simp only [missing]
    exact .ok none (Nat.le_refl _) inside
  · intro eaten within
    simp only [eaten]
    apply h.call 0 enough within (by omega)
    intro found mid ahead within
    exact .ok _ (by omega) within

theorem typeParam_mirrored (all : List Token) (fuel fuel' : Nat) :
    Mirrors all fuel fuel' 0 1 (typeParam fuel) (Parser.typeParam fuel') := by
  intro pos inside enough
  simp only [typeParam, Parser.typeParam, eatWord_eq, eatMark_eq]
  refine (identifier_agrees all pos).bind False.elim ?_
  intro name mid ahead within
  apply ((follows all fuel fuel').union.optional (.word "extends") (by decide)).call 0 enough within
    (by omega)
  intro bound second ahead within
  apply ((follows all fuel fuel').type.optional (.mark '=') (by decide)).call 0 enough within
    (by omega)
  intro default last ahead within
  exact .ok _ (by omega) within

theorem typeParamList_mirrored (all : List Token) :
    ∀ fuel fuel', Mirrors all fuel fuel' 1 0 (typeParamList fuel) (Parser.typeParamList fuel') := by
  apply Mirrors.of_succ typeParamList Parser.typeParamList rfl rfl (by decide)
  intro fuel fuel' others
  exact .closable '>' (typeParam_mirrored all fuel fuel') others (by decide) (by decide)

theorem typeParams_mirrored (all : List Token) (fuel fuel' : Nat) :
    Mirrors all fuel fuel' 0 0 (typeParams fuel) (Parser.typeParams fuel') := by
  intro pos inside enough
  rw [typeParams, Parser.typeParams]
  apply Agrees.eatMark
  · intro missing
    simp only [missing]
    exact .ok [] (Nat.le_refl _) inside
  · intro eaten within
    simp only [eaten]
    exact (typeParamList_mirrored all fuel fuel').last 0 enough within (by omega) (by omega)

theorem bases_mirrored (all : List Token) :
    ∀ fuel fuel', Mirrors all fuel fuel' 3 1 (bases fuel) (Parser.bases fuel') := by
  apply Mirrors.of_succ bases Parser.bases rfl rfl (by decide)
  intro fuel fuel' behind pos inside enough
  rw [bases, again_baseRound, Parser.bases]
  apply (follows all fuel fuel').indexed.call 1 enough inside (by omega)
  intro first mid ahead within
  apply Agrees.eatMark
  · intro missing
    simp only [missing]
    exact .ok _ ahead within
  · intro eaten within
    simp only [eaten]
    apply behind.call 1 enough within (by omega)
    intro others last ahead within
    exact .ok _ (by omega) within

theorem interfaceBody_mirrored (all : List Token) (fuel fuel' : Nat) (doc : Option String)
    (isExported : Bool) :
    Mirrors all fuel fuel' 0 1 (interfaceBody fuel doc isExported)
      (Parser.interfaceBody fuel' doc isExported) := by
  intro pos inside enough
  rw [interfaceBody, Parser.interfaceBody]
  refine (identifier_agrees all pos).bind False.elim ?_
  intro name mid ahead within
  apply (typeParams_mirrored all fuel fuel').call 0 enough within (by omega)
  intro params second ahead within
  -- Both ways, with bases and without, end in the members.
  have object (extended : List TypeExpr) (third : Nat) (ahead : pos + 1 ≤ third) :
      Agrees all (pos + 1) (fuel < need all 0 pos)
        ((do
          expect '{'
          let found ← members fuel
          return Declaration.mk name doc params (.interface extended found) isExported
          : Head Declaration) all third)
        (do
          let rest ← Parser.expectMark '{' (all.drop third)
          let read ← Parser.members fuel' rest
          .ok (Declaration.mk name doc params (.interface extended read.1) isExported,
            read.2)) := by
    apply Agrees.expect
    intro within
    apply (follows all fuel fuel').members.call 0 enough within (by omega)
    intro found last ahead within
    exact .ok _ (by omega) within
  rw [optionalBases, bind_assoc]
  rcases eat_cases (.word "extends") all second with ⟨moved, left⟩ | ⟨moved, left, within⟩
  · simp only [eatWord_eq, left, bind_of_ok moved]
    exact object [] second (by omega)
  · simp only [eatWord_eq, left, bind_of_ok moved]
    apply (bases_mirrored all fuel fuel').call 0 enough within (by omega)
    intro extended third ahead within
    exact object extended third (by omega)

theorem aliasBody_mirrored (all : List Token) (fuel fuel' : Nat) (doc : Option String)
    (isExported : Bool) :
    Mirrors all fuel fuel' 0 1 (aliasBody fuel doc isExported)
      (Parser.aliasBody fuel' doc isExported) := by
  intro pos inside enough
  rw [aliasBody, Parser.aliasBody]
  refine (identifier_agrees all pos).bind False.elim ?_
  intro name mid ahead within
  apply (typeParams_mirrored all fuel fuel').call 0 enough within (by omega)
  intro params second ahead within
  apply Agrees.expect
  intro within
  apply (follows all fuel fuel').type.call 0 enough within (by omega)
  intro found last ahead within
  rcases exists_skip (.mark ';') within with ⟨behind, moved, left, ahead, within⟩
  simp only [bind_of_ok moved, Parser.skipMark, eatMark_eq, left]
  exact .ok _ (by omega) within

theorem declaration_mirrored (all : List Token) (fuel fuel' : Nat) (doc : Option String) :
    Mirrors all fuel fuel' 0 1 (declaration fuel doc) (Parser.declaration fuel' doc) := by
  intro pos inside enough
  rw [declaration, Parser.declaration]
  -- Both words may be missing, so only the keyword behind them is sure to be passed.
  rcases exists_skip (.word "export") inside with ⟨second, moved, left, ahead, within⟩
  rcases exists_skip (.word "declare") within with ⟨third, moved', left', ahead, within⟩
  rw [bind_of_ok moved, bind_of_ok moved']
  simp only [eatWord_eq "export", eatWord_eq "declare", left, left']
  apply Agrees.eatWord
  · intro missing
    simp only [missing]
    apply Agrees.eatWord
    · intro missing
      simp only [missing]
      exact .fault third (by simp)
    · intro eaten within
      simp only [eaten]
      exact (aliasBody_mirrored all fuel fuel' doc _).last 0 enough within (by omega) (by omega)
  · intro eaten within
    simp only [eaten]
    exact (interfaceBody_mirrored all fuel fuel' doc _).last 0 enough within (by omega) (by omega)

/-- All declarations, with the tokens behind them: there are none. -/
def declarationsToEnd (fuel : Nat) (tokens : List Token) :
    Except Failure (List Declaration × List Token) :=
  (Parser.declarations fuel tokens).map fun found => (found, [])

theorem declarationsToEnd_nil (fuel : Nat) {tokens : List Token} {doc : Option String}
    (taken : Parser.takeDoc tokens = (doc, [])) :
    declarationsToEnd (fuel + 1) tokens = .ok ([], []) := by
  rw [declarationsToEnd, Parser.declarations, taken]
  rfl

theorem declarationsToEnd_cons (fuel : Nat) {tokens rest : List Token} {doc : Option String}
    (taken : Parser.takeDoc tokens = (doc, rest)) (more : rest ≠ []) :
    declarationsToEnd (fuel + 1) tokens =
      (match Parser.eatMark ';' rest with
      | some rest => declarationsToEnd fuel rest
      | none => do
          let (first, rest) ← Parser.declaration fuel doc rest
          let (others, rest) ← declarationsToEnd fuel rest
          .ok (first :: others, rest)) := by
  rw [declarationsToEnd, Parser.declarations, taken]
  rcases List.exists_cons_of_ne_nil more with ⟨token, rest, rfl⟩
  simp only
  cases Parser.eatMark ';' (token :: rest) with
  | some rest => rfl
  | none =>
      simp only
      cases Parser.declaration fuel doc (token :: rest) with
      | error failure => rfl
      | ok read =>
          show Except.map _ (Parser.declarations fuel read.2 >>= _) =
            Except.map _ (Parser.declarations fuel read.2) >>= _
          cases Parser.declarations fuel read.2 <;> rfl

theorem declarations_mirrored (all : List Token) :
    ∀ fuel fuel', Mirrors all fuel fuel' 1 0 (declarations fuel) (declarationsToEnd fuel') := by
  apply Mirrors.of_succ declarations declarationsToEnd rfl rfl (by decide)
  intro fuel fuel' behind pos inside enough
  rcases exists_takeDoc inside with ⟨doc, start, moved, taken, ahead, within⟩
  rw [declarations, again_declarationRound, bind_of_ok moved]
  rcases drop_cases all start with ⟨nothing, left⟩ | ⟨token, found, left, -⟩
  -- Where the head sees nothing the reader has no token left, and the other way round.
  · rw [bind_of_ok (peek_of_nothing nothing), declarationsToEnd_nil fuel' (left ▸ taken), ← left]
    exact .ok [] ahead within
  · have more : all.drop start ≠ [] := by
      rw [left]
      exact List.cons_ne_nil _ _
    rw [bind_of_ok (peek_of_found found), declarationsToEnd_cons fuel' taken more]
    apply Agrees.eatMark
    · intro missing
      simp only [missing]
      apply (declaration_mirrored all fuel fuel' doc).call 1 enough within (by omega)
      intro first mid ahead within
      apply behind.call 1 enough within (by omega)
      intro others last ahead within
      exact .ok _ (by omega) within
    · intro eaten within
      simp only [eaten]
      exact behind.last 1 enough within (by omega) (by omega)

end Head

end HyperSchema
