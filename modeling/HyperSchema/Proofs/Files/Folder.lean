import HyperSchema.Proofs.Files.Standing
import HyperSchema.Proofs.Text.Parts

/-!
# Folders — plain names in a directory

A plain name behind a directory leads to the place of that name below the place of the directory.
This file defines:

* `Path.IsPlain`, names that are one segment of a path, and `Path.segments_join`;
* `FileSystem.Holds`, the place of a directory as it is written;
* `FileSystem.find_join` and `FileSystem.writeText_join_iff`, reading and writing a name in a
  directory, told by what stands at its place.
-/

namespace HyperSchema

namespace Path

/-! ## Names behind a directory -/

/-- A name that is one segment of a path and leads one step down. -/
structure IsPlain (name : String) : Prop where
  noSlash : '/' ∉ name.toList
  noNul : '\x00' ∉ name.toList
  isName : name ≠ "" ∧ name ≠ "." ∧ name ≠ ".."
  short : name.utf8ByteSize ≤ FileSystem.nameLimit

theorem IsPlain.isEmpty_eq_false {name : String} (plain : IsPlain name) : name.isEmpty = false := by
  rw [Bool.eq_false_iff, ne_eq, String.isEmpty_iff]
  exact plain.isName.1

/-- A directory with a slash behind it, where it is written at all. -/
def opening (directory : String) : String :=
  if directory.isEmpty || directory.toList.getLast? == some '/' then directory
  else directory ++ "/"

/-- The segments of a directory. -/
def lead (directory : String) : List String := (segments (opening directory)).dropLast

variable {directory name : String}

theorem join_eq (directory name : String) : join directory name = opening directory ++ name := by
  rw [join, opening]
  split <;> rfl

theorem opening_cases (directory : String) :
    opening directory = "" ∨ ∃ front, (opening directory).toList = front ++ ['/'] := by
  rw [opening]
  split
  · rename_i closed
    rcases Bool.or_eq_true_iff.1 closed with empty | slash
    · exact .inl (String.isEmpty_iff.1 empty)
    · rcases List.getLast?_eq_some_iff.1 (eq_of_beq slash) with ⟨front, spelled⟩
      exact .inr ⟨front, spelled⟩
  · exact .inr ⟨directory.toList, String.toList_append⟩

/-- A plain name is the last segment behind those of its directory. -/
theorem segments_join (plain : IsPlain name) (directory : String) :
    segments (join directory name) = lead directory ++ [name] := by
  rw [join_eq, lead]
  rcases opening_cases directory with empty | ⟨front, spelled⟩
  · rw [empty, String.empty_append, segments, Text.splitOn_of_free plain.noSlash,
      List.map_singleton, String.ofList_toList]
    rfl
  · rw [segments, segments, String.toList_append, spelled, List.append_assoc, List.singleton_append,
      Text.splitOn_append_last plain.noSlash, Text.splitOn_append_last List.not_mem_nil,
      List.map_append, List.map_append, List.map_singleton, List.map_singleton, List.dropLast_concat,
      String.ofList_toList]

/-- A plain name asks for no directory. -/
theorem getLast?_join_ne (plain : IsPlain name) (directory : String) :
    (join directory name).toList.getLast? ≠ some '/' := by
  rw [join_eq, String.toList_append, List.getLast?_append]
  intro last
  cases found : name.toList.getLast? with
  | none =>
      rw [List.getLast?_eq_none_iff, String.toList_eq_nil_iff] at found
      exact plain.isName.1 found
  | some c =>
      rw [found] at last
      cases last
      exact plain.noSlash (List.mem_of_getLast? found)

/-- A name behind a directory starts where the directory does. -/
theorem isAbsolute_join (plain : IsPlain name) (directory : String) :
    isAbsolute (join directory name) = isAbsolute directory := by
  rw [join_eq, opening]
  split
  · rename_i closed
    cases spelled : directory.toList with
    | nil =>
        rw [isAbsolute, isAbsolute, String.toList_append, spelled, List.nil_append]
        -- An empty directory leaves the name alone, which starts with no slash.
        cases name' : name.toList with
        | nil => rfl
        | cons c rest =>
            have other : c ≠ '/' := by
              rintro rfl
              exact plain.noSlash (name' ▸ List.mem_cons_self)
            simp [other]
    | cons c rest =>
        rw [isAbsolute, isAbsolute, String.toList_append, spelled]
        rfl
  · rename_i opened
    rw [isAbsolute, isAbsolute, String.toList_append, String.toList_append]
    cases spelled : directory.toList with
    | nil =>
        rw [String.toList_eq_nil_iff.1 spelled] at opened
        exact absurd rfl opened
    | cons c rest => rfl

end Path

namespace FileSystem

open HyperSchema.Path (IsPlain join lead)

variable {system after : FileSystem} {root : FileTree} {directory name : String}
  {place : List String}

/-- A plain name behind a directory can be followed unless the directory has a character that no
name may have, or the path is too long. -/
theorem pathFault?_join (plain : IsPlain name) (directory : String) :
    pathFault? (join directory name) =
      if '\x00' ∈ directory.toList then some .nulInPath
      else if pathLimit ≤ (join directory name).utf8ByteSize then some .nameTooLong else none := by
  have nul : (join directory name).toList.contains '\x00' = true ↔ '\x00' ∈ directory.toList := by
    rw [List.contains_iff_mem, Path.join_eq, String.toList_append, List.mem_append,
      or_iff_left plain.noNul, Path.opening]
    split
    · exact Iff.rfl
    · simp
  have written : (join directory name).isEmpty = false := by
    rw [Bool.eq_false_iff, ne_eq, String.isEmpty_iff, Path.join_eq, String.append_eq_empty_iff]
    exact fun both => plain.isName.1 both.2
  rw [pathFault?, written]
  simp only [nul, Bool.false_eq_true, if_false]

/-! ## The place of a directory -/

/-- The names in a directory, as it is written, stand below a place. -/
structure Holds (system : FileSystem) (directory : String) (place : List String) : Prop where
  leads : walk system.root (system.start directory) (lead directory) = .ok place.reverse
  isDirectory : system.root.standing? place = some .directory

theorem Holds.unique {other : List String} (holds : system.Holds directory place)
    (holds' : system.Holds directory other) : place = other :=
  List.reverse_inj.1 (Except.ok.inj (holds.leads.symm.trans holds'.leads))

theorem start_join (plain : IsPlain name) (system : FileSystem) (directory : String) :
    system.start (join directory name) = system.start directory := by
  rw [start, start, Path.isAbsolute_join plain]

/-- A directory stays where it is in a tree that has grown. -/
theorem Holds.of_extends (holds : system.Holds directory place)
    (grows : system.root.Extends after.root) (same : after.working = system.working) :
    after.Holds directory place where
  leads := by
    rw [start, same]
    exact walk_of_extends grows holds.leads
  isDirectory := grows.directory holds.isDirectory

theorem walk_append (root : FileTree) (here segments rest : List String) :
    walk root here (segments ++ rest) =
      match walk root here segments with
      | .error e => .error e
      | .ok there => walk root there rest := by
  induction segments generalizing here with
  | nil => rfl
  | cons segment segments ih =>
      rw [List.cons_append, walk, walk]
      cases entriesAt root here.reverse with
      | error e => rfl
      | ok entries =>
          dsimp only
          split
          · exact ih here
          · split
            · exact ih here.tail
            · split
              · rfl
              · split
                · exact ih (segment :: here)
                · rfl

/-- A plain name leads one step down, if something stands there. -/
theorem walk_plain (plain : IsPlain name) (isDirectory : root.standing? place = some .directory) :
    walk root place.reverse [name] =
      if root.standing? (place ++ [name]) = none then .error .notFound
      else .ok (name :: place.reverse) := by
  rcases entriesAt_of_standing isDirectory with ⟨entries, read, given⟩
  rw [walk, List.reverse_reverse, read]
  simp only [plain.isEmpty_eq_false, Bool.false_or, beq_iff_eq, plain.isName.2.1,
    plain.isName.2.2, if_false, Nat.not_lt.2 plain.short, contains_iff_standing given]
  by_cases absent : root.standing? (place ++ [name]) = none
  · rw [if_neg (not_not_intro absent), if_pos absent]
  · rw [if_pos absent, if_neg absent, walk]

/-! ## Names in a directory -/

/-- The tree under a plain name is the one at its place. -/
theorem find_join (plain : IsPlain name) (holds : system.Holds directory place) :
    system.find (join directory name) =
      match pathFault? (join directory name) with
      | some e => .error e
      | none =>
          match system.root.at? (place ++ [name]) with
          | some tree => .ok tree
          | none => .error .notFound := by
  rw [find, resolve]
  cases pathFault? (join directory name) with
  | some e => rfl
  | none =>
      dsimp only
      rw [Path.segments_join plain, start_join plain, walk_append, holds.leads]
      dsimp only
      rw [walk_plain plain holds.isDirectory]
      by_cases absent : system.root.standing? (place ++ [name]) = none
      · rw [if_pos absent, Option.map_eq_none_iff.1 absent]
        rfl
      · rw [if_neg absent]
        show (match system.root.at? (name :: place.reverse).reverse with
          | some tree => Except.ok tree
          | none => .error FileError.notFound) = _
        rw [List.reverse_cons, List.reverse_reverse]

/-- What is read under a plain name is the file at its place. -/
theorem readText_join_iff (plain : IsPlain name) (holds : system.Holds directory place)
    {contents : String} :
    system.readText (join directory name) = .ok contents ↔
      pathFault? (join directory name) = none ∧
        system.root.standing? (place ++ [name]) = some (.file contents) := by
  rw [readText, find_join plain holds, FileTree.standing?]
  cases pathFault? (join directory name) with
  | some e => simp
  | none =>
      cases system.root.at? (place ++ [name]) with
      | none => simp
      | some tree => cases tree <;> simp [FileTree.standing]

theorem isDirectory_join_iff (plain : IsPlain name) (holds : system.Holds directory place) :
    system.isDirectory (join directory name) = true ↔
      pathFault? (join directory name) = none ∧
        system.root.standing? (place ++ [name]) = some .directory := by
  rw [isDirectory, find_join plain holds, FileTree.standing?]
  cases pathFault? (join directory name) with
  | some e => simp
  | none =>
      cases system.root.at? (place ++ [name]) with
      | none => simp
      | some tree => cases tree <;> simp [FileTree.standing]

/-- A plain name has a slot where its directory has a place. -/
theorem slot?_join (plain : IsPlain name) (system : FileSystem) (directory : String) :
    (∃ e, system.slot? (join directory name) = .error e ∧
        (pathFault? (join directory name) ≠ none ∨ ∀ place, ¬ system.Holds directory place)) ∨
      ∃ place entries, system.slot? (join directory name) = .ok (some ⟨place, entries, name⟩) ∧
        pathFault? (join directory name) = none ∧ system.Holds directory place := by
  -- A plain name is the last segment that is not empty.
  have last : (Path.segments (join directory name)).reverse.dropWhile String.isEmpty =
      name :: (lead directory).reverse := by
    rw [Path.segments_join plain, List.reverse_append, List.reverse_singleton,
      List.singleton_append, List.dropWhile_cons_of_neg (by simp [plain.isEmpty_eq_false])]
  rw [slot?, last, start_join plain]
  cases fault : pathFault? (join directory name) with
  | some e => exact .inl ⟨e, rfl, .inl nofun⟩
  | none =>
      dsimp only
      rw [List.reverse_reverse]
      cases leads : walk system.root (system.start directory) (lead directory) with
      | error e =>
          refine .inl ⟨e, rfl, .inr ?_⟩
          intro place holds
          cases leads.symm.trans holds.leads
      | ok here =>
          dsimp only
          rcases entriesAt_eq system.root here.reverse with
            ⟨⟨entries, read, -⟩, isDirectory⟩ | ⟨failed, none⟩
          · rw [read]
            have step : (name == "." || name == "..") = false := by
              simp [plain.isName.2.1, plain.isName.2.2]
            dsimp only
            rw [step]
            exact .inr ⟨here.reverse, entries, rfl, rfl, by rw [leads, List.reverse_reverse],
              isDirectory⟩
          · rw [failed]
            refine .inl ⟨.notDirectory, rfl, .inr ?_⟩
            intro place holds
            cases leads.symm.trans holds.leads
            rw [List.reverse_reverse] at none
            exact none holds.isDirectory

/-- A plain name can be written where its path can be followed and no directory stands. -/
theorem writeText_join_iff (plain : IsPlain name) {contents : String} :
    system.writeText (join directory name) contents = .ok after ↔
      pathFault? (join directory name) = none ∧ ∃ place, system.Holds directory place ∧
        system.root.standing? (place ++ [name]) ≠ some .directory ∧
          after = { system with root := system.root.put (place ++ [name]) (.file contents) } := by
  rw [writeText]
  rcases slot?_join plain system directory with
    ⟨e, failed, reason⟩ | ⟨place, entries, given, followed, holds⟩
  · -- Without a slot nothing is written, whether the path or the directory is to blame.
    rw [failed]
    constructor
    · exact nofun
    · rintro ⟨followed, place, holds, -⟩
      rcases reason with fault | nowhere
      · exact absurd followed fault
      · exact absurd holds (nowhere place)
  · have held : (Slot.mk place entries name).tree? = .ok (Entries.get? entries name) :=
      if_neg (Nat.not_lt.2 plain.short)
    have found : system.root.standing? (place ++ [name]) =
        (Entries.get? entries name).map FileTree.standing := (slot?_stands given).tree?_eq held
    rw [given]
    simp only [beq_iff_eq, Path.getLast?_join_ne plain, if_false, held]
    constructor
    · intro written
      refine ⟨followed, place, holds, ?_⟩
      cases standing : Entries.get? entries name with
      | none =>
          rw [standing] at written found
          cases written
          exact ⟨by rw [found]; exact nofun, rfl⟩
      | some tree =>
          rw [standing] at written found
          cases tree with
          | file old =>
              cases written
              exact ⟨by rw [found]; exact nofun, rfl⟩
          | directory inner => cases written
    · rintro ⟨-, place', holds', free, rfl⟩
      -- A directory has one place, so it is the place of the slot.
      cases holds.unique holds'
      cases standing : Entries.get? entries name with
      | none => rfl
      | some tree =>
          rw [standing] at found
          cases tree with
          | file old => rfl
          | directory inner => exact absurd found free

/-- A file that is written stands at the place of its name; all else is as it was. -/
theorem standing?_writeText_join (plain : IsPlain name) {contents : String}
    (holds : system.Holds directory place)
    (h : system.writeText (join directory name) contents = .ok after) :
    after.Holds directory place ∧ ∀ names, after.root.standing? names =
      if names = place ++ [name] then some (.file contents) else system.root.standing? names := by
  rcases (writeText_join_iff plain).1 h with ⟨-, place', holds', free, rfl⟩
  cases holds.unique holds'
  have bare := FileTree.isBare_file contents
  exact ⟨holds.of_extends (FileTree.extends_put bare holds.isDirectory free) rfl,
    FileTree.standing?_put bare holds.isDirectory free⟩

/-- A file that is written has its directory at a place, where it stands before and after. -/
theorem place_of_writeText_join (plain : IsPlain name) {contents : String}
    (h : system.writeText (join directory name) contents = .ok after) :
    pathFault? (join directory name) = none ∧ ∃ place, system.Holds directory place ∧
      after.Holds directory place ∧ ∀ names, after.root.standing? names =
        if names = place ++ [name] then some (.file contents)
        else system.root.standing? names := by
  rcases (writeText_join_iff plain).1 h with ⟨followed, place, holds, -, -⟩
  exact ⟨followed, place, holds, standing?_writeText_join plain holds h⟩

/-- What is written under a plain name is read there. -/
theorem readText_writeText_join (plain : IsPlain name) {contents : String}
    (h : system.writeText (join directory name) contents = .ok after) :
    after.readText (join directory name) = .ok contents := by
  rcases place_of_writeText_join plain h with ⟨followed, place, -, holds', stands⟩
  exact (readText_join_iff plain holds').2 ⟨followed, by rw [stands, if_pos rfl]⟩

end FileSystem

end HyperSchema
