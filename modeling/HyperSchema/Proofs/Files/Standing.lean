import HyperSchema.Files.Tree

/-!
# Standing — what stands where in a file system

A tree told by its places: each list of names leads to a file, to a directory or to nothing.  Where
a path leads depends on this view alone, and an operation changes it at one place.  This file defines:

* `FileTree.Standing` and `FileTree.standing?`, what stands at a place;
* `FileTree.standing?_put`: something put into a directory changes the view at its place only;
* `FileSystem.Slot.Stands`, the slot of a system, and `FileSystem.slot?_stands`;
* `FileTree.Extends` and `FileSystem.walk_of_extends`: paths lead to the same places after
  directories or files were added;
* `FileSystem.SameFiles`, systems with the same files, and `FileSystem.sameFiles_makeDirectories`.
-/

namespace HyperSchema

namespace FileTree

/-! ## Places of a tree -/

/-- What stands at a place. -/
inductive Standing where
  | file (contents : String)
  | directory
deriving DecidableEq

/-- A tree without what is in its directories. -/
def standing : FileTree → Standing
  | file contents => .file contents
  | directory _ => .directory

/-- What stands where a list of names leads. -/
def standing? (tree : FileTree) (names : List String) : Option Standing :=
  (tree.at? names).map standing

variable {tree new : FileTree} {entries : Entries FileTree} {names place : List String}
  {name : String}

@[simp] theorem standing?_nil (tree : FileTree) : tree.standing? [] = some tree.standing := by
  rw [standing?, at?, Option.map_some]

@[simp] theorem standing?_file_cons (contents : String) :
    (file contents).standing? (name :: names) = none := rfl

@[simp] theorem standing?_directory_cons :
    (directory entries).standing? (name :: names) =
      (entries.get? name).bind fun child => child.standing? names := by
  rw [standing?, at?]
  cases entries.get? name <;> rfl

theorem at?_append (tree : FileTree) (names rest : List String) :
    tree.at? (names ++ rest) = (tree.at? names).bind fun part => part.at? rest := by
  induction names generalizing tree with
  | nil => rw [at?]; rfl
  | cons name names ih =>
      cases tree with
      | file contents => rfl
      | directory entries =>
          rw [List.cons_append, at?, at?]
          cases Entries.get? entries name with
          | none => rfl
          | some child => exact ih child

/-- A directory stands where it leads to entries. -/
theorem standing?_eq_directory_iff :
    tree.standing? place = some .directory ↔
      ∃ entries, tree.at? place = some (directory entries) := by
  rw [standing?, Option.map_eq_some_iff]
  constructor
  · rintro ⟨found, given, isDirectory⟩
    cases found with
    | file contents => cases isDirectory
    | directory entries => exact ⟨entries, given⟩
  · rintro ⟨entries, given⟩
    exact ⟨_, given, rfl⟩

/-- What stands in a directory is what its entries say. -/
theorem standing?_concat (given : tree.at? place = some (directory entries)) (name : String) :
    tree.standing? (place ++ [name]) = (entries.get? name).map standing := by
  rw [standing?, at?_append, given, Option.bind_some, at?]
  cases entries.get? name with
  | none => rfl
  | some child => exact congrArg (Option.map standing) (at?.eq_1 child)

/-! ## Putting -/

/-- Nothing stands below a file or an empty directory. -/
def IsBare (tree : FileTree) : Prop :=
  ∀ name names, tree.standing? (name :: names) = none

theorem isBare_file (contents : String) : (file contents).IsBare :=
  fun _ _ => rfl

theorem isBare_directory_nil : (directory []).IsBare :=
  fun _ _ => rfl

/-- What is put into a directory, where none stood, is found there; all else is as it was. -/
theorem standing?_put (bare : new.IsBare)
    (isDirectory : tree.standing? place = some .directory)
    (free : tree.standing? (place ++ [name]) ≠ some .directory) (names : List String) :
    (tree.put (place ++ [name]) new).standing? names =
      if names = place ++ [name] then some new.standing else tree.standing? names := by
  induction place generalizing tree names with
  | nil =>
      cases tree with
      | file contents => cases isDirectory
      | directory entries =>
          simp only [List.nil_append, standing?_directory_cons] at free ⊢
          rw [put, put]
          cases names with
          | nil => rfl
          | cons first rest =>
              rw [standing?_directory_cons, standing?_directory_cons, Entries.get?_insert]
              by_cases same : name = first
              · subst same
                rw [if_pos rfl, Option.bind_some]
                cases rest with
                | nil => simp
                | cons second rest =>
                    -- Below the place nothing stands, before and after.
                    rw [bare, if_neg (by simp)]
                    cases found : Entries.get? entries name with
                    | none => rfl
                    | some child =>
                        cases child with
                        | file contents => rfl
                        | directory inner => simp [found, standing] at free
              · rw [if_neg same, if_neg (by simp [Ne.symm same])]
  | cons above place ih =>
      cases tree with
      | file contents => cases isDirectory
      | directory entries =>
          rw [List.cons_append, standing?_directory_cons] at free
          rw [standing?_directory_cons] at isDirectory
          rw [List.cons_append, put]
          cases found : Entries.get? entries above with
          | none => rw [found] at isDirectory; cases isDirectory
          | some child =>
              rw [found, Option.bind_some] at isDirectory free
              cases names with
              | nil => rfl
              | cons first rest =>
                  rw [standing?_directory_cons, standing?_directory_cons, Entries.get?_insert]
                  by_cases same : above = first
                  · subst same
                    rw [if_pos rfl, Option.bind_some, Option.getD_some, ih isDirectory free, found,
                      Option.bind_some]
                    simp
                  · rw [if_neg same, if_neg (by simp [Ne.symm same])]

/-! ## Growth -/

/-- Directories stay, and what is there stays. -/
structure Extends (old new : FileTree) : Prop where
  directory : ∀ {names}, old.standing? names = some .directory →
    new.standing? names = some .directory
  present : ∀ {names}, old.standing? names ≠ none → new.standing? names ≠ none

theorem extends_put (bare : new.IsBare) (isDirectory : tree.standing? place = some .directory)
    (free : tree.standing? (place ++ [name]) ≠ some .directory) :
    tree.Extends (tree.put (place ++ [name]) new) where
  directory := by
    intro names stands
    rw [standing?_put bare isDirectory free, if_neg, stands]
    rintro rfl
    exact free stands
  present := by
    intro names stands
    rw [standing?_put bare isDirectory free]
    split
    · exact nofun
    · exact stands

end FileTree

namespace FileSystem

open FileTree (Standing)

variable {system after : FileSystem} {root new : FileTree} {path : String}

/-! ## Where paths lead -/

/-- The entries of a directory are found where a directory stands. -/
theorem entriesAt_eq (root : FileTree) (names : List String) :
    (∃ entries, entriesAt root names = .ok entries ∧ root.at? names = some (.directory entries)) ∧
        root.standing? names = some .directory ∨
      entriesAt root names = .error .notDirectory ∧ root.standing? names ≠ some .directory := by
  rw [entriesAt, FileTree.standing?]
  cases root.at? names with
  | none => exact .inr ⟨rfl, nofun⟩
  | some tree =>
      cases tree with
      | file contents => exact .inr ⟨rfl, nofun⟩
      | directory entries => exact .inl ⟨⟨entries, rfl, rfl⟩, rfl⟩

theorem at?_of_entriesAt {names : List String} {entries : Entries FileTree}
    (h : entriesAt root names = .ok entries) : root.at? names = some (.directory entries) := by
  rcases entriesAt_eq root names with ⟨⟨entries', read, given⟩, -⟩ | ⟨failed, -⟩
  · cases h.symm.trans read
    exact given
  · cases h.symm.trans failed

theorem entriesAt_of_standing {names : List String}
    (isDirectory : root.standing? names = some .directory) :
    ∃ entries, entriesAt root names = .ok entries ∧ root.at? names = some (.directory entries) := by
  rcases entriesAt_eq root names with ⟨found, -⟩ | ⟨-, none⟩
  · exact found
  · exact absurd isDirectory none

/-- A name is present in a directory where something stands below it. -/
theorem contains_iff_standing {names : List String} {entries : Entries FileTree}
    (given : root.at? names = some (.directory entries)) (name : String) :
    entries.contains name = true ↔ root.standing? (names ++ [name]) ≠ none := by
  rw [FileTree.standing?_concat given, Entries.contains, Option.isSome_iff_ne_none, ne_eq, ne_eq,
    Option.map_eq_none_iff]

/-- A path leads to the same place in a tree that has grown. -/
theorem walk_of_extends (grows : root.Extends new) {here segments place : List String}
    (h : walk root here segments = .ok place) : walk new here segments = .ok place := by
  induction segments generalizing here with
  | nil => exact h
  | cons segment rest ih =>
      rw [walk] at h ⊢
      rcases entriesAt_eq root here.reverse with ⟨⟨entries, read, given⟩, stands⟩ | ⟨failed, -⟩
      · rcases entriesAt_of_standing (grows.directory stands) with ⟨entries', read', given'⟩
        -- The directory is still there, with the same names or more, so each step is taken again.
        rw [read] at h
        rw [read']
        dsimp only at h ⊢
        split
        · rename_i idle
          rw [if_pos idle] at h
          exact ih h
        · rename_i busy
          rw [if_neg busy] at h
          split
          · rename_i back
            rw [if_pos back] at h
            exact ih h
          · rename_i onward
            rw [if_neg onward] at h
            split
            · rename_i long
              rw [if_pos long] at h
              cases h
            · rename_i short
              rw [if_neg short] at h
              split at h
              · rename_i known
                have known' : entries'.contains segment = true :=
                  (contains_iff_standing given' segment).2
                    (grows.present ((contains_iff_standing given segment).1 known))
                rw [if_pos known']
                exact ih h
              · cases h
      · rw [failed] at h
        cases h

/-! ## Slots -/

/-- Where the name of a slot leads. -/
def Slot.place (slot : Slot) : List String := slot.directory ++ [slot.name]

/-- The entries of a slot are those of a directory of the tree. -/
def Slot.Stands (slot : Slot) (root : FileTree) : Prop :=
  root.at? slot.directory = some (.directory slot.entries)

theorem slot?_stands {slot : Slot} (h : system.slot? path = .ok (some slot)) :
    slot.Stands system.root := by
  unfold slot? at h
  split at h
  · cases h
  · split at h
    · cases h
    · split at h
      · cases h
      · split at h
        · cases h
        · rename_i entries read
          split at h
          · cases h
          · cases h
            exact at?_of_entriesAt read

theorem Slot.Stands.isDirectory {slot : Slot} (stands : slot.Stands root) :
    root.standing? slot.directory = some .directory :=
  FileTree.standing?_eq_directory_iff.2 ⟨_, stands⟩

/-- What a slot holds is what stands at its place. -/
theorem Slot.Stands.tree?_eq {slot : Slot} (stands : slot.Stands root) {tree : Option FileTree}
    (h : slot.tree? = .ok tree) : root.standing? slot.place = tree.map FileTree.standing := by
  unfold Slot.tree? at h
  split at h
  · cases h
  · cases h
    exact FileTree.standing?_concat stands slot.name

/-! ## Operations -/

/-- A directory that is made stands at a place where nothing stood; nothing else changes. -/
theorem standing?_makeDirectory (h : system.makeDirectory path = .ok after) :
    ∃ place, system.root.standing? place = none ∧ ∀ names, after.root.standing? names =
      if names = place then some .directory else system.root.standing? names := by
  unfold makeDirectory at h
  split at h
  · cases h
  · cases h
  · rename_i slot given
    have stands := slot?_stands given
    split at h
    · cases h
    · cases h
    · rename_i held
      cases h
      have free : system.root.standing? slot.place = none := stands.tree?_eq held
      refine ⟨slot.place, free, ?_⟩
      exact FileTree.standing?_put FileTree.isBare_directory_nil stands.isDirectory
        (by rw [← Slot.place, free]; exact nofun)

/-! ## Systems with the same files -/

/-- Two systems have the same files: none was created, removed or changed from one to the other. -/
def SameFiles (before after : FileSystem) : Prop :=
  ∀ names contents, after.root.standing? names = some (.file contents) ↔
    before.root.standing? names = some (.file contents)

theorem SameFiles.refl (system : FileSystem) : SameFiles system system :=
  fun _ _ => Iff.rfl

theorem SameFiles.symm {before after : FileSystem} (h : SameFiles before after) :
    SameFiles after before :=
  fun names contents => (h names contents).symm

theorem SameFiles.trans {first second third : FileSystem} (h : SameFiles first second)
    (h' : SameFiles second third) : SameFiles first third :=
  fun names contents => (h' names contents).trans (h names contents)

theorem sameFiles_makeDirectory (h : system.makeDirectory path = .ok after) :
    SameFiles system after := by
  rcases standing?_makeDirectory h with ⟨place, free, made⟩
  intro names contents
  rw [made]
  split
  · rename_i same
    rw [same, free]
    simp only [Option.some.injEq, reduceCtorEq]
  · exact Iff.rfl

/-- A step leaves the files as they are, whether it succeeds or not. -/
def KeepsFiles {α : Type} (step : StateM FileSystem α) : Prop :=
  ∀ system, SameFiles system (step system).2

section Steps

variable {α β : Type}

theorem keepsFiles_pure (a : α) : KeepsFiles (pure a) :=
  fun system => .refl system

theorem KeepsFiles.bind {step : StateM FileSystem α} {next : α → StateM FileSystem β}
    (h : KeepsFiles step) (h' : ∀ a, KeepsFiles (next a)) : KeepsFiles (step >>= next) :=
  fun system => (h system).trans (h' (step system).1 (step system).2)

end Steps

theorem keepsFiles_makeDirectory (path : String) :
    KeepsFiles (FileAccess.makeDirectory path : StateM FileSystem _) := by
  intro system
  show SameFiles system (update (fun system => system.makeDirectory path) system).2
  unfold update
  split
  · rename_i made
    exact sameFiles_makeDirectory made
  · exact .refl system

theorem keepsFiles_isDirectory (path : String) :
    KeepsFiles (FileAccess.isDirectory path : StateM FileSystem _) :=
  fun system => .refl system

theorem keepsFiles_ensureDirectory (path : String) :
    KeepsFiles (FileAccess.ensureDirectory path : StateM FileSystem _) := by
  refine (keepsFiles_makeDirectory path).bind fun made => ?_
  cases made with
  | ok _ => exact keepsFiles_pure _
  | error e => exact (keepsFiles_isDirectory path).bind fun found => keepsFiles_pure _

theorem keepsFiles_makeFirst (paths : List String) :
    KeepsFiles (FileAccess.makeFirst paths : StateM FileSystem _) := by
  induction paths with
  | nil => exact keepsFiles_pure _
  | cons path above ih =>
      refine (keepsFiles_makeDirectory path).bind fun made => ?_
      cases made with
      | ok _ => exact keepsFiles_pure _
      | error e =>
          -- What stands in the way decides whether the directories above are made first.
          cases e with
          | notFound =>
              refine ih.bind fun made => ?_
              cases made with
              | ok _ => exact keepsFiles_ensureDirectory path
              | error e => exact keepsFiles_pure _
          | _ => exact (keepsFiles_isDirectory path).bind fun found => keepsFiles_pure _

/-- Directories are made without any change to files, also where an error stops this half way. -/
theorem sameFiles_makeDirectories (path : String) (system : FileSystem) :
    SameFiles system ((FileAccess.makeDirectories path : StateM FileSystem _) system).2 :=
  keepsFiles_makeFirst _ system

end FileSystem

end HyperSchema
