import HyperSchema.Command.Generation
import HyperSchema.Proofs.Files.Folder
import HyperSchema.Proofs.Json.Equality
import HyperSchema.Proofs.Outcome

/-!
# Generation — what a run leaves behind

A run reads and analyses its document before it writes, and writes two files one after the other.
This file defines:

* `Attempt.run_bind`, steps of a command in a file system;
* `Generation.outcome`, a run in a file system;
* `Generation.Analyses`, a document that is read and analysed, and `Generation.Complete`, both files
  written;
* `Generation.HalfWritten`, the first file written and the second one barred;
* `Generation.changed_iff_halfWritten`: this is the one way in which a run that fails changes a file,
  and a run that succeeds leaves both.
-/

namespace HyperSchema

open FileSystem (SameFiles)

/-! ## Steps in a file system -/

namespace Attempt

variable {α β : Type}

/-- A step that fails is the last one, and what it did to the file system stays. -/
theorem run_bind (step : Attempt (StateM FileSystem) α) (next : α → Attempt (StateM FileSystem) β)
    (system : FileSystem) :
    (step >>= next).run system =
      match step.run system with
      | (.ok a, after) => (next a).run after
      | (.error e, after) => (.error e, after) := by
  show (ExceptT.bindCont next (ExceptT.run step system).1) (ExceptT.run step system).2 = _
  rcases ExceptT.run step system with ⟨made, after⟩
  cases made <;> rfl

theorem run_access (path : String) (step : StateM FileSystem (Except FileError α))
    (system : FileSystem) :
    (access path step).run system =
      ((step system).1.mapError (CommandError.access path), (step system).2) := rfl

theorem run_readText (path : String) (system : FileSystem) :
    (access path (FileAccess.readText path : StateM FileSystem _)).run system =
      ((system.readText path).mapError (CommandError.access path), system) := rfl

theorem run_writeText (path contents : String) (system : FileSystem) :
    (access path (FileAccess.writeText path contents : StateM FileSystem _)).run system =
      match system.writeText path contents with
      | .ok written => (.ok (), written)
      | .error e => (.error (.access path e), system) := by
  rw [run_access]
  show ((FileSystem.update (fun system => system.writeText path contents) system).1.mapError _,
    (FileSystem.update (fun system => system.writeText path contents) system).2) = _
  rw [FileSystem.update]
  cases system.writeText path contents <;> rfl

theorem run_ofExcept {ε : Type} (cause : ε → CommandError) (result : Except ε α)
    (system : FileSystem) :
    (ofExcept cause result : Attempt (StateM FileSystem) α).run system =
      (result.mapError cause, system) := rfl

end Attempt

namespace Generation

variable {config : Configuration} {system after : FileSystem} {resources : List Resource}
  {flattened : Json}

/-! ## Runs -/

/-- What a run ends with, and the file system after it. -/
def outcome (config : Configuration) (system : FileSystem) :
    Except CommandError Report × FileSystem :=
  (run config : Attempt (StateM FileSystem) Report).run system

/-- The path of the file with the resources. -/
def resourcesPath (config : Configuration) : String := Path.join config.outDir resourcesFile

/-- The path of the file with the flat records. -/
def flattenedPath (config : Configuration) : String := Path.join config.outDir flattenedFile

/-- The contents of the file with the resources. -/
def resourcesText (resources : List Resource) : String := (Resource.listJson resources).pretty

/-- The document of a run is read from a local file, and these are its resources, with its
references inlined, and its flat form. -/
def Analyses (config : Configuration) (system : FileSystem) (resources : List Resource)
    (flattened : Json) : Prop :=
  ∃ source text document, config.source = some source ∧ isRemote source = false ∧
    system.readText source = .ok text ∧ Json.parse? depthLimit text = some document ∧
    (document.inlined.value.resources config.docsBase).result = .ok resources ∧
    document.flattened.result = .ok flattened

/-- Files outside the generated ones are as they were. -/
def KeepsOthers (config : Configuration) (system after : FileSystem) (generated : List String) :
    Prop :=
  ∃ place, after.Holds config.outDir place ∧
    ∀ names, (∀ name ∈ generated, names ≠ place ++ [name]) → ∀ contents,
      after.root.standing? names = some (.file contents) ↔
        system.root.standing? names = some (.file contents)

/-- Both files hold what they are to hold, and no other file has changed. -/
def Complete (config : Configuration) (system after : FileSystem) : Prop :=
  ∃ resources flattened, Analyses config system resources flattened ∧
    after.readText (resourcesPath config) = .ok (resourcesText resources) ∧
    after.readText (flattenedPath config) = .ok flattened.pretty ∧
    KeepsOthers config system after [resourcesFile, flattenedFile]

/-- The document is analysed, the directory is made and the first file is written with new contents,
while the path of the second one is too long or leads to a directory. -/
def HalfWritten (config : Configuration) (system written : FileSystem) : Prop :=
  ∃ resources flattened ready, Analyses config system resources flattened ∧
    FileAccess.makeDirectories (m := StateM FileSystem) config.outDir system = (.ok (), ready) ∧
    ready.writeText (resourcesPath config) (resourcesText resources) = .ok written ∧
    ready.readText (resourcesPath config) ≠ .ok (resourcesText resources) ∧
    (FileSystem.pathLimit ≤ (flattenedPath config).utf8ByteSize ∨
      ready.isDirectory (flattenedPath config) = true)

theorem isPlain_resourcesFile : Path.IsPlain resourcesFile where
  noSlash := by decide
  noNul := by decide
  isName := by decide
  short := by decide

theorem isPlain_flattenedFile : Path.IsPlain flattenedFile where
  noSlash := by decide
  noNul := by decide
  isName := by decide
  short := by decide

/-! ## Reading -/

/-- A document is what its file says, and reading it changes nothing. -/
theorem run_readDocument (source : String) (system : FileSystem) :
    ∃ result, (readDocument source : Attempt (StateM FileSystem) Json).run system =
        (result, system) ∧
      ∀ document, result = .ok document ↔ isRemote source = false ∧
        ∃ text, system.readText source = .ok text ∧ Json.parse? depthLimit text = some document := by
  rw [readDocument]
  cases isRemote source with
  | true => exact ⟨.error (.remoteSource source), rfl, by simp⟩
  | false =>
      rw [if_neg Bool.false_ne_true]
      rw [Attempt.run_bind, Attempt.run_readText]
      cases system.readText source with
      | error e => exact ⟨.error (.access source e), rfl, by simp⟩
      | ok text =>
          dsimp only [Except.mapError]
          cases parsed : Json.parse? depthLimit text with
          | none => exact ⟨.error (.json source), rfl, by simp [parsed]⟩
          | some document => exact ⟨.ok document, rfl, by simp [parsed]⟩

/-! ## Runs step by step -/

/-- The analysis of a document gives its resources and its flat form, unless one of them fails. -/
theorem ofDocument_eq_ok_iff {docsBase : Option String} {document : Json} {analysis : Analysis} :
    Analysis.ofDocument docsBase document = .ok analysis ↔
      (document.inlined.value.resources docsBase).result = .ok analysis.resources ∧
        document.flattened.result = .ok analysis.flattened := by
  rw [Analysis.ofDocument]
  cases (document.inlined.value.resources docsBase).result with
  | error e => exact ⟨nofun, fun both => nomatch both.1⟩
  | ok resources =>
      cases document.flattened.result with
      | error e => exact ⟨nofun, fun both => nomatch both.2⟩
      | ok flattened =>
          constructor
          · intro made
            cases made
            exact ⟨rfl, rfl⟩
          · rintro ⟨first, second⟩
            cases analysis
            cases first
            cases second
            rfl

/-- Files are written one after the other, as far as each can be. -/
theorem run_writeAll_cons (directory name contents : String) (rest : List (String × String))
    (system : FileSystem) :
    (writeAll directory ((name, contents) :: rest) : Attempt (StateM FileSystem) _).run system =
      match system.writeText (Path.join directory name) contents with
      | .error e => (.error (.access (Path.join directory name) e), system)
      | .ok written =>
          match (writeAll directory rest : Attempt (StateM FileSystem) _).run written with
          | (.ok paths, after) => (.ok (Path.join directory name :: paths), after)
          | (.error e, after) => (.error e, after) := by
  simp only [writeAll, Attempt.run_bind, Attempt.run_writeText]
  cases system.writeText (Path.join directory name) contents with
  | error e => rfl
  | ok written =>
      dsimp only
      rcases ExceptT.run (writeAll directory rest : Attempt (StateM FileSystem) _) written with
        ⟨made, after⟩
      cases made <;> rfl

/-- What a run has analysed is written: the directory, then one file after the other. -/
theorem outcome_of_analyses (h : Analyses config system resources flattened) :
    outcome config system =
      match FileAccess.makeDirectories (m := StateM FileSystem) config.outDir system with
      | (.error e, ready) => (.error (.access config.outDir e), ready)
      | (.ok (), ready) =>
          match ready.writeText (resourcesPath config) (resourcesText resources) with
          | .error e => (.error (.access (resourcesPath config) e), ready)
          | .ok written =>
              match written.writeText (flattenedPath config) flattened.pretty with
              | .error e => (.error (.access (flattenedPath config) e), written)
              | .ok after =>
                  (.ok {
                    resources := resources.length
                    endpoints := (resources.flatMap Resource.endpoints).length
                    files := [resourcesPath config, flattenedPath config] }, after) := by
  rcases h with ⟨source, text, document, named, isLocal, read, parsed, first, second⟩
  rcases run_readDocument source system with ⟨result, run_read, made⟩
  have isDocument : result = .ok document := (made document).2 ⟨isLocal, text, read, parsed⟩
  have analysed : Analysis.ofDocument config.docsBase document = .ok ⟨resources, flattened⟩ :=
    ofDocument_eq_ok_iff.2 ⟨first, second⟩
  rw [outcome, run, named]
  simp only [Attempt.run_bind, run_read, isDocument, Attempt.run_ofExcept, analysed,
    Except.mapError, Attempt.run_access]
  rcases FileAccess.makeDirectories (m := StateM FileSystem) config.outDir system with
    ⟨made, ready⟩
  cases made with
  | error e => rfl
  | ok _ =>
      dsimp only [outputs, Except.mapError]
      rw [run_writeAll_cons, resourcesPath, flattenedPath, resourcesText]
      cases ready.writeText (Path.join config.outDir resourcesFile)
          (Resource.listJson resources).pretty with
      | error e => rfl
      | ok written =>
          dsimp only
          rw [run_writeAll_cons]
          cases written.writeText (Path.join config.outDir flattenedFile) flattened.pretty <;> rfl

/-- Without an analysis a run fails, and has done nothing. -/
theorem outcome_of_not_analyses
    (h : ∀ resources flattened, ¬ Analyses config system resources flattened) :
    ∃ e, outcome config system = (.error e, system) := by
  rw [outcome, run]
  cases named : config.source with
  | none => exact ⟨.missingSource, rfl⟩
  | some source =>
      rcases run_readDocument source system with ⟨result, run_read, made⟩
      simp only [Attempt.run_bind, run_read, Attempt.run_ofExcept]
      cases result with
      | error e => exact ⟨e, rfl⟩
      | ok document =>
          rcases (made document).1 rfl with ⟨isLocal, text, read, parsed⟩
          dsimp only
          cases analysed : Analysis.ofDocument config.docsBase document with
          | error e => exact ⟨.schema e, rfl⟩
          | ok analysis =>
              rcases ofDocument_eq_ok_iff.1 analysed with ⟨first, second⟩
              exact absurd ⟨source, text, document, named, isLocal, read, parsed, first, second⟩
                (h analysis.resources analysis.flattened)

/-! ## The two files -/

/-- Where a document is analysed, its analysis is the only one. -/
theorem Analyses.unique {resources' : List Resource} {flattened' : Json}
    (h : Analyses config system resources flattened)
    (h' : Analyses config system resources' flattened') :
    resources = resources' ∧ flattened = flattened' := by
  rcases h with ⟨source, text, document, named, -, read, parsed, first, second⟩
  rcases h' with ⟨source', text', document', named', -, read', parsed', first', second'⟩
  cases named.symm.trans named'
  cases read.symm.trans read'
  cases parsed.symm.trans parsed'
  exact ⟨Except.ok.inj (first.symm.trans first'), Except.ok.inj (second.symm.trans second')⟩

section Files

variable {ready written : FileSystem} {contents text : String}

/-- After the first file, the second one is barred where its path is too long or leads to a
directory, as it was before. -/
theorem writeText_flattenedPath_iff
    (first : ready.writeText (resourcesPath config) contents = .ok written) (text : String) :
    (∃ after, written.writeText (flattenedPath config) text = .ok after) ↔
      ¬ (FileSystem.pathLimit ≤ (flattenedPath config).utf8ByteSize ∨
        ready.isDirectory (flattenedPath config) = true) := by
  rcases FileSystem.place_of_writeText_join isPlain_resourcesFile first with
    ⟨followed, place, holds, holds', stands⟩
  -- The first file went into the same directory, so nothing but its length can bar the path.
  have fault : FileSystem.pathFault? (flattenedPath config) = none ↔
      ¬ FileSystem.pathLimit ≤ (flattenedPath config).utf8ByteSize := by
    have noNul : '\x00' ∉ config.outDir.toList := by
      intro nul
      rw [FileSystem.pathFault?_join isPlain_resourcesFile, if_pos nul] at followed
      cases followed
    rw [flattenedPath, FileSystem.pathFault?_join isPlain_flattenedFile, if_neg noNul]
    split <;> simp [*]
  have other : place ++ [flattenedFile] ≠ place ++ [resourcesFile] := by
    rw [ne_eq, List.append_cancel_left_eq]
    decide
  have same : written.root.standing? (place ++ [flattenedFile]) =
      ready.root.standing? (place ++ [flattenedFile]) := by
    rw [stands, if_neg other]
  rw [not_or, flattenedPath, FileSystem.isDirectory_join_iff isPlain_flattenedFile holds,
    ← flattenedPath, ← fault, ← same]
  constructor
  · rintro ⟨after, second⟩
    rcases (FileSystem.writeText_join_iff isPlain_flattenedFile).1 second with
      ⟨followed', place', holds'', free, -⟩
    cases holds'.unique holds''
    exact ⟨followed', fun both => free both.2⟩
  · rintro ⟨followed', free⟩
    exact ⟨_, (FileSystem.writeText_join_iff isPlain_flattenedFile).2
      ⟨followed', place, holds', fun isDirectory => free ⟨followed', isDirectory⟩, rfl⟩⟩

/-- The first file has changed unless it had its new contents before. -/
theorem sameFiles_writeText_iff
    (first : ready.writeText (resourcesPath config) contents = .ok written) :
    SameFiles ready written ↔ ready.readText (resourcesPath config) = .ok contents := by
  rcases FileSystem.place_of_writeText_join isPlain_resourcesFile first with
    ⟨followed, place, holds, -, stands⟩
  rw [resourcesPath, FileSystem.readText_join_iff isPlain_resourcesFile holds, SameFiles]
  constructor
  · intro same
    refine ⟨followed, (same _ contents).1 ?_⟩
    rw [stands, if_pos rfl]
  · rintro ⟨-, held⟩ names text
    rw [stands]
    split
    · rename_i here
      rw [here, held]
    · exact Iff.rfl

/-- Writing the first file changes no other. -/
theorem keepsOthers_writeText (kept : SameFiles system ready)
    (first : ready.writeText (resourcesPath config) contents = .ok written) :
    KeepsOthers config system written [resourcesFile] := by
  rcases FileSystem.place_of_writeText_join isPlain_resourcesFile first with
    ⟨-, place, -, holds', stands⟩
  refine ⟨place, holds', ?_⟩
  intro names elsewhere text
  rw [stands, if_neg (elsewhere _ (List.mem_singleton.2 rfl))]
  exact kept names text

/-- Where both files are written, both are there, and no other has changed. -/
theorem files_of_writeText (kept : SameFiles system ready)
    (first : ready.writeText (resourcesPath config) contents = .ok written)
    (second : written.writeText (flattenedPath config) text = .ok after) :
    after.readText (resourcesPath config) = .ok contents ∧
      after.readText (flattenedPath config) = .ok text ∧
        KeepsOthers config system after [resourcesFile, flattenedFile] := by
  rcases keepsOthers_writeText kept first with ⟨place, holds, others⟩
  rcases FileSystem.standing?_writeText_join isPlain_flattenedFile holds second with
    ⟨holds', stands⟩
  have other : place ++ [resourcesFile] ≠ place ++ [flattenedFile] := by
    rw [ne_eq, List.append_cancel_left_eq]
    decide
  rcases (FileSystem.readText_join_iff isPlain_resourcesFile holds).1
    (FileSystem.readText_writeText_join isPlain_resourcesFile first) with ⟨followed, held⟩
  refine ⟨?_, FileSystem.readText_writeText_join isPlain_flattenedFile second, place, holds', ?_⟩
  · refine (FileSystem.readText_join_iff isPlain_resourcesFile holds').2 ⟨followed, ?_⟩
    rw [stands, if_neg other]
    exact held
  · intro names elsewhere contents'
    rw [stands, if_neg (elsewhere _ (by simp))]
    refine others names ?_ contents'
    intro name mem
    exact elsewhere name (List.mem_append_left [flattenedFile] mem)

end Files

/-! ## Runs that fail half way -/

/-- A run is left half way only with its own analysis, in the directory that it made. -/
theorem halfWritten_iff {made : Except FileError Unit} {ready : FileSystem}
    (analysed : Analyses config system resources flattened)
    (prepared : FileAccess.makeDirectories (m := StateM FileSystem) config.outDir system =
      (made, ready)) (written : FileSystem) :
    HalfWritten config system written ↔ made = .ok () ∧
      ready.writeText (resourcesPath config) (resourcesText resources) = .ok written ∧
      ready.readText (resourcesPath config) ≠ .ok (resourcesText resources) ∧
      (FileSystem.pathLimit ≤ (flattenedPath config).utf8ByteSize ∨
        ready.isDirectory (flattenedPath config) = true) := by
  constructor
  · rintro ⟨resources', flattened', ready', analysed', prepared', first, fresh, barred⟩
    rcases analysed.unique analysed' with ⟨rfl, rfl⟩
    cases prepared.symm.trans prepared'
    exact ⟨rfl, first, fresh, barred⟩
  · rintro ⟨rfl, first, fresh, barred⟩
    exact ⟨resources, flattened, ready, analysed, prepared, first, fresh, barred⟩

theorem HalfWritten.unique {written written' : FileSystem} (h : HalfWritten config system written)
    (h' : HalfWritten config system written') : written = written' := by
  rcases h with ⟨resources, flattened, ready, analysed, prepared, first, -⟩
  rcases (halfWritten_iff analysed prepared _).1 h' with ⟨-, first', -⟩
  exact Except.ok.inj (first.symm.trans first')

/-- Where a run is left half way, the first file is all that has changed. -/
theorem HalfWritten.changes {written : FileSystem} (h : HalfWritten config system written) :
    ¬ SameFiles system written ∧ KeepsOthers config system written [resourcesFile] := by
  rcases h with ⟨resources, flattened, ready, -, prepared, first, fresh, -⟩
  have kept := FileSystem.sameFiles_makeDirectories config.outDir system
  rw [prepared] at kept
  refine ⟨?_, keepsOthers_writeText kept first⟩
  intro same
  exact fresh ((sameFiles_writeText_iff first).1 (kept.symm.trans same))

/-- A run fails and leaves the files as they are, is left half way, or is complete. -/
theorem outcome_cases (config : Configuration) (system : FileSystem) :
    (∃ e after, outcome config system = (.error e, after) ∧ SameFiles system after ∧
        ∀ written, ¬ HalfWritten config system written) ∨
      (∃ e written, outcome config system = (.error e, written) ∧
        HalfWritten config system written) ∨
      ∃ report after, outcome config system = (.ok report, after) ∧
        Complete config system after ∧ ∀ written, ¬ HalfWritten config system written := by
  by_cases analysed : ∃ resources flattened, Analyses config system resources flattened
  · rcases analysed with ⟨resources, flattened, analysed⟩
    have kept := FileSystem.sameFiles_makeDirectories config.outDir system
    have ended := outcome_of_analyses analysed
    cases prepared : FileAccess.makeDirectories (m := StateM FileSystem) config.outDir system with
    | mk made ready =>
      rw [prepared] at kept ended
      have half := halfWritten_iff analysed prepared
      cases made with
      | error e =>
          refine .inl ⟨_, ready, ended, kept, ?_⟩
          intro written h
          cases ((half written).1 h).1
      | ok _ =>
          dsimp only at ended
          cases first : ready.writeText (resourcesPath config) (resourcesText resources) with
          | error e =>
              rw [first] at ended
              refine .inl ⟨_, ready, ended, kept, ?_⟩
              intro written h
              cases first.symm.trans ((half written).1 h).2.1
          | ok written =>
              have barred := writeText_flattenedPath_iff first flattened.pretty
              rw [first] at ended
              dsimp only at ended
              cases second : written.writeText (flattenedPath config) flattened.pretty with
              | error e =>
                  rw [second] at ended
                  have isBarred := not_not.1 (mt barred.2 (by rw [second]; simp))
                  -- The same contents as before are no change.
                  by_cases same : ready.readText (resourcesPath config) =
                      .ok (resourcesText resources)
                  · refine .inl ⟨_, written, ended,
                      kept.trans ((sameFiles_writeText_iff first).2 same), ?_⟩
                    intro other h
                    exact ((half other).1 h).2.2.1 same
                  · exact .inr (.inl ⟨_, written, ended,
                      (half written).2 ⟨rfl, first, same, isBarred⟩⟩)
              | ok after =>
                  rw [second] at ended
                  rcases files_of_writeText kept first second with ⟨resourcesRead, flatRead, others⟩
                  refine .inr (.inr ⟨_, after, ended,
                    ⟨resources, flattened, analysed, resourcesRead, flatRead, others⟩, ?_⟩)
                  intro other h
                  exact barred.1 ⟨after, second⟩ ((half other).1 h).2.2.2
  · have none : ∀ resources flattened, ¬ Analyses config system resources flattened :=
      fun resources flattened h => analysed ⟨resources, flattened, h⟩
    rcases outcome_of_not_analyses none with ⟨e, ended⟩
    refine .inl ⟨e, system, ended, .refl system, ?_⟩
    rintro written ⟨resources, flattened, -, h, -⟩
    exact none resources flattened h

/-- A run that ends with an error changes a file if and only if its document is analysed, its
directory is made, the first file gets new contents and the path of the second one is too long or
leads to a directory; then the first file is all that changes.  A run that succeeds leaves the
resources of the inlined document in the first file and the flat document in the second. -/
theorem changed_iff_halfWritten (config : Configuration) (system : FileSystem) :
    ((∃ e, (outcome config system).1 = .error e) ∧
        ¬ SameFiles system (outcome config system).2 ↔
      ∃ written, HalfWritten config system written) ∧
    (∀ written, HalfWritten config system written → (outcome config system).2 = written ∧
      KeepsOthers config system written [resourcesFile]) ∧
    ∀ report, (outcome config system).1 = .ok report →
      Complete config system (outcome config system).2 := by
  rcases outcome_cases config system with
    ⟨e, after, ended, kept, whole⟩ | ⟨e, written, ended, half⟩ |
    ⟨report, after, ended, complete, whole⟩
  · rw [ended]
    refine ⟨⟨fun changed => absurd kept changed.2, ?_⟩, ?_, ?_⟩
    · rintro ⟨written, half⟩
      exact absurd half (whole written)
    · intro written half
      exact absurd half (whole written)
    · intro report done
      cases done
  · rw [ended]
    refine ⟨⟨fun _ => ⟨written, half⟩, fun _ => ⟨⟨e, rfl⟩, half.changes.1⟩⟩, ?_, ?_⟩
    · intro other half'
      cases half.unique half'
      exact ⟨rfl, half.changes.2⟩
    · intro report done
      cases done
  · rw [ended]
    refine ⟨⟨?_, ?_⟩, ?_, ?_⟩
    · rintro ⟨⟨e, failed⟩, -⟩
      cases failed
    · rintro ⟨written, half⟩
      exact absurd half (whole written)
    · intro written half
      exact absurd half (whole written)
    · exact fun _ _ => complete

/-! ## A directory in the way -/

/-- The smallest document. -/
def emptyDocument : Json := .object [("definitions", .object [])]

/-- A system where a directory stands in the way of the second file. -/
def barredSystem : FileSystem where
  root := .directory [
    ("schema.json", .file "\x7b\"definitions\":\x7b\x7d\x7d"),
    ("out", .directory [(flattenedFile, .directory [("keep", .file "")])])]
  working := []

/-- A run that reads the document of this system. -/
def barredConfig : Configuration :=
  { Configuration.standard with source := some "schema.json", outDir := "out" }

theorem inlined_emptyDocument : emptyDocument.inlined.value = emptyDocument := by
  simp [Json.inlined, Schema.inlineValue, Schema.inlineMembers, emptyDocument,
    Schema.referenceIn?]

theorem analyses_barredSystem : Analyses barredConfig barredSystem [] emptyDocument := by
  refine ⟨"schema.json", "\x7b\"definitions\":\x7b\x7d\x7d", emptyDocument, rfl, ?_, ?_, ?_, ?_, ?_⟩
  · decide
  · decide +kernel
  · decide +kernel
  · rw [inlined_emptyDocument]
    decide +kernel
  · decide +kernel

/-- The run fails, and the file with the resources is there. -/
theorem changed_barredSystem :
    (∃ written, HalfWritten barredConfig barredSystem written) ∧
      (∃ e, (outcome barredConfig barredSystem).1 = .error e) ∧
      ¬ SameFiles barredSystem (outcome barredConfig barredSystem).2 := by
  have half : ∃ written, HalfWritten barredConfig barredSystem written :=
    ⟨_, [], emptyDocument, barredSystem, analyses_barredSystem, rfl, rfl, by decide +kernel,
      .inr (by decide +kernel)⟩
  exact ⟨half, (changed_iff_halfWritten barredConfig barredSystem).1.2 half⟩

end Generation

end HyperSchema
