import HyperSchema.Proofs.Declaration.Rereading

/-!
# Containment — comments do not reach the code

The texts of comments come from the description of an interface and are put between the code that is
printed.  Whatever they hold, the ends of comments, openings, stars, line ends or code, the text
says the same declarations.  This file defines:

* `Declaration.code`, a declaration with every comment emptied, so that only the places of comments
  are left of them.

The main statement is `Declaration.code_parse_print`.
-/

namespace HyperSchema

namespace Declaration

/-- The declaration with every comment emptied.  Two declarations of the same code have comments at
the same places and differ in the texts of these at most. -/
def code (declaration : Declaration) : Declaration :=
  declaration.mapDocs fun _ => ""

theorem code_mapDocs (f : String → String) (declaration : Declaration) :
    (declaration.mapDocs f).code = declaration.code := by
  rw [code, mapDocs_mapDocs, code]
  rfl

/-- What is read of a printed comment has the form of a comment's text, so it does not contain the
end of a comment. -/
theorem isDocText_reread (text : String) : isDocText (reread text) = true := by
  rw [← docText_docBody 0 text]
  exact isDocText_docText (hasInfix_docBody 0 text)

/-- Declarations are read back with their code, whatever texts their comments hold.  Each comment is
read as a comment, in its place, and none is added. -/
theorem code_parse_print {declarations : List Declaration} {head : Bool}
    (legible : ∀ d ∈ declarations, d.isLegible head = true)
    (ungrouped : ∀ d ∈ declarations, d.isGrouped = true) :
    ∃ read, parse (print declarations) = .ok read ∧
      read.map code = declarations.map code ∧
      read.flatMap docs = (declarations.flatMap docs).map reread ∧
      ∀ text ∈ read.flatMap docs, isDocText text = true := by
  have texts : (declarations.map (mapDocs reread)).flatMap docs =
      (declarations.flatMap docs).map reread :=
    flatMap_docs_map fun d _ => d.docs_mapDocs
  refine ⟨_, parse_print_mapDocs legible ungrouped, ?_, texts, ?_⟩
  · exact map_map_of_each fun d _ => code_mapDocs reread d
  · rw [texts]
    intro text ht
    obtain ⟨written, -, rfl⟩ := List.mem_map.1 ht
    exact isDocText_reread written

/-- Comments that end comments, open them, break lines or hold code, on declarations and on members
inside each other. -/
def hostileFile : List Declaration :=
  [{ name := "Safe"
     doc := some "*/ export type Evil = any; /*"
     params := [{ name := "T", bound := some (.object [.property "x" (.keyword .any) false false
       (some "**/\x7d\n/**")]), default := none }]
     body := .interface [.named "Base"]
       [.property "a" (.object [.index "key" (.keyword .string) (.keyword .null) false
          (some "\r\n\r\n*\r/\n * /")]) true false (some "*\\/ */*/"),
        .property "b" (.keyword .string) false true none]
     isExported := true },
   { name := "Plain"
     doc := none
     params := []
     body := .alias (.union [.named "Safe", .object [.property "'" (.string "*/") false false
       (some "")]])
     isExported := false }]

theorem code_parse_print_hostileFile :
    (∀ d ∈ hostileFile, d.isLegible false = true) ∧ (∀ d ∈ hostileFile, d.isGrouped = true) ∧
      ∃ read, parse (print hostileFile) = .ok read ∧
        read.map code = hostileFile.map code ∧
        read.flatMap docs = (hostileFile.flatMap docs).map reread ∧
        ∀ text ∈ read.flatMap docs, isDocText text = true := by
  have legible : ∀ d ∈ hostileFile, d.isLegible false = true := by decide +kernel
  have ungrouped : ∀ d ∈ hostileFile, d.isGrouped = true := by decide +kernel
  exact ⟨legible, ungrouped, code_parse_print legible ungrouped⟩

end Declaration

end HyperSchema
