import HyperSchema.Proofs.Declaration.Rereading

/-!
# Round trip — printed declarations are the declarations they were printed for

A declaration is printable if every name in it is one that a text can say, its operators have
operands, its bases and bounds need no parentheses and its comments have the form of comments.  Then
nothing is lost on the way through the text:

* `Declaration.parse_print`, from `Declaration.parse_print_of_docs`.
-/

namespace HyperSchema

namespace Declaration

/-- Printable declarations are read back from their text, each as it was. -/
theorem parse_print {declarations : List Declaration}
    (printable : ∀ d ∈ declarations, d.isPrintable = true) :
    parse (print declarations) = .ok declarations := by
  have parts := fun d hd => parts_of_isPrintable (printable d hd)
  exact parse_print_of_docs (fun d hd => (parts d hd).1) (fun d hd => (parts d hd).2.1)
    fun d hd => (parts d hd).2.2

/-- A file with a member called `readonly`, a comment inside a type, and operators inside each
other. -/
def sampleFile : List Declaration :=
  [{ name := "Page"
     doc := some "A page.\n\n@see Book"
     params := [{ name := "T", bound := some (.keyOf (.named "Book")), default := none }]
     body := .interface
       [.reference "Base.Node" [.array (.union [.named "T", .keyword .null])]]
       [.property "readonly" (.keyword .boolean) true false none,
        .property "a-b" (.object [.property "x" (.number "-1.5e3") false true (some "Inner.")])
          false false (some ""),
        .index "key" (.keyword .string) (.access (.named "T") (.string "it's")) true none]
     isExported := true },
   { name := "Pick"
     doc := none
     params := []
     body := .alias (.conditional (.keyOf (.intersection [.named "A", .object []]))
       (.tuple [.boolean true, .rest (.union [.named "B", .named "C"])])
       (.conditional (.named "A") (.named "B") (.array (.keyOf (.named "D"))) (.keyword .never))
       (.union [.conditional (.named "A") (.named "B") (.named "C") (.named "D"), .named "E"]))
     isExported := false }]

theorem parse_print_sampleFile :
    (∀ d ∈ sampleFile, d.isPrintable = true) ∧ parse (print sampleFile) = .ok sampleFile := by
  have printable : ∀ d ∈ sampleFile, d.isPrintable = true := by decide +kernel
  exact ⟨printable, parse_print printable⟩

end Declaration

end HyperSchema
