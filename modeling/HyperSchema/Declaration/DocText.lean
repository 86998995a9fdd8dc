import HyperSchema.Text.Blank
import HyperSchema.Text.Lines

/-!
# The text of documentation comments

This file defines:

* `Declaration.docLine`, a line without the star in front of it;
* `Declaration.docText`, the text of a comment between its delimiters.
-/

namespace HyperSchema.Declaration

/-- A line of a comment without the blanks around it, the star in front and one blank behind the
star. -/
def docLine (line : List Char) : List Char :=
  let line := Text.trim line
  let line := match line with
    | '*' :: rest => rest
    | _ => line
  let line := match line with
    | ' ' :: rest => rest
    | _ => line
  Text.trimEnd line

/-- The lines without the empty ones at both ends. -/
def trimLines (lines : List (List Char)) : List (List Char) :=
  ((lines.dropWhile List.isEmpty).reverse.dropWhile List.isEmpty).reverse

/-- The text of a comment: its lines without stars, the empty ones at both ends left out. -/
def docText (body : List Char) : String :=
  String.ofList (['\n'].intercalate (trimLines ((Text.lines body).map docLine)))

end HyperSchema.Declaration
