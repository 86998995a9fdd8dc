/-!
# Splitting text

This file defines:

* `Text.splitOn`, the pieces of a text between separators;
* `Text.lines`, the lines of a text.
-/

namespace HyperSchema.Text

/-- The pieces of a text between the occurrences of a separator; never empty. -/
def splitOn (separator : Char) : List Char → List (List Char)
  | [] => [[]]
  | c :: rest =>
      if c = separator then [] :: splitOn separator rest
      else
        match splitOn separator rest with
        | [] => [[c]]
        | first :: others => (c :: first) :: others

/-- A line without the carriage return before its line feed. -/
def withoutReturn (line : List Char) : List Char :=
  if line.getLast? = some '\r' then line.dropLast else line

/-- The lines of a text, each ended by a line feed, or by a carriage return and a line feed.  What
stands behind the last line feed is a line only if it is not empty. -/
def lines (text : List Char) : List (List Char) :=
  let pieces := splitOn '\n' text
  let last := pieces.getLast?.getD []
  pieces.dropLast.map withoutReturn ++ (if last.isEmpty then [] else [last])

end HyperSchema.Text
