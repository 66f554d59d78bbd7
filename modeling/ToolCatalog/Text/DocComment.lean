import ToolCatalog.Text.Blank

/-!
Cleaning of documentation comments.

Tabs are expanded, the indentation that all lines after the first share is taken away, the first
line loses its own, and empty lines at both ends are dropped.
-/
namespace ToolCatalog.Text

/-- The number of columns between tab stops. -/
def tabWidth : Nat := 8

/-- Replaces each tab by the spaces that lead to the next tab stop; `column` counts from the last
line break. -/
def expandTabs (column : Nat) : List Char → List Char
  | [] => []
  | c :: rest =>
    if c == '\t' then
      let gap := tabWidth - column % tabWidth
      List.replicate gap ' ' ++ expandTabs (column + gap) rest
    else if c == '\n' || c == '\r' then c :: expandTabs 0 rest
    else c :: expandTabs (column + 1) rest

/-- The number of blank characters a line starts with. -/
def indentation (line : List Char) : Nat :=
  (line.takeWhile blank).length

/-- The smallest indentation of the lines that are not blank throughout. -/
def margin (lines : List (List Char)) : Option Nat :=
  (lines.filter fun line => !line.all blank).map indentation |>.min?

/-- The cleaned text of a documentation comment. -/
def cleanDoc (doc : String) : String :=
  let cleaned : List (List Char) := match lines (expandTabs 0 doc.toList) with
    | [] => []
    | first :: rest => trimLeft first :: match margin rest with
      | some n => rest.map (List.drop n)
      | none => rest
  let inner := ((cleaned.dropWhile List.isEmpty).reverse.dropWhile List.isEmpty).reverse
  String.ofList (['\n'].intercalate inner)

end ToolCatalog.Text
