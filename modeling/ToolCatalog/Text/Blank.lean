/-!
White space in the sense of Unicode, and the two operations on text that depend on it.
-/
namespace ToolCatalog.Text

/-- White space: the separators of Unicode, the ASCII controls from tab to carriage return, the four
information separators, and the next-line control. -/
def blank (c : Char) : Bool :=
  let n := c.toNat
  (0x09 ≤ n && n ≤ 0x0D) || (0x1C ≤ n && n ≤ 0x20) || n == 0x85 || n == 0xA0 || n == 0x1680
    || (0x2000 ≤ n && n ≤ 0x200A) || n == 0x2028 || n == 0x2029 || n == 0x202F || n == 0x205F
    || n == 0x3000

/-- The characters from the first one that is not blank. -/
def trimLeft (s : List Char) : List Char :=
  s.dropWhile blank

/-- The characters up to the last one that is not blank. -/
def trimRight (s : List Char) : List Char :=
  (s.reverse.dropWhile blank).reverse

/-- Splits at every line feed; `n` line feeds give `n + 1` lines. -/
def lines (s : List Char) : List (List Char) :=
  s.foldr (fun c acc => match acc with
    | [] => [[c]]
    | line :: rest => if c == '\n' then [] :: line :: rest else (c :: line) :: rest) [[]]

end ToolCatalog.Text
