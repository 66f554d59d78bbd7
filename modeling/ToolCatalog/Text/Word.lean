import ToolCatalog.Text.Digit
import ToolCatalog.Text.Letter

/-!
The characters of words: letters, characters with a numeric value, and the underscore.
-/
namespace ToolCatalog.Text

/-- Whether a character can stand in a word. -/
def wordChar (c : Char) : Bool :=
  c == '_' || letter c || numeric c

/-- Whether an ASCII character can stand in a word. -/
def asciiWordChar (c : Char) : Bool :=
  c == '_' || c.isAlphanum

end ToolCatalog.Text
