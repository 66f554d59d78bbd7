import ToolCatalog.Number.Shortest
import ToolCatalog.Regex.Shown
import ToolCatalog.Time.Text
import ToolCatalog.Value

/-!
Two texts of a value: `Value.shown`, in which texts are quoted and every kind of value is marked,
and `Value.plain`, which leaves out quotes and marks at the outermost level.
-/
namespace ToolCatalog.Value

mutual

/-- The marked text of a value. -/
def shown : Value → String
  | .null => "None"
  | .bool b => if b then "True" else "False"
  | .int i => toString i
  | .float x => x.text
  | .text s => Text.quoted s
  | .bytes bs => Text.quotedBytes bs
  | .list items => "[" ++ ", ".intercalate (shownItems items) ++ "]"
  | .tuple items =>
    match items with
    | [v] => "(" ++ v.shown ++ ",)"
    | items => "(" ++ ", ".intercalate (shownItems items) ++ ")"
  | .set items =>
    if items.isEmpty then "set()" else "\x7b" ++ ", ".intercalate (shownItems items) ++ "\x7d"
  | .frozenSet items =>
    if items.isEmpty then "frozenset()"
    else "frozenset(\x7b" ++ ", ".intercalate (shownItems items) ++ "\x7d)"
  | .dict entries => "\x7b" ++ ", ".intercalate (shownEntries entries) ++ "\x7d"
  | .decimal d => s!"Decimal({Text.quoted d.text})"
  | .date d => d.shown
  | .dateTime m => m.shown
  | .time t => t.shown
  | .uuid u => s!"UUID({Text.quoted u.text})"
  | .pattern s => shownPattern s
  | .member e n _ v => s!"<{e}.{n}: {v.shown}>"
  | .foreign _ => "<object object>"
  | .endless => "[[...]]"

def shownItems : List Value → List String
  | [] => []
  | v :: rest => v.shown :: shownItems rest

def shownEntries : List (Value × Value) → List String
  | [] => []
  | (k, v) :: rest => s!"{k.shown}: {v.shown}" :: shownEntries rest

end

/-- The text of a value without quotes and marks. Members are shown as class and name, except where
their kind shows the bare value. -/
def plain : Value → String
  | .text s => s
  | .decimal d => d.text
  | .date d => d.text
  | .time t => t.text
  | .dateTime m => m.textWith " "
  | .uuid u => u.text
  | .member e n kind v =>
    match kind with
    | .integer | .textual | .integerFlag => v.plain
    | .plain | .text | .real | .flag => s!"{e}.{n}"
  | v => v.shown

end ToolCatalog.Value
