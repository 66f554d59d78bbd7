import ToolCatalog.Number.Integer
import ToolCatalog.Number.Reading
import ToolCatalog.Text.Encoding
import ToolCatalog.Value.Exact
import ToolCatalog.Value.Shown

/-!
What a member of an enumeration takes from the value that is written for it.

Members that count as a text, an integer or a number are made from the written value; a tuple gives
the arguments from which they are made. Members of the other kinds are their value.
-/
namespace ToolCatalog

namespace Value

/-- The values that a member is made from. -/
def arguments : Value → List Value
  | .tuple items => items
  | v => [v]

/-- The text that stands for a number: a text itself, or the text that bytes are. -/
def numeral? (v : Value) : Option String :=
  match v with
  | .bytes bs => Text.Encoding.latin.decode? .refuse bs
  | v => v.textual?

/-- The text made from arguments: of one argument its plain text, or else the text that bytes are in
an encoding. -/
def textFrom? (args : List Value) : Option String :=
  match args with
  | [] => some ""
  | [v] => some v.plain
  | .bytes bs :: encoding :: rest => do
    let encoding ← encoding.textual?.bind Text.Encoding.ofName?
    let handling ← match rest with
      | [] => some Text.MistakeHandling.refuse
      | [v] => v.textual?.bind Text.MistakeHandling.ofName?
      | _ => none
    encoding.decode? handling bs
  | _ => none

/-- The integer part of a value, or the integer that is the number of an identifier. -/
def truncate? (v : Value) : Option Int :=
  match v with
  | .float x => x.truncate?
  | .decimal d => d.truncate?
  | .uuid u => some u.number
  | .member _ _ .real (.float x) => x.truncate?
  | v => v.integer?

/-- The integer made from arguments: a numeral, perhaps with its base, or the integer part of a
number. -/
def integerFrom? (args : List Value) : Option Int :=
  match args with
  | [] => some 0
  | [v] =>
    match v.numeral? with
    | some s => Number.readInteger? 10 s
    | none => v.truncate?
  | [v, base] => do Number.readInteger? (← base.integer?).toNat (← v.numeral?)
  | _ => none

/-- The number in double precision made from arguments. -/
def doubleFrom? (args : List Value) : Option Double :=
  match args with
  | [] => some (.zero false)
  | [v] =>
    match v, v.numeral? with
    | _, some s => Double.ofText? s
    | .float x, _ | .member _ _ .real (.float x), _ => some x
    | .decimal d, _ => some d.toDouble
    | v, none => v.integer?.map Double.ofInt
  | _ => none

end Value

/-- The value that a member of this kind takes from what is written for it. -/
def EnumKind.convert (kind : EnumKind) (written : Value) : Value :=
  let args := written.arguments
  let made : Option Value := match kind with
    | .text | .textual => (Value.textFrom? args).map .text
    | .integer | .integerFlag => (Value.integerFrom? args).map .int
    | .real => (Value.doubleFrom? args).map .float
    | .plain | .flag => none
  made.getD written

end ToolCatalog
