import ToolCatalog.Text.Quoted
import ToolCatalog.Value.Shown

/-!
Values as JSON text.

Quotes, backslashes and control characters are escaped, all other characters stand for themselves.
Members of enumerations that count as a text or number are written as that. What JSON does not
know is written as its plain text, but a dictionary key has to be a text, a number, a truth value
or null.
-/
namespace ToolCatalog

/-- Why a value has no JSON text. -/
inductive JsonTextFault
  /-- A dictionary key that JSON does not know. -/
  | key
  /-- A container that contains itself. -/
  | circular
  deriving DecidableEq, Repr

namespace JsonText

/-- One character within quotes. -/
def escaped (c : Char) : List Char :=
  if c == '\x22' || c == '\x5c' then ['\x5c', c]
  else if c == '\n' then ['\x5c', 'n']
  else if c == '\r' then ['\x5c', 'r']
  else if c == '\t' then ['\x5c', 't']
  else if c == '\x08' then ['\x5c', 'b']
  else if c == '\x0c' then ['\x5c', 'f']
  else if c.toNat < 0x20 then '\x5c' :: 'u' :: Text.hexDigits 4 c.toNat
  else [c]

/-- A text in JSON. -/
def string (s : String) : String :=
  String.ofList ('\x22' :: s.toList.flatMap escaped ++ ['\x22'])

/-- A float in JSON, with names for the values that are no numbers. -/
def float (x : Double) : String :=
  match x with
  | .finite _ _ _ => x.text
  | .infinite negative => if negative then "-Infinity" else "Infinity"
  | .undefined => "NaN"

/-- The word for a truth value. -/
def bool (b : Bool) : String :=
  if b then "true" else "false"

/-- The text or number that a value counts as, in JSON. -/
def scalar? (v : Value) : Option String :=
  match v with
  | .null => some "null"
  | .bool b => some (bool b)
  | .int i => some (toString i)
  | .float x => some (float x)
  | .text s => some (string s)
  | .member _ _ kind value =>
    match kind, value with
    | .text, .text s | .textual, .text s => some (string s)
    | .integer, .int i | .integerFlag, .int i => some (toString i)
    | .real, .float x => some (float x)
    | _, _ => none
  | _ => none

/-- A dictionary key in JSON: texts as they are, all else as the text of what it is. -/
def key (v : Value) : Except JsonTextFault String :=
  match v.textual?, scalar? v with
  | some s, _ => .ok (string s)
  | none, some s => .ok (string s)
  | none, none => .error .key

mutual

/-- The JSON text of a value. -/
def ofValue : Value → Except JsonTextFault String
  | .list items | .tuple items => return "[" ++ ", ".intercalate (← ofItems items) ++ "]"
  | .dict entries => return "\x7b" ++ ", ".intercalate (← ofEntries entries) ++ "\x7d"
  | .endless => .error .circular
  | v => .ok ((scalar? v).getD (string v.plain))

def ofItems : List Value → Except JsonTextFault (List String)
  | [] => .ok []
  | v :: rest => do
    let s ← ofValue v
    return s :: (← ofItems rest)

def ofEntries : List (Value × Value) → Except JsonTextFault (List String)
  | [] => .ok []
  | (k, v) :: rest => do
    let k ← key k
    let s ← ofValue v
    return s!"{k}: {s}" :: (← ofEntries rest)

end

end JsonText

end ToolCatalog
