import ToolCatalog.Number.Shortest
import ToolCatalog.Time.Text
import ToolCatalog.Value.Equality

/-!
Conversion of values to JSON data.

`Value.toData` turns a value into null, truth values, integers, floats, texts, lists and
dictionaries with text keys, or says why it cannot. Items are converted in order and the first one
that fails decides. At most `Value.depthLimit` values may be nested in each other, a member of an
enumeration and its value being two of them.
-/
namespace ToolCatalog

/-- Why a value has no JSON data. -/
inductive DataFault
  /-- An opaque object. -/
  | unserializable
  /-- Bytes that are no UTF-8 text. -/
  | invalidText
  /-- A container that contains itself. -/
  | circular
  /-- More values inside each other than are followed. -/
  | tooDeep
  /-- A dictionary key of a kind that has no text. -/
  | unusableKey
  deriving DecidableEq, Repr

namespace Value

/-- The greatest number of values nested in each other that is converted. -/
def depthLimit : Nat := 255

/-- The text that bytes encode in UTF-8. -/
def decodeBytes (bs : List UInt8) : Except DataFault String :=
  match String.fromUTF8? ⟨bs.toArray⟩ with
  | some s => .ok s
  | none => .error .invalidText

mutual

/-- The text of a dictionary key. -/
def keyText : Value → Except DataFault String
  | .null => .ok "None"
  | .bool b => .ok (if b then "true" else "false")
  | .int i => .ok (toString i)
  | .float x => .ok x.text
  | .text s | .pattern s => .ok s
  | .decimal d => .ok d.text
  | .uuid u => .ok u.text
  | .date d => .ok d.text
  | .dateTime m => .ok m.dataText
  | .time t => .ok t.dataText
  | .bytes bs => decodeBytes bs
  | .tuple items => return ",".intercalate (← keyTexts items)
  | .member _ _ _ v => v.keyText
  | .list _ | .set _ | .frozenSet _ | .dict _ | .endless => .error .unusableKey
  | .foreign _ => .error .unserializable

def keyTexts : List Value → Except DataFault (List String)
  | [] => .ok []
  | v :: rest => return (← v.keyText) :: (← keyTexts rest)

end

/-- Writes a text key: an existing key keeps its place and takes the new value. -/
def putText (key : String) (value : Value) : List (Value × Value) → List (Value × Value)
  | [] => [(.text key, value)]
  | (k, v) :: rest =>
    if k.textual? == some key then (k, value) :: rest else (k, v) :: putText key value rest

mutual

/-- Conversion with `room` for that many values inside each other. -/
def toDataWithin (room : Nat) (v : Value) : Except DataFault Value :=
  match room with
  | 0 => .error .tooDeep
  | room + 1 =>
    match v with
    | .null => .ok .null
    | .bool b => .ok (.bool b)
    | .int i => .ok (.int i)
    | .float x => .ok (.float x)
    | .text s | .pattern s => .ok (.text s)
    | .bytes bs => return .text (← decodeBytes bs)
    | .list items | .tuple items | .set items | .frozenSet items =>
      return .list (← itemsToData room items)
    | .dict entries => return .dict (← entriesToData room entries [])
    | .decimal d => .ok (.text d.text)
    | .uuid u => .ok (.text u.text)
    | .date d => .ok (.text d.text)
    | .dateTime m => .ok (.text m.dataText)
    | .time t => .ok (.text t.dataText)
    | .member _ _ _ v => toDataWithin room v
    | .foreign _ => .error .unserializable
    | .endless => .error .circular

def itemsToData (room : Nat) : List Value → Except DataFault (List Value)
  | [] => .ok []
  | v :: rest => do
    let v ← toDataWithin room v
    return v :: (← itemsToData room rest)

/-- Converts entries in order onto those already written. -/
def entriesToData (room : Nat) :
    List (Value × Value) → List (Value × Value) → Except DataFault (List (Value × Value))
  | [], written => .ok written
  | (k, v) :: rest, written => do
    let key ← keyText k
    let value ← toDataWithin room v
    entriesToData room rest (putText key value written)

end

/-- The JSON data of a value. -/
def toData (v : Value) : Except DataFault Value :=
  toDataWithin depthLimit v

end Value

end ToolCatalog
