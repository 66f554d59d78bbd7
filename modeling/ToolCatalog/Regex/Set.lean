import ToolCatalog.Regex.Escape

/-!
Reading sets of characters in patterns.
-/
namespace ToolCatalog

namespace CharSet

open RegexParsing

/-- The part of a set that an escape stands for. -/
def itemOfEscape : RegexEscape → CharItem
  | .char code => .char code
  | .kind k negated => .kind k negated
  | .anchor _ | .group _ => .char 0

/-- The part of a set that a token stands for. -/
def itemOfToken : RegexToken → RegexParsing CharItem
  | ['\x5c', c] => do return itemOfEscape (← RegexEscape.readInSet c)
  | [c] => return .char c.toNat
  | _ => return .char 0

/-- The range between two parts, which are written as two tokens. -/
def rangeItem (low high : RegexToken) (first last : CharItem) : RegexParsing CharItem := do
  let refuse : RegexParsing CharItem :=
    fail (.badRange (String.ofList low) (String.ofList high)) (low.length + 1 + high.length)
  match first, last with
  | .char m, .char n => if n < m then refuse else return .range m n
  | _, _ => refuse

/-- Reads the parts of a set up to the closing bracket, which is a part itself where nothing stands
before it. `opened` is the position of the opening bracket. -/
def readItems (opened : Nat) : Nat → List CharItem → RegexParsing (List CharItem)
  | 0, items => return items
  | room + 1, items => do
    let unterminated : RegexParsing (List CharItem) := do
      throw (.mistake .unterminatedSet (some opened))
    match ← next with
    | none => unterminated
    | some low =>
      if low == [']'] && !items.isEmpty then return items
      else
        let first ← itemOfToken low
        if ← accept '-' then
          match ← next with
          | none => unterminated
          | some high =>
            if high == [']'] then return items ++ [first, .char '-'.toNat]
            else
              let last ← itemOfToken high
              readItems opened room (items ++ [← rangeItem low high first last])
        else readItems opened room (items ++ [first])

/-- Reads a set after its opening bracket. -/
def read : RegexParsing CharSet := do
  let opened := (← get).position - 1
  let negated ← accept '^'
  let items ← readItems opened ((← get).rest.length + 1) []
  return ⟨negated, items.eraseDups⟩

end CharSet

end ToolCatalog
