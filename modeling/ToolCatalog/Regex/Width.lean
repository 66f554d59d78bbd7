import ToolCatalog.Regex
import ToolCatalog.Regex.Fault

/-!
How much text an expression can take up, and the mistakes that depend on it.

What is looked for behind must always take up the same amount of text.
-/
namespace ToolCatalog

/-- The least and the greatest number of characters that an expression matches. -/
structure Width where
  least : Nat
  most : Nat
  deriving DecidableEq, Repr, Inhabited

namespace Width

/-- The number that stands for all greater ones. -/
def limit : Nat := Nat.pow 2 64

/-- A width within the limit. -/
def capped (least most : Nat) : Width :=
  ⟨min least limit, min most limit⟩

/-- The width of two parts one after the other. -/
def after (v w : Width) : Width :=
  capped (v.least + w.least) (v.most + w.most)

/-- The width of one part or another. -/
def either (v w : Width) : Width :=
  ⟨min v.least w.least, max v.most w.most⟩

/-- The width of a repetition. -/
def times (w : Width) (least : Nat) (most : Option Nat) : Width :=
  match most with
  | some m => capped (w.least * least) (w.most * m)
  | none => capped (w.least * least) (if w.most == 0 then 0 else limit)

end Width

namespace Regex

/-- The width of an expression, given the widths of the groups that it refers to. -/
def width (groups : Nat → Width) : Regex → Width
  | .empty | .anchor _ | .look _ _ _ => ⟨0, 0⟩
  | .set _ _ => ⟨1, 1⟩
  | .seq r s => (width groups r).after (width groups s)
  | .either r s => (width groups r).either (width groups s)
  | .times r least most _ => (width groups r).times least most
  | .group _ r | .atomic r => width groups r
  | .same index _ => groups index
  | .ifGroup _ yes no => (width groups yes).either (width groups no)

/-- How a repetition is called where there may be none. -/
def greedName : Greed → String
  | .greedy => "MAX_REPEAT"
  | .reluctant => "MIN_REPEAT"
  | .possessive => "POSSESSIVE_REPEAT"

/-- The greatest width that can be looked behind. -/
def longestLookBehind : Nat := Nat.pow 2 32 - 1

/-- The first mistake that shows once an expression is complete: something of changing width that is
looked for behind, or a repetition in a template. -/
def lateMistake? (template : Bool) (groups : Nat → Width) : Regex → Option RegexMistake
  | .empty | .anchor _ | .set _ _ | .same _ _ => none
  | .seq r s | .either r s | .ifGroup _ r s =>
    (lateMistake? template groups r).or (lateMistake? template groups s)
  | .times r _ _ greed =>
    if template then some (.repetitionInTemplate (greedName greed))
    else lateMistake? template groups r
  | .group _ r | .atomic r => lateMistake? template groups r
  | .look direction _ r =>
    let w := width groups r
    match direction with
    | .ahead => lateMistake? template groups r
    | .behind _ =>
      if longestLookBehind < w.least then some .longLookBehind
      else if w.least != w.most then some .unevenLookBehind
      else lateMistake? template groups r

end Regex

end ToolCatalog
