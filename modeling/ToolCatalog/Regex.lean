import ToolCatalog.Regex.CharSet

/-!
Regular expressions and the texts they match in full.

A match is looked for by trying the ways in which an expression can match in their order of
preference: `Regex.run` gives each way to a continuation, which is the match of all that follows,
and takes the first for which that succeeds. Atomic parts try no second way once they have matched.

A repetition whose round ends where it began is not continued, which bounds the number of rounds by
the length of the text.
-/
namespace ToolCatalog

/-- A condition on a position in a text. -/
inductive Anchor
  /-- The start of the text. -/
  | start
  /-- The start of a line. -/
  | lineStart
  /-- The end of the text, or the place before a line feed that ends it. -/
  | finish
  /-- The end of a line. -/
  | lineFinish
  /-- The end of the text. -/
  | veryEnd
  /-- A place where a word starts or ends, or one where none does. -/
  | wordEdge (ascii negated : Bool)
  deriving DecidableEq, Repr

/-- How often a repetition tries to repeat: as often as it can, as seldom as it can, or as often as
it can and never less. -/
inductive Greed
  | greedy
  | reluctant
  | possessive
  deriving DecidableEq, Repr

/-- Where to look besides the text that is being matched: ahead, or behind by the width of what is
looked for. -/
inductive Direction
  | ahead
  | behind (width : Nat)
  deriving DecidableEq, Repr

/-- A regular expression. -/
inductive Regex
  | empty
  | set (s : CharSet) (mode : CharMode)
  | anchor (a : Anchor)
  | seq (r s : Regex)
  | either (r s : Regex)
  /-- At least `least` repetitions, and at most `most`. -/
  | times (r : Regex) (least : Nat) (most : Option Nat) (greed : Greed)
  /-- A part that is remembered under a number. -/
  | group (index : Nat) (r : Regex)
  | atomic (r : Regex)
  /-- A part that has to match here, or must not, and takes up no text. -/
  | look (direction : Direction) (negated : Bool) (r : Regex)
  /-- The text that a group matched last. -/
  | same (index : Nat) (mode : CharMode)
  /-- One of two parts, depending on whether a group has matched. -/
  | ifGroup (index : Nat) (yes no : Regex)
  deriving DecidableEq, Repr, Inhabited

/-- How far a match has come: the position, and where groups started and ended, the latest first. -/
structure MatchState where
  position : Nat
  starts : List (Nat × Nat)
  ends : List (Nat × Nat)
  deriving DecidableEq, Repr

namespace MatchState

/-- The start of a match. -/
def initial : MatchState := ⟨0, [], []⟩

/-- Goes on by so many characters. -/
def advance (st : MatchState) (count : Nat) : MatchState :=
  { st with position := st.position + count }

/-- Notes that a group starts here. -/
def openGroup (st : MatchState) (index : Nat) : MatchState :=
  { st with starts := (index, st.position) :: st.starts }

/-- Notes that a group ends here. -/
def closeGroup (st : MatchState) (index : Nat) : MatchState :=
  { st with ends := (index, st.position) :: st.ends }

/-- Where the text that a group matched starts and ends. -/
def span? (st : MatchState) (index : Nat) : Option (Nat × Nat) :=
  match st.starts.lookup index, st.ends.lookup index with
  | some first, some last => if first ≤ last then some (first, last) else none
  | _, _ => none

end MatchState

/-- What follows a part of an expression. -/
abbrev Continuation := MatchState → Option MatchState

/-- A part of an expression: it tries its ways to match until what follows succeeds. -/
abbrev Matcher := MatchState → Continuation → Option MatchState

namespace Anchor

/-- Whether a character stands at a position that can stand in a word. -/
def wordAt (text : Array Char) (ascii : Bool) (i : Nat) : Bool :=
  (text[i]?).any (CharKind.word.contains ascii)

/-- Whether a condition holds at a position. No place in an empty text is one of words. -/
def holds (text : Array Char) (i : Nat) : Anchor → Bool
  | .start => i == 0
  | .lineStart => i == 0 || text[i - 1]? == some '\n'
  | .finish => i == text.size || (i + 1 == text.size && text[i]? == some '\n')
  | .lineFinish => i == text.size || text[i]? == some '\n'
  | .veryEnd => i == text.size
  | .wordEdge ascii negated =>
    let before := i != 0 && wordAt text ascii (i - 1)
    text.size != 0 && (before != wordAt text ascii i) != negated

end Anchor

namespace Matcher

/-- Exactly so many rounds. -/
def rounds (step : Matcher) : Nat → Matcher
  | 0, st, k => k st
  | n + 1, st, k => step st fun st => rounds step n st k

/-- At most so many more rounds, as many as possible; the last round started at `last`. -/
def greedy (step : Matcher) : Nat → Option Nat → Matcher
  | 0, _, st, k => k st
  | n + 1, last, st, k =>
    if last == some st.position then k st
    else
      match step st fun next => greedy step n (some st.position) next k with
      | some found => some found
      | none => k st

/-- At most so many more rounds, as few as possible. -/
def reluctant (step : Matcher) : Nat → Option Nat → Matcher
  | 0, _, st, k => k st
  | n + 1, last, st, k =>
    match k st with
    | some found => some found
    | none =>
      if last == some st.position then none
      else step st fun next => reluctant step n (some st.position) next k

/-- The first way to match, if there is one. -/
def once (step : Matcher) : Matcher := fun st k =>
  match step st some with
  | some st => k st
  | none => none

/-- At most so many more rounds, as many as possible, each matched in its first way. -/
def possessive (step : Matcher) : Nat → Option Nat → MatchState → MatchState
  | 0, _, st => st
  | n + 1, last, st =>
    if last == some st.position then st
    else
      match step st some with
      | some next => possessive step n (some st.position) next
      | none => st

/-- A repetition in a text of so many characters. -/
def times (step : Matcher) (size least : Nat) (most : Option Nat) (greed : Greed) : Matcher :=
  fun st k =>
    let more := match most with
      | some m => min (m - least) (size + 1)
      | none => size + 1
    match greed with
    | .greedy => rounds step least st fun st => greedy step more none st k
    | .reluctant => rounds step least st fun st => reluctant step more none st k
    | .possessive => rounds (once step) least st fun st => k (possessive step more none st)

end Matcher

namespace Regex

/-- Whether a text repeats, from position `i` on, what stands from `first` up to `last`. -/
def repeats (text : Array Char) (mode : CharMode) (first last i : Nat) : Bool :=
  (List.range (last - first)).all fun n =>
    match text[first + n]?, text[i + n]? with
    | some c, some d => mode.lowered c == mode.lowered d
    | _, _ => false

/-- The match of an expression and of what follows it. -/
def run (text : Array Char) : Regex → Matcher
  | .empty => fun st k => k st
  | .set s mode => fun st k =>
    match text[st.position]? with
    | some c => if s.contains mode c then k (st.advance 1) else none
    | none => none
  | .anchor a => fun st k => if a.holds text st.position then k st else none
  | .seq r s => fun st k => run text r st fun st => run text s st k
  | .either r s => fun st k =>
    match run text r st k with
    | some found => some found
    | none => run text s st k
  | .times r least most greed => fun st k =>
    Matcher.times (run text r) text.size least most greed st k
  | .group index r => fun st k => run text r (st.openGroup index) fun st => k (st.closeGroup index)
  | .atomic r => fun st k => Matcher.once (run text r) st k
  | .look direction negated r => fun st k =>
    let from? : Option Nat := match direction with
      | .ahead => some st.position
      | .behind width => if width ≤ st.position then some (st.position - width) else none
    match from?.bind fun i => run text r { st with position := i } some with
    | some found => if negated then none else k { found with position := st.position }
    | none => if negated then k st else none
  | .same index mode => fun st k =>
    match st.span? index with
    | some (first, last) =>
      if repeats text mode first last st.position then k (st.advance (last - first)) else none
    | none => none
  | .ifGroup index yes no => fun st k =>
    if (st.span? index).isSome then run text yes st k else run text no st k

/-- Whether a text is matched in full. -/
def fullMatch (r : Regex) (s : String) : Bool :=
  let text := s.toList.toArray
  (r.run text .initial fun st => if st.position == text.size then some st else none).isSome

/-- One expression after the other. -/
def seqOf : List Regex → Regex
  | [] => .empty
  | [r] => r
  | r :: rest => .seq r (seqOf rest)

/-- One expression or another. -/
def eitherOf (r : Regex) : List Regex → Regex
  | [] => r
  | s :: rest => .either r (eitherOf s rest)

end Regex

end ToolCatalog
