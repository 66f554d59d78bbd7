import ToolCatalog.Regex.Width

/-!
Reading the tokens of a pattern.

A token is a character, or a backslash with the character after it. A backslash that ends the
pattern is noticed as soon as it comes next, before the token in front of it is looked at.
-/
namespace ToolCatalog

/-- The flags of a pattern. -/
structure RegexFlags where
  ignoreCase : Bool
  multiLine : Bool
  dotAll : Bool
  verbose : Bool
  ascii : Bool
  unicode : Bool
  template : Bool
  deriving DecidableEq, Repr, Inhabited

namespace RegexFlags

/-- No flag. -/
def none : RegexFlags := ⟨false, false, false, false, false, false, false⟩

/-- The flag for a letter. -/
def ofLetter? : Char → Option RegexFlags
  | 'i' => some { none with ignoreCase := true }
  | 'm' => some { none with multiLine := true }
  | 's' => some { none with dotAll := true }
  | 'x' => some { none with verbose := true }
  | 'a' => some { none with ascii := true }
  | 'u' => some { none with unicode := true }
  | 't' => some { none with template := true }
  | _ => Option.none

/-- The flags of both. -/
def union (f g : RegexFlags) : RegexFlags :=
  ⟨f.ignoreCase || g.ignoreCase, f.multiLine || g.multiLine, f.dotAll || g.dotAll,
    f.verbose || g.verbose, f.ascii || g.ascii, f.unicode || g.unicode, f.template || g.template⟩

/-- The flags of the first that are not flags of the second. -/
def without (f g : RegexFlags) : RegexFlags :=
  ⟨f.ignoreCase && !g.ignoreCase, f.multiLine && !g.multiLine, f.dotAll && !g.dotAll,
    f.verbose && !g.verbose, f.ascii && !g.ascii, f.unicode && !g.unicode,
    f.template && !g.template⟩

/-- Whether there is a flag that says which kinds of characters count. -/
def ofKinds (f : RegexFlags) : Bool :=
  f.ascii || f.unicode

/-- The flags inside a group that turns flags on and off. -/
def inside (f on off : RegexFlags) : RegexFlags :=
  let f := if on.ofKinds then { f with ascii := false, unicode := false } else f
  (f.union on).without off

/-- How characters are compared under flags. -/
def mode (f : RegexFlags) : CharMode :=
  ⟨f.ignoreCase, f.ascii && !f.unicode⟩

end RegexFlags

/-- A token: one character, or two of which the first is a backslash. -/
abbrev RegexToken := List Char

/-- How far a pattern has been read. -/
structure RegexReading where
  position : Nat
  rest : List Char
  /-- The flags of the whole pattern. -/
  flags : RegexFlags
  /-- The names of groups. -/
  names : List (String × Nat)
  /-- The widths of the groups that are closed; groups count from one. -/
  widths : List (Option Width)
  /-- How many groups there were before the outermost place that looks behind. -/
  lookBehind : Option Nat
  /-- The groups that decide between two parts, with the positions of their numbers. -/
  deciders : List (Nat × Nat)

/-- Reading a pattern. -/
abbrev RegexParsing := StateT RegexReading (Except RegexFault)

namespace RegexParsing

/-- Fails with a mistake at a position so many characters back. -/
def fail {α : Type} (m : RegexMistake) (back : Nat := 0) : RegexParsing α := do
  throw (.mistake m (some ((← get).position - back)))

/-- The next token, `none` at the end. -/
def peek : RegexParsing (Option RegexToken) := do
  match (← get).rest with
  | [] => return none
  | '\x5c' :: c :: _ => return some ['\x5c', c]
  | c :: _ => return some [c]

/-- Notices a backslash that ends the pattern. -/
def checkEnd : RegexParsing Unit := do
  if (← get).rest == ['\x5c'] then fail .endsInEscape

/-- Goes on to a place in the pattern. -/
def moveTo (position : Nat) (rest : List Char) : RegexParsing Unit := do
  modify fun s => { s with position, rest }
  checkEnd

/-- Takes the next token. -/
def next : RegexParsing (Option RegexToken) := do
  match ← peek with
  | none => return none
  | some t =>
    let s ← get
    moveTo (s.position + t.length) (s.rest.drop t.length)
    return some t

/-- Takes the next token if it is this character. -/
def accept (c : Char) : RegexParsing Bool := do
  if (← peek) == some [c] then
    let _ ← next
    return true
  else return false

/-- Takes up to so many characters of a kind. -/
def takeUpTo (wanted : Char → Bool) : Nat → RegexParsing (List Char)
  | 0 => return []
  | n + 1 => do
    match ← peek with
    | some [c] =>
      if wanted c then
        let _ ← next
        return c :: (← takeUpTo wanted n)
      else return []
    | _ => return []

/-- Takes all characters of a kind. -/
def takeAll (wanted : Char → Bool) : RegexParsing (List Char) := do
  takeUpTo wanted (← get).rest.length

/-- Takes what stands before a terminator, and the terminator; `what` names what is read, and
`taken` is what has been read of it. -/
def takeName (terminator : Char) (what : String) : Nat → List Char → RegexParsing (List Char)
  | 0, taken => return taken
  | n + 1, taken => do
    match ← next with
    | none =>
      if taken.isEmpty then fail (.noName what)
      else fail (.unterminatedName terminator) taken.length
    | some t =>
      if t == [terminator] then
        if taken.isEmpty then fail (.noName what) 1 else return taken
      else takeName terminator what n (taken ++ t)

/-- Takes a name up to its terminator. -/
def nameUntil (terminator : Char) (what : String) : RegexParsing String := do
  return String.ofList (← takeName terminator what ((← get).rest.length + 1) [])

/-- The number of groups, the whole pattern being one of them. -/
def groupCount : RegexParsing Nat := do
  return (← get).widths.length + 1

/-- The width of a group that is closed. -/
def groupWidth? (index : Nat) : RegexParsing (Option Width) := do
  if index == 0 then return none else return ((← get).widths[index - 1]?).join

/-- Refuses a reference to a group from a place that looks behind, unless the group was closed
before that. -/
def checkLookBehind (index : Nat) : RegexParsing Unit := do
  match (← get).lookBehind with
  | none => return
  | some groups =>
    if (← groupWidth? index).isNone then fail .openGroup
    if groups ≤ index then fail .groupLookingBehind

/-- Opens a group. A name must be new. -/
def openGroup (name : Option String) : RegexParsing Nat := do
  let index ← groupCount
  match name with
  | none => pure ()
  | some name =>
    match (← get).names.lookup name with
    | some earlier => fail (.redefinedGroup name index earlier) (name.length + 1)
    | none => modify fun s => { s with names := (name, index) :: s.names }
  modify fun s => { s with widths := s.widths ++ [none] }
  return index

/-- The widths of the groups that are closed. -/
def widths : RegexParsing (Nat → Width) := do
  let all := (← get).widths
  return fun index => ((all[index - 1]?).join).getD ⟨0, 0⟩

/-- Closes a group. -/
def closeGroup (index : Nat) (r : Regex) : RegexParsing Unit := do
  let w := r.width (← widths)
  modify fun s => { s with widths := s.widths.set (index - 1) (some w) }

end RegexParsing

end ToolCatalog
