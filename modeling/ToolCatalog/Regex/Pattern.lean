import ToolCatalog.Number.Integer
import ToolCatalog.Regex.Set
import ToolCatalog.Text.Identifier

/-!
From a pattern to the expression it is.

A pattern is read from left to right, and the first mistake met is the one that is reported. A
repetition takes the item before it, which can be neither an anchor nor a repetition itself. Flags
hold for the whole pattern if they stand at its start, or for the group that they open.
-/
namespace ToolCatalog

/-- An item of an alternative. -/
inductive RegexItem
  | plain (r : Regex)
  | anchor (r : Regex)
  | repeated (r : Regex)

/-- The expression of an item. -/
def RegexItem.regex : RegexItem → Regex
  | .plain r | .anchor r | .repeated r => r

/-- Where in a pattern is being read: whether blanks and comments are passed over, how deep in
groups this is, whether flags for the whole pattern may stand here, and the flags. -/
structure RegexContext where
  verbose : Bool
  depth : Nat
  first : Bool
  flags : RegexFlags

namespace RegexContext

/-- The context inside a group. -/
def deeper (c : RegexContext) : RegexContext :=
  { c with depth := c.depth + 1, first := false }

/-- The context after flags for the whole pattern. -/
def withFlags (c : RegexContext) (flags : RegexFlags) : RegexContext :=
  { c with verbose := flags.verbose, flags }

end RegexContext

namespace RegexParsing

/-- The greatest depth of groups. -/
def depthLimit : Nat := 490

/-- The number of repetitions beyond all counting. -/
def repeatLimit : Nat := Nat.pow 2 32 - 1

/-- The number of digits beyond which no number is read. -/
def digitLimit : Nat := 4300

/-- The number of groups beyond all counting. -/
def groupLimit : Nat := Nat.pow 2 30 - 1

/-- White space that is passed over between items. -/
def passedOver (c : Char) : Bool :=
  [' ', '\t', '\n', '\r', '\x0b', '\x0c'].contains c

/-- Passes over a comment up to the end of the line. -/
def skipLine : Nat → RegexParsing Unit
  | 0 => return
  | n + 1 => do
    match ← next with
    | none => return
    | some t => if t == ['\n'] then return else skipLine n

/-- Passes over a comment in parentheses, which were opened at a position. -/
def skipComment (opened : Nat) : Nat → RegexParsing Unit
  | 0 => return
  | n + 1 => do
    if (← peek).isNone then throw (.mistake .unterminatedComment (some opened))
    if (← next) == some [')'] then return else skipComment opened n

/-- The bound that digits are; no digits are no bound. -/
def bound? (ds : List Char) : RegexParsing (Option Nat) := do
  if ds.isEmpty then return none
  if digitLimit < ds.length then throw (.numberTooLong ds.length)
  let n := Number.ofDigits ds
  if repeatLimit ≤ n then throw .repetitionTooLarge
  return some n

/-- Reads the bounds of a repetition after the opening brace; `none` if it is no repetition, and
then nothing has been taken. -/
def readBounds : RegexParsing (Option (Nat × Option Nat)) := do
  let here ← get
  if (← peek) == some ['\x7d'] then return none
  let low ← takeAll Char.isDigit
  let high ← if ← accept ',' then takeAll Char.isDigit else pure low
  if !(← accept '\x7d') then
    moveTo here.position here.rest
    return none
  let least := (← bound? low).getD 0
  let most ← bound? high
  if most.any (· < least) then throw (.mistake .crossedBounds (some here.position))
  return some (least, most)

/-- The bounds of the repetition that a token starts; `none` if it starts none. -/
def repetition? (t : RegexToken) : RegexParsing (Option (Nat × Option Nat)) := do
  match t with
  | ['*'] => return some (0, none)
  | ['+'] => return some (1, none)
  | ['?'] => return some (0, some 1)
  | ['\x7b'] => readBounds
  | _ => return none

/-- Reads how often a repetition tries to repeat. -/
def greed : RegexParsing Greed := do
  if ← accept '?' then return .reluctant
  if ← accept '+' then return .possessive
  return .greedy

/-- Repeats the latest item; `position` is where the repetition is written. -/
def repeatLast (position : Nat) (bounds : Nat × Option Nat) (items : List RegexItem) :
    RegexParsing (List RegexItem) := do
  match items with
  | [] | .anchor _ :: _ => throw (.mistake .nothingToRepeat (some position))
  | .repeated _ :: _ => throw (.mistake .multipleRepeat (some position))
  | .plain r :: rest =>
    return .repeated (.times r bounds.1 bounds.2 (← greed)) :: rest

/-- The item that an escape stands for. -/
def itemOfEscape (flags : RegexFlags) : RegexEscape → RegexItem
  | .char code => .plain (.set (.single code) flags.mode)
  | .kind k negated => .plain (.set (.ofKind k negated) flags.mode)
  | .anchor a => .anchor (.anchor a)
  | .group index => .plain (.same index flags.mode)

/-- The mistake that an unfit letter among flags is: a letter that is no flag, or none at all. -/
def flagMistake (t : RegexToken) (otherwise : RegexMistake) : RegexMistake :=
  match t with
  | [c] => if Text.letter c then .unknownFlag else otherwise
  | _ => otherwise

/-- The flag that a token is. -/
def flag? (t : RegexToken) : Option RegexFlags :=
  match t with
  | [c] => RegexFlags.ofLetter? c
  | _ => none

/-- Reads flags to be turned on, the first of which has been taken already, up to a mark. -/
def readFlagsOn : Nat → RegexFlags → RegexToken → RegexParsing (RegexFlags × RegexToken)
  | 0, on, t => return (on, t)
  | n + 1, on, t => do
    if t == ['L'] then fail .localeFlag
    match flag? t with
    | none => return (on, t)
    | some f =>
      let on := on.union f
      if f.ofKinds && on.ascii && on.unicode then fail .kindFlags
      match ← next with
      | none => fail .noFlagsEnd
      | some t =>
        if t == [')'] || t == ['-'] || t == [':'] then return (on, t)
        else if (flag? t).isSome || t == ['L'] then readFlagsOn n on t
        else fail (flagMistake t .noFlagsEnd) t.length

/-- Reads flags to be turned off, the first of which has been taken already, up to a colon. -/
def readFlagsOff : Nat → RegexFlags → RegexToken → RegexParsing RegexFlags
  | 0, off, _ => return off
  | n + 1, off, t => do
    match flag? t with
    | none => fail .kindFlagOff
    | some f =>
      if f.ofKinds then fail .kindFlagOff
      let off := off.union f
      match ← next with
      | none => fail .noColon
      | some t =>
        if t == [':'] then return off
        else if (flag? t).isSome || t == ['L'] then readFlagsOff n off t
        else fail (flagMistake t .noColon) t.length

/-- Reads flags, the first token of which has been taken already: those for the whole pattern, or
those that a group turns on and off. -/
def readFlags (t : RegexToken) : RegexParsing (RegexFlags ⊕ (RegexFlags × RegexFlags)) := do
  let room := (← get).rest.length + 1
  let (on, mark) ← if t == ['-'] then pure (RegexFlags.none, t) else readFlagsOn room .none t
  if mark == [')'] then return .inl on
  if on.template then fail .globalFlagOn 1
  let off ← if mark == ['-'] then
      match ← next with
      | none => fail .noFlag
      | some t =>
        if (flag? t).isSome || t == ['L'] then readFlagsOff room .none t
        else fail (flagMistake t .noFlag) t.length
    else pure RegexFlags.none
  if off.template then fail .globalFlagOff 1
  if (on.without off) != on then fail .flagOnAndOff 1
  return .inr (on, off)

/-- Refuses a name that is no identifier; it stands so many characters back. -/
def checkName (name : String) : RegexParsing Unit := do
  if !Text.isIdentifier name then fail (.badGroupName name) (name.length + 1)

/-- The group with a name, which has just been read. -/
def namedGroup (name : String) : RegexParsing Nat := do
  match (← get).names.lookup name with
  | some index => return index
  | none => fail (.unknownGroupName name) (name.length + 1)

/-- Reads a reference to a named group after its mark. -/
def readReference : RegexParsing Nat := do
  let name ← nameUntil ')' "group name"
  checkName name
  let index ← namedGroup name
  if (← groupWidth? index).isNone then fail .openGroup (name.length + 1)
  checkLookBehind index
  return index

/-- Reads the name or number of the group that decides between two parts. -/
def readDecider : RegexParsing Nat := do
  let name ← nameUntil ')' "group name"
  let index ← if Text.isIdentifier name then namedGroup name
    else
      match (Number.readInteger? 10 name).filter fun _ => name.length ≤ digitLimit with
      | some (.ofNat 0) => fail .badGroupNumber (name.length + 1)
      | some (.ofNat n) =>
        if groupLimit ≤ n then fail (.invalidGroup n) (name.length + 1)
        let position := (← get).position - name.length - 1
        if !(← get).deciders.any (·.1 == n) then
          modify fun s => { s with deciders := s.deciders ++ [(n, position)] }
        pure n
      | _ => fail (.badGroupName name) (name.length + 1)
  checkLookBehind index
  return index

/-- Takes the parenthesis that closes a group opened at a position. -/
def close (opened : Nat) : RegexParsing Unit := do
  if !(← accept ')') then throw (.mistake .unclosedGroup (some opened))

/-- Reads something to be looked for, ahead or behind, after its mark. -/
def readLook (alternatives : RegexParsing Regex) (opened : Nat) (behind negated : Bool) :
    RegexParsing Regex := do
  let before := (← get).lookBehind
  if behind && before.isNone then
    let groups ← groupCount
    modify fun s => { s with lookBehind := some groups }
  let r ← alternatives
  if behind then modify fun s => { s with lookBehind := before }
  close opened
  let groups ← widths
  let direction : Direction := if behind then .behind (r.width groups).least else .ahead
  return .look direction negated r

/-- Reads the contents of a group and its end. -/
def readGroup (alternatives : RegexParsing Regex) (opened : Nat) (name : Option String) :
    RegexParsing Regex := do
  let index ← openGroup name
  let r ← alternatives
  close opened
  closeGroup index r
  return .group index r

/-- Reads the two parts between which a group decides, and their end. -/
def readBranches (part : RegexParsing Regex) (opened : Nat) : RegexParsing Regex := do
  let index ← readDecider
  let yes ← part
  let no ← if ← accept '|' then
      let no ← part
      if (← peek) == some ['|'] then fail .moreThanTwoBranches
      pure no
    else pure .empty
  close opened
  return .ifGroup index yes no

/-- Reads what follows the mark of a named group or reference. -/
def readNamed (alternatives : RegexParsing Regex) (flags : RegexFlags) (opened : Nat) :
    RegexParsing Regex := do
  if ← accept '<' then
    let name ← nameUntil '>' "group name"
    checkName name
    readGroup alternatives opened (some name)
  else if ← accept '=' then return .same (← readReference) flags.mode
  else
    match ← next with
    | none => fail .unexpectedEnd
    | some t => fail (.unknownExtension ("P" ++ String.ofList t)) (t.length + 2)

/-- Reads what is to be looked for behind, after the mark for it. -/
def readBehind (alternatives : RegexParsing Regex) (opened : Nat) : RegexParsing Regex := do
  match ← next with
  | none => fail .unexpectedEnd
  | some ['='] => readLook alternatives opened true false
  | some ['!'] => readLook alternatives opened true true
  | some t => fail (.unknownExtension ("<" ++ String.ofList t)) (t.length + 2)

/-- What a parenthesis opens: an item, nothing, or flags for the whole pattern. -/
inductive Opened
  | item (r : Regex)
  | nothing
  | flags (f : RegexFlags)

/-- Reads what a parenthesis at a position opens. `alternatives` reads the contents of a group in a
context, and `part` a single alternative. -/
def readOpened (alternatives : RegexContext → RegexParsing Regex) (part : RegexParsing Regex)
    (c : RegexContext) (opened : Nat) : RegexParsing Opened := do
  let inner := c.deeper
  if !(← accept '?') then return .item (← readGroup (alternatives inner) opened none)
  match ← next with
  | none => fail .unexpectedEnd
  | some ['P'] => return .item (← readNamed (alternatives inner) c.flags opened)
  | some [':'] =>
    let r ← alternatives inner
    close opened
    return .item r
  | some ['#'] =>
    skipComment opened ((← get).rest.length + 1)
    return .nothing
  | some ['='] => return .item (← readLook (alternatives inner) opened false false)
  | some ['!'] => return .item (← readLook (alternatives inner) opened false true)
  | some ['<'] => return .item (← readBehind (alternatives inner) opened)
  | some ['('] => return .item (← readBranches part opened)
  | some ['>'] =>
    let r ← alternatives inner
    close opened
    return .item (.atomic r)
  | some t =>
    if (flag? t).isSome || t == ['L'] || t == ['-'] then
      match ← readFlags t with
      | .inl f => return .flags f
      | .inr (on, off) =>
        let flags := c.flags.inside on off
        let verbose := (c.verbose || on.verbose) && !off.verbose
        let r ← alternatives { inner with verbose, flags }
        close opened
        return .item r
    else fail (.unknownExtension (String.ofList t)) (t.length + 1)

/-- Turns flags on for the whole pattern, which is possible only at its start. -/
def turnOn (c : RegexContext) (opened : Nat) (f : RegexFlags) (atStart : Bool) :
    RegexParsing RegexContext := do
  let flags := (← get).flags.union f
  modify fun s => { s with flags }
  if !c.first || !atStart then throw (.mistake .misplacedFlags (some opened))
  return c.withFlags flags

/-- Whether a token ends an alternative. -/
def endsAlternative (t : RegexToken) : Bool :=
  t == ['|'] || t == [')']

/-- The item that a token stands for by itself. -/
def simpleItem (flags : RegexFlags) (t : RegexToken) : RegexParsing RegexItem := do
  match t with
  | ['\x5c', c] => return itemOfEscape flags (← RegexEscape.read flags.mode.ascii c)
  | ['.'] => return .plain (.set (if flags.dotAll then .any else .anyInLine) ⟨false, false⟩)
  | ['^'] => return .anchor (.anchor (if flags.multiLine then .lineStart else .start))
  | ['$'] => return .anchor (.anchor (if flags.multiLine then .lineFinish else .finish))
  | ['['] => return .plain (.set (← CharSet.read) flags.mode)
  | [c] => return .plain (.set (.single c.toNat) flags.mode)
  | _ => return .plain .empty

mutual

/-- Reads alternatives up to the end of their group. -/
def readAlternatives : Nat → RegexContext → RegexParsing Regex
  | 0, _ => throw .nestedTooDeep
  | room + 1, c => do
    if depthLimit < c.depth then throw .nestedTooDeep
    let items ← readItems room c []
    readMore room c [] items

/-- Reads further alternatives, given those before the latest one and the items of that. -/
def readMore : Nat → RegexContext → List Regex → List RegexItem → RegexParsing Regex
  | 0, _, _, _ => throw .nestedTooDeep
  | room + 1, c, earlier, items => do
    let current := Regex.seqOf (items.reverse.map RegexItem.regex)
    if ← accept '|' then
      let flags := (← get).flags
      let c := if c.depth == 0 then { c.withFlags flags with first := false } else c
      let items ← readItems room c []
      readMore room c (earlier ++ [current]) items
    else
      match earlier with
      | [] => return current
      | r :: rest => return .eitherOf r (rest ++ [current])

/-- Reads the items of an alternative after those read already, the latest first. -/
def readItems : Nat → RegexContext → List RegexItem → RegexParsing (List RegexItem)
  | 0, _, _ => throw .nestedTooDeep
  | room + 1, c, items => do
    match ← peek with
    | none => return items
    | some t =>
      if endsAlternative t then return items
      else
        let position := (← get).position
        let _ ← next
        if c.verbose && t.all passedOver then readItems room c items
        else if c.verbose && t == ['#'] then
          skipLine ((← get).rest.length + 1)
          readItems room c items
        else if t == ['('] then
          let part : RegexParsing Regex := do
            let items ← readItems room c.deeper []
            return .seqOf (items.reverse.map RegexItem.regex)
          match ← readOpened (readAlternatives room) part c position with
          | .item r => readItems room c (.plain r :: items)
          | .nothing => readItems room c items
          | .flags f => readItems room (← turnOn c position f items.isEmpty) items
        else
          match ← repetition? t with
          | some bounds => readItems room c (← repeatLast position bounds items)
          | none => readItems room c ((← simpleItem c.flags t) :: items)

end

/-- Reads a whole pattern, and makes the checks that wait for its end. -/
def readPattern (room : Nat) : RegexParsing Regex := do
  checkEnd
  let r ← readAlternatives room ⟨false, 0, true, .none⟩
  let flags := (← get).flags
  if flags.ascii && flags.unicode then throw .kindsIncompatible
  if (← peek).isSome then fail .unbalanced
  let count ← groupCount
  match (← get).deciders.find? fun (n, _) => count ≤ n with
  | some (n, position) => throw (.mistake (.invalidGroup n) (some position))
  | none =>
    match r.lateMistake? flags.template (← widths) with
    | some m => throw (.mistake m none)
    | none => return r

end RegexParsing

/-- An expression with the flags of its pattern. -/
structure RegexProgram where
  regex : Regex
  flags : RegexFlags
  deriving Repr

/-- The expression that a pattern is, with its flags. Each token is taken by one of at most three
calls inside each other. -/
def RegexProgram.ofPattern (pattern : String) : Except RegexFault RegexProgram := do
  let cs := pattern.toList
  let room := 3 * cs.length + 10
  let (regex, s) ← (RegexParsing.readPattern room).run ⟨0, cs, .none, [], [], none, []⟩
  return ⟨regex, s.flags⟩

/-- The expression that a pattern is. -/
def Regex.ofPattern (pattern : String) : Except RegexFault Regex :=
  (RegexProgram.ofPattern pattern).map (·.regex)

end ToolCatalog
