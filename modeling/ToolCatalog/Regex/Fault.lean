import ToolCatalog.Text.Quoted

/-!
What can be wrong in a pattern.

Most mistakes have a position in the pattern. A few are found only once the whole pattern has been
read; and some patterns are refused for another reason than a mistake.
-/
namespace ToolCatalog

/-- What is wrong in a pattern. -/
inductive RegexMistake
  | endsInEscape
  | incompleteEscape (written : String)
  | badEscape (written : String)
  | octalTooLarge (written : String)
  | noBrace
  | noName (what : String)
  | unterminatedName (terminator : Char)
  | unknownCharacter (name : String)
  | openGroup
  | groupLookingBehind
  | invalidGroup (number : Nat)
  | badGroupName (name : String)
  | unknownGroupName (name : String)
  | badGroupNumber
  | redefinedGroup (name : String) (number earlier : Nat)
  | unterminatedSet
  | badRange (low high : String)
  | crossedBounds
  | nothingToRepeat
  | multipleRepeat
  | unexpectedEnd
  | unknownExtension (mark : String)
  | unterminatedComment
  | unclosedGroup
  | moreThanTwoBranches
  | misplacedFlags
  | localeFlag
  | kindFlags
  | noFlagsEnd
  | unknownFlag
  | noFlag
  | noColon
  | globalFlagOn
  | kindFlagOff
  | globalFlagOff
  | flagOnAndOff
  | unbalanced
  | unevenLookBehind
  | longLookBehind
  | repetitionInTemplate (greed : String)
  deriving DecidableEq, Repr

/-- Why a pattern is refused. -/
inductive RegexFault
  | mistake (m : RegexMistake) (position : Option Nat)
  /-- A repetition has a bound beyond all counting. -/
  | repetitionTooLarge
  /-- A number in the pattern has more digits than are read. -/
  | numberTooLong (digits : Nat)
  /-- The kinds of characters are asked to go by ASCII and by Unicode. -/
  | kindsIncompatible
  /-- Groups are nested too deep. -/
  | nestedTooDeep
  deriving DecidableEq, Repr

namespace RegexFault

/-- The words for a mistake. -/
def words : RegexMistake → String
  | .endsInEscape => "bad escape (end of pattern)"
  | .incompleteEscape written => s!"incomplete escape {written}"
  | .badEscape written => s!"bad escape {written}"
  | .octalTooLarge written => s!"octal escape value {written} outside of range 0-0o377"
  | .noBrace => "missing \x7b"
  | .noName what => s!"missing {what}"
  | .unterminatedName terminator => s!"missing {terminator}, unterminated name"
  | .unknownCharacter name => s!"undefined character name {Text.quoted name}"
  | .openGroup => "cannot refer to an open group"
  | .groupLookingBehind => "cannot refer to group defined in the same lookbehind subpattern"
  | .invalidGroup number => s!"invalid group reference {number}"
  | .badGroupName name => s!"bad character in group name {Text.quoted name}"
  | .unknownGroupName name => s!"unknown group name {Text.quoted name}"
  | .badGroupNumber => "bad group number"
  | .redefinedGroup name number earlier =>
    s!"redefinition of group name {Text.quoted name} as group {number}; was group {earlier}"
  | .unterminatedSet => "unterminated character set"
  | .badRange low high => s!"bad character range {low}-{high}"
  | .crossedBounds => "min repeat greater than max repeat"
  | .nothingToRepeat => "nothing to repeat"
  | .multipleRepeat => "multiple repeat"
  | .unexpectedEnd => "unexpected end of pattern"
  | .unknownExtension mark => s!"unknown extension ?{mark}"
  | .unterminatedComment => "missing ), unterminated comment"
  | .unclosedGroup => "missing ), unterminated subpattern"
  | .moreThanTwoBranches => "conditional backref with more than two branches"
  | .misplacedFlags => "global flags not at the start of the expression"
  | .localeFlag => "bad inline flags: cannot use 'L' flag with a str pattern"
  | .kindFlags => "bad inline flags: flags 'a', 'u' and 'L' are incompatible"
  | .noFlagsEnd => "missing -, : or )"
  | .unknownFlag => "unknown flag"
  | .noFlag => "missing flag"
  | .noColon => "missing :"
  | .globalFlagOn => "bad inline flags: cannot turn on global flag"
  | .kindFlagOff => "bad inline flags: cannot turn off flags 'a', 'u' and 'L'"
  | .globalFlagOff => "bad inline flags: cannot turn off global flag"
  | .flagOnAndOff => "bad inline flags: flag turned on and off"
  | .unbalanced => "unbalanced parenthesis"
  | .unevenLookBehind => "look-behind requires fixed-width pattern"
  | .longLookBehind => "looks too much behind"
  | .repetitionInTemplate greed => s!"internal: unsupported template operator {greed}"

/-- A position in a pattern; in one of several lines, with the line and the column. -/
def place (pattern : String) (position : Nat) : String :=
  let before := pattern.toList.take position
  let text := s!" at position {position}"
  if pattern.toList.contains '\n' then
    let line := before.count '\n' + 1
    let column := (before.reverse.takeWhile (· != '\n')).length + 1
    s!"{text} (line {line}, column {column})"
  else text

/-- The message about a mistake in a pattern. -/
def mistakeMessage (pattern : String) (m : RegexMistake) (position : Option Nat) : String :=
  words m ++ (position.map (place pattern)).getD ""

end RegexFault

end ToolCatalog
