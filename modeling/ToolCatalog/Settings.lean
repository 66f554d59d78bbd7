import ToolCatalog.Regex.Pattern
import ToolCatalog.Settings.EnvFile
import ToolCatalog.Text.Case
import ToolCatalog.Value.Data
import ToolCatalog.Text.Quoted
import ToolCatalog.Value.Shown

/-!
The settings of the catalogue.

Each setting is taken from what is given directly, else from the environment, else from the
environment file, else from its default. Names are compared without regard to case. What is given
directly or by the file and names no setting is refused; unknown variables of the environment are
not. Settings once read from the environment are kept.
-/
namespace ToolCatalog

/-- A pattern together with the expression it is. -/
structure Pattern where
  source : String
  regex : Regex
  valid : Regex.ofPattern source = .ok regex

namespace Pattern

/-- The pattern with this source. -/
def ofSource (source : String) : Except RegexFault Pattern :=
  match h : Regex.ofPattern source with
  | .ok regex => .ok ⟨source, regex, h⟩
  | .error f => .error f

/-- Whether a text is matched in full. -/
def fullMatch (p : Pattern) (s : String) : Bool :=
  p.regex.fullMatch s

end Pattern

/-- The settings there are. -/
inductive SettingKey
  | toolNamePattern
  | permissionPattern
  | logLevel
  | logFormat
  deriving DecidableEq, Repr

namespace SettingKey

/-- All settings, in the order in which they are checked. -/
def all : List SettingKey :=
  [.toolNamePattern, .permissionPattern, .logLevel, .logFormat]

/-- The name of a setting. -/
def name : SettingKey → String
  | .toolNamePattern => "tool_name_pattern"
  | .permissionPattern => "permission_pattern"
  | .logLevel => "log_level"
  | .logFormat => "log_format"

/-- The value of a setting that is given nowhere. -/
def default : SettingKey → String
  | .toolNamePattern => "^[a-zA-Z0-9_-]\x7b1,64\x7d$"
  | .permissionPattern => "^[a-z][a-z0-9_-]*(:[a-z0-9_*-]+)*$"
  | .logLevel => "INFO"
  | .logFormat => "json"

/-- Whether a setting has to be a pattern. -/
def isPattern : SettingKey → Bool
  | .toolNamePattern | .permissionPattern => true
  | .logLevel | .logFormat => false

end SettingKey

/-- Settings that can be used. -/
structure Settings where
  toolNamePattern : Pattern
  permissionPattern : Pattern
  logLevel : String
  logFormat : String

/-- What is wrong with something that was given. -/
inductive SettingProblem
  | notText
  | notUnicode
  | badPattern (source : String) (mistake : RegexMistake) (position : Option Nat)
  /-- A pattern holds a number with more digits than are read. -/
  | longNumber (digits : Nat)
  /-- A pattern asks for two ways to tell kinds of characters. -/
  | clashingKinds
  | unknownName

namespace SettingProblem

/-- The code of a problem. -/
def code : SettingProblem → String
  | .notText => "string_type"
  | .notUnicode => "string_unicode"
  | .badPattern _ _ _ | .longNumber _ | .clashingKinds => "value_error"
  | .unknownName => "extra_forbidden"

/-- The message about a problem. -/
def message : SettingProblem → String
  | .notText => "Input should be a valid string"
  | .notUnicode =>
    "Input should be a valid string, unable to parse raw data as a unicode string"
  | .badPattern source mistake position =>
    let text := RegexFault.mistakeMessage source mistake position
    s!"Value error, invalid regular expression {Text.quoted source}: {text}"
  | .longNumber digits =>
    s!"Value error, Exceeds the limit (4300 digits) for integer string conversion: value has "
      ++ s!"{digits} digits; use sys.set_int_max_str_digits() to increase the limit"
  | .clashingKinds => "Value error, ASCII and UNICODE flags are incompatible"
  | .unknownName => "Extra inputs are not permitted"

end SettingProblem

/-- A problem and the name under which it was given. -/
structure SettingComplaint where
  name : String
  problem : SettingProblem

/-- Why there are no settings. -/
inductive SettingsFault
  /-- All that is wrong with what was given. -/
  | invalid (complaints : List SettingComplaint)
  /-- A pattern with a repetition beyond all counting, which stops the reading of settings. -/
  | patternTooLarge
  /-- A pattern with groups nested too deep, which stops the reading of settings. -/
  | patternTooDeep

/-- Where settings come from besides what is given directly: variables in the order in which they
were set, and the text of the environment file. -/
structure Environment where
  bindings : Entries String
  file : Option String

namespace Environment

/-- Nothing set, and no file. -/
def empty : Environment := ⟨[], none⟩

/-- The variables with their names in lower case. -/
def lowered (env : Environment) : Entries String :=
  .ofList (env.bindings.map fun (n, v) => (Text.lower n, v))

/-- The bindings of the file with their names in lower case. -/
def fileBindings (env : Environment) : Entries (Option String) :=
  match env.file with
  | some text => .ofList ((EnvFile.read env.bindings text).map fun (n, v) => (Text.lower n, v))
  | none => []

/-- The names in the file that name no setting, where they have a value. -/
def unknownInFile (env : Environment) : List String :=
  env.fileBindings.filterMap fun (n, v) =>
    if SettingKey.all.any (·.name == n) || v.all String.isEmpty then none else some n

end Environment

namespace Settings

/-- Whether a name is that of a setting, in any case. -/
def isKnown (name : String) : Bool :=
  SettingKey.all.any (·.name == Text.lower name)

/-- The value of a setting before it is checked. -/
def raw (env : Environment) (given : Entries Value) (key : SettingKey) : Value :=
  let inFile : Option String := (env.fileBindings.lookup key.name).join
  match given.find? fun (n, _) => Text.lower n == key.name with
  | some (_, v) => v
  | none => .text ((env.lowered.lookup key.name <|> inFile).getD key.default)

/-- The text of a setting; bytes are text if they encode one, and a member of an enumeration gives
the text of its value. -/
def textOf (v : Value) : Except SettingProblem String :=
  match v, v.textual? with
  | _, some s => .ok s
  | .bytes bs, none =>
    match Value.decodeBytes bs with
    | .ok s => .ok s
    | .error _ => .error .notUnicode
  | .member _ _ _ v, none => .ok v.plain
  | _, none => .error .notText

/-- The pattern of a setting, or what is wrong with it. -/
def patternOf (v : Value) : Except SettingsFault (Except SettingProblem Pattern) :=
  match textOf v with
  | .error p => .ok (.error p)
  | .ok source =>
    match Pattern.ofSource source with
    | .ok p => .ok (.ok p)
    | .error (.mistake m position) => .ok (.error (.badPattern source m position))
    | .error (.numberTooLong digits) => .ok (.error (.longNumber digits))
    | .error .kindsIncompatible => .ok (.error .clashingKinds)
    | .error .repetitionTooLarge => .error .patternTooLarge
    | .error .nestedTooDeep => .error .patternTooDeep

/-- The names given that name no setting, those of the file first. -/
def unknownNames (env : Environment) (given : Entries Value) : List String :=
  let inFile := env.unknownInFile
  inFile ++ (given.map (·.1)).filter fun n => !isKnown n && !inFile.contains n

/-- The settings of an environment, where what is given directly comes first; or all complaints,
those about settings first. -/
def load (env : Environment) (given : Entries Value) : Except SettingsFault Settings := do
  let toolName ← patternOf (raw env given .toolNamePattern)
  let permission ← patternOf (raw env given .permissionPattern)
  let level := textOf (raw env given .logLevel)
  let format := textOf (raw env given .logFormat)
  let unknown := unknownNames env given
  match toolName, permission, level, format, unknown with
  | .ok toolNamePattern, .ok permissionPattern, .ok logLevel, .ok logFormat, [] =>
    return { toolNamePattern, permissionPattern, logLevel, logFormat }
  | _, _, _, _, _ =>
    throw <| .invalid <|
      complaint .toolNamePattern toolName ++ complaint .permissionPattern permission
        ++ complaint .logLevel level ++ complaint .logFormat format
        ++ unknown.map (⟨·, .unknownName⟩)
where
  complaint {α : Type} (key : SettingKey) : Except SettingProblem α → List SettingComplaint
    | .ok _ => []
    | .error p => [⟨key.name, p⟩]

/-- The text of each setting. -/
def texts (s : Settings) : List (String × String) :=
  [(SettingKey.toolNamePattern.name, s.toolNamePattern.source),
    (SettingKey.permissionPattern.name, s.permissionPattern.source),
    (SettingKey.logLevel.name, s.logLevel), (SettingKey.logFormat.name, s.logFormat)]

end Settings

/-- Why a variable of the environment cannot be set. -/
inductive VariableFault
  | zeroCharacter
  | badName
  | emptyName
  deriving DecidableEq, Repr

/-- An environment, and the settings that have been read from it. -/
structure SettingSource where
  environment : Environment
  kept : Option Settings

namespace SettingSource

/-- An empty environment from which nothing has been read. -/
def empty : SettingSource := ⟨.empty, none⟩

/-- Sets a variable. Neither its name nor its value may hold the character zero, and the name is not
empty and holds no sign of equality. -/
def set (s : SettingSource) (name value : String) : Except VariableFault SettingSource :=
  if name.contains '\x00' || value.contains '\x00' then .error .zeroCharacter
  else if name.contains '=' then .error .badName
  else if name.isEmpty then .error .emptyName
  else .ok { s with environment.bindings := s.environment.bindings.put name value }

/-- Removes a variable. -/
def unset (s : SettingSource) (name : String) : SettingSource :=
  { s with environment.bindings := s.environment.bindings.remove name }

/-- Writes the environment file. -/
def writeFile (s : SettingSource) (text : String) : SettingSource :=
  { s with environment.file := some text }

/-- Forgets the settings that have been read. -/
def forget (s : SettingSource) : SettingSource :=
  { s with kept := none }

/-- The settings of the environment: those read before, or else they are read now and kept. -/
def settings (s : SettingSource) : Except SettingsFault Settings × SettingSource :=
  match s.kept with
  | some kept => (.ok kept, s)
  | none =>
    match Settings.load s.environment [] with
    | .ok read => (.ok read, { s with kept := some read })
    | .error f => (.error f, s)

end SettingSource

end ToolCatalog
