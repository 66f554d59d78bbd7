import ToolCatalog.Entries
import ToolCatalog.Text.Blank

/-!
Files of environment variables.

Each line binds a name to a value: `NAME=value`, perhaps after the word `export`. A value may stand
between single or double quotes and then reach over several lines; otherwise it ends with its line
or before a comment. A line that is none of this is passed over. A name without a value is bound
to nothing; of several bindings of one name the last one counts, in the place of the first.

A value may refer to a variable by its name in braces after a dollar sign. The bindings before it
are looked at first, then the environment; a name that is bound nowhere stands for the default given
with it, or for nothing.
-/
namespace ToolCatalog.EnvFile

open Text (blank trimRight)

/-- A name with its value, if it has one. -/
abbrev Binding := String × Option String

/-- White space within a line. -/
def gap (c : Char) : Bool :=
  blank c && c != '\n'

/-- Line breaks of every kind as line feeds. -/
def unifyLines : List Char → List Char
  | '\r' :: '\n' :: rest => '\n' :: unifyLines rest
  | '\r' :: rest => '\n' :: unifyLines rest
  | c :: rest => c :: unifyLines rest
  | [] => []

/-- What follows the line that is being read. -/
def nextLine (cs : List Char) : List Char :=
  (cs.dropWhile (· != '\n')).drop 1

/-- What follows a comment, if there is one here. -/
def afterComment (cs : List Char) : List Char :=
  match cs.dropWhile gap with
  | '#' :: rest => rest.dropWhile (· != '\n')
  | _ => cs

/-- What follows the end of the line, if nothing but a gap stands before it. -/
def afterLine? (cs : List Char) : Option (List Char) :=
  match cs.dropWhile gap with
  | [] => some []
  | '\n' :: rest => some rest
  | _ => none

/-- What follows the word `export`, if it stands here. -/
def afterExport (cs : List Char) : List Char :=
  match cs with
  | 'e' :: 'x' :: 'p' :: 'o' :: 'r' :: 't' :: c :: rest =>
    if gap c then rest.dropWhile gap else cs
  | _ => cs

/-- Reads a name. -/
def readName (cs : List Char) : Option (String × List Char) :=
  match cs with
  | '\x27' :: rest =>
    let name := rest.takeWhile (· != '\x27')
    match rest.dropWhile (· != '\x27') with
    | _ :: after => if name.isEmpty then none else some (String.ofList name, after)
    | [] => none
  | cs =>
    let inName (c : Char) : Bool := c != '=' && c != '#' && !blank c
    let name := cs.takeWhile inName
    if name.isEmpty then none else some (String.ofList name, cs.dropWhile inName)

/-- Splits at the quote that closes a quoted value: the first one that no backslash escapes.
`escaped` tells whether the next character is escaped. -/
def splitQuote (mark : Char) (escaped : Bool) : List Char → Option (List Char × List Char)
  | [] => none
  | c :: rest =>
    if c == mark && !escaped then some ([], rest)
    else
      (splitQuote mark (c == '\x5c' && !escaped) rest).map fun (inner, after) => (c :: inner, after)

/-- The character that a letter after a backslash stands for between double quotes. -/
def letterEscape? : Char → Option Char
  | 'a' => some '\x07'
  | 'b' => some '\x08'
  | 'f' => some '\x0c'
  | 'n' => some '\n'
  | 'r' => some '\r'
  | 't' => some '\t'
  | 'v' => some '\x0b'
  | '\x22' => some '\x22'
  | _ => none

/-- Replaces escapes: everywhere the backslash and the single quote, between double quotes also the
double quote and letters. -/
def unescape (mark : Char) : List Char → List Char
  | '\x5c' :: c :: rest =>
    if c == '\x5c' || c == '\x27' then c :: unescape mark rest
    else
      match if mark == '\x22' then letterEscape? c else none with
      | some d => d :: unescape mark rest
      | none => '\x5c' :: unescape mark (c :: rest)
  | c :: rest => c :: unescape mark rest
  | [] => []

/-- A value without quotes, up to a comment. -/
def bareValue (line : List Char) : List Char :=
  trimRight (cut line)
where
  cut : List Char → List Char
    | [] => []
    | c :: rest =>
      if blank c then
        match rest.dropWhile blank with
        | '#' :: _ => []
        | _ => c :: cut rest
      else c :: cut rest

/-- Reads a value after the sign of equality, or tells where reading stopped. -/
def readValue (cs : List Char) : Except (List Char) (String × List Char) :=
  let start := cs.dropWhile gap
  let quoted (mark : Char) (rest : List Char) : Except (List Char) (String × List Char) :=
    match splitQuote mark false rest with
    | some (inner, after) => .ok (String.ofList (unescape mark inner), after)
    | none => .error start
  match start with
  | '\x27' :: rest => quoted '\x27' rest
  | '\x22' :: rest => quoted '\x22' rest
  | _ =>
    let value := Text.trimLeft (bareValue (cs.takeWhile (· != '\n')))
    .ok (String.ofList value, cs.dropWhile (· != '\n'))

/-- Reads a binding or a comment from where something stands, or tells where reading stopped. -/
def readBinding (cs : List Char) : Except (List Char) (Option Binding × List Char) := do
  let start := afterExport cs
  let (binding, rest) ← match start with
    | '#' :: _ => .ok (none, start)
    | _ =>
      match readName start with
      | none => .error start
      | some (name, rest) =>
        match rest.dropWhile gap with
        | '=' :: rest => do
          let (value, rest) ← readValue rest
          .ok (some (name, some value), rest)
        | rest => .ok (some (name, none), rest)
  let rest := afterComment rest
  match afterLine? rest with
  | some rest => return (binding, rest)
  | none => .error rest

/-- The bindings in a text; `room` bounds their number. -/
def readAll : Nat → List Char → List Binding
  | 0, _ => []
  | room + 1, cs =>
    match cs.dropWhile blank with
    | [] => []
    | cs =>
      match readBinding cs with
      | .ok (binding, rest) => binding.toList ++ readAll room rest
      | .error rest => readAll room (nextLine rest)

/-- A reference to a variable, with a default if it gives one. -/
structure VariableReference where
  name : String
  default : String
  deriving DecidableEq, Repr

/-- Reads a reference that stands here. -/
def readReference? (cs : List Char) : Option (VariableReference × List Char) :=
  let inName (c : Char) : Bool := c != '\x7d' && c != ':'
  match cs with
  | '$' :: '\x7b' :: rest =>
    let name := String.ofList (rest.takeWhile inName)
    match rest.dropWhile inName with
    | '\x7d' :: after => some (⟨name, ""⟩, after)
    | ':' :: '-' :: rest =>
      let default := String.ofList (rest.takeWhile (· != '\x7d'))
      match rest.dropWhile (· != '\x7d') with
      | _ :: after => some (⟨name, default⟩, after)
      | [] => none
    | _ => none
  | _ => none

/-- A text with its references replaced; `room` is at least its length. -/
def expand (value : VariableReference → String) : Nat → List Char → String
  | 0, cs => String.ofList cs
  | _, [] => ""
  | room + 1, c :: rest =>
    match readReference? (c :: rest) with
    | some (r, after) => value r ++ expand value room after
    | none => String.singleton c ++ expand value room rest

/-- What a reference stands for. -/
def valueOf (environment : Entries String) (bound : Entries (Option String))
    (r : VariableReference) : String :=
  match bound.lookup r.name with
  | some v => v.getD ""
  | none => (environment.lookup r.name).getD r.default

/-- Bindings in order, with their references replaced. -/
def resolve (environment : Entries String) (bindings : List Binding) : Entries (Option String) :=
  bindings.foldl (fun bound (name, v) => bound.put name (v.map fun s =>
    expand (valueOf environment bound) s.length s.toList)) []

/-- A text without the mark of its byte order. -/
def withoutOrderMark (cs : List Char) : List Char :=
  match cs with
  | '\ufeff' :: rest => rest
  | cs => cs

/-- The bindings of a file in an environment. -/
def read (environment : Entries String) (text : String) : Entries (Option String) :=
  let cs := unifyLines (withoutOrderMark text.toList)
  resolve environment (readAll cs.length cs)

end ToolCatalog.EnvFile
