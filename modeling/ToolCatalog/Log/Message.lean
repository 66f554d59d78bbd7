import ToolCatalog.Log.Place
import ToolCatalog.Value.Equality

/-!
Messages with places for arguments.

A percent sign starts a place, and two of them are a percent sign. Places take the arguments in
order, each of which needs a place; or the only argument is a dictionary, and places name its
entries. Without arguments a message is taken as it is.
-/
namespace ToolCatalog

/-- The arguments of a message: values in order, or the entries of a dictionary. Of a dictionary the
next place takes the value that was named last, or else the dictionary itself, and only once. -/
inductive MessageArguments
  | listed (rest : List Value)
  | named (entries : List (Value × Value)) (next : Option Value)

namespace LogMessage

/-- What has still to be read of a message, and the arguments that are left. -/
structure Progress where
  rest : List Char
  arguments : MessageArguments

/-- Reading a message. -/
abbrev Reading := StateT Progress (Except MessageFault)

/-- Takes the next argument. -/
def takeArgument : Reading Value := do
  match (← get).arguments with
  | .listed (v :: rest) =>
    modify fun p => { p with arguments := .listed rest }
    return v
  | .named entries (some v) =>
    modify fun p => { p with arguments := .named entries none }
    return v
  | .listed [] | .named _ none => throw .noArgument

/-- Takes a character, if it is one of these. -/
def takeOneOf (cs : List Char) : Reading (Option Char) := do
  match (← get).rest with
  | c :: rest =>
    if cs.contains c then
      modify fun p => { p with rest }
      return some c
    else return none
  | [] => return none

/-- Takes characters as long as they are fit. -/
def takeWhile (fit : Char → Bool) : Reading (List Char) := do
  let cs := (← get).rest
  modify fun p => { p with rest := cs.dropWhile fit }
  return cs.takeWhile fit

/-- Splits a name from what follows the parenthesis that ends it; so many others are open. -/
def splitName : Nat → List Char → Option (List Char × List Char)
  | _, [] => none
  | depth, c :: rest =>
    let later (depth : Nat) : Option (List Char × List Char) :=
      (splitName depth rest).map fun (name, after) => (c :: name, after)
    if c == '(' then later (depth + 1)
    else if c == ')' then
      match depth with
      | 0 => some ([], rest)
      | depth + 1 => later depth
    else later depth

/-- Looks up the argument that a place names. -/
def readName : Reading Unit := do
  let p ← get
  match p.arguments with
  | .listed _ => throw .noNames
  | .named entries _ =>
    match splitName 0 p.rest with
    | none => throw .unfinished
    | some (name, rest) =>
      let name := String.ofList name
      match entries.find? fun (key, _) => key.equal (.text name) with
      | some (_, v) => set (⟨rest, .named entries (some v)⟩ : Progress)
      | none => throw (.unknownName name)

/-- A width or precision that an argument gives; it lies below a limit, up and down. -/
def sizeArgument (limit : Nat) : Reading Int := do
  match (← takeArgument).integer? with
  | none => throw .unfit
  | some i => if i < -(limit : Int) || (limit : Int) ≤ i then throw .beyondRange else return i

/-- A width or precision that is written out; it lies below a limit. -/
def writtenSize (limit : Nat) : Reading Nat := do
  let n := Number.ofDigits (← takeWhile Char.isDigit)
  if limit ≤ n then throw .sizeTooLong else return n

/-- Reads the width of a place. One that is less than zero fills up on the right. -/
def readWidth : Reading Int := do
  if (← takeOneOf ['*']).isSome then sizeArgument (Nat.pow 2 63)
  else return (← writtenSize (Nat.pow 2 63))

/-- Reads the precision of a place, if it has one. -/
def readPrecision : Reading (Option Nat) := do
  if (← takeOneOf ['.']).isNone then return none
  if (← takeOneOf ['*']).isSome then return some (← sizeArgument (Nat.pow 2 31)).toNat
  return some (← writtenSize (Nat.pow 2 31))

/-- Reads a place after its percent sign. -/
def readPlace : Reading Place := do
  if (← takeOneOf ['(']).isSome then readName
  let flags ← takeWhile ['-', '+', ' ', '#', '0'].contains
  let width ← readWidth
  let precision ← readPrecision
  let _ ← takeOneOf ['h', 'l', 'L']
  match (← get).rest with
  | [] => throw .unfinished
  | kind :: rest =>
    modify fun p => { p with rest }
    return {
      toLeft := flags.contains '-' || width < 0
      plus := flags.contains '+'
      blank := flags.contains ' '
      marked := flags.contains '#'
      zeros := flags.contains '0'
      width := width.natAbs
      precision, kind }

/-- Fills the places of what is left of a message; `room` is at least its length. -/
def fillPlaces : Nat → Reading String
  | 0 => return ""
  | room + 1 => do
    let plain := String.ofList (← takeWhile (· != '%'))
    if (← takeOneOf ['%']).isNone then return plain
    if (← takeOneOf ['%']).isSome then return plain ++ "%" ++ (← fillPlaces room)
    let place ← readPlace
    let s ← liftM (place.written (← takeArgument))
    return plain ++ s ++ (← fillPlaces room)

/-- The arguments that places take: a single dictionary that is not empty gives names. -/
def argumentsOf : List Value → MessageArguments
  | [.dict (e :: rest)] => .named (e :: rest) (some (.dict (e :: rest)))
  | args => .listed args

/-- A message with its arguments in place. -/
def format (message : String) (args : List Value) : Except MessageFault String := do
  if args.isEmpty then return message
  let cs := message.toList
  let (s, p) ← (fillPlaces (cs.length + 1)).run ⟨cs, argumentsOf args⟩
  match p.arguments with
  | .listed (_ :: _) => throw .spareArgument
  | _ => return s

end LogMessage

end ToolCatalog
