import ToolCatalog.Settings
import ToolCatalog.Tool
import ToolCatalog.ToolFault

/-!
The registry: tools under their names, in the order in which they were registered.

A tool is validated, then compiled, then stored. A batch is validated as a whole before any of its
members is compiled. Names are full matches of one pattern and permissions of another, and no name
is taken twice.
-/
namespace ToolCatalog

/-- Tools by name, and the session in which their parameters are compiled. -/
structure Registry where
  namePattern : Pattern
  permissionPattern : Pattern
  tools : List Tool
  session : Session

/-- Why the registry refuses something. -/
inductive RegistryFault
  | tool (f : ToolFault)
  | build (f : BuildFault)
  /-- Something that has to be gone through one by one cannot be. -/
  | notListed
  /-- A name of a kind that cannot be looked up. -/
  | unusableName

/-- What the registry does. Steps done before a fault stay done. -/
abbrev Registering := ExceptT RegistryFault (StateM Registry)

namespace Registry

/-- A registry without tools. -/
def empty (settings : Settings) : Registry :=
  ⟨settings.toolNamePattern, settings.permissionPattern, [], .empty⟩

/-- The names in order. -/
def names (r : Registry) : List Value :=
  r.tools.map (·.name)

/-- The tool with this name. -/
def find? (r : Registry) (name : Value) : Option Tool :=
  r.tools.find? (·.name.equal name)

/-- Whether a value is a text that a pattern matches in full. -/
def matchesText (p : Pattern) (v : Value) : Bool :=
  v.textual?.any p.fullMatch

/-- The fault of a name. -/
def nameFault (r : Registry) (name : Value) : ToolFault :=
  .invalid (.text s!"Invalid tool name {name.shown}: must match {r.namePattern.source}")
    (.text "name") { FaultContext.empty with toolName := .text name.plain }

/-- The fault of a permission. -/
def permissionFault (name permission : Value) : ToolFault :=
  .invalid (.text s!"Invalid permission {permission.shown} on tool '{name.plain}'")
    (.text "required_permissions")
    { FaultContext.empty with toolName := name, permission := .text permission.plain }

/-- What is wrong with a definition: its name, or else its first bad permission. -/
def validate (defs : Definitions) (r : Registry) (d : ToolDefinition) :
    Except RegistryFault Unit := do
  if !matchesText r.namePattern d.name then throw (.tool (r.nameFault d.name))
  match defs.iterate? d.permissions with
  | none => throw .notListed
  | some permissions =>
    match permissions.find? (!matchesText r.permissionPattern ·) with
    | some p => throw (.tool (permissionFault d.name p))
    | none => return

/-- What is wrong with a batch, where `seen` are the names of the members before. -/
def validateAll (defs : Definitions) (r : Registry) (seen : List Value) :
    List ToolDefinition → Except RegistryFault Unit
  | [] => return
  | d :: rest => do
    r.validate defs d
    if (r.find? d.name).isSome || d.name.memberOf seen then
      throw (.tool (.duplicate d.name .empty))
    r.validateAll defs (d.name :: seen) rest

/-- Compiles and stores a valid definition. -/
def store (defs : Definitions) (d : ToolDefinition) : Registering Tool := do
  let r ← get
  let (built, session) := (d.build defs).run r.session
  match built with
  | .error f =>
    set { r with session }
    throw (.build f)
  | .ok tool =>
    set { r with tools := r.tools ++ [tool], session := session.report (.toolRegistered tool.name) }
    return tool

/-- Goes on only if a check succeeds. -/
def ensure (check : Except RegistryFault Unit) : Registering Unit :=
  match check with
  | .ok () => return
  | .error f => throw f

/-- Registers a tool. -/
def register (defs : Definitions) (d : ToolDefinition) : Registering Tool := do
  ensure ((← get).validateAll defs [] [d])
  store defs d

/-- Registers the members of a batch, once all of them are valid. -/
def registerBatch (defs : Definitions) (ds : List ToolDefinition) : Registering (List Tool) := do
  ensure ((← get).validateAll defs [] ds)
  let tools ← ds.mapM (store defs)
  modify fun r => { r with session := r.session.report (.batchRegistered tools.length) }
  return tools

/-- The tool with this name, or the fault that there is none. -/
def lookup (r : Registry) (name : Value) : Except RegistryFault Tool :=
  if !name.hashable then .error .unusableName
  else match r.find? name with
    | some t => .ok t
    | none =>
      .error (.tool (.notFound (.text "Tool") name { FaultContext.empty with toolName := name }))

/-- Whether there is a tool with this name. -/
def contains (r : Registry) (name : Value) : Except RegistryFault Bool :=
  if name.hashable then .ok (r.find? name).isSome else .error .unusableName

/-- The tools with these names, in the order of the names; all tools, if no names are given. -/
def select (defs : Definitions) (r : Registry) (names : Value) :
    Except RegistryFault (List Tool) :=
  if names.isNull then .ok r.tools
  else match defs.iterate? names with
    | some names => names.mapM r.lookup
    | none => .error .notListed

end Registry

end ToolCatalog
