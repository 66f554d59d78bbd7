import ToolCatalog.Compiler
import ToolCatalog.Descriptor.Export

/-!
Tools: what is written about a tool, and the tool that is built from it.

Building a tool compiles its parameters and collects its permissions; it checks neither the name nor
the permissions. A tool can be written out in two ways, with its parameters in canonical or in
strict form.
-/
namespace ToolCatalog

/-- A tool as it is written down; any value that can be gone through gives the permissions. -/
structure ToolDefinition where
  name : Value
  description : Value
  schema : TypeExpr
  permissions : Value

/-- A tool that has been built; its parameters are a descriptor of the session. -/
structure Tool where
  name : Value
  description : Value
  parameters : Address
  permissions : List Value

/-- Why a tool cannot be built. -/
inductive BuildFault
  | compile (f : CompileFault)
  /-- The permissions cannot be gone through one by one. -/
  | permissionsNotListed
  deriving DecidableEq, Repr

namespace ToolDefinition

/-- Builds a tool: its parameters first, then its permissions. -/
def build (defs : Definitions) (d : ToolDefinition) :
    ExceptT BuildFault (StateM Session) Tool := do
  let parameters ← ExceptT.adapt .compile (describeParameters defs d.schema)
  match defs.iterate? d.permissions with
  | some permissions => return ⟨d.name, d.description, parameters, permissions⟩
  | none => throw .permissionsNotListed

/-- Builds several tools in order. -/
def buildAll (defs : Definitions) (ds : List ToolDefinition) :
    ExceptT BuildFault (StateM Session) (List Tool) :=
  ds.mapM (build defs)

end ToolDefinition

namespace Tool

/-- A tool as it is configured: name, description, parameters in canonical form, permissions. -/
def configuration (g : Graph) (t : Tool) : Except ExportFault Value := do
  let parameters ← g.render .canonical t.parameters
  return .dict [(.text "name", t.name), (.text "description", t.description),
    (.text "parameters", parameters.toValue), (.text "requiredPermissions", .list t.permissions)]

/-- A tool as it is advertised: name, description, parameters in strict form. -/
def advertisement (g : Graph) (t : Tool) : Except ExportFault Value := do
  let schema ← g.render .strict t.parameters
  return .dict [(.text "name", t.name), (.text "description", t.description),
    (.text "input_schema", schema.toValue)]

end Tool

end ToolCatalog
