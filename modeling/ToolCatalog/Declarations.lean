import ToolCatalog.Definitions
import ToolCatalog.Entries
import ToolCatalog.Text.DocComment
import ToolCatalog.TypeExpr.Resolve

/-!
From declarations to definitions.

Declarations are read in order, and a reference points only backwards. Forward names are looked up
when a model is declared, if all of them are known by then, and once more when all declarations are
read; then a model's remaining fields are resolved together or not at all. Keyed dictionaries are
resolved at the end, again all keys together or none.

A redeclared field keeps the place of the first one and is otherwise replaced.
-/
namespace ToolCatalog

/-- What a model's field is given besides its type. -/
inductive Assignment
  | nothing
  | spec (s : FieldSpec)
  | default (v : Value)

/-- A declaration as written. -/
inductive Declaration
  | model (name : String) (bases : List String) (doc : Option String)
      (fields : List (String × Written × Assignment))
  /-- A keyed dictionary; in a total one, keys are required unless they say otherwise. -/
  | keyed (name : String) (bases : List String) (doc : Option String) (total : Bool)
      (keys : List (String × Written))
  | enumeration (e : Enumeration)
  | shorthand (name : String) (type : Written)
  | derived (name : String) (base : Builtin)

/-- A model's field while declarations are read. -/
structure ModelField where
  spec : FieldSpec
  type : TypeExpr
  /-- Whether all forward names have been resolved. -/
  resolved : Bool
  /-- The type as the declaration states it. -/
  stated : TypeExpr
  assignment : Assignment

/-- A model while declarations are read. -/
structure Model where
  name : String
  /-- The model and the models it inherits from, the nearest first. -/
  ancestry : List String
  ownNames : List String
  doc : Option String
  fields : List (String × ModelField)

/-- A keyed dictionary while declarations are read. -/
structure Keyed where
  name : String
  doc : Option String
  keys : List (String × TypeExpr)
  optionalKeys : List String

/-- A class while declarations are read. -/
inductive Draft
  | model (m : Model)
  | keyed (k : Keyed)
  | finished (name : String) (body : ClassBody)

/-- What has been read so far. -/
structure Reading where
  scope : Scope
  drafts : List Draft

namespace ModelField

/-- The field information and type that an annotated type and an assignment give together. An
assigned field's constraints come first; its other information comes last and so wins. -/
def content (t : TypeExpr) (assignment : Assignment) : FieldSpec × TypeExpr :=
  let (inner, items) := match t with
    | .annotated _ inner items => (inner, items)
    | t => (t, [])
  let merged := (Metadata.fields items).foldl FieldSpec.override FieldSpec.empty
  let constraints := items.flatMap Metadata.constraints
  match assignment with
  | .nothing => ({ merged with constraints }, inner)
  | .spec s => ({ merged.override s with constraints := s.constraints ++ constraints }, inner)
  | .default v => ({ merged with default := some v, constraints }, inner)

/-- A field with its stated type, resolved in a scope if all its names are known there. -/
def make (scope : Scope) (stated : TypeExpr) (assignment : Assignment) : Making ModelField := do
  let (type, resolved) ← match ← (TypeExpr.resolve scope stated).run with
    | .ok t => pure (t, true)
    | .error _ => pure (stated.asType, false)
  let (spec, type) := content type assignment
  return { spec, type, resolved, stated, assignment }

end ModelField

namespace Reading

/-- The model declared under a name. -/
def model? (r : Reading) (name : String) : Option Model :=
  r.drafts.findSome? fun
    | .model m => if m.name = name then some m else none
    | _ => none

/-- The keyed dictionary declared under a name. -/
def keyed? (r : Reading) (name : String) : Option Keyed :=
  r.drafts.findSome? fun
    | .keyed k => if k.name = name then some k else none
    | _ => none

/-- Merges lines of ancestors: takes the first head that stands in no tail, as long as there is one.
The number bounds the length of the result. -/
def mergeLines : Nat → List (List String) → List String
  | 0, _ => []
  | n + 1, lines =>
    let lines := lines.filter (!·.isEmpty)
    let heads := lines.filterMap List.head?
    match heads.find? fun c => lines.all fun line => !line.tail.contains c with
    | none => []
    | some c => c :: mergeLines n (lines.map fun line => line.filter (· != c))

/-- The ancestry of a model with these bases: itself, then its bases' lines merged so that every
class comes before its own ancestors. -/
def ancestry (r : Reading) (name : String) (bases : List String) : List String :=
  let lines := bases.filterMap fun b => (r.model? b).map (·.ancestry)
  let total := lines.flatten.length + bases.length
  name :: mergeLines total (lines ++ [bases])

/-- Field names in order: those of the farthest ancestor first, each at its first place. -/
def fieldNames (r : Reading) (ancestry : List String) (own : List String) : List String :=
  let inherited := ancestry.tail.reverse.flatMap fun c => ((r.model? c).map (·.ownNames)).getD []
  (inherited ++ own).foldl (fun kept n => if kept.contains n then kept else kept ++ [n]) []

/-- The field that a model inherits under a name: that of its first base to have one. -/
def inherited? (r : Reading) (bases : List String) (name : String) : Option ModelField :=
  bases.findSome? fun b => (r.model? b).bind fun m => m.fields.lookup name

/-- Reads a model. -/
def readModel (r : Reading) (name : String) (bases : List String) (doc : Option String)
    (fields : List (String × Written × Assignment)) : Making Reading := do
  let scope := (name, .declared) :: r.scope
  let own ← fields.mapM fun (n, w, assignment) => do
    let stated ← w.make r.scope
    let assignment ← match assignment with
      | .spec s => return (n, ← ModelField.make scope stated (.spec (← s.numbered)))
      | other => pure other
    return (n, ← ModelField.make scope stated assignment)
  let own := Entries.ofList own
  let ancestry := r.ancestry name bases
  let names := r.fieldNames ancestry (own.map (·.1))
  let fields := names.filterMap fun n =>
    (own.lookup n <|> r.inherited? bases n).map fun f => (n, f)
  let m : Model := { name, ancestry, ownNames := own.map (·.1), doc, fields }
  return { scope, drafts := r.drafts ++ [.model m] }

/-- How a key's type says whether the key may be left out, one annotation looked through. -/
def writtenRequired? (t : TypeExpr) : Option Bool :=
  match t with
  | .annotated _ (.required _ _) _ | .required _ _ => some true
  | .annotated _ (.notRequired _ _) _ | .notRequired _ _ => some false
  | _ => none

/-- Reads a keyed dictionary. A key that was optional in a base or is optional here is optional. -/
def readKeyed (r : Reading) (name : String) (bases : List String) (doc : Option String)
    (total : Bool) (keys : List (String × Written)) : Making Reading := do
  let own ← keys.mapM fun (n, w) => do return (n, (← w.make r.scope).asType)
  let own := Entries.ofList own
  let bases := bases.filterMap r.keyed?
  let all := Entries.ofList (bases.flatMap (·.keys) ++ own)
  let ownOptional := (own.filter fun (_, t) => !((writtenRequired? t).getD total)).map (·.1)
  let k : Keyed :=
    { name, doc, keys := all, optionalKeys := bases.flatMap (·.optionalKeys) ++ ownOptional }
  return { scope := (name, .declared) :: r.scope, drafts := r.drafts ++ [.keyed k] }

/-- Reads one declaration. -/
def read (r : Reading) : Declaration → Making Reading
  | .model name bases doc fields => r.readModel name bases doc fields
  | .keyed name bases doc total keys => r.readKeyed name bases doc total keys
  | .enumeration e =>
    return { scope := (e.name, .declared) :: r.scope
             drafts := r.drafts ++ [.finished e.name (.enumeration e)] }
  | .shorthand name w => do
    let t ← w.make r.scope
    return { r with scope := (name, .shorthand t) :: r.scope }
  | .derived name base =>
    return { scope := (name, .declared) :: r.scope
             drafts := r.drafts ++ [.finished name (.derived base)] }

end Reading

/-- A documentation comment cleaned; an empty one is none. -/
def cleanedDoc (doc : Option String) : Option String :=
  (doc.filter (!·.isEmpty)).map Text.cleanDoc

/-- The fields of a finished model: the unresolved ones are resolved now, if all of them can be. -/
def Model.finish (scope : Scope) (m : Model) : Making ObjectClass := do
  let retried ← m.fields.mapM fun (n, f) => do
    if f.resolved then return (n, f)
    return (n, ← ModelField.make scope f.stated f.assignment)
  let fields := if retried.all (·.2.resolved) then retried else m.fields
  let fields ← fields.mapM fun (n, f) => do
    return (f.spec.key n, .field (← TypeExpr.fresh) f.spec f.type)
  return { doc := cleanedDoc m.doc, fields, unknownName := none }

/-- The fields of a finished keyed dictionary: optional keys get a "not required" layer, unless that
is their outermost layer already. -/
def Keyed.finish (scope : Scope) (k : Keyed) : Making ObjectClass := do
  let resolving : Resolving (List (String × TypeExpr)) :=
    k.keys.mapM fun (n, t) => do return (n, ← TypeExpr.resolve scope t)
  let (types, unknownName) ← match ← resolving.run with
    | .ok types => pure (types, none)
    | .error name => pure (k.keys, some name)
  let fields ← types.mapM fun (n, t) => do
    match t with
    | .notRequired _ _ => return (n, t)
    | t =>
      if k.optionalKeys.contains n then return (n, ← TypeExpr.sharedNotRequired t)
      else return (n, t)
  return { doc := cleanedDoc k.doc, fields, unknownName }

/-- A finished class. -/
def Draft.finish (scope : Scope) : Draft → Making (String × ClassBody)
  | .model m => return (m.name, .object (← m.finish scope))
  | .keyed k => return (k.name, .object (← k.finish scope))
  | .finished name body => return (name, body)

/-- Finished definitions together with the scope in which further expressions are written. -/
structure Program where
  definitions : Definitions
  scope : Scope

/-- Reads declarations in order. -/
def Program.ofDeclarations (declarations : List Declaration) : Making Program := do
  let r ← declarations.foldlM Reading.read ⟨[], []⟩
  let classes ← r.drafts.mapM (Draft.finish r.scope)
  modify Supply.withoutCallables
  return { definitions := ⟨classes.reverse⟩, scope := r.scope }

end ToolCatalog
