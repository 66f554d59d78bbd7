import ToolCatalog.Analysis
import ToolCatalog.Descriptor.Keywords

/-!
Making descriptors of type expressions.

The descriptor of an object class is entered into the memo before any field is walked, so that a
field which leads back to the class finds it. A field that adds nothing to its base is described by
the very descriptor of the base; otherwise by a copy with the additions, which shares the base's
properties. A base is remembered under its own expression only where no constraint applies to it.

The recursion is written with the number of descents it may make; `Definitions.room` computes one
that suffices.
-/
namespace ToolCatalog

/-- How the descriptor of an expression is asked for, with its analysis if that is known already. -/
abbrev Describe := TypeExpr → Option Analysis → Compile Address

/-- Adds a record to the graph. -/
def addRecord (r : Record) : Compile Address :=
  modifyGet fun s =>
    let (a, graph) := s.graph.addRecord r
    (a, { s with graph })

/-- Adds an empty body to the graph. -/
def addBody : Compile Address :=
  modifyGet fun s =>
    let (b, graph) := s.graph.addBody ⟨[], []⟩
    (b, { s with graph })

/-- Changes a body of the graph. -/
def modifyBody (b : Address) (f : Body → Body) : Compile Unit :=
  modify fun s => { s with graph := s.graph.modifyBody b f }

/-- Analyses an expression while descriptors are made. -/
def analyseNow (defs : Definitions) (t : TypeExpr) : Compile Analysis :=
  liftM (t.analyse defs)

/-- The descriptor of an object class before its fields are walked. -/
def objectRecord (c : ObjectClass) (body : Address) : Record :=
  let doc : Record := match nonEmpty? c.doc with
    | some d => [("description", .data (.text d))]
    | none => []
  Record.ofType "object" ++ doc ++ [("properties", .properties body), ("required", .required body)]

/-- Walks the fields of an object class into a body. -/
def walkFields (defs : Definitions) (describe : Describe) (body : Address) :
    List (String × TypeExpr) → Compile Unit
  | [] => return
  | (name, t) :: rest => do
    let analysis ← analyseNow defs t
    let a ← describe t (some analysis)
    modifyBody body fun b => { b with properties := b.properties.put name a }
    if !analysis.optional then
      modifyBody body fun b => { b with required := b.required ++ [name] }
    walkFields defs describe body rest

/-- The descriptor of an object class. -/
def describeObject (defs : Definitions) (describe : Describe) (t : TypeExpr) (c : ObjectClass) :
    Compile Address := do
  match (← get).cached? t with
  | some a => return a
  | none =>
    let body ← addBody
    let a ← addRecord (objectRecord c body)
    modify (·.remember t a)
    if let some name := c.unknownName then
      modify (·.report (.unknownName name t.label))
    walkFields defs describe body c.fields
    return a

/-- The descriptor of what stands under an expression's layers, with their constraints. -/
def describeInner (defs : Definitions) (describe : Describe) (analysis : Analysis) :
    Compile Address := do
  match analysis.base with
  | .object c => describeObject defs describe analysis.inner c
  | base =>
    let free := analysis.constraints.isEmpty
    let s ← get
    match if free then s.cached? analysis.inner else none with
    | some a => return a
    | none =>
      let record ← base.toRecord (describe · none) analysis.inner.label analysis.constraints
      let a ← addRecord record
      if free then modify (·.remember analysis.inner a)
      return a

/-- Whether an expression says more than the descriptor under its layers. -/
def Analysis.adds (analysis : Analysis) (inner : Record) : Bool :=
  analysis.optional || analysis.nullable || analysis.default.isSome
    || match analysis.description with
      | some d => !(((inner.data? "description").map (·.equal (.text d))).getD false)
      | none => false

/-- A descriptor with what an expression adds to it. -/
def Analysis.decorate (analysis : Analysis) (inner : Record) : Record :=
  let r := match analysis.description with
    | some d => inner.put "description" (.data (.text d))
    | none => inner
  let r := match analysis.default? with
    | some v => r.put "default" (.data v)
    | none => r
  let r := if analysis.nullable then r.put "type" (.data (typeWithNull (r.data? "type"))) else r
  if analysis.optional then r.put "optional" (.data (.bool true)) else r

/-- The descriptor of an expression, given how to describe what is inside it. -/
def describeStep (defs : Definitions) (describe : Describe) : Describe := fun t known? => do
  match (← get).cached? t with
  | some a => return a
  | none =>
    let analysis ← match known? with
      | some analysis => pure analysis
      | none => analyseNow defs t
    let inner ← describeInner defs describe analysis
    let record := (← get).graph.record inner
    if analysis.adds record then
      if let some (.error _) := analysis.default then
        modify (·.report (.defaultOmitted t.label))
      let a ← addRecord (analysis.decorate record)
      modify (·.remember t a)
      return a
    else
      modify (·.remember t inner)
      return inner

/-- The descriptor of an expression, made with at most `room` descents. -/
def describeWithin (defs : Definitions) : Nat → Describe
  | 0 => fun _ _ => throw .exhausted
  | room + 1 => describeStep defs (describeWithin defs room)

/-- Enough descents for an expression: every object class is walked at most once on the way, and
between two classes each descent goes to a part. -/
def Definitions.room (defs : Definitions) (t : TypeExpr) : Nat :=
  let fields := defs.objects.flatMap (·.fields)
  2 * t.size + (fields.map fun (_, u) => 2 * u.size).foldr (· + ·) 0 + 2

/-- The descriptor of a field's type. -/
def describe (defs : Definitions) (t : TypeExpr) : Compile Address :=
  describeWithin defs (defs.room t) t none

/-- The descriptor of parameters: of an object class, or an empty object for any other type. The
empty object is new each time. -/
def describeParameters (defs : Definitions) (t : TypeExpr) : Compile Address := do
  match t.base defs with
  | .object c => describeObject defs (describeWithin defs (defs.room t)) t c
  | _ =>
    modify (·.report (.notAnObject t.label))
    let body ← addBody
    addRecord (Record.ofType "object" ++ [("properties", .properties body)])

end ToolCatalog
