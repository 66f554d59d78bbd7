import ToolCatalog.Constraint
import ToolCatalog.Descriptor.Graph
import ToolCatalog.Memo
import ToolCatalog.TypeExpr
import ToolCatalog.Value.Data

/-!
The state in which descriptors are made: the graph, the memo, the counters, and the events reported
so far.
-/
namespace ToolCatalog

/-- The part of the library that reports an event. -/
inductive Component
  | shapes
  | keywords
  | compiler
  | registry
  deriving DecidableEq, Repr

/-- What was given up where a descriptor could not say everything. -/
inductive Degradation
  | unsupportedShape
  | defaultFailure
  deriving DecidableEq, Repr

/-- The word for a degradation. -/
def Degradation.name : Degradation → String
  | .unsupportedShape => "unsupported_shape"
  | .defaultFailure => "default_factory_failure"

/-- Something worth reporting. Types are named by their labels. -/
inductive Event
  /-- A type of no known family became a descriptor for anything. -/
  | unsupported (label : String)
  /-- Parameters were asked for a type that is no object. -/
  | notAnObject (label : String)
  /-- A default could not be found, and so is not shown. -/
  | defaultOmitted (label : String)
  /-- A keyed dictionary's types name something unknown. -/
  | unknownName (name label : String)
  | toolRegistered (name : Value)
  | batchRegistered (count : Nat)

namespace Event

/-- Who reports an event. -/
def component : Event → Component
  | .unsupported _ => .keywords
  | .notAnObject _ | .defaultOmitted _ => .compiler
  | .unknownName _ _ => .shapes
  | .toolRegistered _ | .batchRegistered _ => .registry

/-- The message of an event. -/
def message : Event → String
  | .unsupported _ => "Unsupported schema shape compiled as 'any'"
  | .notAnObject _ => "Parameters schema is not an object; compiled as empty object"
  | .defaultOmitted _ => "Default could not be resolved; omitted"
  | .unknownName name _ => s!"TypedDict hints unresolved: name '{name}' is not defined"
  | .toolRegistered _ => "Registered tool"
  | .batchRegistered _ => "Registered tool batch"

/-- The label of the type that an event is about. -/
def label? : Event → Option String
  | .unsupported l | .notAnObject l | .defaultOmitted l | .unknownName _ l => some l
  | .toolRegistered _ | .batchRegistered _ => none

/-- What was given up. -/
def degradation? : Event → Option Degradation
  | .unsupported _ | .notAnObject _ => some .unsupportedShape
  | .defaultOmitted _ => some .defaultFailure
  | _ => none

end Event

/-- The memo of descriptors by the identity of type expressions. -/
abbrev DescriptorMemo := Memo Key Address

/-- The state in which descriptors are made. -/
structure Session where
  graph : Graph
  memo : DescriptorMemo
  /-- How often each counter has been called. -/
  counters : List (Nat × Nat)
  events : List Event
  /-- Whether factories can look at what has been made so far. -/
  observable : Bool

namespace Session

/-- Nothing made yet, and nothing that factories can look at. -/
def empty : Session := ⟨.empty, .empty, [], [], false⟩

/-- Nothing made yet, but factories can look at what will be. -/
def observed : Session := { empty with observable := true }

/-- A type expression as an object of the memo; expressions outlive every session. -/
def occupant (t : TypeExpr) : Occupant Key := ⟨t.key, 0⟩

/-- The descriptor remembered for an expression. -/
def cached? (s : Session) (t : TypeExpr) : Option Address :=
  if t.watchable then s.memo.get? (occupant t) else none

/-- Remembers the descriptor of an expression, if that can be watched. -/
def remember (s : Session) (t : TypeExpr) (a : Address) : Session :=
  if t.watchable then { s with memo := s.memo.insert (occupant t) a } else s

/-- Adds an event. -/
def report (s : Session) (e : Event) : Session :=
  { s with events := s.events ++ [e] }

/-- Counts one more call of a counter, and tells how many there have been. -/
def count (s : Session) (id : Nat) : Nat × Session :=
  let n := (s.counters.lookup id).getD 0 + 1
  (n, { s with counters := (id, n) :: s.counters.filter (·.1 ≠ id) })

/-- The number of properties of the descriptor remembered for a class, or minus one. -/
def measure (s : Session) (className : String) : Int :=
  match s.cached? (.declared className) with
  | none => -1
  | some a =>
    match (s.graph.record a).body? with
    | some b => (s.graph.body b).properties.length
    | none => 0

end Session

/-- Why a default could not be found. -/
inductive DefaultFault
  /-- It has no JSON data. -/
  | data (f : DataFault)
  /-- The factory failed with an error of this kind. -/
  | raised (kind : String)
  /-- The factory cannot be called without arguments. -/
  | needsData
  /-- The factory looks at what has been made, and cannot. -/
  | unobservable
  deriving DecidableEq, Repr

/-- A default as JSON data, or why there is none. -/
abbrev DefaultOutcome := Except DefaultFault Value

/-- The JSON data of a default value. -/
def Value.asDefault (v : Value) : DefaultOutcome :=
  match v.toData with
  | .ok d => .ok d
  | .error f => .error (.data f)

/-- The value that a class gives without arguments, as far as it has JSON data, where the class
gives one. -/
def Builtin.emptyValue? : Builtin → Option Value
  | .text => some (.text "")
  | .integer => some (.int 0)
  | .real => some (.float (.zero false))
  | .boolean => some (.bool false)
  | .bytes | .byteArray => some (.bytes [])
  | .list => some (.list [])
  | .set => some (.set [])
  | .frozenSet => some (.frozenSet [])
  | .tuple => some (.tuple [])
  | .dict | .orderedDict => some (.dict [])
  | .decimal => some (.decimal (.finite false 0 0))
  | .complex => some (.text "0j")
  | .time => some (.time ⟨⟨0, 0, 0, 0⟩, none⟩)
  | .timeSpan => some (.text "PT0S")
  | .path => some (.text ".")
  | .nothing => some .null
  | .object | .email | .deque => some (.foreign .made)
  | _ => none

/-- Calls a factory. -/
def Factory.call (f : Factory) : StateM Session DefaultOutcome :=
  match f with
  | .returns v => return v.asDefault
  | .raises kind => return .error (.raised kind)
  | .needsData => return .error .needsData
  | .counter id => do
    let n : Nat ← modifyGet (·.count id)
    return .ok (.int n)
  | .empty b => return match b.emptyValue? with
    | some v => v.asDefault
    | none => .error .needsData
  | .measures className => do
    let s ← get
    return if s.observable then .ok (.int (s.measure className)) else .error .unobservable

/-- Finds a default: what the factory makes, or else the fixed value. -/
def DefaultSource.find (d : DefaultSource) : StateM Session DefaultOutcome :=
  match d with
  | .factory f _ => f.call
  | .value v => return v.asDefault

end ToolCatalog
