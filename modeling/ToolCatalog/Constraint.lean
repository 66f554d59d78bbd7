import ToolCatalog.Value.Equality
import ToolCatalog.TypeExpr.Builtin

/-!
What can be attached to a type: constraints on its values, and field information, which is a
description, a default, another name and constraints of its own.

A constraint item sets any number of attributes; `Constraint.attribute?` reads one, and an attribute
that is null counts as not set.
-/
namespace ToolCatalog

/-- The attributes of a constraint item that a descriptor can show. -/
inductive Attribute
  | minLength
  | maxLength
  | pattern
  | atLeast
  | above
  | atMost
  | below
  deriving DecidableEq, Repr

/-- The name an attribute has on an object with free attributes. -/
def Attribute.name : Attribute → String
  | .minLength => "min_length"
  | .maxLength => "max_length"
  | .pattern => "pattern"
  | .atLeast => "ge"
  | .above => "gt"
  | .atMost => "le"
  | .below => "lt"

/-- One constraint item. -/
inductive Constraint
  | atLeast (bound : Value)
  | above (bound : Value)
  | atMost (bound : Value)
  | below (bound : Value)
  | multipleOf (step : Value)
  | minLength (bound : Value)
  | maxLength (bound : Value)
  | interval (lowOpen low highOpen high : Value)
  | length (least most : Value)
  | text (least most source : Value)
  /-- An object with exactly these attributes; the number tells such objects apart. -/
  | object (id : Nat) (attributes : List (String × Value))
  /-- A remark, which constrains nothing. -/
  | remark (text : String)
  | pattern (source : Value)
  | strict (on : Value)
  deriving Inhabited

namespace Constraint

/-- The value an item gives to an attribute. -/
def attribute? (c : Constraint) (a : Attribute) : Option Value :=
  (value c).filter (!·.isNull)
where
  value : Constraint → Option Value
    | .atLeast v => if a = .atLeast then some v else none
    | .above v => if a = .above then some v else none
    | .atMost v => if a = .atMost then some v else none
    | .below v => if a = .below then some v else none
    | .minLength v => if a = .minLength then some v else none
    | .maxLength v => if a = .maxLength then some v else none
    | .interval lowOpen low highOpen high =>
      match a with
      | .above => some lowOpen
      | .atLeast => some low
      | .below => some highOpen
      | .atMost => some high
      | _ => none
    | .length least most =>
      match a with
      | .minLength => some least
      | .maxLength => some most
      | _ => none
    | .text least most source =>
      match a with
      | .minLength => some least
      | .maxLength => some most
      | .pattern => some source
      | _ => none
    | .object _ attributes => attributes.lookup a.name
    | .pattern v => if a = .pattern then some v else none
    | .multipleOf _ | .remark _ | .strict _ => none

/-- Equality of items: by content, except that an object with free attributes equals only itself. -/
def equal : Constraint → Constraint → Bool
  | .atLeast v, .atLeast w | .above v, .above w | .atMost v, .atMost w | .below v, .below w
  | .multipleOf v, .multipleOf w | .minLength v, .minLength w | .maxLength v, .maxLength w =>
    v.equal w
  | .interval a b c d, .interval a' b' c' d' =>
    a.equal a' && b.equal b' && c.equal c' && d.equal d'
  | .length a b, .length a' b' => a.equal a' && b.equal b'
  | .text a b c, .text a' b' c' => a.equal a' && b.equal b' && c.equal c'
  | .object i _, .object j _ => i == j
  | .remark s, .remark t => s == t
  | _, _ => false

end Constraint

/-- How a default is made when a field is left out. A factory changes nothing but its own count; it
neither describes nor registers anything itself. -/
inductive Factory
  | returns (v : Value)
  /-- Fails with an error of this kind. -/
  | raises (kind : String)
  /-- Needs the data read so far, so it cannot be called without an argument. -/
  | needsData
  /-- Counts its own calls, from one; the number tells counters apart. -/
  | counter (id : Nat)
  /-- The empty value of a class. -/
  | empty (b : Builtin)
  /-- The number of properties of the descriptor that a class has at the moment of the call, or
  minus one while it has none; it fails where descriptors are made unobserved. -/
  | measures (className : String)
  deriving Inhabited

/-- Field information: everything is optional, and an item of metadata gives what it names. -/
structure FieldSpec where
  default : Option Value
  factory : Option Factory
  description : Option String
  /-- The name under which the field is written, when it is not its own. -/
  wireName : Option String
  constraints : List Constraint
  deriving Inhabited

/-- Where a default comes from; a factory is asked first. -/
inductive DefaultSource
  | value (v : Value)
  | factory (f : Factory) (beside : Option Value)

namespace FieldSpec

/-- Field information that says nothing. -/
def empty : FieldSpec := ⟨none, none, none, none, []⟩

/-- The default a field has. -/
def source? (s : FieldSpec) : Option DefaultSource :=
  match s.factory, s.default with
  | some f, v => some (.factory f v)
  | none, some v => some (.value v)
  | none, none => none

/-- The later information wins where it says something; constraints are left as they are. -/
def override (earlier later : FieldSpec) : FieldSpec :=
  { earlier with
    default := later.default <|> earlier.default
    factory := later.factory <|> earlier.factory
    description := later.description <|> earlier.description
    wireName := later.wireName <|> earlier.wireName }

/-- The name under which a field is written. -/
def key (s : FieldSpec) (name : String) : String :=
  match s.wireName with
  | some other => if other.isEmpty then name else other
  | none => name

/-- The description, where an empty one counts as none. -/
def description? (s : FieldSpec) : Option String :=
  s.description.filter (!·.isEmpty)

end FieldSpec

/-- An item attached to a type. Each item with field information has a number of its own. -/
inductive Metadata
  | field (id : Nat) (spec : FieldSpec)
  | constraint (c : Constraint)
  deriving Inhabited

namespace Metadata

/-- Equality of items: field information equals only itself. -/
def equal : Metadata → Metadata → Bool
  | .field i _, .field j _ => i == j
  | .constraint c, .constraint d => c.equal d
  | _, _ => false

/-- The constraints an item brings. -/
def constraints : Metadata → List Constraint
  | .field _ spec => spec.constraints
  | .constraint c => [c]

/-- The field information in a list of items. -/
def fields (items : List Metadata) : List FieldSpec :=
  items.filterMap fun
    | .field _ spec => some spec
    | .constraint _ => none

end Metadata

end ToolCatalog
