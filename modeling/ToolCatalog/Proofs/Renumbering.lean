import ToolCatalog.Proofs.Objects
import ToolCatalog.Proofs.Outline

/-!
The numbers of objects do not matter for what a descriptor says.

The same annotation written twice stands for two objects, and looking up names makes new ones. The
numbers decide what is remembered under one key; but what recursion alone makes of an expression
depends only on what its layers say and on the base under them, whatever their numbers are.
-/
namespace ToolCatalog

/-- An item without its number. -/
def Metadata.unnumbered : Metadata → Metadata
  | .field _ spec => .field 0 spec
  | .constraint c => .constraint c

namespace TypeExpr

mutual

/-- An expression without the numbers of the objects in it. -/
def unnumbered : TypeExpr → TypeExpr
  | .atom a => .atom a
  | .declared name => .declared name
  | .generic _ head args => .generic 0 head (unnumberedAll args)
  | .callable _ args result => .callable 0 (unnumberedAll args) result.unnumbered
  | .union _ style members => .union 0 style (unnumberedAll members)
  | .nullable _ style members inner => .nullable 0 style (unnumberedAll members) inner.unnumbered
  | .literal _ values => .literal 0 values
  | .annotated _ inner items => .annotated 0 inner.unnumbered (items.map Metadata.unnumbered)
  | .notRequired _ inner => .notRequired 0 inner.unnumbered
  | .required _ inner => .required 0 inner.unnumbered
  | .forward _ name => .forward 0 name
  | .constant _ value => .constant 0 value
  | .field _ spec type => .field 0 spec type.unnumbered

def unnumberedAll : List TypeExpr → List TypeExpr
  | [] => []
  | t :: rest => t.unnumbered :: unnumberedAll rest

end

theorem unnumberedAll_eq (ts : List TypeExpr) : unnumberedAll ts = ts.map unnumbered := by
  induction ts with
  | nil => rfl
  | cons t rest ih => rw [unnumberedAll, ih, List.map_cons]

end TypeExpr

/-! ## Layers and bases -/

namespace Metadata

theorem fields_unnumbered (items : List Metadata) :
    fields (items.map unnumbered) = fields items := by
  rw [fields, fields, List.filterMap_map]
  refine List.filterMap_congr fun item _ => ?_
  cases item <;> rfl

theorem constraints_unnumbered (items : List Metadata) :
    (items.map unnumbered).flatMap constraints = items.flatMap constraints := by
  rw [List.flatMap_map]
  refine List.flatMap_congr fun item _ => ?_
  cases item <;> rfl

end Metadata

theorem Layer.ofItems_unnumbered (items : List Metadata) :
    ofItems (items.map Metadata.unnumbered) = ofItems items := by
  rw [ofItems, ofItems, Metadata.fields_unnumbered, Metadata.constraints_unnumbered]

namespace Base

/-- A base without the numbers of the objects in its part. -/
def unnumbered : Base → Base
  | .array e => .array e.unnumbered
  | .record v => .record v.unnumbered
  | b => b

theorem part?_unnumbered (b : Base) :
    b.unnumbered.part? = b.part?.map TypeExpr.unnumbered := by
  cases b <;> rfl

theorem recordOf_unnumbered (b : Base) (cs : List Constraint) (p : Address) :
    b.unnumbered.recordOf cs p = b.recordOf cs p := by
  cases b <;> rfl

theorem isObject_unnumbered (b : Base) : b.unnumbered.isObject = b.isObject := by
  cases b <;> rfl

theorem eq_object_of_unnumbered {b : Base} {c : ObjectClass} (h : b.unnumbered = .object c) :
    b = .object c := by
  cases b with
  | object d => exact h
  | _ => cases h

end Base

theorem Builtin.base_unnumbered (b : Builtin) : b.base.unnumbered = b.base := by
  cases b <;> rfl

theorem Origin.base_unnumbered (o : Origin) (args : List TypeExpr) :
    o.base (args.map TypeExpr.unnumbered) = (o.base args).unnumbered := by
  have hanything : TypeExpr.anything.unnumbered = TypeExpr.anything := rfl
  unfold base
  by_cases harray : o.isArray = true
  · cases args <;> simp [harray, Base.unnumbered, hanything]
  by_cases hrecord : o.isRecord = true
  · match args with
    | [] | [_] | [_, _] | _ :: _ :: _ :: _ =>
      simp [harray, hrecord, Base.unnumbered, hanything]
  rw [if_neg harray, if_neg hrecord, if_neg harray, if_neg hrecord]
  -- Only a tuple of an element and an ellipsis is left, and an ellipsis has no number.
  match args with
  | [] | [_] => cases o <;> rfl
  | _ :: _ :: _ :: _ => cases o <;> simp [Base.unnumbered]
  | [element, t] =>
    cases t with
    | atom a => cases o <;> cases a <;> rfl
    | _ => cases o <;> rfl

theorem ClassBody.base_unnumbered (body : ClassBody) : body.base.unnumbered = body.base := by
  cases body with
  | derived b => cases b <;> rfl
  | _ => rfl

theorem literalBase_unnumbered (vs : List Value) :
    (literalBase vs).unnumbered = literalBase vs := by
  unfold literalBase
  split <;> rfl

namespace TypeExpr

variable {defs : Definitions} {t u : TypeExpr}

theorem peel_unnumbered (t : TypeExpr) :
    t.unnumbered.peel = (t.peel.1, t.core.unnumbered) := by
  unfold core
  fun_induction peel t with
  | case6 t =>
    cases t with
    | nullable id style members inner =>
      rename_i hno
      exact (hno id style members inner rfl).elim
    | _ => simp_all [unnumbered, peel]
  | _ => simp_all [unnumbered, peel, Layer.ofItems_unnumbered]

theorem base_unnumbered (t : TypeExpr) : t.unnumbered.base defs = (t.base defs).unnumbered := by
  cases t with
  | atom a =>
    cases a with
    | builtin b => exact b.base_unnumbered.symm
    | bare h => exact h.origin.base_unnumbered []
    | _ => rfl
  | declared name =>
    simp only [unnumbered, base]
    cases defs.find? name with
    | none => rfl
    | some body => exact body.base_unnumbered.symm
  | generic id head args =>
    rw [unnumbered, unnumberedAll_eq]
    exact head.origin.base_unnumbered args
  | literal id values => exact (literalBase_unnumbered values).symm
  | _ => rfl

/-! ## Expressions that say the same -/

/-- Two expressions whose layers say the same around one base, but for the numbers of objects. -/
structure SaysSame (defs : Definitions) (t u : TypeExpr) : Prop where
  absence : t.allowsAbsence = u.allowsAbsence
  null : t.allowsNull = u.allowsNull
  source : t.defaultSource? = u.defaultSource?
  text : t.describedBy defs = u.describedBy defs
  constraints : t.layerConstraints = u.layerConstraints
  core : t.core.unnumbered = u.core.unnumbered

/-- Bases of expressions that differ in numbers only differ in numbers only. -/
theorem base_eq_of_unnumbered (defs : Definitions) (h : t.unnumbered = u.unnumbered) :
    (t.base defs).unnumbered = (u.base defs).unnumbered := by
  rw [← base_unnumbered, ← base_unnumbered, h]

theorem base_description_of_unnumbered (h : t.unnumbered = u.unnumbered) :
    (t.base defs).description = (u.base defs).description := by
  have hkeeps (b : Base) : b.unnumbered.description = b.description := by cases b <;> rfl
  rw [← hkeeps, base_eq_of_unnumbered defs h, hkeeps]

/-- The numbers of objects do not matter for what layers say. -/
theorem SaysSame.of_unnumbered (defs : Definitions) (h : t.unnumbered = u.unnumbered) :
    SaysSame defs t u := by
  have hpeel : (t.peel.1, t.core.unnumbered) = (u.peel.1, u.core.unnumbered) := by
    rw [← peel_unnumbered, ← peel_unnumbered, h]
  obtain ⟨hlayers, hcore⟩ := Prod.mk.inj hpeel
  exact {
    absence := by rw [allowsAbsence, hlayers, allowsAbsence]
    null := by rw [allowsNull, hlayers, allowsNull]
    source := by rw [defaultSource?, hlayers, defaultSource?]
    text := by rw [describedBy, hlayers, base_description_of_unnumbered hcore, describedBy]
    constraints := by rw [layerConstraints, hlayers, layerConstraints]
    core := hcore }

theorem SaysSame.trans {v : TypeExpr} (h : SaysSame defs t u) (h' : SaysSame defs u v) :
    SaysSame defs t v where
  absence := h.absence.trans h'.absence
  null := h.null.trans h'.null
  source := h.source.trans h'.source
  text := h.text.trans h'.text
  constraints := h.constraints.trans h'.constraints
  core := h.core.trans h'.core

theorem SaysSame.findDefault_eq (h : SaysSame defs t u) : t.findDefault = u.findDefault := by
  rw [findDefault, h.source, findDefault]

/-- What is added to a record does not depend on what is under the layers. -/
theorem SaysSame.finish_eq (h : SaysSame defs t u) (d : Option DefaultOutcome) (r : Record) :
    (t.analysisWith defs d).finish r = (u.analysisWith defs d).finish r := by
  rw [analysisWith_eq, analysisWith_eq, h.absence, h.null, h.text]
  rfl

/-- Expressions that say the same have the same schema to any depth. -/
theorem SaysSame.outline_eq {depth : Nat} (h : SaysSame defs t u) :
    t.outline defs depth = u.outline defs depth := by
  induction depth generalizing t u with
  | zero => rfl
  | succ depth ih =>
    have hbase := base_eq_of_unnumbered defs h.core
    have hfind := h.findDefault_eq
    cases hobj : (t.core.base defs).isObject with
    | true =>
      -- A class is one class whatever the numbers are, so its fields are the very same.
      obtain ⟨c, hc⟩ : ∃ c, t.core.base defs = .object c := by
        cases hb : t.core.base defs with
        | object c => exact ⟨c, rfl⟩
        | _ =>
          rw [hb] at hobj
          cases hobj
      have hc' : u.core.base defs = .object c := by
        rw [hc] at hbase
        exact Base.eq_object_of_unnumbered hbase.symm
      rw [outline_object hc, outline_object hc', hfind]
      simp only [h.finish_eq]
    | false =>
      have hobj' : (u.core.base defs).isObject = false := by
        rw [← hobj, ← Base.isObject_unnumbered, ← hbase, Base.isObject_unnumbered]
      have hrec : (t.core.base defs).recordOf t.layerConstraints 0
          = (u.core.base defs).recordOf u.layerConstraints 0 := by
        rw [h.constraints, ← Base.recordOf_unnumbered, hbase, Base.recordOf_unnumbered]
      have hpart : (t.core.base defs).part?.elim (.ok (.keywords [])) (outline defs depth)
          = (u.core.base defs).part?.elim (.ok (.keywords [])) (outline defs depth) := by
        have hparts : (t.core.base defs).part?.map unnumbered
            = (u.core.base defs).part?.map unnumbered := by
          rw [← Base.part?_unnumbered, ← Base.part?_unnumbered, hbase]
        cases ht : (t.core.base defs).part? with
        | none =>
          rw [ht, Option.map_none, eq_comm, Option.map_eq_none_iff] at hparts
          rw [hparts]
        | some e =>
          rw [ht, Option.map_some, eq_comm, Option.map_eq_some_iff] at hparts
          obtain ⟨e', he', hsame⟩ := hparts
          rw [he']
          exact ih (.of_unnumbered defs hsame.symm)
      rw [outline_value hobj, outline_value hobj', hrec, hpart, hfind]
      simp only [h.finish_eq]

end TypeExpr

end ToolCatalog
