import ToolCatalog.Proofs.Merging

/-!
Other defaults in the same definitions.

A variation replaces the default of every piece of field information that has one. Nothing else
changes: the objects are the same objects, a layer with a default stays one, and what the layers of
an expression say together differs in the default only.
-/
namespace ToolCatalog

/-- Other defaults: what stands in the place of a default of the field information with a number. -/
abbrev Variation := Nat → DefaultSource → DefaultSource

/-- The defaults as they are. -/
def Variation.same : Variation := fun _ d => d

namespace FieldSpec

/-- Field information with this default. -/
def withSource (s : FieldSpec) : DefaultSource → FieldSpec
  | .value v => { s with default := some v, factory := none }
  | .factory f beside => { s with default := beside, factory := some f }

/-- Field information with another default, if it has one. -/
def varied (f : DefaultSource → DefaultSource) (s : FieldSpec) : FieldSpec :=
  s.source?.elim s fun d => s.withSource (f d)

end FieldSpec

/-- An item with another default, if it has one. -/
def Metadata.varied (v : Variation) : Metadata → Metadata
  | .field id spec => .field id (spec.varied (v id))
  | .constraint c => .constraint c

namespace TypeExpr

mutual

/-- An expression with other defaults. -/
def varied (v : Variation) : TypeExpr → TypeExpr
  | .atom a => .atom a
  | .declared name => .declared name
  | .generic id head args => .generic id head (variedAll v args)
  | .callable id args result => .callable id (variedAll v args) (result.varied v)
  | .union id style members => .union id style (variedAll v members)
  | .nullable id style members inner => .nullable id style (variedAll v members) (inner.varied v)
  | .literal id values => .literal id values
  | .annotated id inner items => .annotated id (inner.varied v) (items.map (Metadata.varied v))
  | .notRequired id inner => .notRequired id (inner.varied v)
  | .required id inner => .required id (inner.varied v)
  | .forward id name => .forward id name
  | .constant id value => .constant id value
  | .field id spec type => .field id (spec.varied (v id)) (type.varied v)

def variedAll (v : Variation) : List TypeExpr → List TypeExpr
  | [] => []
  | t :: rest => t.varied v :: variedAll v rest

end

theorem variedAll_eq (v : Variation) (ts : List TypeExpr) : variedAll v ts = ts.map (varied v) := by
  induction ts with
  | nil => rfl
  | cons t rest ih => rw [variedAll, ih, List.map_cons]

end TypeExpr

/-- An object class with other defaults. -/
def ObjectClass.varied (v : Variation) (c : ObjectClass) : ObjectClass :=
  { c with fields := c.fields.map fun f => (f.1, f.2.varied v) }

/-- A class with other defaults. -/
def ClassBody.varied (v : Variation) : ClassBody → ClassBody
  | .object c => .object (c.varied v)
  | body => body

/-- Definitions with other defaults. -/
def Definitions.varied (v : Variation) (defs : Definitions) : Definitions :=
  ⟨defs.classes.map fun e => (e.1, e.2.varied v)⟩

/-- A base with other defaults. -/
def Base.varied (v : Variation) : Base → Base
  | .object c => .object (c.varied v)
  | .array e => .array (e.varied v)
  | .record e => .record (e.varied v)
  | b => b

variable {v v' : Variation} {defs : Definitions} {t : TypeExpr}

/-! ## Field information -/

namespace FieldSpec

variable (f : DefaultSource → DefaultSource) (s : FieldSpec)

@[simp] theorem source?_varied : (s.varied f).source? = s.source?.map f := by
  unfold varied
  cases h : s.source? with
  | none => exact h
  | some d =>
    show (s.withSource (f d)).source? = some (f d)
    cases f d <;> rfl

@[simp] theorem description?_varied : (s.varied f).description? = s.description? := by
  unfold varied
  cases s.source? with
  | none => rfl
  | some d =>
    show (s.withSource (f d)).description? = _
    cases f d <;> rfl

@[simp] theorem constraints_varied : (s.varied f).constraints = s.constraints := by
  unfold varied
  cases s.source? with
  | none => rfl
  | some d =>
    show (s.withSource (f d)).constraints = _
    cases f d <;> rfl

theorem varied_same (id : Nat) : s.varied (Variation.same id) = s := by
  unfold varied source?
  obtain ⟨default, factory, description, wireName, constraints⟩ := s
  cases factory <;> cases default <;> rfl

end FieldSpec

/-! ## The defaults as they are -/

theorem Metadata.varied_same (item : Metadata) : item.varied .same = item := by
  cases item with
  | constraint c => rfl
  | field id spec => rw [varied, spec.varied_same id]

namespace TypeExpr

mutual

theorem varied_same : (t : TypeExpr) → t.varied .same = t
  | .atom _ | .declared _ | .literal _ _ | .forward _ _ | .constant _ _ => rfl
  | .generic _ _ args => by rw [varied, variedAll_same args]
  | .callable _ args result => by rw [varied, variedAll_same args, varied_same result]
  | .union _ _ members => by rw [varied, variedAll_same members]
  | .nullable _ _ members inner => by rw [varied, variedAll_same members, varied_same inner]
  | .annotated _ inner items => by
    rw [varied, varied_same inner, List.map_congr_left fun item _ => item.varied_same, List.map_id']
  | .notRequired _ inner => by rw [varied, varied_same inner]
  | .required _ inner => by rw [varied, varied_same inner]
  | .field id spec type => by rw [varied, spec.varied_same id, varied_same type]

theorem variedAll_same : (ts : List TypeExpr) → variedAll .same ts = ts
  | [] => rfl
  | t :: rest => by rw [variedAll, varied_same t, variedAll_same rest]

end

end TypeExpr

/-- Definitions are a variation of themselves. -/
theorem Definitions.varied_same (defs : Definitions) : defs.varied .same = defs := by
  have hmap {α : Type} {f : α → α} (hf : ∀ x, f x = x) (l : List (String × α)) :
      (l.map fun e => (e.1, f e.2)) = l := by
    simp [hf]
  have hbody (body : ClassBody) : body.varied .same = body := by
    cases body with
    | object c => rw [ClassBody.varied, ObjectClass.varied, hmap TypeExpr.varied_same]
    | _ => rfl
  rw [varied, hmap hbody]

/-! ## Layers -/

/-- Two layers that differ at most in what two variations put in the place of one default. -/
inductive Layer.Varies (v v' : Variation) : Layer → Layer → Prop
  | same {l : Layer} (h : l.source? = none) : Varies v v' l l
  | default (r : Remarks) (i : Nat) (d : DefaultSource) :
      Varies v v' (.default r (v i d)) (.default r (v' i d))

/-- Two defaults that two variations put in the place of one, or none and none. -/
def SourceVaries (v v' : Variation) (d d' : Option DefaultSource) : Prop :=
  d = none ∧ d' = none ∨ ∃ i e, d = some (v i e) ∧ d' = some (v' i e)

namespace SourceVaries

variable {d d' e e' : Option DefaultSource}

theorem none : SourceVaries v v' none none := .inl ⟨rfl, rfl⟩

/-- The first of two defaults, if there is one. -/
theorem or (h : SourceVaries v v' d d') (h' : SourceVaries v v' e e') :
    SourceVaries v v' (d.or e) (d'.or e') := by
  rcases h with ⟨rfl, rfl⟩ | ⟨i, x, rfl, rfl⟩
  · exact h'
  · exact .inr ⟨i, x, rfl, rfl⟩

theorem of_spec (i : Nat) (s : FieldSpec) :
    SourceVaries v v' (s.varied (v i)).source? (s.varied (v' i)).source? := by
  rw [FieldSpec.source?_varied, FieldSpec.source?_varied]
  cases s.source? with
  | none => exact .none
  | some d => exact .inr ⟨i, d, rfl, rfl⟩

end SourceVaries

namespace Layer

theorem Varies.described (r : Remarks) {d d' : Option DefaultSource}
    (h : SourceVaries v v' d d') : Varies v v' (described r d) (described r d') := by
  rcases h with ⟨rfl, rfl⟩ | ⟨i, e, rfl, rfl⟩
  · exact .same rfl
  · exact .default r i e

/-- Items with other defaults bring the same descriptions, and defaults in the same places. -/
theorem fields_varies (v v' : Variation) (items : List Metadata) :
    FieldSpec.lastText (Metadata.fields (items.map (Metadata.varied v)))
        = FieldSpec.lastText (Metadata.fields (items.map (Metadata.varied v'))) ∧
      SourceVaries v v' (FieldSpec.lastSource (Metadata.fields (items.map (Metadata.varied v))))
        (FieldSpec.lastSource (Metadata.fields (items.map (Metadata.varied v')))) := by
  induction items using List.reverseRecOn with
  | nil => exact ⟨rfl, .none⟩
  | append_singleton items item ih =>
    simp only [List.map_append, List.map_cons, List.map_nil, Metadata.fields,
      List.filterMap_append] at ih ⊢
    cases item with
    | constraint c => simpa [Metadata.varied] using ih
    | field i spec =>
      simp only [Metadata.varied, List.filterMap_cons, List.filterMap_nil,
        FieldSpec.lastText_append, FieldSpec.lastSource_append, FieldSpec.description?_varied,
        Option.orElse_eq_orElse, Option.orElse_eq_or]
      exact ⟨by rw [ih.1], (SourceVaries.of_spec i spec).or ih.2⟩

theorem constraints_varied (items : List Metadata) :
    (items.map (Metadata.varied v)).flatMap Metadata.constraints
      = items.flatMap Metadata.constraints := by
  rw [List.flatMap_map]
  refine List.flatMap_congr fun item _ => ?_
  cases item with
  | constraint c => rfl
  | field i spec => exact FieldSpec.constraints_varied _ spec

theorem Varies.ofItems (items : List Metadata) :
    Varies v v' (ofItems (items.map (Metadata.varied v)))
      (ofItems (items.map (Metadata.varied v'))) := by
  obtain ⟨htext, hsource⟩ := fields_varies v v' items
  rw [ofItems_eq, ofItems_eq, htext, constraints_varied, constraints_varied]
  exact .described _ hsource

theorem Varies.ofField (i : Nat) (spec : FieldSpec) :
    Varies v v' (ofField (spec.varied (v i))) (ofField (spec.varied (v' i))) := by
  rw [ofField_eq, ofField_eq, FieldSpec.description?_varied, FieldSpec.description?_varied,
    FieldSpec.constraints_varied, FieldSpec.constraints_varied]
  exact .described _ (.of_spec i spec)

namespace Varies

variable {l l' : Layer}

theorem description_eq (h : Varies v v' l l') : l.description = l'.description := by
  cases h <;> rfl

theorem constraints_eq (h : Varies v v' l l') : l.constraints = l'.constraints := by
  cases h <;> rfl

theorem allowsAbsence_eq (h : Varies v v' l l') : l.allowsAbsence = l'.allowsAbsence := by
  cases h <;> rfl

theorem allowsNull_eq (h : Varies v v' l l') : l.allowsNull = l'.allowsNull := by
  cases h <;> rfl

theorem source (h : Varies v v' l l') : SourceVaries v v' l.source? l'.source? := by
  cases h with
  | same h => exact .inl ⟨h, h⟩
  | default r i d => exact .inr ⟨i, d, rfl, rfl⟩

end Varies

end Layer

/-! ## Expressions -/

namespace TypeExpr

@[simp] theorem key_varied (v : Variation) (t : TypeExpr) : (t.varied v).key = t.key := by
  cases t <;> rfl

@[simp] theorem watchable_varied (v : Variation) (t : TypeExpr) :
    (t.varied v).watchable = t.watchable := by
  cases t with
  | union id style members => cases style <;> rfl
  | nullable id style members inner => cases style <;> rfl
  | _ => rfl

/-- Layers stand over what they stood over, with other defaults. -/
theorem core_varied (v : Variation) (t : TypeExpr) : (t.varied v).core = t.core.varied v := by
  unfold core
  fun_induction peel t with
  | case6 t =>
    cases t with
    | nullable id style members inner =>
      rename_i hno
      exact (hno id style members inner rfl).elim
    | _ => simp_all [varied, peel]
  | _ => simp_all [varied, peel]

theorem layers_varied (v v' : Variation) (t : TypeExpr) :
    List.Forall₂ (Layer.Varies v v') (t.varied v).peel.1 (t.varied v').peel.1 := by
  fun_induction peel t with
  | case1 id spec inner layers u hpeel ih => exact .cons (.ofField id spec) ih
  | case2 id inner items layers u hpeel ih => exact .cons (.ofItems items) ih
  | case3 | case4 | case5 => exact .cons (.same rfl) ‹_›
  | case6 t =>
    cases t with
    | nullable id style members inner =>
      rename_i hno
      exact (hno id style members inner rfl).elim
    | _ => first | exact .nil | simp_all

/-! ## What the layers say together -/

theorem map_layers {α : Type} {f : Layer → α}
    (hf : ∀ {l l'}, Layer.Varies v v' l l' → f l = f l') {ls ls' : List Layer}
    (h : List.Forall₂ (Layer.Varies v v') ls ls') : ls.map f = ls'.map f := by
  induction h with
  | nil => rfl
  | cons hl _ ih => rw [List.map_cons, List.map_cons, hf hl, ih]

section

variable (v v' : Variation) (t : TypeExpr)

theorem allowsAbsence_varied : (t.varied v).allowsAbsence = (t.varied v').allowsAbsence := by
  have hall := map_layers Layer.Varies.allowsAbsence_eq (layers_varied v v' t)
  simpa [allowsAbsence, List.any_map] using congrArg (·.any id) hall

theorem allowsNull_varied : (t.varied v).allowsNull = (t.varied v').allowsNull := by
  have hall := map_layers Layer.Varies.allowsNull_eq (layers_varied v v' t)
  simpa [allowsNull, List.any_map] using congrArg (·.any id) hall

theorem layerConstraints_varied :
    (t.varied v).layerConstraints = (t.varied v').layerConstraints := by
  have hall := map_layers Layer.Varies.constraints_eq (layers_varied v v' t)
  rw [layerConstraints, layerConstraints, List.flatMap_def, List.flatMap_def, hall]

theorem layerDescription_varied : (t.varied v).peel.1.findSome? Layer.description
    = (t.varied v').peel.1.findSome? Layer.description := by
  have hall := map_layers Layer.Varies.description_eq (layers_varied v v' t)
  simpa [List.findSome?_map] using congrArg (·.findSome? id) hall

theorem defaultSource_varied :
    SourceVaries v v' (t.varied v).defaultSource? (t.varied v').defaultSource? := by
  have hcons (l : Layer) (rest : List Layer) :
      (l :: rest).findSome? Layer.source? = l.source?.or (rest.findSome? Layer.source?) := by
    rw [List.findSome?_cons]
    cases l.source? <;> rfl
  have hall := layers_varied v v' t
  unfold defaultSource?
  generalize (t.varied v).peel.1 = ls, (t.varied v').peel.1 = ls' at hall ⊢
  induction hall with
  | nil => exact .none
  | cons hl _ ih =>
    rw [hcons, hcons]
    exact hl.source.or ih

end

end TypeExpr

/-! ## Bases -/

namespace Base

theorem part?_varied (v : Variation) (b : Base) :
    (b.varied v).part? = b.part?.map (TypeExpr.varied v) := by
  cases b <;> rfl

theorem isObject_varied (v : Variation) (b : Base) : (b.varied v).isObject = b.isObject := by
  cases b <;> rfl

theorem recordOf_varied (v : Variation) (b : Base) (cs : List Constraint) (p : Address) :
    (b.varied v).recordOf cs p = b.recordOf cs p := by
  cases b <;> rfl

theorem description_varied (v : Variation) (b : Base) :
    (b.varied v).description = b.description := by
  cases b <;> rfl

end Base

theorem Builtin.base_varied (v : Variation) (b : Builtin) : b.base.varied v = b.base := by
  cases b <;> rfl

theorem Builtin.derivedBase_varied (v : Variation) (b : Builtin) :
    b.derivedBase.varied v = b.derivedBase := by
  cases b <;> rfl

theorem Origin.base_varied (v : Variation) (o : Origin) (args : List TypeExpr) :
    o.base (args.map (TypeExpr.varied v)) = (o.base args).varied v := by
  have hanything : TypeExpr.anything.varied v = TypeExpr.anything := rfl
  unfold base
  by_cases harray : o.isArray = true
  · cases args <;> simp [harray, Base.varied, hanything]
  by_cases hrecord : o.isRecord = true
  · match args with
    | [] | [_] | [_, _] | _ :: _ :: _ :: _ =>
      simp [harray, hrecord, Base.varied, hanything]
  rw [if_neg harray, if_neg hrecord, if_neg harray, if_neg hrecord]
  -- Only a tuple of an element and an ellipsis is left, and an ellipsis has no default.
  match args with
  | [] | [_] => cases o <;> rfl
  | _ :: _ :: _ :: _ => cases o <;> simp [Base.varied]
  | [element, t] =>
    cases t with
    | atom a => cases o <;> cases a <;> rfl
    | _ => cases o <;> rfl

theorem literalBase_varied (v : Variation) (vs : List Value) :
    (literalBase vs).varied v = literalBase vs := by
  unfold literalBase
  split <;> rfl

theorem ClassBody.base_varied (v : Variation) (body : ClassBody) :
    (body.varied v).base = body.base.varied v := by
  cases body with
  | derived b => exact (b.derivedBase_varied v).symm
  | _ => rfl

theorem Definitions.find?_varied (v : Variation) (defs : Definitions) (name : String) :
    (defs.varied v).find? name = (defs.find? name).map (ClassBody.varied v) := by
  unfold find? varied
  induction defs.classes with
  | nil => rfl
  | cons e rest ih =>
    rw [List.map_cons, List.lookup_cons, List.lookup_cons, ih]
    cases name == e.1 <;> rfl

theorem Definitions.find?_varied_object (v : Variation) {name : String} {c : ObjectClass}
    (h : defs.find? name = some (.object c)) :
    (defs.varied v).find? name = some (.object (c.varied v)) := by
  rw [Definitions.find?_varied, h]
  rfl

theorem TypeExpr.base_varied (v : Variation) (defs : Definitions) (t : TypeExpr) :
    (t.varied v).base (defs.varied v) = (t.base defs).varied v := by
  cases t with
  | atom a =>
    cases a with
    | builtin b => exact (b.base_varied v).symm
    | bare h => exact h.origin.base_varied v []
    | _ => rfl
  | declared name =>
    simp only [varied, base, Definitions.find?_varied]
    cases defs.find? name with
    | none => rfl
    | some body => exact body.base_varied v
  | generic id head args =>
    rw [varied, variedAll_eq]
    exact head.origin.base_varied v args
  | literal id values => exact (literalBase_varied v values).symm
  | _ => rfl

theorem TypeExpr.describedBy_varied (v v' : Variation) (defs : Definitions) (t : TypeExpr) :
    (t.varied v).describedBy (defs.varied v) = (t.varied v').describedBy (defs.varied v') := by
  rw [describedBy, describedBy, layerDescription_varied v v', core_varied, core_varied,
    base_varied, base_varied, Base.description_varied, Base.description_varied]

/-- Expressions with other defaults are closed under what is met below them. -/
theorem Universe.varied (v : Variation) {U : TypeExpr → Prop} (hU : Universe defs U) :
    Universe (defs.varied v) fun t => ∃ u, U u ∧ t = u.varied v where
  core := by
    rintro _ ⟨u, hu, rfl⟩
    exact ⟨u.core, hU.core hu, u.core_varied v⟩
  part := by
    rintro _ e ⟨u, hu, rfl⟩ he
    rw [TypeExpr.core_varied, TypeExpr.base_varied, Base.part?_varied] at he
    obtain ⟨e₀, he₀, rfl⟩ := Option.map_eq_some_iff.mp he
    exact ⟨e₀, hU.part hu he₀, rfl⟩
  field := by
    rintro _ c name w ⟨u, hu, rfl⟩ hb hw
    rw [TypeExpr.core_varied, TypeExpr.base_varied] at hb
    cases hbase : u.core.base defs with
    | object o =>
      rw [hbase] at hb
      cases hb
      obtain ⟨⟨n, x⟩, hx, heq⟩ := List.mem_map.mp hw
      cases heq
      exact ⟨x, hU.field hu hbase hx, rfl⟩
    | _ =>
      rw [hbase] at hb
      cases hb
  same := by
    rintro _ _ ⟨t, ht, rfl⟩ ⟨u, hu, rfl⟩ hwt hwu hk
    rw [TypeExpr.watchable_varied] at hwt hwu
    rw [TypeExpr.key_varied, TypeExpr.key_varied] at hk
    rcases hU.same ht hu hwt hwu hk with rfl | ⟨i, x, j, y, rfl, rfl⟩
    · exact .inl rfl
    · exact .inr ⟨i, x, j, y, rfl, rfl⟩

end ToolCatalog
