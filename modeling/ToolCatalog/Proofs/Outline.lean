import ToolCatalog.Descriptor.Schema
import ToolCatalog.Proofs.History
import ToolCatalog.Proofs.Records

/-!
Descriptors made without a session.

`TypeExpr.outline` is the plain recursion: it goes down to a given depth and remembers nothing.
`Graph.unfold` writes out what a session holds to the same depth. Where every default is found in
the same way each time and every object class is complete, the two agree.
-/
namespace ToolCatalog

/-- What a slot stands for, given the schemas below it. -/
def Slot.fill (child : Schema) (properties : List (String × Schema)) (required : List String) :
    Slot → SchemaPart
  | .data v => .data v
  | .schema _ => .schema child
  | .properties _ => .properties properties
  | .required _ => .data (Value.texts required)

/-- A record with what its slots stand for. -/
def Record.written (part : Slot → SchemaPart) (r : Record) : Schema :=
  .keywords (r.map fun e => (e.1, part e.2))

/-- A record with what the layers of an expression add to it. -/
def Analysis.finish (an : Analysis) (r : Record) : Record :=
  if an.adds r then an.decorate r else r

/-- The names of the fields that cannot be left out. -/
def ObjectClass.requiredNames (c : ObjectClass) : List String :=
  (c.fields.filter fun f => !f.2.allowsAbsence).map (·.1)

/-- The schema of an expression to a depth, made by recursion alone. The addresses in the records
stand for nothing here. -/
def TypeExpr.outline (defs : Definitions) : Nat → TypeExpr → Except CompileFault Schema
  | 0, _ => .ok (.keywords [])
  | depth + 1, t => do
    let an := t.analysisWith defs (t.findDefault.run .empty).1
    match an.base with
    | .object c =>
      let properties ← c.fields.mapM fun f => do return (f.1, ← outline defs depth f.2)
      return (an.finish (objectRecord c 0)).written
        (Slot.fill (.keywords []) (Entries.ofList properties) c.requiredNames)
    | base =>
      let child ← base.part?.elim (.ok (.keywords [])) (outline defs depth)
      let r ← base.recordOf an.constraints 0
      return (an.finish r).written (Slot.fill child [] [])

namespace Graph

/-- What a slot of a graph stands for, given what its descriptors stand for. -/
def partOf (g : Graph) (child : Address → Schema) : Slot → SchemaPart
  | .data v => .data v
  | .schema a => .schema (child a)
  | .properties b => .properties ((g.body b).properties.map fun e => (e.1, child e.2))
  | .required b => .data (Value.texts (g.body b).required)

/-- The schema of a descriptor to a depth. -/
def unfold (g : Graph) : Nat → Address → Schema
  | 0, _ => .keywords []
  | depth + 1, a => (g.record a).written (g.partOf (g.unfold depth))

end Graph

/-! ## Records that agree -/

/-- Two records with the same keywords and the same data, whose other slots stand for the same. -/
def Record.Agree (part part' : Slot → SchemaPart) (r r' : Record) : Prop :=
  List.Forall₂ (fun e e' => e.1 = e'.1 ∧ part e.2 = part' e'.2 ∧
    ∀ v, e.2 = .data v ↔ e'.2 = .data v) r r'

/-- Data stands for itself. -/
def KeepsData (part : Slot → SchemaPart) : Prop :=
  ∀ v, part (.data v) = .data v

namespace Record.Agree

variable {part part' : Slot → SchemaPart} {r r' : Record}

theorem written_eq (h : Agree part part' r r') : r.written part = r'.written part' := by
  simp only [Record.written, Schema.keywords.injEq]
  induction h with
  | nil => rfl
  | cons he _ ih => simp [he.1, he.2.1, ih]

theorem data?_eq (h : Agree part part' r r') (key : String) : r.data? key = r'.data? key := by
  induction h with
  | nil => rfl
  | @cons e e' r r' he _ ih =>
    obtain ⟨hk, -, hx⟩ := he
    rw [Record.data?_cons, Record.data?_cons, hk, ih]
    split
    · cases hs : e.2 <;> cases hs' : e'.2 <;> simp_all
    · rfl

variable (hp : KeepsData part) (hp' : KeepsData part')

include hp hp'

theorem data (v : Value) : part (.data v) = part' (.data v) := by rw [hp, hp']

theorem put (h : Agree part part' r r') (key : String) (v : Value) :
    Agree part part' (Entries.put key (.data v) r) (Entries.put key (.data v) r') := by
  have hv := data hp hp' v
  induction h with
  | nil => exact .cons ⟨rfl, hv, fun _ => Iff.rfl⟩ .nil
  | @cons e e' r r' he hr ih =>
    obtain ⟨k, x⟩ := e
    obtain ⟨k', x'⟩ := e'
    obtain ⟨rfl, hx⟩ := he
    simp only [Entries.put]
    split
    · exact .cons ⟨rfl, hv, fun _ => Iff.rfl⟩ hr
    · exact .cons ⟨rfl, hx⟩ ih

theorem putAll (h : Agree part part' r r') (kvs : List (String × Value)) :
    Agree part part' (r.putAll kvs) (r'.putAll kvs) := by
  unfold Record.putAll
  induction kvs generalizing r r' with
  | nil => exact h
  | cons kv rest ih => exact ih (h.put hp hp' kv.1 kv.2)

theorem finish (h : Agree part part' r r') (an : Analysis) :
    Agree part part' (an.finish r) (an.finish r') := by
  have hadds : an.adds r = an.adds r' := by simp only [Analysis.adds, h.data?_eq]
  unfold Analysis.finish
  rw [hadds, an.decorate_eq, an.decorate_eq, h.data?_eq]
  split
  · exact h.putAll hp hp' _
  · exact h

end Record.Agree

theorem Record.agree_schema {part part' : Slot → SchemaPart} {p p' : Address} (key : String)
    (h : part (.schema p) = part' (.schema p')) :
    Record.Agree part part' [(key, .schema p)] [(key, .schema p')] :=
  .cons ⟨rfl, h, by simp⟩ .nil

theorem Base.recordOf_of_simple {b : Base} (h : b.part? = none) (cs : List Constraint)
    (p p' : Address) : b.recordOf cs p = b.recordOf cs p' := by
  cases b with
  | array e => cases h
  | record e => cases h
  | string f => cases f <;> rfl
  | _ => rfl

/-- No base describes itself, has a default or marks itself optional. -/
theorem Base.recordOf_lookup {b : Base} {cs : List Constraint} {p : Address} {r : Record}
    {key : String} (hk : key = "description" ∨ key = "default" ∨ key = "optional")
    (h : b.recordOf cs p = .ok r) : r.lookup key = none := by
  have hconstrain {r : Record} {family : List (Attribute × String)}
      (hf : ∀ e ∈ family, e.2 ≠ "description" ∧ e.2 ≠ "default" ∧ e.2 ≠ "optional")
      (hr : r.lookup key = none) : (r.constrain family cs).lookup key = none := by
    refine (Record.lookup_constrain_of_notMem cs fun e he => ?_).trans hr
    obtain ⟨hdescription, hdefault, hoptional⟩ := hf e he
    rcases hk with rfl | rfl | rfl
    · exact hdescription
    · exact hdefault
    · exact hoptional
  cases b with
  | string f =>
    cases f <;>
    · cases h
      exact hconstrain (by simp [textKeywords]) (by rcases hk with rfl | rfl | rfl <;> rfl)
  | number i =>
    cases h
    exact hconstrain (by simp [numberKeywords]) (by rcases hk with rfl | rfl | rfl <;> rfl)
  | array e =>
    cases h
    exact hconstrain (by simp [arrayKeywords]) (by rcases hk with rfl | rfl | rfl <;> rfl)
  | enumeration ms =>
    obtain ⟨data, -, rfl⟩ := Base.recordOf_enumeration h
    unfold enumerationRecord
    cases commonType? (data.map Value.jsonType?) <;> rcases hk with rfl | rfl | rfl <;> rfl
  | literal m =>
    obtain ⟨v, -, rfl⟩ := Base.recordOf_literal h
    unfold constantRecord
    cases v.jsonType? <;> rcases hk with rfl | rfl | rfl <;> rfl
  | _ =>
    cases h
    rcases hk with rfl | rfl | rfl <;> rfl

section

variable {part part' : Slot → SchemaPart} (hp : KeepsData part) (hp' : KeepsData part')

include hp hp'

/-- A record of data agrees with itself. -/
theorem Record.agree_self {r : Record} (h : ∀ e ∈ r, ∃ v, e.2 = .data v) :
    Record.Agree part part' r r := by
  refine List.forall₂_same.mpr fun e he => ⟨rfl, ?_, fun _ => Iff.rfl⟩
  obtain ⟨v, hv⟩ := h e he
  rw [hv]
  exact Record.Agree.data hp hp' v

theorem Record.agree_ofType (name : String) {rest rest' : Record}
    (h : Record.Agree part part' rest rest') :
    Record.Agree part part' (Record.ofType name ++ rest) (Record.ofType name ++ rest') :=
  .cons ⟨rfl, Record.Agree.data hp hp' _, fun _ => Iff.rfl⟩ h

/-- The record of a base with one address for its part or with another. -/
theorem Base.recordOf_agree {b : Base} {cs : List Constraint} {p p' : Address} {r : Record}
    (hpart : b.part?.isSome → part (.schema p) = part' (.schema p'))
    (h : b.recordOf cs p = .ok r) :
    ∃ r', b.recordOf cs p' = .ok r' ∧ Record.Agree part part' r r' := by
  have hdata {r : Record} (h : ∀ e ∈ r, ∃ v, e.2 = .data v) := Record.agree_self hp hp' h
  have hself (hb : b.part? = none) (hr : ∀ e ∈ r, ∃ v, e.2 = .data v) :
      ∃ r', b.recordOf cs p' = .ok r' ∧ Record.Agree part part' r r' := by
    refine ⟨r, ?_, hdata hr⟩
    rw [← h, recordOf_of_simple hb cs p' p]
  cases b with
  | string f =>
    cases f with
    | none =>
      cases h
      exact ⟨_, rfl, (hdata (by simp [Record.ofType])).putAll hp hp' _⟩
    | some f =>
      cases h
      exact ⟨_, rfl, (hdata (by simp [Record.ofType])).putAll hp hp' _⟩
  | number i =>
    cases h
    exact ⟨_, rfl, (hdata (by simp [Record.ofType])).putAll hp hp' _⟩
  | boolean =>
    cases h
    exact hself rfl (by simp [Record.ofType])
  | array e =>
    cases h
    exact ⟨_, rfl, (Record.agree_ofType hp hp' "array"
      (Record.agree_schema "items" (hpart rfl))).putAll hp hp' _⟩
  | enumeration ms =>
    obtain ⟨data, -, rfl⟩ := recordOf_enumeration h
    refine hself rfl ?_
    unfold enumerationRecord
    cases commonType? (data.map Value.jsonType?) <;> simp [Record.ofType]
  | literal m =>
    obtain ⟨v, -, rfl⟩ := recordOf_literal h
    refine hself rfl ?_
    unfold constantRecord
    cases v.jsonType? <;> simp [Record.ofType]
  | record e =>
    cases h
    exact ⟨_, rfl, Record.agree_ofType hp hp' "object"
      (Record.agree_schema "additionalProperties" (hpart rfl))⟩
  | object c =>
    cases h
    exact hself rfl (by simp [Record.ofType])
  | unknown =>
    cases h
    exact hself rfl (by simp [Record.ofType])

/-- The record of an object class with one address for its body or with another. -/
theorem objectRecord_agree (c : ObjectClass) {b b' : Address}
    (hps : part (.properties b) = part' (.properties b'))
    (hreq : part (.required b) = part' (.required b')) :
    Record.Agree part part' (objectRecord c b) (objectRecord c b') := by
  have hbody : Record.Agree part part' [("properties", .properties b), ("required", .required b)]
      [("properties", .properties b'), ("required", .required b')] :=
    .cons ⟨rfl, hps, by simp⟩ (.cons ⟨rfl, hreq, by simp⟩ .nil)
  unfold objectRecord
  cases nonEmpty? c.doc with
  | none => exact Record.agree_ofType hp hp' "object" hbody
  | some d =>
    exact Record.agree_ofType hp hp' "object"
      (.cons ⟨rfl, Record.Agree.data hp hp' _, fun _ => Iff.rfl⟩ hbody)

end

/-! ## Steady defaults -/

/-- The default of an expression is found, or not found, in the same way in every session. -/
def TypeExpr.Steady (t : TypeExpr) : Prop :=
  ∀ s s' : Session, (t.findDefault.run s).1 = (t.findDefault.run s').1

/-- The expressions that are met when an expression is described in a session that holds nothing. -/
abbrev TypeExpr.Meets (defs : Definitions) (t u : TypeExpr) : Prop :=
  Leads defs .empty t u

theorem TypeExpr.Steady.mayFind {t : TypeExpr} (h : t.Steady) {d : Option DefaultOutcome}
    (hd : t.MayFind d) : d = (t.findDefault.run .empty).1 := by
  obtain ⟨s, rfl⟩ := hd
  exact h s .empty

section

variable {defs : Definitions} {s : Session} {t : TypeExpr} {a a₀ b : Address} {r : Record}

theorem Finished.finish (h : Finished defs s t a₀ r a) (hr : s.graph.records[a₀]? = some r) :
    ∃ d, t.MayFind d ∧ s.graph.record a = (t.analysisWith defs d).finish r := by
  obtain ⟨d, hd, hf⟩ := h
  refine ⟨d, hd, ?_⟩
  unfold Analysis.finish
  split
  · rename_i hadd
    rw [if_pos hadd] at hf
    simp [Graph.record, hf]
  · rename_i hadd
    rw [if_neg hadd] at hf
    simp [Graph.record, hf, hr]

theorem Finished.record (h : Finished defs s t a₀ r a) (ht : t.Steady)
    (hr : s.graph.records[a₀]? = some r) :
    s.graph.record a = (t.analysisWith defs (t.findDefault.run .empty).1).finish r := by
  obtain ⟨d, hd, hf⟩ := h.finish hr
  rwa [ht.mayFind hd] at hf

/-- A walked body holds the last field of each name. -/
theorem Walked.properties {fs : List (String × TypeExpr)} {x : Body} (h : Walked defs s fs x) :
    List.Forall₂ (fun f e => f.1 = e.1 ∧ Shows defs s f.2 e.2) (Entries.ofList fs)
      x.properties := by
  induction h with
  | nil => exact .nil
  | snoc _ ht ih =>
    rw [Entries.ofList_append, Body.enter]
    exact Entries.forall₂_put ih ht

/-- A walked body requires the fields that cannot be left out. -/
theorem Walked.required {fs : List (String × TypeExpr)} {x : Body} (h : Walked defs s fs x) :
    (fs.filter fun f => !f.2.allowsAbsence).map (·.1) = x.required := by
  induction h with
  | nil => rfl
  | @snoc _ _ _ t _ _ _ ih =>
    rw [List.filter_append, List.map_append, ih, Body.enter]
    cases ht : t.allowsAbsence <;> simp [ht]

/-- A walked body holds the schemas of its fields under their names. -/
theorem Walked.outline {fs : List (String × TypeExpr)} {x : Body} (h : Walked defs s fs x)
    {depth : Nat} (hfield : ∀ f ∈ fs, ∀ a, Shows defs s f.2 a →
      f.2.outline defs depth = .ok (s.graph.unfold depth a)) :
    ∃ ps, (fs.mapM fun f => do return (f.1, ← f.2.outline defs depth) :
        Except CompileFault (List (String × Schema))) = .ok ps ∧
      Entries.ofList ps = x.properties.map (fun e => (e.1, s.graph.unfold depth e.2)) := by
  induction h with
  | nil => exact ⟨[], rfl, rfl⟩
  | @snoc fs x name t a _ ht ih =>
    obtain ⟨ps, hps, hprops⟩ := ih fun f hf => hfield f (by simp [hf])
    have hchild := hfield (name, t) (by simp) a ht
    refine ⟨ps ++ [(name, s.graph.unfold depth a)], ?_, ?_⟩
    · rw [List.mapM_append, hps, List.mapM_cons, List.mapM_nil, hchild]
      rfl
    · rw [Entries.ofList_append, hprops, Body.enter]
      exact (Entries.put_map _ _ _ _).symm

theorem Graph.partOf_keepsData (g : Graph) (child : Address → Schema) :
    KeepsData (g.partOf child) := fun _ => rfl

theorem Slot.fill_keepsData (child : Schema) (properties : List (String × Schema))
    (required : List String) : KeepsData (Slot.fill child properties required) := fun _ => rfl

theorem TypeExpr.outline_object {depth : Nat} {c : ObjectClass}
    (hb : t.core.base defs = .object c) : t.outline defs (depth + 1) = do
      let properties ← c.fields.mapM fun f => do return (f.1, ← outline defs depth f.2)
      return ((t.analysisWith defs (t.findDefault.run .empty).1).finish (objectRecord c 0)).written
        (Slot.fill (.keywords []) (Entries.ofList properties) c.requiredNames) := by
  simp only [outline, analysisWith_eq]
  split
  · rename_i c' hc
    cases hb.symm.trans hc
    rfl
  · rename_i hno
    exact (hno c hb).elim

theorem TypeExpr.outline_value {depth : Nat} (hb : (t.core.base defs).isObject = false) :
    t.outline defs (depth + 1) = do
      let child ← (t.core.base defs).part?.elim (.ok (.keywords [])) (outline defs depth)
      let r ← (t.core.base defs).recordOf t.layerConstraints 0
      return ((t.analysisWith defs (t.findDefault.run .empty).1).finish r).written
        (Slot.fill child [] []) := by
  simp only [outline, analysisWith_eq]
  split
  · rename_i c hc
    rw [hc] at hb
    cases hb
  · rfl

/-- A descriptor unfolds to the schema that recursion alone gives its expression. -/
theorem Shows.outline_eq (hall : AllComplete defs s) (depth : Nat) (h : Shows defs s t a)
    (hsteady : ∀ u, t.Meets defs u → u.Steady) :
    t.outline defs depth = .ok (s.graph.unfold depth a) := by
  induction depth generalizing t a with
  | zero => rfl
  | succ depth ih =>
    have ht : t.Steady := hsteady t (.here t)
    cases h with
    | @object t c a₀ b a hb hc hr hf =>
      obtain ⟨name, hname, hfind⟩ := TypeExpr.base_object hb
      obtain ⟨b', x, ⟨a₁, hc', hr'⟩, hx, hw⟩ := hall name c hfind (by simp [← hname, hc])
      rw [hname, hc', Option.some.injEq] at hc
      subst hc
      rw [hr', Option.some.injEq] at hr
      obtain rfl := objectRecord_inj hr
      have hfield (f) (hfm : f ∈ c.fields) (a) (ha : Shows defs s f.2 a) :
          f.2.outline defs depth = .ok (s.graph.unfold depth a) :=
        ih ha fun u hu => hsteady u (.field hb (Session.cached?_fresh false _) hfm hu)
      obtain ⟨ps, hps, hprops⟩ := hw.outline hfield
      simp only [TypeExpr.outline, TypeExpr.analysisWith_eq, Graph.unfold]
      rw [hb]
      simp only [hps]
      rw [hf.record ht hr', TypeExpr.analysisWith_eq, hb]
      have hbody : s.graph.body b' = x := by simp [Graph.body, hx]
      have hfill := Slot.fill_keepsData (.keywords []) (Entries.ofList ps) c.requiredNames
      have hpart := s.graph.partOf_keepsData (s.graph.unfold depth)
      have hrec : Record.Agree (Slot.fill (.keywords []) (Entries.ofList ps) c.requiredNames)
          (s.graph.partOf (s.graph.unfold depth)) (objectRecord c 0) (objectRecord c b') :=
        objectRecord_agree hfill hpart c (by simp [Slot.fill, Graph.partOf, hbody, hprops])
        (by simp [Slot.fill, Graph.partOf, hbody, ObjectClass.requiredNames, hw.required])
      exact congrArg Except.ok (hrec.finish hfill hpart _).written_eq
    | @value t p a₀ r a hb hp hrec hr hf =>
      obtain ⟨child, hchild, hslot⟩ : ∃ child,
          (t.core.base defs).part?.elim (.ok (.keywords [])) (TypeExpr.outline defs depth)
            = .ok child ∧
          ((t.core.base defs).part?.isSome → child = s.graph.unfold depth p) := by
        cases hpart : (t.core.base defs).part? with
        | none => exact ⟨_, rfl, nofun⟩
        | some e =>
          exact ⟨_, ih (hp e hpart) fun u hu => hsteady u (.part hpart hu), fun _ => rfl⟩
      have hfill := Slot.fill_keepsData child [] []
      have hpart := s.graph.partOf_keepsData (s.graph.unfold depth)
      have hslot' (h : (t.core.base defs).part?.isSome) :
          s.graph.partOf (s.graph.unfold depth) (.schema p) = Slot.fill child [] [] (.schema 0) :=
        congrArg SchemaPart.schema (hslot h).symm
      obtain ⟨r', hrec', hagree⟩ := Base.recordOf_agree hpart hfill hslot' hrec
      rw [TypeExpr.outline_value hb, Graph.unfold, hf.record ht hr, hchild]
      simp only [hrec', bind, Except.bind]
      exact congrArg Except.ok (hagree.finish hpart hfill _).written_eq.symm

/-- The schema that a call asks for, to a depth, made by recursion alone. -/
def Call.outline (defs : Definitions) (depth : Nat) : Call → Except CompileFault Schema
  | .describe t => t.outline defs depth
  | .compile t =>
    if (t.base defs).isObject then t.outline defs depth
    else .ok (match depth with
      | 0 => .keywords []
      | _ + 1 => (emptyObjectRecord 0).written (Slot.fill (.keywords []) [] []))

theorem Call.Answered.outline_eq {c : Call} (hall : AllComplete defs s) (depth : Nat)
    (h : c.Answered defs s a) (hsteady : ∀ u, c.type.Meets defs u → u.Steady) :
    c.outline defs depth = .ok (s.graph.unfold depth a) := by
  cases c with
  | describe t => exact Shows.outline_eq hall depth h hsteady
  | compile t =>
    cases h with
    | object hb h =>
      simp only [Call.outline, if_pos hb]
      exact h.outline_eq hall depth hsteady
    | @empty b hb hr hbody =>
      simp only [Call.outline, hb, Bool.false_eq_true, if_false]
      have hrecord : s.graph.record a = emptyObjectRecord b := by simp [Graph.record, hr]
      have hx : s.graph.body b = ⟨[], []⟩ := by simp [Graph.body, hbody]
      cases depth with
      | zero => rfl
      | succ depth =>
        rw [Graph.unfold, hrecord]
        simp [Record.written, emptyObjectRecord, Record.ofType, Slot.fill, Graph.partOf, hx]

end

end ToolCatalog
