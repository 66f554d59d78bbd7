import ToolCatalog.Proofs.Bounds
import ToolCatalog.Proofs.Findings

/-!
Where the constraint items of an expression show.

The descriptor of the base has the keyword of an attribute exactly if some item sets the attribute,
with the value that is set last. Elements and values of arrays and records have descriptors of their
own, in which only their own items show, and what is remembered for a base without items has none
of these keywords, whatever constrained copies have been made of it.
-/
namespace ToolCatalog

/-- The constraint items of all layers from the outside in, those of field information in its
place. -/
def TypeExpr.constraintItems : TypeExpr → List Constraint
  | .field _ spec inner => spec.constraints ++ inner.constraintItems
  | .annotated _ inner items => items.flatMap Metadata.constraints ++ inner.constraintItems
  | .notRequired _ inner | .required _ inner | .nullable _ _ _ inner => inner.constraintItems
  | _ => []

/-- The value `x` is what an attribute is set to last. -/
def Constraint.LastSets (a : Attribute) (cs : List Constraint) (x : Value) : Prop :=
  ∃ before c after, cs = before ++ c :: after ∧ c.attribute? a = some x ∧
    ∀ d ∈ after, d.attribute? a = none

/-- Of the keywords for what constraint items set, a record has those of the family of a base that
some item sets, with the values that are set last, and no others. -/
structure Record.Bounded (r : Record) (b : Base) (cs : List Constraint) : Prop where
  present : ∀ a k, (a, k) ∈ b.family →
    ((r.lookup k).isSome ↔ ∃ c ∈ cs, (c.attribute? a).isSome)
  value : ∀ a k, (a, k) ∈ b.family → ∀ slot, r.lookup k = some slot →
    ∃ x, Constraint.LastSets a cs x ∧ slot = .data (a.written x)
  others : ∀ k ∈ boundKeywords, (∀ a, (a, k) ∉ b.family) → r.lookup k = none

/-- The descriptor at an address shows the items of an expression; that of an element or a value
shows the items of the part, and so on. -/
inductive Graph.Bounds (defs : Definitions) (g : Graph) : TypeExpr → Address → Prop
  | whole {t a} (own : (g.record a).Bounded (t.core.base defs) t.constraintItems)
      (hp : (t.core.base defs).part? = none) : Bounds defs g t a
  | part {t a e p} (own : (g.record a).Bounded (t.core.base defs) t.constraintItems)
      (hp : (t.core.base defs).part? = some e)
      (hk : (g.record a).lookup "items" = some (.schema p) ∨
        (g.record a).lookup "additionalProperties" = some (.schema p))
      (h : Bounds defs g e p) : Bounds defs g t a

/-! ## Items -/

theorem TypeExpr.layerConstraints_eq (t : TypeExpr) : t.layerConstraints = t.constraintItems := by
  fun_induction constraintItems t with
  | case1 id spec inner ih =>
    rw [← ih, layerConstraints, peel, List.flatMap_cons, Layer.ofField_eq,
      Layer.constraints_described, layerConstraints]
  | case2 id inner items ih =>
    rw [← ih, layerConstraints, peel, List.flatMap_cons, Layer.ofItems_eq,
      Layer.constraints_described, layerConstraints]
  | case3 | case4 | case5 => simp_all [layerConstraints, peel, Layer.constraints, Layer.plain]
  | case6 t => cases t <;> simp_all [layerConstraints, peel, Layer.constraints]

namespace Constraint

variable {a : Attribute} {cs : List Constraint} {x : Value}

theorem lastSet_eq_some_iff : lastSet a cs = some x ↔ LastSets a cs x := by
  constructor
  · intro h
    induction cs using List.reverseRecOn with
    | nil => cases h
    | append_singleton cs c ih =>
      rw [lastSet_append] at h
      cases hc : c.attribute? a with
      | some y =>
        obtain rfl : y = x := by simpa [lastSet, hc] using h
        exact ⟨cs, c, [], rfl, hc, by simp⟩
      | none =>
        obtain ⟨before, d, after, rfl, hd, hafter⟩ := ih (by simpa [lastSet, hc] using h)
        refine ⟨before, d, after ++ [c], by simp, hd, fun e he => ?_⟩
        rcases List.mem_append.mp he with he | he
        · exact hafter e he
        · rw [List.mem_singleton.mp he, hc]
  · rintro ⟨before, c, after, rfl, hc, hafter⟩
    have hnone : after.filterMap (·.attribute? a) = [] := List.filterMap_eq_nil_iff.mpr hafter
    simp [lastSet, hc, hnone]

theorem isSome_lastSet_iff : (lastSet a cs).isSome ↔ ∃ c ∈ cs, (c.attribute? a).isSome := by
  simp [lastSet, Option.isSome_iff_ne_none]

end Constraint

/-! ## Records -/

namespace Record.Bounded

variable {r r' : Record} {b : Base} {cs : List Constraint} {p : Address}

theorem congr (h : r.Bounded b cs) (hsame : ∀ k ∈ boundKeywords, r'.lookup k = r.lookup k) :
    r'.Bounded b cs where
  present a k hk := by
    rw [hsame k (Base.mem_boundKeywords hk)]
    exact h.present a k hk
  value a k hk := by
    rw [hsame k (Base.mem_boundKeywords hk)]
    exact h.value a k hk
  others k hk hnot := (hsame k hk).trans (h.others k hk hnot)

/-- Without items a record has none of the keywords. -/
theorem lookup_eq_none (h : r.Bounded b []) {k : String} (hk : k ∈ boundKeywords) :
    r.lookup k = none := by
  by_cases hfamily : ∃ a, (a, k) ∈ b.family
  · obtain ⟨a, ha⟩ := hfamily
    have hnot : ¬(r.lookup k).isSome := by simp [h.present a k ha]
    exact Option.not_isSome_iff_eq_none.mp hnot
  · exact h.others k hk fun a ha => hfamily ⟨a, ha⟩

theorem object (c : ObjectClass) (body : Address) (cs : List Constraint) :
    (objectRecord c body).Bounded (.object c) cs where
  present a k hk := by cases hk
  value a k hk := by cases hk
  others k hk _ := by
    refine lookup_of_other ?_ hk
    unfold objectRecord
    cases nonEmpty? c.doc <;> simp [Record.ofType, boundKeywords_eq]

theorem recordOf (h : b.recordOf cs p = .ok r) : r.Bounded b cs where
  present a k hk := by
    rw [Base.lookup_bound h hk, Option.isSome_map, Constraint.isSome_lastSet_iff]
  value a k hk slot hslot := by
    rw [Base.lookup_bound h hk] at hslot
    obtain ⟨x, hx, rfl⟩ := Option.map_eq_some_iff.mp hslot
    exact ⟨x, Constraint.lastSet_eq_some_iff.mp hx, rfl⟩
  others k hk hnot := by
    obtain ⟨start, hstart, rfl⟩ := Base.exists_free h
    have hother : ∀ x ∈ b.family, x.2 ≠ k := fun x hx he => hnot x.1 (he ▸ hx)
    rw [lookup_constrain_of_notMem cs hother, Base.lookup_free hstart hk]

end Record.Bounded

/-- A base with a part has it under the keyword of elements or of values. -/
theorem Base.lookup_part {b : Base} {cs : List Constraint} {p : Address} {r : Record}
    {e : TypeExpr} (hp : b.part? = some e) (h : b.recordOf cs p = .ok r) :
    r.lookup "items" = some (.schema p) ∨ r.lookup "additionalProperties" = some (.schema p) := by
  cases b with
  | array e' =>
    cases h
    left
    rw [Record.lookup_constrain_of_notMem cs (by simp [arrayKeywords])]
    rfl
  | record e' =>
    cases h
    exact .inr rfl
  | _ => cases hp

/-! ## Descriptors -/

section

variable {defs : Definitions} {s s' : Session} {t : TypeExpr} {a p : Address} {r r' : Record}

theorem Analysis.decorate_sameBounds (an : Analysis) (r : Record) {k : String}
    (hk : k ∈ boundKeywords ∨ k = "items" ∨ k = "additionalProperties") :
    (an.decorate r).lookup k = r.lookup k := by
  refine an.lookup_decorate r ?_
  rcases hk with hk | rfl | rfl
  · exact notMem_layerKeywords hk
  · decide
  · decide

namespace Graph.Bounds

variable {g : Graph}

/-- A record with the bounds of a base, and with its part, shows the items. -/
theorem of_value (hp : ∀ e, (t.core.base defs).part? = some e → g.Bounds defs e p)
    (hrec : (t.core.base defs).recordOf t.layerConstraints p = .ok r)
    (hr : ∀ k, k ∈ boundKeywords ∨ k = "items" ∨ k = "additionalProperties" →
      (g.record a).lookup k = r.lookup k) : g.Bounds defs t a := by
  have hown : (g.record a).Bounded (t.core.base defs) t.constraintItems :=
    (Record.Bounded.recordOf (t.layerConstraints_eq ▸ hrec)).congr fun k hk => hr k (.inl hk)
  cases hpart : (t.core.base defs).part? with
  | none => exact .whole hown hpart
  | some e =>
    refine .part hown hpart ?_ (hp e hpart)
    rw [hr _ (.inr (.inl rfl)), hr _ (.inr (.inr rfl))]
    exact Base.lookup_part hpart hrec

theorem of_object {c : ObjectClass} {body : Address} (hb : t.core.base defs = .object c)
    (hr : ∀ k ∈ boundKeywords, (g.record a).lookup k = (objectRecord c body).lookup k) :
    g.Bounds defs t a := by
  refine .whole ?_ (by rw [hb]; rfl)
  rw [hb]
  exact (Record.Bounded.object c body _).congr hr

/-- Without items a descriptor has none of the keywords. -/
theorem lookup_eq_none (h : g.Bounds defs t a) (ht : t.constraintItems = []) {k : String}
    (hk : k ∈ boundKeywords) : (g.record a).lookup k = none := by
  cases h with
  | whole hown _ | part hown _ _ _ =>
    rw [ht] at hown
    exact hown.lookup_eq_none hk

end Graph.Bounds

theorem Finished.lookup_eq {a₀ : Address} (hf : Finished defs s t a₀ r a)
    (hr : s.graph.records[a₀]? = some r) {k : String}
    (hk : k ∈ boundKeywords ∨ k = "items" ∨ k = "additionalProperties") :
    (s.graph.record a).lookup k = r.lookup k := by
  obtain ⟨d, -, hf⟩ := hf
  split at hf
  · rw [Graph.record_of_getElem? hf]
    exact (t.analysisWith defs d).decorate_sameBounds r hk
  · rw [hf, Graph.record_of_getElem? hr]

/-- The descriptor of an expression shows its items, and those below it theirs. -/
theorem Shows.bounds (h : Shows defs s t a) : s.graph.Bounds defs t a := by
  induction h with
  | object hb _ hr hf => exact .of_object hb fun k hk => hf.lookup_eq hr (.inl hk)
  | value _ _ hrec hr hf ih => exact .of_value ih hrec fun k hk => hf.lookup_eq hr hk

theorem Stands.bounds (h : Stands defs s t a r) : s.graph.Bounds defs t a := by
  have hrecord := Graph.record_of_getElem? h.record
  cases h with
  | object hb _ _ => exact .of_object hb fun k _ => by rw [hrecord]
  | value _ hp hrec _ =>
    exact .of_value (fun e he => (hp e he).bounds) hrec fun k _ => by rw [hrecord]

end

/-- At any time in any calls, the descriptor that is made of a base with the constraints of an
expression shows just the items of the expression, and its elements or values show theirs. What is
remembered shows no others either, a base without items none, and no descriptor changes. -/
theorem describeInner_bounds (source : Source) (observable : Bool) (calls : List Call)
    (hcalls : ∀ c ∈ calls, source.Expression c.type) {m : Job}
    (hm : Occurs source.definitions (.fresh observable) calls m) {t : TypeExpr}
    (ht : source.Expression t) {an : Analysis} (ha : t.Analysed source.definitions an) {room : Nat}
    {r : Except CompileFault Address} {s : Session}
    (h : m.session.run (describeInner source.definitions
      (describeWithin source.definitions room) an) = (r, s)) :
    (∀ b, r = .ok b → s.graph.Bounds source.definitions t b ∧
      ∀ u q, m.session.cached? u = some q → s.cached? u = some q) ∧
    (∀ e, r = .error e → source.definitions.room t ≤ room →
      Explained source.definitions m.session t e) ∧
    (∀ u q, source.Expression u → s.cached? u = some q →
      s.graph.Bounds source.definitions u q ∧
        (u.constraintItems = [] → ∀ k ∈ boundKeywords, (s.graph.record q).lookup k = none)) ∧
    ∀ (q : Address) record, m.session.graph.records[q]? = some record →
      s.graph.records[q]? = some record := by
  obtain ⟨U, hU, hexpr⟩ := source.universe
  have hready := hm.ready hU (fun c hc => hexpr _ (hcalls c hc)) (.fresh observable)
  have hp := describeInner_preserves hU (describeWithin_preserves hU room)
    (describeWithin_extends _ room) (hexpr _ ht) hready.inv ha h
  refine ⟨?_, ?_, ?_, hp.growth.record⟩
  · rintro b rfl
    obtain ⟨record, hs⟩ := hp.result b rfl
    refine ⟨hs.bounds, fun u q hq => ?_⟩
    obtain ⟨names, he⟩ := describeInner_derivable (describeWithin_derivable _ room) ha h (by simp)
    rw [s.cached?_of_watchable (Session.watchable_of_cached? hq)]
    exact he.keeps_known (Session.known?_of_cached? hq)
  · rintro e rfl hroom
    have := source.definitions.need_le_room t m.session
    exact describeInner_explained (describeWithin_explained _ room)
      (describeWithin_extends _ room) ha (by omega) h
  · intro u q hu hq
    have hshows := hp.inv.shows (hexpr u hu) hq
    exact ⟨hshows.bounds, fun hitems k hk => hshows.bounds.lookup_eq_none hitems hk⟩

/-- Lists of names, bounded in two layers, of names with a bound of their own. -/
def namesSource : Source where
  declarations := []
  written := [.annotated (.notRequired (.annotated (.generic ⟨.direct, "list", .list⟩
    [.annotated (.atom (.builtin .text)) [.constraint (.minLength (.int 2))]])
    [.field 0 { FieldSpec.empty with constraints := [.length (.int 3) .null] }]))
    [.constraint (.length (.int 1) (.int 5))]]

/-- The bounded lists of names, as they are read. -/
def namesType : TypeExpr :=
  .annotated 5 (.notRequired 4 (.annotated 3 (.generic 1 ⟨.direct, "list", .list⟩
    [.annotated 0 (.atom (.builtin .text)) [.constraint (.minLength (.int 2))]])
    [.field 2 { FieldSpec.empty with constraints := [.length (.int 3) .null] }]))
    [.constraint (.length (.int 1) (.int 5))]

theorem namesSource_nodes : namesSource.nodes = [namesType] :=
  rfl

/-- The session in which the base of the lists has been described. -/
def namesSession : Session :=
  ((Session.fresh false).run (describeInner namesSource.definitions
    (describeWithin namesSource.definitions 1)
    (namesType.analysisWith namesSource.definitions none))).2

theorem describeInner_bounds_names :
    (Session.fresh false).run (describeInner namesSource.definitions
        (describeWithin namesSource.definitions 1)
        (namesType.analysisWith namesSource.definitions none)) = (.ok 1, namesSession) ∧
      namesSession.graph.Bounds namesSource.definitions namesType 1 ∧
        (namesSession.graph.record 1).data? "minItems" = some (.int 3) ∧
        (namesSession.graph.record 1).data? "maxItems" = some (.int 5) := by
  have hnode : namesSource.Expression namesType :=
    .node (by rw [namesSource_nodes]; exact List.mem_singleton.mpr rfl)
  have hrun : (Session.fresh false).run (describeInner namesSource.definitions
      (describeWithin namesSource.definitions 1)
      (namesType.analysisWith namesSource.definitions none)) = (.ok 1, namesSession) := rfl
  have hbegins : Occurs namesSource.definitions (.fresh false) [.describe namesType]
      ⟨.fresh false, .field namesType none⟩ := .now .describe .refl
  exact ⟨hrun, ((describeInner_bounds namesSource false [.describe namesType]
    (by simpa [Call.type] using hnode) hbegins hnode ⟨none, ⟨.empty, rfl⟩, rfl⟩ hrun).1 1 rfl).1,
    rfl, rfl⟩

end ToolCatalog
