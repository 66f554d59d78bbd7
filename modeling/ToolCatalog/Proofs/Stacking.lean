import ToolCatalog.Proofs.Counterparts
import ToolCatalog.Proofs.Wrapping

/-!
What the order of layers does to a descriptor.

Two orders of the same layers say the same wherever at most one layer says anything; for
descriptions and defaults the outermost layer counts, and for bounds the last item, which is an item
of the innermost annotation unless annotations lie right on each other. So a union with null between
two annotations changes which of two bounds counts, and nothing else that the annotations say.
-/
namespace ToolCatalog

/-- What two descriptions come to, if it is compared by `R`: the same fault, or schemas of any
depth that `R` holds of. -/
inductive Outcomes (R : Schema → Schema → Prop) :
    Except CompileFault Address × Session → Except CompileFault Address × Session → Prop
  | failed (e : CompileFault) (s s' : Session) : Outcomes R (.error e, s) (.error e, s')
  | made {a b s s'}
      (h : ∀ depth, R (s.graph.unfold (depth + 1) a) (s'.graph.unfold (depth + 1) b)) :
      Outcomes R (.ok a, s) (.ok b, s')

/-- Two schemas hold the same under every keyword. -/
def Schema.Equal (x y : Schema) : Prop :=
  ∀ k, x.parts.lookup k = y.parts.lookup k

theorem Outcomes.refl (res : Except CompileFault Address × Session) :
    Outcomes Schema.Equal res res := by
  obtain ⟨r, s⟩ := res
  cases r with
  | error e => exact .failed e s s
  | ok a => exact .made fun _ _ => rfl

/-- Two analyses of one base that agree on what may be absent or null and on whether there is a
default. -/
structure Analysis.Alike (a b : Analysis) : Prop where
  inner : b.inner = a.inner
  base : b.base = a.base
  optional : b.optional = a.optional
  nullable : b.nullable = a.nullable
  default : b.default.isSome = a.default.isSome

/-- Of these layers at most one has a description, at most one has a default, and at most one sets
each attribute of the family. -/
structure Wrapping.Apart (family : List (Attribute × String)) (ws : List Wrapping) : Prop where
  description : ws.countP (·.layer.description.isSome) ≤ 1
  default : ws.countP (·.layer.source?.isSome) ≤ 1
  bound : ∀ a k, (a, k) ∈ family →
    ws.countP (fun w => (Constraint.lastSet a w.layer.constraints).isSome) ≤ 1

namespace Wrapped

variable {T t u : TypeExpr} {ws ws' : List Wrapping} {defs : Definitions}

theorem core_eq (hT : T.Plain) (h : Wrapped T ws t) (h' : Wrapped T ws' u) (hp : ws.Perm ws') :
    u.core = t.core := by
  cases ws with
  | nil =>
    obtain rfl := List.nil_perm.mp hp
    cases h
    cases h'
    rfl
  | cons w ws =>
    obtain ⟨w', ws', rfl⟩ := List.exists_cons_of_ne_nil (l := ws') (by
      rintro rfl
      exact absurd hp.eq_nil nofun)
    rw [h.core hT, h'.core hT]

/-- The analyses of two orders of layers agree, in whatever sessions they are made. -/
theorem analyse_alike (hT : T.Plain) (h : Wrapped T ws t) (h' : Wrapped T ws' u)
    (hp : ws.Perm ws') (s s' : Session) :
    ((t.analyse defs).run s).1.Alike ((u.analyse defs).run s').1 := by
  have hcore := h.core_eq hT h' hp
  constructor
  case inner => exact hcore
  case base => exact congrArg (TypeExpr.base defs) hcore
  case optional =>
    change u.allowsAbsence = t.allowsAbsence
    rw [h.allowsAbsence_eq hT, h'.allowsAbsence_eq hT, hp.any_eq]
  case nullable =>
    change u.allowsNull = t.allowsNull
    rw [h.allowsNull_eq hT, h'.allowsNull_eq hT, hp.any_eq]
  case default =>
    rw [TypeExpr.analyse_default_isSome, TypeExpr.analyse_default_isSome, h.defaultSource?_eq hT,
      h'.defaultSource?_eq hT, List.isSome_findSome?, List.isSome_findSome?, hp.any_eq]

section

variable {family : List (Attribute × String)}

/-- A layer that no other layer contradicts is found first in every order. -/
theorem counterparts (hT : T.Plain) (h : Wrapped T ws t) (h' : Wrapped T ws' u)
    (hp : ws.Perm ws') (hone : Wrapping.Apart family ws) : t.Counterparts u where
  core := h.core_eq hT h' hp
  source := by
    rw [h.defaultSource?_eq hT, h'.defaultSource?_eq hT, findSome?_eq_of_perm hp hone.default]
  free := by
    obtain ⟨vs, hvs, hcs, -⟩ := h.constraints_perm hT
    obtain ⟨vs', hvs', hcs', -⟩ := h'.constraints_perm hT
    rw [hcs, hcs', List.flatMap_eq_nil_iff, List.flatMap_eq_nil_iff]
    simp only [hvs.mem_iff, hvs'.mem_iff, hp.mem_iff]

theorem describedBy_eq (hT : T.Plain) (h : Wrapped T ws t) (h' : Wrapped T ws' u)
    (hp : ws.Perm ws') (hone : Wrapping.Apart family ws) :
    t.describedBy defs = u.describedBy defs := by
  rw [TypeExpr.describedBy, TypeExpr.describedBy, h.description_eq hT, h'.description_eq hT,
    findSome?_eq_of_perm hp hone.description, h.core_eq hT h' hp]

theorem lastSet_eq (hT : T.Plain) (h : Wrapped T ws t) (h' : Wrapped T ws' u)
    (hp : ws.Perm ws') (hone : Wrapping.Apart family ws) {a : Attribute} {k : String}
    (hk : (a, k) ∈ family) :
    Constraint.lastSet a t.layerConstraints = Constraint.lastSet a u.layerConstraints := by
  obtain ⟨vs, hvs, hcs, -⟩ := h.constraints_perm hT
  obtain ⟨vs', hvs', hcs', -⟩ := h'.constraints_perm hT
  rw [hcs, hcs']
  refine Constraint.lastSet_flatMap_of_perm (hvs.trans (hp.trans hvs'.symm)) ?_
  rw [hvs.countP_eq]
  exact hone.bound a k hk

/-- Two orders of layers that do not contradict each other are described alike. -/
theorem outcomes {U : TypeExpr → Prop} {s : Session} (hU : Universe defs U) (hcore : U T.asType)
    (hi : Invariant defs U s) (hT : T.Plain) (h : Wrapped T ws t) (h' : Wrapped T ws' u)
    (hp : ws.Perm ws') (hone : Wrapping.Apart (T.asType.base defs).family ws)
    (ht : s.cached? t = none) (hu : s.cached? u = none) :
    Outcomes Schema.Equal (s.run (describe defs t)) (s.run (describe defs u)) := by
  cases ws with
  | nil =>
    obtain rfl := List.nil_perm.mp hp
    cases h
    cases h'
    exact .refl _
  | cons w ws =>
    have hbase : t.core = T.asType := h.core hT
    have hpaired := describe_paired hU (hbase ▸ hcore) hi (h.counterparts hT h' hp hone) ht hu
    generalize s.run (describe defs t) = res, s.run (describe defs u) = res' at hpaired
    cases hpaired with
    | failed e s s' => exact .failed e s s'
    | made hi hone' hd hd' hx hx' hr hr' =>
      refine .made fun depth k => ?_
      refine hone'.lookup_unfold_eq hi hx hx' hr hr' (hone'.finish_eq (h.counterparts hT h' hp hone)
        hd hd' (fun a ha => ?_) (h.describedBy_eq hT h' hp hone) (fun _ => ?_) fun _ => ?_) _
      · exact h.lastSet_eq hT h' hp hone (hbase ▸ ha)
      · rw [h.allowsNull_eq hT, h'.allowsNull_eq hT, hp.any_eq]
      · rw [h.allowsAbsence_eq hT, h'.allowsAbsence_eq hT, hp.any_eq]

end

end Wrapped

/-- Whatever the order in which layers are put around an expression, the analyses have the same base
and agree on absence, null and whether there is a default; and if the layers do not contradict each
other, a new session describes both orders alike. -/
theorem order_of_layers (source : Source) (observable : Bool) {T : TypeExpr} (hT : T.Plain)
    (hexpr : source.Expression T.asType) {ws ws' : List Wrapping} (hp : ws.Perm ws')
    (supply supply' : Supply) :
    let defs := source.definitions
    let t := ((Wrapping.applyAll T ws).run supply).1
    let u := ((Wrapping.applyAll T ws').run supply').1
    (∀ s s' : Session, ((t.analyse defs).run s).1.Alike ((u.analyse defs).run s').1) ∧
      (Wrapping.Apart (T.asType.base defs).family ws →
        Outcomes Schema.Equal ((Session.fresh observable).run (describe defs t))
          ((Session.fresh observable).run (describe defs u))) := by
  intro defs t u
  have h : Wrapped T ws t := .applyAll hT ws supply
  have h' : Wrapped T ws' u := .applyAll hT ws' supply'
  obtain ⟨U, hU, hin⟩ := source.universe
  exact ⟨fun s s' => h.analyse_alike hT h' hp s s', fun hone =>
    h.outcomes hU (hin _ hexpr) (.fresh observable) hT h' hp hone (Session.cached?_fresh _ _)
      (Session.cached?_fresh _ _)⟩

/-- Texts, with no declarations. -/
def textSource : Source where
  declarations := []
  written := [.atom (.builtin .text)]

theorem textSource_text : textSource.Expression (.atom (.builtin .text)) := by
  have hnodes : textSource.nodes = [.atom (.builtin .text)] := rfl
  exact .node (by rw [hnodes]; exact List.mem_singleton.mpr rfl)

theorem plain_text : (TypeExpr.atom (.builtin .text)).Plain :=
  ⟨rfl, nofun, rfl⟩

/-- A description and a bound, with a union between them in one order and right on each other in the
other. -/
theorem order_of_layers_text :
    let T := TypeExpr.atom (.builtin .text)
    let described := Wrapping.annotated [.field 0 { FieldSpec.empty with description := some "d" }]
    let bounded := Wrapping.annotated [.constraint (.minLength (.int 2))]
    let t := ((Wrapping.applyAll T [described, .optional, bounded]).run .empty).1
    let u := ((Wrapping.applyAll T [.optional, bounded, described]).run .empty).1
    Outcomes Schema.Equal ((Session.fresh false).run (describe textSource.definitions t))
      ((Session.fresh false).run (describe textSource.definitions u)) := by
  intro T described bounded t u
  have hp : [described, .optional, bounded].Perm [.optional, bounded, described] :=
    (List.Perm.swap _ _ _).trans ((List.Perm.swap _ _ _).cons _)
  refine (order_of_layers textSource false plain_text textSource_text hp .empty .empty).2 ?_
  refine ⟨by decide, by decide, fun a k _ => ?_⟩
  cases a <;> decide

/-! ## A union with null between two annotations -/

/-- How a schema whose annotations have a union with null between them compares to one whose
annotations lie on each other: `inside` and `outside` are the items of the two annotations. -/
structure Schema.Parted (family : List (Attribute × String)) (inside outside : List Metadata)
    (parted together : Schema) : Prop where
  /-- Keywords that at most one of the annotations sets, the description and the default. -/
  same : ∀ k, k ≠ "type" → k ≠ "optional" →
    (∀ a, (a, k) ∈ family →
      Constraint.lastSet a (inside.flatMap Metadata.constraints) = none ∨
        Constraint.lastSet a (outside.flatMap Metadata.constraints) = none) →
    parted.parts.lookup k = together.parts.lookup k
  /-- Of two bounds the one inside counts if there is a union between them, and the one outside if
  not. -/
  bound : ∀ a k v w, (a, k) ∈ family →
    Constraint.lastSet a (inside.flatMap Metadata.constraints) = some v →
    Constraint.lastSet a (outside.flatMap Metadata.constraints) = some w →
    parted.parts.lookup k = some (.data (a.written v)) ∧
      together.parts.lookup k = some (.data (a.written w))
  type : ∃ type : Option Value, together.parts.lookup "type" = type.map .data ∧
    parted.parts.lookup "type" = some (.data (typeWithNull type))
  optional : parted.parts.lookup "optional" = some (.data (.bool true)) ∧
    together.parts.lookup "optional" =
      if (Layer.ofItems outside).allowsAbsence || (Layer.ofItems inside).allowsAbsence
      then some (.data (.bool true)) else none

section

variable {T t u : TypeExpr} {inside outside : List Metadata}

theorem Wrapped.parted_counterparts (hT : T.Plain)
    (h : Wrapped T [.annotated outside, .optional, .annotated inside] t)
    (h' : Wrapped T [.annotated outside, .annotated inside] u) : t.Counterparts u where
  core := by rw [h.core hT, h'.core hT]
  source := by
    rw [h.defaultSource?_eq hT, h'.defaultSource?_eq hT]
    simp [findSome?_cons_or, Wrapping.layer, Layer.source?]
  free := by
    rw [h.constraints_apart hT, h'.constraints_together hT, List.append_eq_nil_iff,
      List.append_eq_nil_iff, and_comm]

theorem Wrapped.parted {defs : Definitions} {U : TypeExpr → Prop} {s : Session}
    (hU : Universe defs U) (hcore : U T.asType) (hi : Invariant defs U s) (hT : T.Plain)
    (h : Wrapped T [.annotated outside, .optional, .annotated inside] t)
    (h' : Wrapped T [.annotated outside, .annotated inside] u)
    (ht : s.cached? t = none) (hu : s.cached? u = none) :
    Outcomes (Schema.Parted (T.asType.base defs).family inside outside)
      (s.run (describe defs t)) (s.run (describe defs u)) := by
  have hc := h.parted_counterparts hT h'
  have hbase : t.core = T.asType := h.core hT
  have hbase' : u.core = T.asType := h'.core hT
  have hcs := h.constraints_apart hT
  have hcs' := h'.constraints_together hT
  have htext : t.describedBy defs = u.describedBy defs := by
    rw [TypeExpr.describedBy, TypeExpr.describedBy, h.description_eq hT, h'.description_eq hT,
      hc.core]
    simp [findSome?_cons_or, Wrapping.layer, Layer.description]
  have hpaired := describe_paired hU (hbase ▸ hcore) hi hc ht hu
  generalize s.run (describe defs t) = res, s.run (describe defs u) = res' at hpaired
  cases hpaired with
  | failed e s s' => exact .failed e s s'
  | @made m d r r' a b s s' hi hone hd hd' hx hx' hr hr' =>
    refine .made fun depth => ?_
    constructor
    case same =>
      intro k htype hoptional hset
      refine hone.lookup_unfold_eq hi hx hx' hr hr' (hone.finish_eq hc hd hd' (fun a ha => ?_) htext
        (absurd · htype) (absurd · hoptional)) _
      rw [hbase] at ha
      rw [hcs, hcs', Constraint.lastSet_append, Constraint.lastSet_append]
      rcases hset a ha with hnone | hnone <;> simp [hnone]
    case bound =>
      intro a k v w ha hv hw
      rw [Graph.lookup_unfold, Graph.lookup_unfold, hr, hr', hone.finish_bound (hbase ▸ ha),
        (hone.symm hc).finish_bound (hbase' ▸ ha), hcs, hcs', Constraint.lastSet_append,
        Constraint.lastSet_append, hv, hw]
      exact ⟨rfl, rfl⟩
    case type =>
      have hnull : (t.analysisWith defs d).nullable = true := by
        refine (h.allowsNull_eq hT).trans ?_
        simp [Wrapping.layer, Layer.allowsNull]
      have hnull' : (u.analysisWith defs d).nullable = false := by
        refine (h'.allowsNull_eq hT).trans ?_
        simp [Wrapping.layer, Layer.ofItems_eq]
      refine ⟨r.data? "type", ?_, ?_⟩
      · rw [Graph.lookup_unfold, hr', Analysis.lookup_finish_type, hnull',
          if_neg Bool.false_ne_true, ← hone.lookup_layer (by simp [layerKeywords]),
          hone.lookup_type, Option.map_map]
        rfl
      · rw [Graph.lookup_unfold, hr, Analysis.lookup_finish_type, hnull, if_pos rfl]
        rfl
    case optional =>
      rw [Graph.lookup_unfold, Graph.lookup_unfold, hr, hr', hone.finish_optional,
        (hone.symm hc).finish_optional, h.allowsAbsence_eq hT, h'.allowsAbsence_eq hT]
      constructor
      · simp [Wrapping.layer, Layer.allowsAbsence, Graph.partOf]
      · simp only [List.any_cons, List.any_nil, Bool.or_false, Wrapping.layer]
        split <;> rfl

end

/-- Annotations with a union with null between them say what the same annotations say right on each
other, but for two bounds of one kind, of which the other one counts; besides, null is allowed and
the value may be left out. -/
theorem null_between_annotations (source : Source) (observable : Bool) (calls : List Call)
    (hcalls : ∀ c ∈ calls, source.Expression c.type) {T : TypeExpr} (hT : T.Plain)
    (hexpr : source.Expression T.asType) (inside outside : List Metadata)
    (supply supply' : Supply) :
    let defs := source.definitions
    let s := (Session.after defs (.fresh observable) calls).2
    let t := ((Wrapping.applyAll T [.annotated outside, .optional, .annotated inside]).run supply).1
    let u := ((Wrapping.applyAll T [.annotated outside, .annotated inside]).run supply').1
    s.cached? t = none → s.cached? u = none →
      Outcomes (Schema.Parted (T.asType.base defs).family inside outside)
        (s.run (describe defs t)) (s.run (describe defs u)) := by
  intro defs s t u ht hu
  obtain ⟨U, hU, hin⟩ := source.universe
  have hi := (Session.after_preserves hU (fun c hc => hin _ (hcalls c hc))
    (.fresh observable)).2.2
  exact (Wrapped.applyAll hT _ supply).parted hU (hin _ hexpr) hi hT
    (.applyAll hT _ supply') ht hu

/-- Texts of at least one character, and of at least five. -/
theorem null_between_bounds :
    let T := TypeExpr.atom (.builtin .text)
    let short := Wrapping.annotated [.constraint (.minLength (.int 1))]
    let long := Wrapping.annotated [.constraint (.minLength (.int 5))]
    let t := ((Wrapping.applyAll T [long, .optional, short]).run .empty).1
    let u := ((Wrapping.applyAll T [long, short]).run .empty).1
    ∃ a b s s', (Session.fresh false).run (describe textSource.definitions t) = (.ok a, s) ∧
      (Session.fresh false).run (describe textSource.definitions u) = (.ok b, s') ∧
      (s.graph.unfold 1 a).parts.lookup "minLength" = some (.data (.int 1)) ∧
      (s'.graph.unfold 1 b).parts.lookup "minLength" = some (.data (.int 5)) ∧
      (s.graph.unfold 1 a).parts.lookup "minLength"
        ≠ (s'.graph.unfold 1 b).parts.lookup "minLength" := by
  refine ⟨_, _, _, _, rfl, rfl, rfl, rfl, fun h => ?_⟩
  cases h

theorem null_between_annotations_text :
    let T := TypeExpr.atom (.builtin .text)
    let inside : List Metadata := [.constraint (.minLength (.int 1))]
    let outside : List Metadata := [.constraint (.maxLength (.int 5))]
    let t := ((Wrapping.applyAll T [.annotated outside, .optional, .annotated inside]).run .empty).1
    let u := ((Wrapping.applyAll T [.annotated outside, .annotated inside]).run .empty).1
    Outcomes (Schema.Parted textKeywords inside outside)
      ((Session.fresh false).run (describe textSource.definitions t))
      ((Session.fresh false).run (describe textSource.definitions u)) := by
  intro T inside outside t u
  exact null_between_annotations textSource false [] (by simp) plain_text
    textSource_text inside outside .empty .empty (Session.cached?_fresh _ _)
    (Session.cached?_fresh _ _)

end ToolCatalog
