import ToolCatalog.Proofs.Operations
import ToolCatalog.Proofs.Orders
import ToolCatalog.Proofs.Wire

/-!
A descriptor that was returned never changes.

All that can be reached from it is there when it is returned: no record and no body that it leads to
is still to be made. Records are never written again, and a body only while its class is walked, so
nothing that is asked later changes any of it, and both forms of it are written as before.
-/
namespace ToolCatalog

/-- The body that a slot refers to. -/
def Slot.body? : Slot → Option Address
  | .properties b | .required b => some b
  | .data _ | .schema _ => none

namespace Graph

variable {g g' : Graph} {form : ExportForm} {a u : Address}

/-- One descriptor leads to another, as deep as one likes. -/
abbrev Reaches (g : Graph) : Address → Address → Prop :=
  Relation.ReflTransGen g.Edge

/-- A descriptor is there with the bodies that it refers to. -/
structure Present (g : Graph) (u : Address) : Prop where
  record : u < g.records.size
  body : ∀ k x b, (k, x) ∈ g.record u → x.body? = some b → b < g.bodies.size

/-- All that can be reached from a descriptor is there, and is the same in another graph: the
keywords in their order with what they hold, and the bodies that they refer to. -/
structure Frozen (g g' : Graph) (a : Address) : Prop where
  record : ∀ u, g.Reaches a u → ∃ r, g.records[u]? = some r ∧ g'.records[u]? = some r
  body : ∀ u k x b, g.Reaches a u → (k, x) ∈ g.record u → x.body? = some b →
    ∃ y, g.bodies[b]? = some y ∧ g'.bodies[b]? = some y

namespace Frozen

theorem of_reached (h : g.Frozen g' a) (hu : g.Reaches a u) : g.Frozen g' u :=
  ⟨fun v hv => h.record v (hu.trans hv), fun v k x b hv => h.body v k x b (hu.trans hv)⟩

theorem record_eq (h : g.Frozen g' a) : g'.record a = g.record a := by
  obtain ⟨r, hr, hr'⟩ := h.record a .refl
  rw [record_of_getElem? hr, record_of_getElem? hr']

theorem body_eq (h : g.Frozen g' a) {k : String} {x : Slot} {b : Address}
    (hx : (k, x) ∈ g.record a) (hb : x.body? = some b) : g'.body b = g.body b := by
  obtain ⟨y, hy, hy'⟩ := h.body a k x b .refl hx hb
  simp [Graph.body, hy, hy']

theorem edge_iff (h : g.Frozen g' a) {c : Address} : g'.Edge a c ↔ g.Edge a c := by
  have hleads (k x) (hx : (k, x) ∈ g.record a) : Slot.Leads g' c x ↔ Slot.Leads g c x := by
    cases x with
    | properties b =>
      show (∃ name, (name, c) ∈ (g'.body b).properties) ↔ _
      rw [h.body_eq hx rfl]
      rfl
    | _ => exact Iff.rfl
  unfold Edge Below
  rw [h.record_eq]
  constructor
  · rintro ⟨⟨k, x⟩, hx, hc⟩
    exact ⟨(k, x), hx, (hleads k x hx).mp hc⟩
  · rintro ⟨⟨k, x⟩, hx, hc⟩
    exact ⟨(k, x), hx, (hleads k x hx).mpr hc⟩

/-- Nothing more can be reached later, and nothing less. -/
theorem reaches_iff (h : g.Frozen g' a) : g'.Reaches a u ↔ g.Reaches a u := by
  constructor
  · intro hu
    induction hu with
    | refl => exact .refl
    | tail _ hstep ih => exact ih.tail ((h.of_reached ih).edge_iff.mp hstep)
  · intro hu
    induction hu with
    | refl => exact .refl
    | tail hway hstep ih => exact ih.tail ((h.of_reached hway).edge_iff.mpr hstep)

/-! ## What is written -/

theorem slotData?_eq (h : g.Frozen g' a) {k : String} {x : Slot} (hx : (k, x) ∈ g.record a) :
    g'.slotData? x = g.slotData? x := by
  cases x with
  | required b =>
    show some (Value.texts (g'.body b).required) = _
    rw [h.body_eq hx rfl]
    rfl
  | _ => rfl

theorem renderedInside_eq (h : g.Frozen g' a) :
    g'.renderedInside form (g.record a) = g.renderedInside form (g.record a) := by
  have hkept : (g.record a).filterMap (fun e => if leadsOn e.1 then none
        else ((g'.slotData? e.2).filter (form.keeps e.1)).map fun v => (e.1, SchemaPart.data v))
      = (g.record a).filterMap fun e => if leadsOn e.1 then none
        else ((g.slotData? e.2).filter (form.keeps e.1)).map fun v => (e.1, .data v) := by
    refine List.filterMap_congr fun e he => ?_
    rw [h.slotData?_eq he]
  unfold renderedInside
  rw [hkept]

theorem renderedSlots_eq (h : g.Frozen g' a) {child child' : Address → Schema}
    (hchild : ∀ c, g.Edge a c → child' c = child c) :
    g'.renderedSlots form child' (g.record a) = g.renderedSlots form child (g.record a) := by
  refine List.filterMap_congr fun e he => congrArg (Option.map _) ?_
  obtain ⟨k, x⟩ := e
  cases x with
  | schema c =>
    show some (SchemaPart.schema (child' c)) = some (.schema (child c))
    rw [hchild c ⟨_, he, rfl⟩]
  | properties b =>
    have hmap : (g.body b).properties.map (fun e => (e.1, child' e.2))
        = (g.body b).properties.map fun e => (e.1, child e.2) := by
      refine List.map_congr_left fun p hp => ?_
      rw [hchild p.2 ⟨_, he, p.1, hp⟩]
    show some (SchemaPart.properties ((g'.body b).properties.map _)) = some (.properties _)
    rw [h.body_eq he rfl, hmap]
  | data v => rfl
  | required b =>
    show ((g'.slotData? (.required b)).filter _).map _ = _
    rw [h.slotData?_eq he]
    rfl

theorem rendered_eq (h : g.Frozen g' a) {room room' : Nat} {active : List Address}
    (hroom : g.Room room active) (hroom' : g'.Room room' active) :
    g'.rendered form room' active a = g.rendered form room active a := by
  induction room generalizing room' active a with
  | zero => exact absurd hroom.pos (Nat.lt_irrefl 0)
  | succ room ih =>
    cases room' with
    | zero => exact absurd hroom'.pos (Nat.lt_irrefl 0)
    | succ room' =>
      obtain ⟨r, hr, hr'⟩ := h.record a .refl
      have hsize := (Array.getElem?_eq_some_iff.mp hr).1
      have hsize' := (Array.getElem?_eq_some_iff.mp hr').1
      rw [rendered, rendered, h.record_eq]
      by_cases ha : a ∈ active
      · rw [if_pos (by simpa using ha), if_pos (by simpa using ha)]
        exact h.renderedInside_eq
      · rw [if_neg (by simpa using ha), if_neg (by simpa using ha)]
        refine congrArg Schema.keywords (h.renderedSlots_eq fun c hc => ?_)
        exact ih (h.of_reached (.single hc)) (hroom.enter ha hsize) (hroom'.enter ha hsize')

/-- Both forms are written as before. -/
theorem render_eq (h : g.Frozen g' a) (hg : g.Proper) (hg' : g'.Proper) (form : ExportForm) :
    g'.render form a = g.render form a := by
  rw [Graph.render_eq hg, Graph.render_eq hg', h.rendered_eq (.start g) (.start g')]

end Frozen

end Graph

/-! ## Returned descriptors -/

section

variable {defs : Definitions} {U : TypeExpr → Prop} {s s' : Session} {t : TypeExpr}
  {a u b : Address} {r : Record}

/-- Where all that can be reached is there, it is frozen from then on. -/
theorem Session.Extends.frozen (hx : s.Extends none s')
    (h : ∀ u, s.graph.Reaches a u → s.graph.Present u) : s.graph.Frozen s'.graph a := by
  constructor
  case record =>
    intro u hu
    have hr := Array.getElem?_eq_getElem (h u hu).record
    exact ⟨_, hr, hx.record u _ hr⟩
  case body =>
    intro u k x b hu hk hb
    have hy := Array.getElem?_eq_getElem ((h u hu).body k x b hk hb)
    exact ⟨_, hy, hx.body b _ hy (by simp)⟩

/-- The descriptor of an expression is there. -/
theorem Finished.lt_records {a₀ : Address} (hf : Finished defs s t a₀ r a)
    (hr : s.graph.records[a₀]? = some r) : a < s.graph.records.size := by
  obtain ⟨d, -, hf⟩ := hf
  split at hf
  · exact (Array.getElem?_eq_some_iff.mp hf).1
  · rw [hf]
    exact (Array.getElem?_eq_some_iff.mp hr).1

/-- The only body that the record of an object class refers to is its own. -/
theorem objectRecord_body {c : ObjectClass} {k : String} {x : Slot} {b' : Address}
    (hk : (k, x) ∈ objectRecord c b) (hb : x.body? = some b') : b' = b := by
  have hcases : (∃ v, x = .data v) ∨ x = .properties b ∨ x = .required b := by
    unfold objectRecord at hk
    cases hd : nonEmpty? c.doc <;> simp [hd, Record.ofType] at hk <;> grind
  rcases hcases with ⟨v, rfl⟩ | rfl | rfl
  · cases hb
  · exact (Option.some.inj hb).symm
  · exact (Option.some.inj hb).symm

theorem constrain_body {family : List (Attribute × String)} {cs : List Constraint}
    (hr : ∀ e ∈ r, e.2.body? = none) : ∀ e ∈ r.constrain family cs, e.2.body? = none := by
  intro e he
  rcases Record.mem_putAll he with he | ⟨x, -, rfl⟩
  · exact hr e he
  · rfl

/-- The record of a base that is no object class refers to no body. -/
theorem Base.recordOf_body {b : Base} {cs : List Constraint} {p : Address}
    (h : b.recordOf cs p = .ok r) : ∀ e ∈ r, e.2.body? = none := by
  cases b with
  | string f =>
    cases f <;>
    · cases h
      exact constrain_body (by simp [Record.ofType, Slot.body?])
  | number i =>
    cases h
    exact constrain_body (by simp [Record.ofType, Slot.body?])
  | array e =>
    cases h
    exact constrain_body (by simp [Record.ofType, Slot.body?])
  | enumeration ms =>
    obtain ⟨data, -, rfl⟩ := recordOf_enumeration h
    unfold enumerationRecord
    cases commonType? (data.map Value.jsonType?) <;> simp [Record.ofType, Slot.body?]
  | literal m =>
    obtain ⟨v, -, rfl⟩ := recordOf_literal h
    unfold constantRecord
    cases v.jsonType? <;> simp [Record.ofType, Slot.body?]
  | _ =>
    cases h
    simp [Record.ofType, Slot.body?]

/-- The descriptor of an expression is there with its body, though the walk of its class may have
broken off. -/
theorem Shows.present (hi : Invariant defs U s) (h : Shows defs s t a) :
    s.graph.Present a := by
  obtain ⟨a₀, r, hs, hf⟩ := h.stands
  refine ⟨hf.lt_records hs.record, fun k x b hk hb => ?_⟩
  obtain ⟨below, hr⟩ := hs.profile
  obtain ⟨d, hd, heq⟩ := hf.finish hs.record
  -- The layers add data, so the slot is one of the record under them.
  rw [heq] at hk
  rcases Analysis.mem_finish (hd.isWire defs) hr.layered hk with hk | ⟨v, hv, -⟩
  · cases hs with
    | object hbase hc hrec =>
      obtain ⟨m, hm, hfind⟩ := TypeExpr.base_object hbase
      obtain ⟨b', y, fs, rest, hrec', hbody, -⟩ := hi.walked hfind (hm ▸ hc)
      obtain rfl := objectRecord_inj (Option.some.inj (hrec'.symm.trans hrec))
      rw [objectRecord_body hk hb]
      exact (Array.getElem?_eq_some_iff.mp hbody).1
    | value hbase hp hrecord hrec =>
      rw [Base.recordOf_body hrecord _ hk] at hb
      cases hb
  · rw [show x = .data v from hv] at hb
    cases hb

/-- All that can be reached from the descriptor of an expression is there. -/
theorem Shows.reached_present (hi : Invariant defs U s) (h : Shows defs s t a)
    (hu : s.graph.Reaches a u) : s.graph.Present u := by
  induction hu using Relation.ReflTransGen.head_induction_on generalizing t with
  | refl => exact h.present hi
  | head he _ ih =>
    obtain ⟨v, hv, -⟩ := h.edge_meets hi he
    exact ih hv

theorem ShowsParameters.reached_present (hi : Invariant defs U s)
    (h : ShowsParameters defs s t a) (hu : s.graph.Reaches a u) : s.graph.Present u := by
  cases h with
  | object hb h => exact h.reached_present hi hu
  | @empty b hb hr hbody =>
    have hrecord : s.graph.record a = emptyObjectRecord b := Graph.record_of_getElem? hr
    rcases hu.cases_head with rfl | ⟨c, hc, -⟩
    · refine ⟨(Array.getElem?_eq_some_iff.mp hr).1, fun k x b' hk hb' => ?_⟩
      rw [hrecord] at hk
      have hself : b' = b := by
        simp [emptyObjectRecord, Record.ofType] at hk
        rcases hk with ⟨-, rfl⟩ | ⟨-, rfl⟩
        · cases hb'
        · exact (Option.some.inj hb').symm
      rw [hself]
      exact (Array.getElem?_eq_some_iff.mp hbody).1
    -- The empty object leads nowhere.
    · rw [Graph.Edge, hrecord, (Record.Profile.emptyObjectRecord b).below, Graph.body, hbody] at hc
      obtain ⟨name, hname⟩ := hc
      simp at hname

theorem Call.Answered.reached_present {c : Call} (hi : Invariant defs U s)
    (h : c.Answered defs s a) (hu : s.graph.Reaches a u) : s.graph.Present u := by
  cases c with
  | describe t => exact Shows.reached_present hi h hu
  | compile t => exact ShowsParameters.reached_present hi h hu

end

/-- Once a call has returned a descriptor, whatever was asked before and whatever is asked later,
all that can be reached from it is frozen: the same records with the same keywords in the same
order, the same bodies, and both forms written as before. -/
theorem returned_frozen (source : Source) {r : Registry} {observable : Bool}
    (hr : r.session = .fresh observable) {before later : List Operation}
    (hbefore : Operation.AllOf source before) (hlater : Operation.AllOf source later) {c : Call}
    (hc : source.Expression c.type) {r' : Registry} {a : Address}
    (h : (Operation.call c).run source.definitions (r.through source.definitions before)
      = (.descriptor (.ok a), r')) :
    let g := r'.session.graph
    let g' := (r'.through source.definitions later).session.graph
    g.Frozen g' a ∧ (∀ u, g'.Reaches a u ↔ g.Reaches a u) ∧
      ∀ form, g'.render form a = g.render form a := by
  obtain ⟨U, hU, hexpr⟩ := source.universe
  have hfirst := Registry.through_fresh hU hexpr hr hbefore
  obtain ⟨s', hrun, rfl⟩ := Operation.run_call h
  have hcall := Call.preserves hU (hexpr _ hc) hfirst.inv hrun
  have hproper : s'.Proper := Call.proper hfirst.proper hrun
  have hrest := Registry.through_later (r := { r.through source.definitions before with
    session := s' }) hU (fun op ho t ht => hexpr t (hlater op ho t ht)) hcall.inv hproper
  have hfrozen := hrest.growth.frozen fun u hu =>
    (hcall.result a rfl).reached_present hcall.inv hu
  exact ⟨hfrozen, fun u => hfrozen.reaches_iff,
    hfrozen.render_eq hproper hrest.proper⟩

/-- The registry after its session described the tree, and then compiled it. -/
def treeDescribed : Registry :=
  (Registry.empty wordSettings).through treeSource.definitions
    [.call (.describe (.declared "Tree"))]

def treeCompiled : Registry :=
  ((Operation.call (.compile (.declared "Tree"))).run treeSource.definitions treeDescribed).2

theorem returned_frozen_tree :
    let g := treeCompiled.session.graph
    let g' := (treeCompiled.through treeSource.definitions
      [.register (.one treeDefinition), .register (.batch [treeDefinition, treeDefinition]),
        .write .strict 0, .call (.describe (.declared "Tree"))]).session.graph
    g.Frozen g' 0 ∧ (∀ u, g'.Reaches 0 u ↔ g.Reaches 0 u) ∧
      ∀ form, g'.render form 0 = g.render form 0 := by
  have hnodes : treeSource.nodes = [.declared "Tree"] := rfl
  have htree : treeSource.Expression (.declared "Tree") :=
    .node (by rw [hnodes]; exact List.mem_singleton.mpr rfl)
  have hbefore : Operation.AllOf treeSource [.call (.describe (.declared "Tree"))] := by
    simpa [Operation.AllOf, Operation.types, Call.type] using htree
  have hlater : Operation.AllOf treeSource [.register (.one treeDefinition),
      .register (.batch [treeDefinition, treeDefinition]), .write .strict 0,
      .call (.describe (.declared "Tree"))] := by
    simpa [Operation.AllOf, Operation.types, Call.type, Registration.definitions,
      treeDefinition] using htree
  have hfresh : (Registry.empty wordSettings).session = .fresh false := rfl
  exact returned_frozen treeSource hfresh hbefore hlater (c := .compile (.declared "Tree")) htree
    (Prod.ext rfl rfl)

end ToolCatalog
