import ToolCatalog.Proofs.Plain
import ToolCatalog.Proofs.Rendering
import ToolCatalog.Proofs.Charting

/-!
Two sessions with charts write out an expression alike.

A descriptor is cut where it stands inside itself. Whether it does can be read off the chart: two
descriptors are one exactly if they have one seat, and the seats along a way do not depend on the
session. So what is written of an expression does not depend on it either.
-/
namespace ToolCatalog

/-! ## What is written of records that agree -/

section

variable {g g' : Graph} {form : ExportForm} {child child' : Address → Schema} {r r' : Record}

/-- A part of a schema, if the form keeps it. -/
def ExportForm.part? (form : ExportForm) (key : String) : SchemaPart → Option SchemaPart
  | .data v => if form.keeps key v then some (.data v) else none
  | part => some part

/-- The data of a part of a schema, if it is data. -/
def SchemaPart.data? : SchemaPart → Option Value
  | .data v => some v
  | _ => none

theorem Graph.renderedSlots_eq : g.renderedSlots form child r
    = (r.map fun e => (e.1, g.partOf child e.2)).filterMap fun e =>
        (form.part? e.1 e.2).map fun p => (e.1, p) := by
  rw [Graph.renderedSlots, List.filterMap_map]
  refine List.filterMap_congr fun e _ => ?_
  obtain ⟨k, slot⟩ := e
  cases slot <;>
    simp [Graph.renderedSlot, Graph.partOf, ExportForm.part?, Graph.slotData?, Option.filter]

theorem Graph.renderedInside_kept_eq (child : Address → Schema) :
    (r.filterMap fun e => if leadsOn e.1 then none
      else ((g.slotData? e.2).filter (form.keeps e.1)).map fun v => (e.1, SchemaPart.data v))
    = (r.map fun e => (e.1, g.partOf child e.2)).filterMap fun e => if leadsOn e.1 then none
      else (e.2.data?.filter (form.keeps e.1)).map fun v => (e.1, SchemaPart.data v) := by
  rw [List.filterMap_map]
  refine List.filterMap_congr fun e _ => ?_
  obtain ⟨k, slot⟩ := e
  cases slot <;> rfl

theorem Record.Agree.map_eq (h : Record.Agree (g.partOf child) (g'.partOf child') r r') :
    (r.map fun e => (e.1, g.partOf child e.2)) = r'.map fun e => (e.1, g'.partOf child' e.2) := by
  have hw := h.written_eq
  rwa [Record.written, Record.written, Schema.keywords.injEq] at hw

theorem Record.Agree.renderedSlots_eq
    (h : Record.Agree (g.partOf child) (g'.partOf child') r r') :
    g.renderedSlots form child r = g'.renderedSlots form child' r' := by
  rw [Graph.renderedSlots_eq, Graph.renderedSlots_eq, h.map_eq]

theorem Record.Agree.renderedInside_eq (h : Record.Agree (g.partOf child) (g'.partOf child') r r') :
    g.renderedInside form r = g'.renderedInside form r' := by
  unfold Graph.renderedInside
  rw [Graph.renderedInside_kept_eq child, Graph.renderedInside_kept_eq child', h.map_eq]

end

/-! ## Fields in their seats -/

theorem map_numbered (fs : List (String × TypeExpr)) :
    (numbered fs).map (fun e => (e.1, e.2.1)) = fs := by
  rw [numbered, List.map_map]
  exact List.zipIdx_map_fst 0 fs

/-- The part of a base stands in its record. -/
theorem Base.part_mem_recordOf {b : Base} {cs : List Constraint} {c : Address} {r : Record}
    (hp : b.part?.isSome) (h : b.recordOf cs c = .ok r) :
    ∃ k, (k, Slot.schema c) ∈ r ∧ k ∉ layerKeywords := by
  cases b with
  | array e =>
    cases h
    refine ⟨"items", Record.mem_putAll_of_mem (by simp) fun x hx => ?_, by simp [layerKeywords]⟩
    obtain ⟨y, hy, hkey⟩ := Constraint.mem_keywords hx
    rw [← hkey]
    revert y
    simp [arrayKeywords]
  | record e =>
    cases h
    exact ⟨"additionalProperties", by simp, by simp [layerKeywords]⟩
  | _ => cases hp

/-! ## Sessions with charts -/

/-- Every object class that has a descriptor has all its fields in their seats. -/
def AllFilled (defs : Definitions) (U : TypeExpr → Prop) (s : Session) (L : Chart) : Prop :=
  ∀ name c, U (.declared name) → defs.find? name = some (.object c) →
    s.Knows name → Filled defs s L 0 name c

/-- A session in which nothing is pending, with its chart: every object class is complete and has
its fields in their seats. -/
structure Charted (defs : Definitions) (U : TypeExpr → Prop) (s : Session) (L : Chart) : Prop where
  seated : Seated defs U [] s L
  filled : AllFilled defs U s L
  complete : AllComplete defs s

section

variable {defs : Definitions} {U : TypeExpr → Prop} {s s' : Session} {L L' : Chart}
  {t : TypeExpr} {a a' b : Address} {p : Seat} {name : String} {c : ObjectClass}

/-- The body of an object class in a session with a chart. -/
theorem Charted.body (h : Charted defs U s L) (hU : U (.declared name))
    (hf : defs.find? name = some (.object c)) (hc : s.cached? (.declared name) = some a)
    (hr : s.graph.records[a]? = some (objectRecord c b)) :
    Walked defs s c.fields (s.graph.body b) ∧ (s.graph.body b).Seats defs s L name c.fields := by
  have hone {b' : Address} {x : Body} (hh : s.Holds name c b')
      (hx : s.graph.bodies[b']? = some x) : s.graph.body b = x := by
    obtain ⟨a', hc', hr'⟩ := hh
    rw [hc, Option.some.injEq] at hc'
    subst hc'
    rw [hr, Option.some.injEq] at hr'
    rw [objectRecord_inj hr', Graph.body, hx]
    rfl
  obtain ⟨b₁, x₁, hh₁, hx₁, hw⟩ := h.complete name c hf (by simp [hc])
  obtain ⟨b₂, x₂, hh₂, -, hx₂, hseats⟩ := h.filled name c hU hf
    (Option.isSome_of_eq_some (Session.known?_of_cached? hc))
  rw [hone hh₁ hx₁]
  refine ⟨hw, ?_⟩
  rw [← hone hh₁ hx₁, hone hh₂ hx₂]
  exact hseats

/-- The descriptor of an expression was described at a seat and has all that it should. -/
structure Stays (defs : Definitions) (s : Session) (L : Chart) (p : Seat) (t : TypeExpr)
    (a : Address) : Prop where
  shows : Shows defs s t a
  sits : Sits defs s L p t a

/-- The properties of a class in two sessions are descriptors of the same fields in the same
seats. -/
theorem properties_eq {b' : Address}
    (hw : Walked defs s c.fields (s.graph.body b))
    (hw' : Walked defs s' c.fields (s'.graph.body b'))
    (hx : (s.graph.body b).Seats defs s L name c.fields)
    (hx' : (s'.graph.body b').Seats defs s' L' name c.fields)
    (child child' : Address → Schema)
    (hchild : ∀ f ∈ c.fields, ∀ q d d', Stays defs s L q f.2 d → Stays defs s' L' q f.2 d' →
      child d = child' d') :
    (s.graph.body b).properties.map (fun e => (e.1, child e.2))
      = (s'.graph.body b').properties.map fun e => (e.1, child' e.2) := by
  have hfields : Entries.ofList c.fields
      = (Entries.ofList (numbered c.fields)).map fun e => (e.1, e.2.1) := by
    have hmap := Entries.ofList_map (fun e : TypeExpr × Nat => e.1) (numbered c.fields)
    rwa [map_numbered] at hmap
  have hshows {s : Session} {x : Body} (hw : Walked defs s c.fields x) := hw.properties
  simp only [hfields, List.forall₂_map_left_iff] at hshows
  refine map_eq_of_common (forall₂_and (hshows hw) hx) (forall₂_and (hshows hw') hx') ?_
  rintro ⟨n, u, i⟩ hmem ⟨n₁, d⟩ ⟨n₂, d'⟩ ⟨⟨rfl, hd⟩, -, hs⟩ ⟨⟨rfl, hd'⟩, -, hs'⟩
  have hf : (n, u) ∈ c.fields := by
    have := List.mem_map_of_mem (f := fun e : String × TypeExpr × Nat => (e.1, e.2.1))
      (Entries.mem_ofList hmem)
    rwa [map_numbered] at this
  rw [hchild (n, u) hf _ d d' ⟨hd, hs⟩ ⟨hd', hs'⟩]

/-- The part of an expression that was described sits below it. -/
theorem Sits.part {e : TypeExpr} {d : Address} {r : Record} {an : Analysis}
    (he : (t.core.base defs).part? = some e)
    (hrec : (t.core.base defs).recordOf t.layerConstraints d = .ok r)
    (hrecord : s.graph.record a = an.finish r) (h : Sits defs s L p t a) :
    Sits defs s L (t.partSeat defs p) e d := by
  obtain ⟨k, hk, hlayer⟩ := Base.part_mem_recordOf (Option.isSome_of_eq_some he) hrec
  cases h with
  | mk hr _ _ hparts =>
    rw [Graph.record_of_getElem? hr] at hrecord
    exact hparts e k d he (hrecord ▸ Analysis.mem_finish_of_mem hk hlayer)

/-- The descriptors of an expression in two sessions agree if those of what is met next do. -/
theorem Stays.agree (hU : Universe defs U) (hc : Charted defs U s L) (hc' : Charted defs U s' L')
    (ht : U t) (hsteady : t.Steady) (h : Stays defs s L p t a) (h' : Stays defs s' L' p t a')
    (child child' : Address → Schema)
    (hchild : ∀ u q d d', t.Meets defs u → Stays defs s L q u d → Stays defs s' L' q u d' →
      child d = child' d') :
    Record.Agree (s.graph.partOf child) (s'.graph.partOf child') (s.graph.record a)
      (s'.graph.record a') := by
  have hkeep := s.graph.partOf_keepsData child
  have hkeep' := s'.graph.partOf_keepsData child'
  cases h.shows with
  | @object _ c a₀ b _ hb hcache hr hf =>
    cases h'.shows with
    | value hb' _ _ _ _ =>
      rw [hb] at hb'
      cases hb'
    | @object _ c' a₀' b' _ hb' hcache' hr' hf' =>
      rw [hb] at hb'
      cases hb'
      obtain ⟨name, hname, hfind⟩ := TypeExpr.base_object hb
      have hclass : U (.declared name) := hname ▸ hU.core ht
      rw [hname] at hcache hcache'
      obtain ⟨hw, hx⟩ := hc.body hclass hfind hcache hr
      obtain ⟨hw', hx'⟩ := hc'.body hclass hfind hcache' hr'
      have hprops := properties_eq hw hw' hx hx' child child'
        fun f hfm q d d' => hchild f.2 q d d'
          (.field hb (Session.cached?_fresh false _) hfm (.here _))
      rw [hf.record hsteady hr, hf'.record hsteady hr']
      exact (objectRecord_agree hkeep hkeep' c (congrArg SchemaPart.properties hprops)
        (by simp only [Graph.partOf, ← hw.required, ← hw'.required])).finish hkeep hkeep' _
  | @value _ d a₀ r _ hb hp hrec hr hf =>
    cases h'.shows with
    | object hb' _ _ _ =>
      rw [hb'] at hb
      cases hb
    | @value _ d' a₀' r' _ hb' hp' hrec' hr' hf' =>
      have hrecord := hf.record hsteady hr
      have hrecord' := hf'.record hsteady hr'
      have hpart (he : (t.core.base defs).part?.isSome) : child d = child' d' := by
        obtain ⟨e, he⟩ := Option.isSome_iff_exists.mp he
        exact hchild e _ d d' (.part he (.here e)) ⟨hp e he, h.sits.part he hrec hrecord⟩
          ⟨hp' e he, h'.sits.part he hrec' hrecord'⟩
      have hslot (he : (t.core.base defs).part?.isSome) :
          s.graph.partOf child (.schema d) = s'.graph.partOf child' (.schema d') :=
        congrArg SchemaPart.schema (hpart he)
      obtain ⟨r₂, hrec₂, hagree⟩ := Base.recordOf_agree hkeep hkeep' hslot hrec
      obtain rfl : r₂ = r' := by
        rw [hrec₂] at hrec'
        cases hrec'
        rfl
      rw [hrecord, hrecord']
      exact hagree.finish hkeep hkeep' _

/-- A descriptor stands inside itself in one session exactly if it does in the other. -/
theorem mem_iff_of_charts {P P' : List Key} (h : Seated defs U P s L) (h' : Seated defs U P' s' L')
    {active active' : List Address} (hactive : active.map L = active'.map L') {q : Seat}
    (ha : L a = some q) (ha' : L' a' = some q) : a ∈ active ↔ a' ∈ active' := by
  constructor
  · intro hm
    have := List.mem_map_of_mem (f := L) hm
    rw [hactive, ha] at this
    obtain ⟨d, hd, hq⟩ := List.mem_map.mp this
    rwa [← h'.distinct hq ha']
  · intro hm
    have := List.mem_map_of_mem (f := L') hm
    rw [← hactive, ha'] at this
    obtain ⟨d, hd, hq⟩ := List.mem_map.mp this
    rwa [← h.distinct hq ha]

/-- What is written of an expression does not depend on the session. -/
theorem Stays.rendered_eq (hU : Universe defs U) (hc : Charted defs U s L)
    (hc' : Charted defs U s' L') (form : ExportForm) {room room' : Nat}
    {active active' : List Address} (hroom : s.graph.Room room active)
    (hroom' : s'.graph.Room room' active') (hactive : active.map L = active'.map L')
    (ht : U t) (hsteady : ∀ u, t.Meets defs u → u.Steady) (h : Stays defs s L p t a)
    (h' : Stays defs s' L' p t a') :
    s.graph.rendered form room active a = s'.graph.rendered form room' active' a' := by
  induction room generalizing room' active active' t p a a' with
  | zero => exact absurd hroom.pos (Nat.lt_irrefl 0)
  | succ room ih =>
    cases room' with
    | zero => exact absurd hroom'.pos (Nat.lt_irrefl 0)
    | succ room' =>
      have hlabel := h.sits.label
      have hlabel' := h'.sits.label
      have hmem := mem_iff_of_charts hc.seated hc'.seated hactive hlabel hlabel'
      rw [Graph.rendered, Graph.rendered]
      by_cases ha : a ∈ active
      · rw [if_pos (by simpa using ha), if_pos (by simpa using hmem.mp ha)]
        -- A descriptor inside itself keeps no schemas.
        exact (h.agree hU hc hc' ht (hsteady t (.here t)) h' (fun _ => .keywords [])
          (fun _ => .keywords []) fun _ _ _ _ _ _ _ => rfl).renderedInside_eq
      · have ha' : a' ∉ active' := fun hm => ha (hmem.mpr hm)
        rw [if_neg (by simpa using ha), if_neg (by simpa using ha')]
        have hbound := hc.seated.bounded hlabel
        have hbound' := hc'.seated.bounded hlabel'
        refine congrArg Schema.keywords (h.agree hU hc hc' ht (hsteady t (.here t)) h' _ _
          fun u q d d' hu hd hd' => ?_).renderedSlots_eq
        refine ih (hroom.enter ha hbound) (hroom'.enter ha' hbound') ?_ ?_ ?_ hd hd'
        · rw [List.map_cons, List.map_cons, hlabel, hlabel', hactive]
        · exact TypeExpr.Meets.closed (fun _ _ => hU.part) (fun _ _ _ _ => hU.field) hu ht
        · exact fun w hw => hsteady w (hu.trans hw)

end

end ToolCatalog
