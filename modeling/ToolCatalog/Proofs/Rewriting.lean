import ToolCatalog.Proofs.Cleaning

/-!
Writing out again what has been written out.

A schema is a descriptor too: planted in a graph, every schema in it becomes a descriptor of its
own. Nothing leads back there, so the canonical form of a schema is a copy of that very schema, and
the strict form is a copy of the schema cleaned. So both forms of a compiled descriptor are written
as they are, and the strict form can as well be had from the canonical one.
-/
namespace ToolCatalog

namespace Schema

mutual

/-- Enters a schema into a graph, with new descriptors for it and for all that it holds. -/
def plant : Schema → Graph → Address × Graph
  | .keywords ps, g =>
    let r := plantParts ps g
    r.2.addRecord r.1

def plantParts : List (String × SchemaPart) → Graph → Record × Graph
  | [], g => ([], g)
  | (k, p) :: rest, g =>
    let slot := plantPart p g
    let r := plantParts rest slot.2
    ((k, slot.1) :: r.1, r.2)

def plantPart : SchemaPart → Graph → Slot × Graph
  | .data v, g => (.data v, g)
  | .schema s, g =>
    let a := s.plant g
    (.schema a.1, a.2)
  | .properties ps, g =>
    let properties := plantProperties ps g
    let body := properties.2.addBody ⟨properties.1, []⟩
    (.properties body.1, body.2)

def plantProperties : List (String × Schema) → Graph → Entries Address × Graph
  | [], g => ([], g)
  | (name, s) :: rest, g =>
    let a := s.plant g
    let properties := plantProperties rest a.2
    ((name, a.1) :: properties.1, properties.2)

end

/-- Writes out a schema that is taken as a descriptor. -/
def render (form : ExportForm) (s : Schema) : Except ExportFault Schema :=
  let planted := s.plant .empty
  planted.2.render form planted.1

end Schema

namespace Graph

/-- A graph to which records and bodies have been added. -/
structure Extends (g g' : Graph) : Prop where
  record : ∀ (a : Address) (r : Record), g.records[a]? = some r → g'.records[a]? = some r
  body : ∀ (b : Address) (x : Body), g.bodies[b]? = some x → g'.bodies[b]? = some x

namespace Extends

theorem refl (g : Graph) : g.Extends g :=
  ⟨fun _ _ => id, fun _ _ => id⟩

theorem trans {g g₁ g' : Graph} (h : g.Extends g₁) (h' : g₁.Extends g') : g.Extends g' :=
  ⟨fun a r hr => h'.record a r (h.record a r hr), fun b x hx => h'.body b x (h.body b x hx)⟩

theorem addRecord (g : Graph) (r : Record) : g.Extends (g.addRecord r).2 := by
  refine ⟨fun a x hx => ?_, fun _ _ => id⟩
  have ha : a < g.records.size := (Array.getElem?_eq_some_iff.mp hx).1
  simpa [Graph.addRecord, Array.getElem?_push, Nat.ne_of_lt ha] using hx

theorem addBody (g : Graph) (x : Body) : g.Extends (g.addBody x).2 := by
  refine ⟨fun _ _ => id, fun b y hy => ?_⟩
  have hb : b < g.bodies.size := (Array.getElem?_eq_some_iff.mp hy).1
  simpa [Graph.addBody, Array.getElem?_push, Nat.ne_of_lt hb] using hy

end Extends

/-- What a slot holds has the structure of a part of a schema. -/
inductive Writes (g : Graph) : Slot → SchemaPart → Prop
  | data (v : Value) : Writes g (.data v) (.data v)
  | schema {a s} (h : g.Spells a s) : Writes g (.schema a) (.schema s)
  | properties {b ps}
      (h : List.Forall₂ (fun e p => e.1 = p.1 ∧ g.Spells e.2 p.2) (g.body b).properties ps) :
      Writes g (.properties b) (.properties ps)

variable {g G : Graph} {a : Address} {s : Schema} {ps : List (String × SchemaPart)} {r : Record}

/-- Schemas can be chosen for all descriptors at once: a descriptor has the structure of one schema
only. -/
theorem exists_spelling (g : Graph) :
    ∃ child : Address → Schema, ∀ c s, g.Spells c s → child c = s := by
  classical
  refine ⟨fun c => if h : ∃ s, g.Spells c s then h.choose else .keywords [], fun c s hs => ?_⟩
  have hex : ∃ s, g.Spells c s := ⟨s, hs⟩
  show (if h : ∃ s, g.Spells c s then h.choose else .keywords []) = s
  rw [dif_pos hex]
  exact hs.unique hex.choose_spec

namespace Writes

variable {child : Address → Schema} {slot : Slot} {p : SchemaPart}

theorem partOf_eq (h : g.Writes slot p) (hchild : ∀ c s, g.Spells c s → child c = s) :
    g.partOf child slot = p := by
  cases h with
  | data v => rfl
  | schema hs => exact congrArg SchemaPart.schema (hchild _ _ hs)
  | @properties b ps hps =>
    refine congrArg SchemaPart.properties ?_
    have hmap := map_eq_of_forall₂ (f := fun e : String × Address => (e.1, child e.2))
      (g := fun q : String × Schema => q)
      (hps.imp fun e q he => Prod.ext he.1 (hchild _ _ he.2))
    rwa [List.map_id'] at hmap

theorem spells (h : g.Writes slot p) {c : Address} (hc : slot.Leads g c) :
    ∃ s, g.Spells c s := by
  cases h with
  | data v => exact hc.elim
  | @schema a s hs =>
    obtain rfl : a = c := hc
    exact ⟨s, hs⟩
  | properties hps =>
    obtain ⟨name, hmem⟩ := hc
    obtain ⟨q, -, -, hs⟩ := exists_of_mem_left hps hmem
    exact ⟨q.2, hs⟩

end Writes

/-- A descriptor has the structure of a schema if its slots have that of the parts. -/
theorem Spells.of_writes (hr : g.record a = r)
    (h : List.Forall₂ (fun e p => e.1 = p.1 ∧ g.Writes e.2 p.2) r ps) :
    g.Spells a (.keywords ps) := by
  obtain ⟨child, hchild⟩ := g.exists_spelling
  have hwritten : (g.record a).written (g.partOf child) = .keywords ps := by
    rw [hr, Record.written, Schema.keywords.injEq]
    have hmap := map_eq_of_forall₂ (f := fun e : String × Slot => (e.1, g.partOf child e.2))
      (g := fun p : String × SchemaPart => p)
      (h.imp fun e p he => Prod.ext he.1 (he.2.partOf_eq hchild))
    rwa [List.map_id'] at hmap
  rw [← hwritten]
  refine .intro fun c hc => ?_
  obtain ⟨e, he, hleads⟩ := hc
  obtain ⟨p, -, -, hw⟩ := exists_of_mem_left h (hr ▸ he)
  obtain ⟨s, hs⟩ := hw.spells hleads
  rwa [hchild c s hs]

end Graph

/-! ## Planting -/

namespace Schema

mutual

theorem plant_extends : ∀ (s : Schema) (g : Graph), g.Extends (s.plant g).2
  | .keywords ps, g => (plantParts_extends ps g).trans (.addRecord _ _)

theorem plantParts_extends : ∀ (ps : List (String × SchemaPart)) (g : Graph),
    g.Extends (plantParts ps g).2
  | [], g => .refl g
  | (_, p) :: rest, g => (plantPart_extends p g).trans (plantParts_extends rest _)

theorem plantPart_extends : ∀ (p : SchemaPart) (g : Graph), g.Extends (plantPart p g).2
  | .data _, g => .refl g
  | .schema s, g => plant_extends s g
  | .properties ps, g => (plantProperties_extends ps g).trans (.addBody _ _)

theorem plantProperties_extends : ∀ (ps : List (String × Schema)) (g : Graph),
    g.Extends (plantProperties ps g).2
  | [], g => .refl g
  | (_, s) :: rest, g => (plant_extends s g).trans (plantProperties_extends rest _)

end

mutual

/-- What has been planted has the structure of the schema, in every later graph. -/
theorem plant_spells : ∀ (s : Schema) (g : Graph) {G : Graph}, (s.plant g).2.Extends G →
    G.Spells (s.plant g).1 s
  | .keywords ps, g, G, h => by
    have hrecord : (plantParts ps g).2.Extends G := (Graph.Extends.addRecord _ _).trans h
    refine .of_writes (Graph.record_of_getElem? (h.record _ _ ?_)) (plantParts_writes ps g hrecord)
    simp [plant, Graph.addRecord]

theorem plantParts_writes : ∀ (ps : List (String × SchemaPart)) (g : Graph) {G : Graph},
    (plantParts ps g).2.Extends G →
    List.Forall₂ (fun e p => e.1 = p.1 ∧ G.Writes e.2 p.2) (plantParts ps g).1 ps
  | [], _, _, _ => .nil
  | (_, p) :: rest, g, _, h =>
    .cons ⟨rfl, plantPart_writes p g ((plantParts_extends rest _).trans h)⟩
      (plantParts_writes rest _ h)

theorem plantPart_writes : ∀ (p : SchemaPart) (g : Graph) {G : Graph},
    (plantPart p g).2.Extends G → G.Writes (plantPart p g).1 p
  | .data v, _, _, _ => .data v
  | .schema s, g, _, h => .schema (plant_spells s g h)
  | .properties ps, g, G, h => by
    have hproperties : (plantProperties ps g).2.Extends G := (Graph.Extends.addBody _ _).trans h
    have hbody : G.body (plantProperties ps g).2.bodies.size = ⟨(plantProperties ps g).1, []⟩ := by
      have hx := h.body (plantProperties ps g).2.bodies.size ⟨(plantProperties ps g).1, []⟩
        (by simp [plantPart, Graph.addBody])
      simp [Graph.body, hx]
    refine .properties ?_
    show List.Forall₂ _ (G.body (plantProperties ps g).2.bodies.size).properties ps
    rw [hbody]
    exact plantProperties_spells ps g hproperties

theorem plantProperties_spells : ∀ (ps : List (String × Schema)) (g : Graph) {G : Graph},
    (plantProperties ps g).2.Extends G →
    List.Forall₂ (fun e p => e.1 = p.1 ∧ G.Spells e.2 p.2) (plantProperties ps g).1 ps
  | [], _, _, _ => .nil
  | (_, s) :: rest, g, _, h =>
    .cons ⟨rfl, plant_spells s g ((plantProperties_extends rest _).trans h)⟩
      (plantProperties_spells rest _ h)

end

end Schema

/-- Slots that have the structure of the parts of a schema are those of a record if the parts are
those of a schema. -/
theorem Record.Formed.of_writes {G : Graph} {r : Record} {ps : List (String × SchemaPart)}
    (h : List.Forall₂ (fun e p => e.1 = p.1 ∧ G.Writes e.2 p.2) r ps)
    (hs : (Schema.keywords ps).Formed) : r.Formed := by
  have hpart {e : String × Slot} (he : e ∈ r) :
      ∃ part : SchemaPart, part.Fits e.1 ∧ G.Writes e.2 part := by
    obtain ⟨p, hp, hk, hw⟩ := exists_of_mem_left h he
    exact ⟨p.2, hk ▸ hs.fits p hp, hw⟩
  constructor
  case toProper =>
    constructor
    case distinct =>
      rw [map_eq_of_forall₂ (g := fun p : String × SchemaPart => p.1) (h.imp fun _ _ he => he.1)]
      exact hs.distinct
    case properties =>
      intro x hx
      obtain ⟨part, hfits, hw⟩ := hpart hx
      cases hw with
      | properties _ => exact ⟨_, rfl⟩
      | data v => exact absurd rfl hfits.1
      | schema _ => rcases hfits with hk | hk <;> simp at hk
  case fits =>
    intro e he
    obtain ⟨part, hfits, hw⟩ := hpart he
    generalize e.2 = slot at hw ⊢
    cases hw with
    | data v => exact hfits.2
    | schema _ => exact hfits
    | properties _ => exact hfits

namespace Schema

/-- Every position of a schema is formed as that of a schema. -/
def WellFormed (s : Schema) : Prop :=
  ∀ u, s.Position u → u.Formed

theorem WellFormed.of_holds {s u : Schema} (h : s.WellFormed) (hu : s.Holds u) : u.WellFormed :=
  fun v hv => h v (.head hu hv)

mutual

theorem plant_formed : ∀ (s : Schema) {g : Graph}, s.WellFormed → g.Formed → (s.plant g).2.Formed
  | .keywords ps, _, hs, hg =>
    have hparts := plantParts_formed ps (fun _ hp _ hu => hs.of_holds ⟨_, hp, hu⟩) hg
    hparts.addRecord (.of_writes (plantParts_writes ps _ (.refl _)) (hs _ .refl))

theorem plantParts_formed : ∀ (ps : List (String × SchemaPart)) {g : Graph},
    (∀ p ∈ ps, ∀ u, p.2.Holds u → u.WellFormed) → g.Formed → (plantParts ps g).2.Formed
  | [], _, _, hg => hg
  | (_, p) :: rest, _, h, hg =>
    plantParts_formed rest (fun q hq => h q (List.mem_cons_of_mem _ hq))
      (plantPart_formed p (h _ List.mem_cons_self) hg)

theorem plantPart_formed : ∀ (p : SchemaPart) {g : Graph}, (∀ u, p.Holds u → u.WellFormed) →
    g.Formed → (plantPart p g).2.Formed
  | .data _, _, _, hg => hg
  | .schema s, _, h, hg => plant_formed s (h s rfl) hg
  | .properties ps, _, h, hg => plantProperties_formed ps (fun q hq => h q.2 ⟨q.1, hq⟩) hg

theorem plantProperties_formed : ∀ (ps : List (String × Schema)) {g : Graph},
    (∀ q ∈ ps, q.2.WellFormed) → g.Formed → (plantProperties ps g).2.Formed
  | [], _, _, hg => hg
  | (_, s) :: rest, _, h, hg =>
    plantProperties_formed rest (fun q hq => h q (List.mem_cons_of_mem _ hq))
      (plant_formed s (h _ List.mem_cons_self) hg)

end

/-! ## Writing out a schema -/

/-- The canonical form of a schema is a copy of that schema. -/
theorem render_canonical {s : Schema} (hs : s.WellFormed) :
    s.render .canonical = .ok (s.copied .canonical) := by
  have hformed : (s.plant .empty).2.Formed := plant_formed s hs .empty
  have hspells : (s.plant .empty).2.Spells (s.plant .empty).1 s :=
    plant_spells s .empty (.refl _)
  show (s.plant .empty).2.render .canonical (s.plant .empty).1 = _
  rw [Graph.render_eq hformed.proper, hspells.rendered_eq hformed]

/-- The strict form of a schema is a copy of the schema cleaned. -/
theorem render_strict {s : Schema} (hs : s.WellFormed) :
    s.render .strict = .ok (s.cleaned.copied .strict) := by
  have hformed : (s.plant .empty).2.Formed := plant_formed s hs .empty
  have hspells : (s.plant .empty).2.Spells (s.plant .empty).1 s :=
    plant_spells s .empty (.refl _)
  show (s.plant .empty).2.render .strict (s.plant .empty).1 = _
  rw [Graph.render_eq hformed.proper, Graph.rendered_strict hformed _ (.of_acyclic hspells.acyclic)
    (by simp), hspells.rendered_eq hformed]

mutual

theorem cleaned_cleaned : ∀ s : Schema, s.cleaned.cleaned = s.cleaned
  | .keywords ps => congrArg keywords (cleanedParts_cleanedParts ps)

theorem cleanedParts_cleanedParts : ∀ ps : List (String × SchemaPart),
    cleanedParts (cleanedParts ps) = cleanedParts ps
  | [] => rfl
  | (k, .data v) :: rest => by
    have ih := cleanedParts_cleanedParts rest
    rw [cleanedParts]
    split
    · exact ih
    · rename_i hk
      rw [cleanedParts, if_neg hk, ih]
  | (k, .schema s) :: rest => by
    rw [cleanedParts, cleanedParts, cleaned_cleaned s, cleanedParts_cleanedParts rest]
  | (k, .properties ps) :: rest => by
    rw [cleanedParts, cleanedParts, cleanedProperties_cleanedProperties ps,
      cleanedParts_cleanedParts rest]

theorem cleanedProperties_cleanedProperties : ∀ ps : List (String × Schema),
    cleanedProperties (cleanedProperties ps) = cleanedProperties ps
  | [] => rfl
  | (name, s) :: rest => by
    rw [cleanedProperties, cleanedProperties, cleaned_cleaned s,
      cleanedProperties_cleanedProperties rest]

end

end Schema

theorem Schema.WellFormed.copied {s : Schema} (h : s.WellFormed) (form : ExportForm) :
    (s.copied form).WellFormed := by
  intro u hu
  obtain ⟨w, hw, rfl⟩ := Schema.position_renamed hu
  exact (h w hw).renamed

/-- What a descriptor of kinds is written as is well formed. -/
theorem Graph.rendered_wellFormed {g : Graph} (hg : g.All Record.Kinded) (form : ExportForm)
    (room : Nat) (a : Address) : (g.rendered form room [] a).WellFormed := by
  intro u hu
  obtain ⟨r, child, hr, rfl⟩ := hg.rendered_position hu
  exact hr.toFormed.schema_formed

end ToolCatalog
