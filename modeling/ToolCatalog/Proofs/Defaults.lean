import ToolCatalog.Proofs.Positions

/-!
What defaults show in a schema.

Two descriptors that differ in the default are written out alike but for the default keyword, at
every position. So whatever the defaults are, and whatever becomes of them, the schemas that are
written are the same once this keyword is taken away.
-/
namespace ToolCatalog

namespace Schema

mutual

/-- A schema without the default keyword at any position. -/
def withoutDefaults : Schema → Schema
  | .keywords ps => .keywords (partsWithoutDefaults ps)

/-- A part of a schema without the default keyword at any position. -/
def partWithoutDefaults : SchemaPart → SchemaPart
  | .data v => .data v
  | .schema s => .schema s.withoutDefaults
  | .properties ps => .properties (propertiesWithoutDefaults ps)

def partsWithoutDefaults : List (String × SchemaPart) → List (String × SchemaPart)
  | [] => []
  | (k, p) :: rest =>
    if k = "default" then partsWithoutDefaults rest
    else (k, partWithoutDefaults p) :: partsWithoutDefaults rest

def propertiesWithoutDefaults : List (String × Schema) → List (String × Schema)
  | [] => []
  | (name, s) :: rest => (name, s.withoutDefaults) :: propertiesWithoutDefaults rest

end

mutual

/-- What every position of a schema shows as its default, from outside in and in order. -/
def defaults : Schema → List (Option Value)
  | .keywords ps => (Schema.keywords ps).data? "default" :: partsDefaults ps

/-- What the positions of a part of a schema show as their defaults. -/
def partDefaults : SchemaPart → List (Option Value)
  | .data _ => []
  | .schema s => s.defaults
  | .properties ps => propertiesDefaults ps

def partsDefaults : List (String × SchemaPart) → List (Option Value)
  | [] => []
  | (_, p) :: rest => partDefaults p ++ partsDefaults rest

def propertiesDefaults : List (String × Schema) → List (Option Value)
  | [] => []
  | (_, s) :: rest => s.defaults ++ propertiesDefaults rest

end

/-- Two schemas that differ at most in defaults, of which each shows its own. -/
structure Varies (W : TypeExpr → Prop) (v v' : Variation) (S S' : Schema) : Prop where
  rest : S.withoutDefaults = S'.withoutDefaults
  shown : List.Forall₂ (Shown W v v') S.defaults S'.defaults

theorem propertiesWithoutDefaults_eq (ps : List (String × Schema)) :
    propertiesWithoutDefaults ps = ps.map fun e => (e.1, e.2.withoutDefaults) := by
  induction ps with
  | nil => rfl
  | cons e rest ih => rw [propertiesWithoutDefaults, ih, List.map_cons]

theorem partsWithoutDefaults_eq (ps : List (String × SchemaPart)) :
    partsWithoutDefaults ps
      = (Entries.remove "default" ps).map fun e => (e.1, partWithoutDefaults e.2) := by
  induction ps with
  | nil => rfl
  | cons e rest ih =>
    obtain ⟨k, p⟩ := e
    rw [partsWithoutDefaults, Entries.remove_cons, ih]
    split <;> rfl

theorem propertiesDefaults_eq (ps : List (String × Schema)) :
    propertiesDefaults ps = ps.flatMap fun e => e.2.defaults := by
  induction ps with
  | nil => rfl
  | cons e rest ih => rw [propertiesDefaults, ih, List.flatMap_cons]

theorem partsDefaults_eq (ps : List (String × SchemaPart)) :
    partsDefaults ps = ps.flatMap fun e => partDefaults e.2 := by
  induction ps with
  | nil => rfl
  | cons e rest ih => rw [partsDefaults, ih, List.flatMap_cons]

/-! ## Copies -/

section

variable {f : Identity → Identity}

mutual

theorem withoutDefaults_renamed : ∀ S : Schema,
    (S.renamed f).withoutDefaults = S.withoutDefaults.renamed f
  | .keywords ps => congrArg keywords (partsWithoutDefaults_renamed ps)

theorem partWithoutDefaults_renamed : ∀ p : SchemaPart,
    partWithoutDefaults (renamedPart f p) = renamedPart f (partWithoutDefaults p)
  | .data _ => rfl
  | .schema S => congrArg SchemaPart.schema (withoutDefaults_renamed S)
  | .properties ps => congrArg SchemaPart.properties (propertiesWithoutDefaults_renamed ps)

theorem partsWithoutDefaults_renamed : ∀ ps : List (String × SchemaPart),
    partsWithoutDefaults (renamedParts f ps) = renamedParts f (partsWithoutDefaults ps)
  | [] => rfl
  | (k, p) :: rest => by
    rw [renamedParts, partsWithoutDefaults, partsWithoutDefaults, partWithoutDefaults_renamed p,
      partsWithoutDefaults_renamed rest]
    split <;> rfl

theorem propertiesWithoutDefaults_renamed : ∀ ps : List (String × Schema),
    propertiesWithoutDefaults (renamedProperties f ps)
      = renamedProperties f (propertiesWithoutDefaults ps)
  | [] => rfl
  | (name, S) :: rest => by
    rw [renamedProperties, propertiesWithoutDefaults, propertiesWithoutDefaults,
      withoutDefaults_renamed S, propertiesWithoutDefaults_renamed rest]
    rfl

end

mutual

theorem defaults_renamed : ∀ S : Schema,
    (S.renamed f).defaults = S.defaults.map (Option.map (Value.renamed f))
  | .keywords ps => by
    rw [defaults, List.map_cons, ← data?_renamed, ← partsDefaults_renamed ps]
    rfl

theorem partDefaults_renamed : ∀ p : SchemaPart,
    partDefaults (renamedPart f p) = (partDefaults p).map (Option.map (Value.renamed f))
  | .data _ => rfl
  | .schema S => defaults_renamed S
  | .properties ps => propertiesDefaults_renamed ps

theorem partsDefaults_renamed : ∀ ps : List (String × SchemaPart),
    partsDefaults (renamedParts f ps) = (partsDefaults ps).map (Option.map (Value.renamed f))
  | [] => rfl
  | (_, p) :: rest => by
    rw [renamedParts, partsDefaults, partsDefaults, List.map_append, partDefaults_renamed p,
      partsDefaults_renamed rest]

theorem propertiesDefaults_renamed : ∀ ps : List (String × Schema),
    propertiesDefaults (renamedProperties f ps)
      = (propertiesDefaults ps).map (Option.map (Value.renamed f))
  | [] => rfl
  | (_, S) :: rest => by
    rw [renamedProperties, propertiesDefaults, propertiesDefaults, List.map_append,
      defaults_renamed S, propertiesDefaults_renamed rest]

end

end

/-- The copies of two schemas differ as these do. -/
theorem Varies.copied {W : TypeExpr → Prop} {v v' : Variation} {S S' : Schema}
    (h : S.Varies W v v' S') (form : ExportForm) :
    (S.copied form).Varies W v v' (S'.copied form) where
  rest := by
    rw [Schema.copied, Schema.copied, withoutDefaults_renamed, withoutDefaults_renamed, h.rest]
  shown := by
    rw [Schema.copied, Schema.copied, defaults_renamed, defaults_renamed,
      List.forall₂_map_left_iff, List.forall₂_map_right_iff]
    refine h.shown.imp fun x x' hx => ?_
    rcases hx with ⟨rfl, rfl⟩ | ⟨t, ht, hx, hx'⟩
    · exact .inl ⟨rfl, rfl⟩
    · rw [hx.map_renamed, hx'.map_renamed]
      exact .inr ⟨t, ht, hx, hx'⟩

end Schema

variable {v v' : Variation} {W : TypeExpr → Prop} {g g' : Graph} {form : ExportForm}
  {child child' : Address → Schema} {r r' : Record}

/-! ## Records -/

theorem Entries.flatMap_remove {α β : Type} {k : String} {f : String × α → List β} {m : Entries α}
    (h : ∀ e ∈ m, e.1 = k → f e = []) : (remove k m).flatMap f = m.flatMap f := by
  induction m with
  | nil => rfl
  | cons e rest ih =>
    obtain ⟨l, x⟩ := e
    have ih := ih fun e he => h e (List.mem_cons_of_mem _ he)
    rw [remove_cons, List.flatMap_cons, ← ih]
    split
    · rename_i hl
      rw [h _ List.mem_cons_self hl, List.nil_append]
    · rw [List.flatMap_cons]

namespace Record.Varies

theorem lookup_eq (h : r.Varies W v v' r') {k : String} (hk : k ≠ "default") :
    r.lookup k = r'.lookup k := by
  have hfilter := Entries.lookup_filter (α := Slot) (p := (· ≠ "default")) hk
  rw [← hfilter r, ← hfilter r']
  exact congrArg (List.lookup k) h.rest

/-- What is left of two records that are met inside themselves. -/
theorem remainder (h : r.Varies W v v' r') : Record.Varies W v v' r.remainder r'.remainder where
  rest := by
    have hcomm (r : Record) : Entries.remove "default" r.remainder
        = ((Entries.remove "default" r).filter fun e => e.1 ∉ recursiveKeywords) ++
          if (r.lookup "type").isSome then [] else Record.ofType "object" := by
      rw [Record.remainder, Entries.remove, List.filter_append, List.filter_comm, Entries.remove]
      split <;> rfl
    rw [hcomm, hcomm, h.rest, h.lookup_eq (by decide)]
  shown := by
    rw [r.data?_default_remainder, r'.data?_default_remainder]
    exact h.shown

end Record.Varies

namespace Graph

theorem renderedSlots_cons (e : String × Slot) (r : Record) :
    g.renderedSlots form child (e :: r)
      = ((g.renderedSlot form child e.1 e.2).map fun p => (e.1, p)).toList
        ++ g.renderedSlots form child r := by
  simp only [renderedSlots, List.filterMap_cons]
  cases g.renderedSlot form child e.1 e.2 <;> rfl

/-- What a record is written as depends on the graph through its bodies. -/
theorem renderedSlots_of_bodies (h : g'.bodies = g.bodies) (r : Record) :
    g'.renderedSlots form child r = g.renderedSlots form child r := by
  have hbody (b : Address) : g'.body b = g.body b := by rw [body, body, h]
  refine List.filterMap_congr fun e _ => ?_
  obtain ⟨k, slot⟩ := e
  cases slot <;> simp [renderedSlot, slotData?, hbody]

theorem remove_renderedSlots (k : String) (r : Record) :
    Entries.remove k (g.renderedSlots form child r)
      = g.renderedSlots form child (Entries.remove k r) := by
  induction r with
  | nil => rfl
  | cons e rest ih =>
    obtain ⟨l, slot⟩ := e
    rw [renderedSlots_cons, Entries.remove_cons, Entries.remove, List.filter_append]
    change _ ++ Entries.remove k (g.renderedSlots form child rest) = _
    rw [ih]
    by_cases hl : l = k
    · cases g.renderedSlot form child l slot <;> simp [hl]
    · rw [if_neg hl, renderedSlots_cons]
      cases g.renderedSlot form child l slot <;> simp [hl]

theorem withoutDefaults_renderedSlots (r : Record) :
    (Schema.keywords (g.renderedSlots form child r)).withoutDefaults
      = .keywords (g.renderedSlots form (fun c => (child c).withoutDefaults)
          (Entries.remove "default" r)) := by
  have hpart (k : String) (slot : Slot) :
      (g.renderedSlot form child k slot).map Schema.partWithoutDefaults
        = g.renderedSlot form (fun c => (child c).withoutDefaults) k slot := by
    cases slot <;>
      simp [renderedSlot, Schema.partWithoutDefaults, Schema.propertiesWithoutDefaults_eq,
        Function.comp_def]
  rw [Schema.withoutDefaults, Schema.partsWithoutDefaults_eq, remove_renderedSlots, renderedSlots,
    List.map_filterMap]
  refine congrArg Schema.keywords (List.filterMap_congr fun e _ => ?_)
  rw [← hpart, Option.map_map, Option.map_map]
  rfl

end Graph

/-- What the positions below a slot show as their defaults, given the schemas of descriptors. -/
def Slot.defaults (g : Graph) (child : Address → Schema) : Slot → List (Option Value)
  | .schema a => (child a).defaults
  | .properties b => (g.body b).properties.flatMap fun e => (child e.2).defaults
  | .data _ | .required _ => []

theorem Slot.defaults_of_not_holds {slot : Slot} (h : slot.holds = false) :
    slot.defaults g child = [] := by
  cases slot with
  | data _ | required _ => rfl
  | schema _ | properties _ => cases h

namespace Graph

theorem partsDefaults_renderedSlots (r : Record) :
    Schema.partsDefaults (g.renderedSlots form child r)
      = r.flatMap fun e => e.2.defaults g child := by
  have hdata (k : String) (v? : Option Value) : Schema.partsDefaults
      ((v?.map SchemaPart.data).map fun p => (k, p)).toList = [] := by
    cases v? <;> rfl
  induction r with
  | nil => rfl
  | cons e rest ih =>
    rw [Schema.partsDefaults_eq] at ih
    rw [renderedSlots_cons, Schema.partsDefaults_eq, List.flatMap_append, ih, List.flatMap_cons,
      ← Schema.partsDefaults_eq]
    obtain ⟨k, slot⟩ := e
    congr 1
    cases slot with
    | data v | required b => exact hdata k _
    | schema a => exact List.append_nil _
    | properties b =>
      refine (List.append_nil _).trans ?_
      rw [Schema.partDefaults, Schema.propertiesDefaults_eq, List.flatMap_map]
      rfl

/-- The default of a record is shown, and what is shown below stands under other keywords. -/
theorem defaults_renderedSlots (hr : r.Formed) :
    (Schema.keywords (g.renderedSlots form child r)).defaults = r.data? "default" ::
      (Entries.remove "default" r).flatMap fun e => e.2.defaults g child := by
  have hslot {e : String × Slot} (he : e ∈ r) (hk : e.1 = "default") : e.2.holds = false :=
    (hr.fits e he).not_holds (by simp [hk, recursiveKeywords])
  have hbelow : (r.flatMap fun e => e.2.defaults g child)
      = (Entries.remove "default" r).flatMap fun e => e.2.defaults g child := by
    refine (Entries.flatMap_remove fun e he hk => ?_).symm
    exact Slot.defaults_of_not_holds (hslot he hk)
  rw [Schema.defaults, data?_default_renderedSlots hr, partsDefaults_renderedSlots, hbelow]

end Graph

/-! ## Schemas -/

namespace Record.Varies

/-- Records that differ in the default hold the same descriptors. -/
theorem below (hbodies : g'.bodies = g.bodies) (h : r.Varies W v v' r') (hr : r.Formed)
    {c : Address} (hc : g.Below r c) : g'.Below r' c := by
  obtain ⟨e, he, hlead⟩ := hc
  have hholds : e.2.holds = true := by
    obtain ⟨k, slot⟩ := e
    cases slot with
    | schema _ | properties _ => rfl
    | data _ | required _ => exact hlead.elim
  have hk : e.1 ≠ "default" := fun hk => by
    rw [(hr.fits e he).not_holds (by simp [hk, recursiveKeywords])] at hholds
    cases hholds
  have hmem : e ∈ Entries.remove "default" r' :=
    h.rest ▸ List.mem_filter.mpr ⟨he, decide_eq_true hk⟩
  refine ⟨e, (List.mem_filter.mp hmem).1, ?_⟩
  have hbody (b : Address) : g'.body b = g.body b := by rw [Graph.body, Graph.body, hbodies]
  obtain ⟨k, slot⟩ := e
  cases slot with
  | data _ | required _ => exact hlead.elim
  | schema _ => exact hlead
  | properties b => simpa [Slot.Leads, hbody] using hlead

/-- Records that differ in the default are written alike. -/
theorem schema (hbodies : g'.bodies = g.bodies) (h : r.Varies W v v' r')
    (hr : r.Formed) (hr' : r'.Formed)
    (hc : ∀ c, g.Below r c → (child c).Varies W v v' (child' c)) :
    Schema.Varies W v v' (.keywords (g.renderedSlots form child r))
      (.keywords (g'.renderedSlots form child' r')) where
  rest := by
    rw [Graph.withoutDefaults_renderedSlots, Graph.withoutDefaults_renderedSlots,
      Graph.renderedSlots_of_bodies hbodies, ← h.rest]
    refine congrArg Schema.keywords (Graph.renderedSlots_congr fun c hbelow => ?_)
    obtain ⟨e, he, hlead⟩ := hbelow
    exact (hc c ⟨e, (List.mem_filter.mp he).1, hlead⟩).rest
  shown := by
    rw [Graph.defaults_renderedSlots hr, Graph.defaults_renderedSlots hr', ← h.rest]
    refine .cons h.shown ?_
    refine List.rel_flatMap (List.forall₂_same.mpr fun e he => ⟨rfl, he⟩ :
      List.Forall₂ (fun e e' => e = e' ∧ e ∈ Entries.remove "default" r) _ _) ?_
    rintro e _ ⟨rfl, he⟩
    have hmem := (List.mem_filter.mp he).1
    obtain ⟨k, slot⟩ := e
    cases slot with
    | data _ | required _ => exact .nil
    | schema c => exact (hc c ⟨_, hmem, rfl⟩).shown
    | properties b =>
      have hbody : g'.body b = g.body b := by rw [Graph.body, Graph.body, hbodies]
      simp only [Slot.defaults, hbody]
      refine List.rel_flatMap (List.forall₂_same.mpr fun p hp => ⟨rfl, hp⟩ :
        List.Forall₂ (fun p p' => p = p' ∧ p ∈ (g.body b).properties) _ _) ?_
      rintro p _ ⟨rfl, hp⟩
      exact (hc p.2 ⟨_, hmem, p.1, hp⟩).shown

end Record.Varies

theorem Schema.Varies.empty : Schema.Varies W v v' (.keywords []) (.keywords []) :=
  ⟨rfl, .cons (.inl ⟨rfl, rfl⟩) .nil⟩

/-- Two sessions that differ in defaults write out descriptors alike. -/
theorem Session.Varies.rendered {s s' : Session} (h : s.Varies W v v' s')
    (hg : s.graph.All Record.Kinded) (hg' : s'.graph.All Record.Kinded) (room : Nat)
    {path : List Address} {a : Address}
    (hpath : ∀ p ∈ path, Relation.TransGen s.graph.Edge p a)
    (hpath' : ∀ p ∈ path, Relation.TransGen s'.graph.Edge p a) :
    Schema.Varies W v v' (s.graph.rendered form room path a)
      (s'.graph.rendered form room path a) := by
  induction room generalizing path a with
  | zero => exact .empty
  | succ room ih =>
    have hrecord := h.record a
    have hformed := Graph.record_formed hg.formed a
    have hformed' := Graph.record_formed hg'.formed a
    rw [Graph.rendered, Graph.rendered]
    by_cases hmem : path.contains a = true
    · have ha := List.contains_iff_mem.mp hmem
      have hkeeps := Graph.KeepsCycles.of_kinded hg form a a .refl (hpath a ha)
      have hkeeps' := Graph.KeepsCycles.of_kinded hg' form a a .refl (hpath' a ha)
      rw [if_pos hmem, if_pos hmem,
        Graph.renderedInside_eq hformed hkeeps fun _ => .keywords [],
        Graph.renderedInside_eq hformed' hkeeps' fun _ => .keywords []]
      exact hrecord.remainder.schema h.bodies hformed.remainder hformed'.remainder
        fun _ _ => .empty
    · rw [if_neg hmem, if_neg hmem]
      exact hrecord.schema h.bodies hformed hformed' fun c hc =>
        ih (Graph.leads_cons hpath hc)
          (Graph.leads_cons hpath' (hrecord.below h.bodies hformed hc))

/-! ## Calls -/

/-- After any calls, what was given for each of them is written as a schema that shows the defaults
of its expression. -/
theorem Session.after_tells (source : Source) (observable : Bool) (v : Variation)
    {calls : List Call} (hcalls : ∀ c ∈ calls, source.Expression c.type) :
    let s := Session.after (source.definitions.varied v) (.fresh observable)
      (calls.map (Call.varied v))
    ∀ c a, (c, .ok a) ∈ calls.zip s.1 → ∀ form, ∃ S,
      s.2.graph.render form a = .ok S ∧ c.Tells source.definitions v S := by
  intro s c a hc form
  obtain ⟨U, hU, hexpr⟩ := source.universe
  have hvaried : ∀ d ∈ calls.map (Call.varied v), ∃ u, U u ∧ d.type = u.varied v :=
    List.forall_mem_map.mpr fun c hc => ⟨c.type, hexpr _ (hcalls c hc), c.type_varied v⟩
  have hanswered := Session.after_answered (hU.varied v) hvaried (.fresh observable)
  rw [List.forall₂_map_left_iff] at hanswered
  obtain ⟨-, -, hi⟩ := Session.after_preserves (hU.varied v) hvaried (.fresh observable)
  exact Call.Answered.tells hi (Session.after_kinded _ observable _)
    ((List.forall₂_iff_zip.mp hanswered).2 hc a rfl) form

/-- A query that says how many results it asks for if it is not told. -/
def querySource : Source where
  declarations := [.model "Query" [] none [("text", .atom (.builtin .text), .nothing),
    ("limit", .atom (.builtin .integer), .default (.int 10))]]
  written := [.reference "Query"]

/-- In the place of every default, a factory that fails. -/
def Variation.failing : Variation := fun _ _ => .factory (.raises "ValueError") none

/-- The session after the query was compiled. -/
def querySession (v : Variation) : Session :=
  (Session.after (querySource.definitions.varied v) (.fresh false)
    [.compile (.declared "Query")]).2

end ToolCatalog
