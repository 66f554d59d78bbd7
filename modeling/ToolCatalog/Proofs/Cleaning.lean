import ToolCatalog.Proofs.Alike
import ToolCatalog.Proofs.Kinds

/-!
What the strict form leaves out.

The strict form of a compiled descriptor is its canonical form without the marks of what is optional
and without the types that allow anything, at every position, cut ones included, and otherwise the
same: both are copies of one schema. So the strict form is a schema in which every type is one that
JSON knows.
-/
namespace ToolCatalog

namespace Schema

mutual

/-- A schema without what no JSON schema has: no part of it is marked optional or has a type that
allows anything. -/
def cleaned : Schema → Schema
  | .keywords ps => .keywords (cleanedParts ps)

def cleanedParts : List (String × SchemaPart) → List (String × SchemaPart)
  | [] => []
  | (k, .data v) :: rest =>
    if k = "optional" ∨ k = "type" ∧ allowsAnything v = true then cleanedParts rest
    else (k, .data v) :: cleanedParts rest
  | (k, .schema s) :: rest => (k, .schema s.cleaned) :: cleanedParts rest
  | (k, .properties ps) :: rest => (k, .properties (cleanedProperties ps)) :: cleanedParts rest

def cleanedProperties : List (String × Schema) → List (String × Schema)
  | [] => []
  | (name, s) :: rest => (name, s.cleaned) :: cleanedProperties rest

end

end Schema

/-- A part of a schema is another one, of elements or free values, or has it among properties. -/
def SchemaPart.Holds (u : Schema) : SchemaPart → Prop
  | .data _ => False
  | .schema s => s = u
  | .properties ps => ∃ name, (name, u) ∈ ps

/-- A schema holds another one directly. -/
def Schema.Holds (s u : Schema) : Prop :=
  ∃ p ∈ s.parts, p.2.Holds u

/-- What stands at the positions of a schema: itself, and what is anywhere below it. -/
abbrev Schema.Position : Schema → Schema → Prop :=
  Relation.ReflTransGen Schema.Holds

/-- Whether a keyword of a schema can hold this. -/
def SchemaPart.Fits (keyword : String) : SchemaPart → Prop
  | .data v => keyword ≠ "properties" ∧ (Nests keyword → ∀ entries, v ≠ .dict entries)
  | .schema _ => Nests keyword
  | .properties _ => keyword = "properties"

/-- Keywords as a schema has them at one position. -/
structure Schema.Formed (s : Schema) : Prop where
  distinct : (s.parts.map (·.1)).Nodup
  fits : ∀ p ∈ s.parts, p.2.Fits p.1

/-- Keywords as a JSON schema has them at one position: nothing is marked optional, and a type is
one that JSON knows, or several of these once each. -/
structure Schema.Tidy (s : Schema) : Prop extends s.Formed where
  optional : ∀ p ∈ s.parts, p.1 ≠ "optional"
  type : ∀ p ∈ s.parts, p.1 = "type" → ∃ v, p.2 = .data v ∧ v.NamesOf typeNames

/-! ## Cleaning -/

/-- A part of a schema that has been cleaned. -/
def SchemaPart.cleaned : SchemaPart → SchemaPart
  | .data v => .data v
  | .schema s => .schema s.cleaned
  | .properties ps => .properties (ps.map fun e => (e.1, e.2.cleaned))

theorem ExportForm.strict_keeps_iff {k : String} {v : Value} : ExportForm.strict.keeps k v = true ↔
    ¬(k = "optional" ∨ k = "type" ∧ allowsAnything v = true) := by
  simp [keeps, not_or, imp_iff_not_or]

namespace Schema

theorem cleanedProperties_eq (ps : List (String × Schema)) :
    cleanedProperties ps = ps.map fun e => (e.1, e.2.cleaned) := by
  induction ps with
  | nil => rfl
  | cons e rest ih => rw [cleanedProperties, ih, List.map_cons]

/-- Cleaning keeps what the strict form keeps. -/
theorem cleanedParts_eq (ps : List (String × SchemaPart)) :
    cleanedParts ps = ps.filterMap fun e =>
      (ExportForm.strict.part? e.1 e.2.cleaned).map fun p => (e.1, p) := by
  induction ps with
  | nil => rfl
  | cons e rest ih =>
    obtain ⟨k, part⟩ := e
    cases part with
    | schema s => rw [cleanedParts, ih]; rfl
    | properties qs => rw [cleanedParts, ih, cleanedProperties_eq]; rfl
    | data v =>
      rw [cleanedParts, ih, List.filterMap_cons, SchemaPart.cleaned, ExportForm.part?]
      by_cases hv : k = "optional" ∨ k = "type" ∧ allowsAnything v = true
      · rw [if_pos hv, if_neg fun hk => ExportForm.strict_keeps_iff.mp hk hv]
        rfl
      · rw [if_neg hv, if_pos (ExportForm.strict_keeps_iff.mpr hv)]
        rfl

end Schema

/-! ## Copies -/

namespace Schema

variable {f : Identity → Identity} {s u : Schema}

mutual

/-- A copy is cleaned as what was copied. -/
theorem cleaned_renamed : ∀ s : Schema, (s.renamed f).cleaned = s.cleaned.renamed f
  | .keywords ps => congrArg keywords (cleanedParts_renamed ps)

theorem cleanedParts_renamed : ∀ ps : List (String × SchemaPart),
    cleanedParts (renamedParts f ps) = renamedParts f (cleanedParts ps)
  | [] => rfl
  | (k, .data v) :: rest => by
    rw [renamedParts, renamedPart, cleanedParts, cleanedParts, allowsAnything_renamed,
      cleanedParts_renamed rest]
    split <;> rfl
  | (k, .schema s) :: rest => by
    rw [renamedParts, renamedPart, cleanedParts, cleanedParts, cleaned_renamed s,
      cleanedParts_renamed rest]
    rfl
  | (k, .properties ps) :: rest => by
    rw [renamedParts, renamedPart, cleanedParts, cleanedParts, cleanedProperties_renamed ps,
      cleanedParts_renamed rest]
    rfl

theorem cleanedProperties_renamed : ∀ ps : List (String × Schema),
    cleanedProperties (renamedProperties f ps) = renamedProperties f (cleanedProperties ps)
  | [] => rfl
  | (name, s) :: rest => by
    rw [renamedProperties, cleanedProperties, cleanedProperties, cleaned_renamed s,
      cleanedProperties_renamed rest]
    rfl

end

theorem cleaned_copied (s : Schema) (form : ExportForm) :
    (s.copied form).cleaned = s.cleaned.copied form :=
  cleaned_renamed s

mutual

/-- Cleaning brings nothing new into the data. -/
theorem holdsIdentity_cleaned : ∀ {s : Schema}, s.toValue.holdsIdentity = false →
    s.cleaned.toValue.holdsIdentity = false
  | .keywords _, h => entriesHoldIdentity_cleaned h

theorem entriesHoldIdentity_cleaned : ∀ {ps : List (String × SchemaPart)},
    Value.entriesHoldIdentity (partEntries ps) = false →
      Value.entriesHoldIdentity (partEntries (cleanedParts ps)) = false
  | [], _ => rfl
  | (k, p) :: rest, h => by
    rw [partEntries, Value.entriesHoldIdentity, Bool.or_eq_false_iff, Bool.or_eq_false_iff] at h
    obtain ⟨⟨hk, hp⟩, hrest⟩ := h
    have hrest := entriesHoldIdentity_cleaned hrest
    cases p with
    | data v =>
      rw [cleanedParts]
      split
      · exact hrest
      · rw [partEntries, Value.entriesHoldIdentity, hk, hp, hrest]
        rfl
    | schema s =>
      rw [cleanedParts, partEntries, Value.entriesHoldIdentity, hk, hrest, partValue,
        holdsIdentity_cleaned hp]
      rfl
    | properties ps =>
      rw [cleanedParts, partEntries, Value.entriesHoldIdentity, hk, hrest, partValue,
        Value.holdsIdentity, propertiesHoldIdentity_cleaned hp]
      rfl

theorem propertiesHoldIdentity_cleaned : ∀ {ps : List (String × Schema)},
    Value.entriesHoldIdentity (propertyEntries ps) = false →
      Value.entriesHoldIdentity (propertyEntries (cleanedProperties ps)) = false
  | [], _ => rfl
  | (name, s) :: rest, h => by
    rw [propertyEntries, Value.entriesHoldIdentity, Bool.or_eq_false_iff,
      Bool.or_eq_false_iff] at h
    rw [cleanedProperties, propertyEntries, Value.entriesHoldIdentity, h.1.1,
      holdsIdentity_cleaned h.1.2, propertiesHoldIdentity_cleaned h.2]
    rfl

end

/-- The positions of a copy are copies of the positions. -/
theorem position_renamed (h : (s.renamed f).Position u) :
    ∃ w, s.Position w ∧ u = w.renamed f := by
  induction h with
  | refl => exact ⟨s, .refl, rfl⟩
  | tail _ hstep ih =>
    obtain ⟨w, hw, rfl⟩ := ih
    obtain ⟨p, hp, hu⟩ := hstep
    rw [parts_renamed] at hp
    obtain ⟨⟨k, part⟩, hpart, rfl⟩ := List.mem_map.mp hp
    cases part with
    | data v => exact hu.elim
    | schema x => exact ⟨x, hw.tail ⟨_, hpart, rfl⟩, hu.symm⟩
    | properties ps =>
      obtain ⟨name, hu⟩ := hu
      rw [renamedProperties_eq] at hu
      obtain ⟨e, he, heq⟩ := List.mem_map.mp hu
      cases heq
      exact ⟨e.2, hw.tail ⟨_, hpart, e.1, he⟩, rfl⟩

theorem Formed.renamed (h : s.Formed) : (s.renamed f).Formed where
  distinct := by
    rw [parts_renamed, List.map_map]
    exact h.distinct
  fits := by
    rw [parts_renamed]
    rintro _ hp
    obtain ⟨⟨k, part⟩, hpart, rfl⟩ := List.mem_map.mp hp
    have hfits := h.fits _ hpart
    cases part with
    | data v =>
      refine ⟨hfits.1, fun hk entries hv => ?_⟩
      cases v with
      | dict es => exact hfits.2 hk es rfl
      | _ => cases hv
    | schema x => exact hfits
    | properties ps => exact hfits

theorem Tidy.renamed (h : s.Tidy) : (s.renamed f).Tidy where
  toFormed := h.toFormed.renamed
  optional := by
    rw [parts_renamed]
    rintro _ hp
    obtain ⟨e, he, rfl⟩ := List.mem_map.mp hp
    exact h.optional e he
  type := by
    rw [parts_renamed]
    rintro _ hp hk
    obtain ⟨e, he, rfl⟩ := List.mem_map.mp hp
    obtain ⟨v, hv, hnames⟩ := h.type e he hk
    have hplain := Value.not_holdsIdentity_of_isWire hnames.isWire
    exact ⟨v, by rw [hv, renamedPart, Value.renamed_eq_self hplain], hnames⟩

end Schema

namespace Graph

variable {g : Graph} {form : ExportForm} {child child' : Address → Schema} {r : Record}
  {path : List Address} {a c : Address} {s u : Schema}

/-- What a record is written as is cleaned by writing it in the strict form. -/
theorem written_cleaned (g : Graph) (child : Address → Schema) (r : Record) :
    (r.written (g.partOf child)).cleaned
      = .keywords (g.renderedSlots .strict (fun c => (child c).cleaned) r) := by
  have hpart (slot : Slot) :
      (g.partOf child slot).cleaned = g.partOf (fun c => (child c).cleaned) slot := by
    cases slot <;> simp [partOf, SchemaPart.cleaned, Function.comp_def]
  rw [Record.written, Schema.cleaned, Schema.cleanedParts_eq, renderedSlots_eq,
    List.filterMap_map, List.filterMap_map]
  exact congrArg Schema.keywords (List.filterMap_congr fun e _ => by simp [hpart])

theorem renderedSlots_congr (h : ∀ c, g.Below r c → child c = child' c) :
    g.renderedSlots form child r = g.renderedSlots form child' r := by
  have hw := written_congr h
  rw [Record.written, Record.written, Schema.keywords.injEq] at hw
  rw [renderedSlots_eq, renderedSlots_eq, hw]

/-! ## Cut positions -/

/-- The form keeps the type of every descriptor that leads back to itself. -/
def KeepsCycles (g : Graph) (form : ExportForm) (a : Address) : Prop :=
  ∀ u, Relation.ReflTransGen g.Edge a u → Relation.TransGen g.Edge u u →
    ∀ v, (g.record u).data? "type" = some v → form.keeps "type" v = true

theorem KeepsCycles.canonical (g : Graph) (a : Address) : g.KeepsCycles .canonical a :=
  fun _ _ _ _ _ => rfl

theorem KeepsCycles.of_acyclic (h : g.Acyclic a) : g.KeepsCycles form a :=
  fun u hu hcycle => absurd hcycle (h u hu)

theorem KeepsCycles.of_kinded (h : g.All Record.Kinded) (form : ExportForm) (a : Address) :
    g.KeepsCycles form a := by
  cases form with
  | canonical => exact .canonical g a
  | strict =>
    intro u _ hcycle v hv
    obtain ⟨w, hw, hnames⟩ := h.cycle_typed hcycle
    obtain rfl : v = w := by simpa [hv] using hw
    exact ExportForm.strict_keeps_iff.mpr
      (by simp [hnames.not_allowsAnything (by decide)])

theorem KeepsCycles.of_edge (h : g.KeepsCycles form a) (hc : g.Edge a c) :
    g.KeepsCycles form c :=
  fun u hu => h u (hu.head hc)

/-- Where the strict form keeps the types on all cycles, it is the canonical form cleaned. -/
theorem rendered_strict (hg : g.Formed) (room : Nat) (hkeep : g.KeepsCycles .strict a)
    (hpath : ∀ p ∈ path, Relation.TransGen g.Edge p a) :
    g.rendered .strict room path a = (g.rendered .canonical room path a).cleaned := by
  induction room generalizing path a with
  | zero => rfl
  | succ room ih =>
    rw [rendered, rendered]
    split
    · rename_i hmem
      have hcycle := hpath a (List.contains_iff_mem.mp hmem)
      have hformed := record_formed hg a
      rw [renderedInside_eq hformed (hkeep a .refl hcycle) fun _ => .keywords [],
        renderedInside_eq hformed (fun _ _ => rfl) fun _ => .keywords [], renderedSlots_canonical,
        written_cleaned]
      rfl
    · rw [renderedSlots_canonical, written_cleaned]
      exact congrArg Schema.keywords
        (renderedSlots_congr fun c hc => ih (hkeep.of_edge hc) (leads_cons hpath hc))

/-! ## Positions -/

theorem mem_renderedSlots {k : String} {p : SchemaPart}
    (h : (k, p) ∈ g.renderedSlots form child r) :
    ∃ slot, (k, slot) ∈ r ∧ g.renderedSlot form child k slot = some p := by
  obtain ⟨⟨k', slot⟩, hk, hp⟩ := List.mem_filterMap.mp h
  obtain ⟨p', hp', heq⟩ := Option.map_eq_some_iff.mp hp
  cases heq
  exact ⟨slot, hk, hp'⟩

/-- What holds no descriptors is written as its data, if that is kept. -/
theorem renderedSlot_data {k : String} {slot : Slot} {p : SchemaPart} (hslot : slot.holds = false)
    (h : g.renderedSlot form child k slot = some p) :
    ∃ v, p = .data v ∧ g.slotData? slot = some v ∧ form.keeps k v = true := by
  have hpart (h : ((g.slotData? slot).filter (form.keeps k)).map SchemaPart.data = some p) :
      ∃ v, p = .data v ∧ g.slotData? slot = some v ∧ form.keeps k v = true := by
    obtain ⟨v, hv, rfl⟩ := Option.map_eq_some_iff.mp h
    obtain ⟨hv, hkeep⟩ := Option.filter_eq_some_iff.mp hv
    exact ⟨v, rfl, hv, hkeep⟩
  cases slot with
  | data v => exact hpart h
  | required b => exact hpart h
  | schema c => cases hslot
  | properties b => cases hslot

theorem schema_mem_renderedSlots {k : String} {t : Schema}
    (h : (k, .schema t) ∈ g.renderedSlots form child r) :
    ∃ c, (k, .schema c) ∈ r ∧ t = child c := by
  obtain ⟨slot, hk, hp⟩ := mem_renderedSlots h
  cases slot with
  | schema c =>
    cases hp
    exact ⟨c, hk, rfl⟩
  | properties b => cases hp
  | data v | required b =>
    obtain ⟨v, hv, -⟩ := renderedSlot_data rfl hp
    cases hv

theorem properties_mem_renderedSlots {k : String} {ps : List (String × Schema)}
    (h : (k, .properties ps) ∈ g.renderedSlots form child r) :
    ∃ b, (k, .properties b) ∈ r ∧ ps = (g.body b).properties.map fun e => (e.1, child e.2) := by
  obtain ⟨slot, hk, hp⟩ := mem_renderedSlots h
  cases slot with
  | properties b =>
    cases hp
    exact ⟨b, hk, rfl⟩
  | schema c => cases hp
  | data v | required b =>
    obtain ⟨v, hv, -⟩ := renderedSlot_data rfl hp
    cases hv

theorem holds_renderedSlots (h : Schema.Holds (.keywords (g.renderedSlots form child r)) s) :
    ∃ c, g.Below r c ∧ s = child c := by
  obtain ⟨⟨k, p⟩, hmem, hs⟩ := h
  cases p with
  | data v => exact hs.elim
  | schema t =>
    obtain ⟨c, hk, rfl⟩ := schema_mem_renderedSlots hmem
    exact ⟨c, ⟨_, hk, rfl⟩, Eq.symm hs⟩
  | properties ps =>
    obtain ⟨b, hk, rfl⟩ := properties_mem_renderedSlots hmem
    obtain ⟨name, hs⟩ := hs
    obtain ⟨e, he, heq⟩ := List.mem_map.mp hs
    cases heq
    exact ⟨e.2, ⟨_, hk, e.1, he⟩, rfl⟩

/-- What stands at any position of what a descriptor is written as is a record that is written: of
a descriptor, or what is left of one. -/
theorem rendered_position {Q : Record → Prop} (hnil : Q []) (hrecord : ∀ a, Q (g.record a))
    (hrem : ∀ {r}, Q r → Q r.remainder) (hg : g.Formed) {room : Nat}
    (hkeep : g.KeepsCycles form a) (hpath : ∀ p ∈ path, Relation.TransGen g.Edge p a)
    (hu : Schema.Position (g.rendered form room path a) u) :
    ∃ r child, Q r ∧ u = .keywords (g.renderedSlots form child r) := by
  have hempty {u : Schema} (hu : Schema.Position (.keywords []) u) :
      ∃ r child, Q r ∧ u = .keywords (g.renderedSlots form child r) := by
    rcases hu.cases_head with rfl | ⟨s, hs, -⟩
    · exact ⟨[], fun _ => .keywords [], hnil, rfl⟩
    · obtain ⟨p, hp, -⟩ := hs
      cases hp
  induction room generalizing path a with
  | zero => exact hempty hu
  | succ room ih =>
    rw [rendered] at hu
    split at hu
    · rename_i hmem
      have hcycle := hpath a (List.contains_iff_mem.mp hmem)
      rw [renderedInside_eq (record_formed hg a) (hkeep a .refl hcycle) fun _ => .keywords []] at hu
      rcases hu.cases_head with rfl | ⟨s, hs, hu⟩
      · exact ⟨_, _, hrem (hrecord a), rfl⟩
      · obtain ⟨c, -, rfl⟩ := holds_renderedSlots hs
        exact hempty hu
    · rcases hu.cases_head with rfl | ⟨s, hs, hu⟩
      · exact ⟨_, _, hrecord a, rfl⟩
      · obtain ⟨c, hc, rfl⟩ := holds_renderedSlots hs
        exact ih (hkeep.of_edge hc) (leads_cons hpath hc) hu

end Graph

/-! ## What stands at a position -/

section

variable {g : Graph} {form : ExportForm} {child : Address → Schema} {r : Record}

theorem Graph.keys_renderedSlots (g : Graph) (child : Address → Schema) (r : Record) :
    ((g.renderedSlots form child r).map (·.1)).Sublist (r.map (·.1)) := by
  induction r with
  | nil => exact .slnil
  | cons e rest ih =>
    rw [renderedSlots, List.filterMap_cons]
    cases g.renderedSlot form child e.1 e.2 with
    | none => exact ih.cons e.1
    | some p => exact ih.cons_cons e.1

theorem Record.Formed.schema_formed (h : r.Formed) :
    (Schema.keywords (g.renderedSlots form child r)).Formed where
  distinct := (g.keys_renderedSlots child r).nodup h.distinct
  fits := by
    rintro ⟨k, p⟩ hp
    obtain ⟨slot, hk, hpart⟩ := Graph.mem_renderedSlots hp
    have hfits := h.fits _ hk
    cases slot with
    | schema c =>
      cases hpart
      exact hfits
    | properties b =>
      cases hpart
      exact hfits
    | data v =>
      obtain ⟨w, rfl, hw, -⟩ := Graph.renderedSlot_data rfl hpart
      cases hw
      refine ⟨?_, hfits⟩
      rintro rfl
      obtain ⟨b, hb⟩ := h.properties _ hk
      cases hb
    | required b =>
      obtain ⟨w, rfl, -⟩ := Graph.renderedSlot_data rfl hpart
      obtain rfl : k = "required" := hfits
      simp [SchemaPart.Fits]

/-- The strict form of a record that is of a kind is tidy. -/
theorem Record.Kinded.schema_tidy (h : r.Kinded) :
    (Schema.keywords (g.renderedSlots .strict child r)).Tidy := by
  have hdata {k : String} {p : SchemaPart} (hp : (k, p) ∈ g.renderedSlots .strict child r)
      (hk : k = "optional" ∨ k = "type") :
      ∃ v, p = .data v ∧ (k, Slot.data v) ∈ r ∧ ExportForm.strict.keeps k v = true := by
    obtain ⟨slot, hmem, hpart⟩ := Graph.mem_renderedSlots hp
    have hfits := h.fits _ hmem
    have hnot : k ∉ recursiveKeywords := by rcases hk with rfl | rfl <;> decide
    have hslot : slot.holds = false := hfits.not_holds hnot
    obtain ⟨v, rfl, hv, hkeep⟩ := Graph.renderedSlot_data hslot hpart
    cases slot with
    | data w =>
      cases hv
      exact ⟨_, rfl, hmem, hkeep⟩
    | required b =>
      obtain rfl : k = "required" := hfits
      simp at hk
    | schema c | properties b => cases hslot
  constructor
  case toFormed => exact h.toFormed.schema_formed
  case optional =>
    rintro ⟨k, p⟩ hp rfl
    obtain ⟨v, -, -, hkeep⟩ := hdata hp (.inl rfl)
    cases hkeep
  case type =>
    rintro ⟨k, p⟩ hp rfl
    obtain ⟨v, rfl, hmem, hkeep⟩ := hdata hp (.inr rfl)
    have hnot : allowsAnything v = false := by
      simpa using ExportForm.strict_keeps_iff.mp hkeep
    exact ⟨v, rfl, (h.typed v (Record.data?_of_mem h.distinct hmem)).of_not_allowsAnything hnot⟩

/-- The record of parameters: an object with properties. -/
structure Record.ForParameters (r : Record) : Prop where
  type : r.lookup "type" = some (.data (.text "object"))
  properties : ∃ b, r.lookup "properties" = some (.properties b)

theorem Record.ForParameters.schema_object (h : r.ForParameters) (hd : (r.map (·.1)).Nodup) :
    (Schema.keywords (g.renderedSlots form child r)).data? "type" = some (.text "object") ∧
      ∃ ps, (g.renderedSlots form child r).lookup "properties" = some (.properties ps) := by
  obtain ⟨b, hb⟩ := h.properties
  constructor
  · rw [Graph.data?_renderedSlots hd, h.type]
    simp [Graph.slotData?, form.keeps_object]
  · exact ⟨_, by rw [Graph.lookup_renderedSlots hd, hb]; rfl⟩

theorem ShowsParameters.forParameters {defs : Definitions} {s : Session} {t : TypeExpr}
    {a : Address} (h : ShowsParameters defs s t a) :
    ∃ r, s.graph.records[a]? = some r ∧ r.ForParameters := by
  cases h with
  | empty _ hr _ => exact ⟨_, hr, rfl, _, rfl⟩
  | object hb hshows =>
    obtain ⟨c, hc⟩ : ∃ c, t.base defs = .object c := by
      cases hbase : t.base defs with
      | object c => exact ⟨c, rfl⟩
      | _ =>
        rw [hbase] at hb
        cases hb
    obtain ⟨name, rfl, hfind⟩ := TypeExpr.base_object hc
    obtain ⟨r, hstands⟩ := hshows.bare rfl
    cases hstands with
    | @object c b _ _ hr => exact ⟨_, hr, (Record.States.objectRecord c b).type, b,
        (objectRecord_hasBody c b).properties⟩
    | value hvalue _ _ _ =>
      have hobject : ((TypeExpr.declared name).base defs).isObject = false := hvalue
      rw [hb] at hobject
      cases hobject

end

/-! ## What compilers make -/

namespace Graph.All

variable {g : Graph} {form : ExportForm} {room : Nat} {a : Address}

/-- In a graph of kinds, the strict form is the canonical form cleaned. -/
theorem rendered_strict (hg : g.All Record.Kinded) (room : Nat) (a : Address) :
    g.rendered .strict room [] a = (g.rendered .canonical room [] a).cleaned :=
  Graph.rendered_strict hg.formed room (.of_kinded hg .strict a) (by simp)

/-- In a graph of kinds, every position of what is written is a record of a kind. -/
theorem rendered_position (hg : g.All Record.Kinded) {u : Schema}
    (hu : (g.rendered form room [] a).Position u) :
    ∃ r child, r.Kinded ∧ u = .keywords (g.renderedSlots form child r) :=
  Graph.rendered_position Record.Kinded.lasting.empty (hg.record Record.Kinded.lasting)
    (fun h => h.remainder) hg.formed (.of_kinded hg form a) (by simp) hu

end Graph.All

/-- A dictionary whose keys are called as keywords are, one of them for anything or null and one
that leads back. -/
def looseSource : Source where
  declarations := [.keyed "Loose" [] none true
    [("type", .union [.atom (.builtin .anything), .atom .null]),
      ("optional", .union [.forward "Loose", .atom .null])]]
  written := [.reference "Loose"]

theorem looseSource_nodes : looseSource.nodes = [.declared "Loose"] :=
  rfl

/-- The session in which the dictionary has been compiled. -/
def looseSession : Session :=
  ((Session.fresh false).run (describeParameters looseSource.definitions (.declared "Loose"))).2

end ToolCatalog
