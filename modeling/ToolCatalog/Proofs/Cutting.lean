import ToolCatalog.Proofs.Acceptance
import ToolCatalog.Proofs.Making
import ToolCatalog.Proofs.Outline
import ToolCatalog.Proofs.Reachable

/-!
What is cut of a descriptor that leads back to itself.

Writing out a descriptor goes wherever properties, elements and free values lead, and stops only at
a descriptor that it is already inside of. So nothing is lost of a descriptor that leads to no
cycle, however often parts of it are shared: it is written out as it is. The data is copied.
-/
namespace ToolCatalog

/-- The keywords of elements and of free values. A dictionary under one of them is a descriptor. -/
abbrev Nests (keyword : String) : Prop :=
  keyword = "items" ∨ keyword = "additionalProperties"

/-- Whether a keyword can hold this. Descriptors stand under three keywords only. -/
def Slot.Fits (keyword : String) : Slot → Prop
  | .data v => Nests keyword → ∀ entries, v ≠ .dict entries
  | .schema _ => Nests keyword
  | .properties _ => keyword = "properties"
  | .required _ => keyword = "required"

/-- Whether a slot holds descriptors. -/
def Slot.holds : Slot → Bool
  | .schema _ | .properties _ => true
  | .data _ | .required _ => false

/-- A record as a descriptor has it: distinct keywords, and what they hold in its place. -/
structure Record.Formed (r : Record) : Prop extends r.Proper where
  fits : ∀ e ∈ r, e.2.Fits e.1

/-- A graph of descriptors, made by the compiler or by hand. -/
abbrev Graph.Formed (g : Graph) : Prop :=
  g.All Record.Formed

/-- The keywords that lead to other descriptors, and the one that speaks about them. -/
def recursiveKeywords : List String :=
  ["properties", "required", "items", "additionalProperties"]

/-- What is left of a record that is met inside itself: every keyword that leads nowhere, and that
it is an object if it does not say what it is. -/
def Record.remainder (r : Record) : Record :=
  r.filter (fun e => e.1 ∉ recursiveKeywords) ++
    if (r.lookup "type").isSome then [] else Record.ofType "object"

theorem Slot.Fits.not_holds {k : String} {slot : Slot} (h : slot.Fits k)
    (hk : k ∉ recursiveKeywords) : slot.holds = false := by
  cases slot with
  | data v => rfl
  | required b => rfl
  | schema c => rcases h with rfl | rfl <;> exact absurd (by decide) hk
  | properties b =>
    obtain rfl : k = "properties" := h
    exact absurd (by decide) hk

/-! ## What is left of a record -/

namespace Record

variable {r : Record}

theorem lookup_filter_type (r : Record) :
    (r.filter fun e => e.1 ∉ recursiveKeywords).lookup "type" = r.lookup "type" := by
  induction r with
  | nil => rfl
  | cons e rest ih =>
    rw [List.filter_cons, Entries.lookup_cons]
    split
    · rw [Entries.lookup_cons, ih]
    · rename_i hk
      have hne : "type" ≠ e.1 := fun heq => hk (heq ▸ by decide)
      rw [ih, if_neg hne]

theorem lookup_remainder_type (r : Record) :
    r.remainder.lookup "type" = some ((r.lookup "type").getD (.data (.text "object"))) := by
  rw [remainder, List.lookup_append, lookup_filter_type]
  cases r.lookup "type" <;> rfl

theorem mem_remainder {e : String × Slot} (h : e ∈ r.remainder) :
    e ∈ r ∧ e.1 ∉ recursiveKeywords ∨ e = ("type", .data (.text "object")) := by
  rcases List.mem_append.mp h with h | h
  · exact .inl (by simpa using List.mem_filter.mp h)
  · split at h
    · cases h
    · exact .inr (List.mem_singleton.mp h)

theorem Formed.nodup_kept (h : r.Formed) :
    ((r.filter fun e => e.1 ∉ recursiveKeywords).map (·.1)).Nodup :=
  (List.filter_sublist.map _).nodup h.distinct

theorem Formed.remainder (h : r.Formed) : r.remainder.Formed where
  distinct := by
    rw [Record.remainder, List.map_append]
    cases htype : r.lookup "type" with
    | some slot => simpa using h.nodup_kept
    | none =>
      refine List.nodup_append.mpr ⟨h.nodup_kept, by simp [ofType], fun k hk k' hk' heq => ?_⟩
      obtain rfl : k' = "type" := by simpa [ofType] using hk'
      obtain ⟨e, he, rfl⟩ := List.mem_map.mp hk
      have hne := List.lookup_eq_none_iff.mp htype e (List.mem_filter.mp he).1
      simp [heq] at hne
  properties x hx := by
    rcases mem_remainder hx with ⟨hx, -⟩ | hx
    · exact h.properties x hx
    · simp at hx
  fits e he := by
    rcases mem_remainder he with ⟨he, -⟩ | rfl
    · exact h.fits e he
    · simp [Slot.Fits]

theorem Formed.data?_type {slot : Slot} (h : r.Formed) (hs : r.lookup "type" = some slot) :
    ∃ v, slot = .data v ∧ r.data? "type" = some v := by
  have hfits := h.fits _ (Entries.mem_of_lookup hs)
  cases slot with
  | data v => exact ⟨v, rfl, by rw [data?, hs]⟩
  | schema c => rcases hfits with hk | hk <;> simp at hk
  | properties b => simp [Slot.Fits] at hfits
  | required b => simp [Slot.Fits] at hfits

end Record

/-- Both forms keep the type of an object. -/
theorem ExportForm.keeps_object (form : ExportForm) :
    form.keeps "type" (.text "object") = true := by
  cases form <;> simp [keeps, allowsAnything]

namespace Graph

/-- The schema that a descriptor leads to, inside the descriptors on a path from the root. One of
these is cut; any other is written with all its keywords in order, and with the schemas that the
descriptors below it lead to. -/
inductive Follows (g : Graph) : List Address → Address → Schema → Prop
  | cut {path a} (h : a ∈ path) :
      Follows g path a ((g.record a).remainder.written (g.partOf fun _ => .keywords []))
  | whole {path a child} (h : a ∉ path) (hc : ∀ c, g.Edge a c → Follows g (a :: path) c (child c)) :
      Follows g path a ((g.record a).written (g.partOf child))

/-- The schema has the structure of the descriptor, and nothing is cut. -/
inductive Spells (g : Graph) : Address → Schema → Prop
  | intro {a child} (hc : ∀ c, g.Edge a c → Spells g c (child c)) :
      Spells g a ((g.record a).written (g.partOf child))

/-- A descriptor leads to no descriptor that leads back to itself. -/
def Acyclic (g : Graph) (a : Address) : Prop :=
  ∀ u, Relation.ReflTransGen g.Edge a u → ¬Relation.TransGen g.Edge u u

variable {g : Graph} {child child' : Address → Schema} {r : Record} {path : List Address}
  {a c : Address} {s t : Schema} {form : ExportForm}

theorem Formed.proper (hg : g.Formed) : g.Proper :=
  fun a r hr => (hg a r hr).toProper

theorem record_formed (hg : g.Formed) (a : Address) : (g.record a).Formed := by
  unfold record
  cases hr : g.records[a]? with
  | none => exact ⟨⟨List.nodup_nil, by simp⟩, by simp⟩
  | some r => exact hg a r hr

/-! ## What records are written as -/

theorem written_congr (h : ∀ c, g.Below r c → child c = child' c) :
    r.written (g.partOf child) = r.written (g.partOf child') := by
  refine congrArg Schema.keywords (List.map_congr_left fun e he => Prod.ext rfl ?_)
  obtain ⟨k, slot⟩ := e
  cases slot with
  | schema c => exact congrArg SchemaPart.schema (h c ⟨_, he, rfl⟩)
  | properties b =>
    refine congrArg SchemaPart.properties (List.map_congr_left fun p hp => Prod.ext rfl ?_)
    exact h p.2 ⟨_, he, p.1, hp⟩
  | data v => rfl
  | required b => rfl

@[simp] theorem renderedSlots_nil : g.renderedSlots form child [] = [] := rfl

theorem renderedSlots_append (r r' : Record) : g.renderedSlots form child (r ++ r')
    = g.renderedSlots form child r ++ g.renderedSlots form child r' :=
  List.filterMap_append

/-- The canonical form keeps every keyword. -/
theorem renderedSlots_canonical (g : Graph) (child : Address → Schema) (r : Record) :
    Schema.keywords (g.renderedSlots .canonical child r) = r.written (g.partOf child) := by
  refine congrArg Schema.keywords ?_
  rw [← List.filterMap_eq_map, renderedSlots]
  refine List.filterMap_congr fun e _ => ?_
  obtain ⟨k, slot⟩ := e
  cases slot <;> rfl

theorem leadsOn_iff {k : String} : leadsOn k = true ↔ k ∈ recursiveKeywords :=
  List.contains_iff_mem

/-- What leads nowhere is written inside a descriptor as it is elsewhere. -/
theorem renderedInside_kept (h : r.Formed) (child : Address → Schema) :
    (r.filterMap fun e => if leadsOn e.1 then none
      else ((g.slotData? e.2).filter (form.keeps e.1)).map fun v => (e.1, SchemaPart.data v))
    = g.renderedSlots form child (r.filter fun e => e.1 ∉ recursiveKeywords) := by
  rw [renderedSlots, List.filterMap_filter]
  refine List.filterMap_congr fun e he => ?_
  have hfits := h.fits e he
  obtain ⟨k, slot⟩ := e
  by_cases hk : k ∈ recursiveKeywords
  · simp [leadsOn_iff, hk]
  · have hdata := hfits.not_holds hk
    cases slot with
    | data v => simp [leadsOn_iff, hk, renderedSlot, Function.comp_def]
    | required b => simp [leadsOn_iff, hk, renderedSlot, Function.comp_def]
    | schema c => cases hdata
    | properties b => cases hdata

/-- What is written of a descriptor inside itself is what is left of its record, if its type is kept
where it has one. -/
theorem renderedInside_eq (h : r.Formed)
    (hkeep : ∀ v, r.data? "type" = some v → form.keeps "type" v = true)
    (child : Address → Schema) :
    g.renderedInside form r = .keywords (g.renderedSlots form child r.remainder) := by
  have htype : ((g.renderedSlots form child (r.filter fun e => e.1 ∉ recursiveKeywords)).lookup
      "type").isSome = (r.lookup "type").isSome := by
    rw [lookup_renderedSlots h.nodup_kept, Record.lookup_filter_type]
    cases hs : r.lookup "type" with
    | none => rfl
    | some slot =>
      obtain ⟨v, rfl, hv⟩ := h.data?_type hs
      simp [renderedSlot, slotData?, hkeep v hv]
  have hobject : g.renderedSlots form child (Record.ofType "object")
      = [("type", .data (.text "object"))] := by
    simp [renderedSlots, Record.ofType, renderedSlot, slotData?, form.keeps_object]
  unfold renderedInside
  dsimp only
  rw [renderedInside_kept h child, htype, Record.remainder, renderedSlots_append]
  split
  · rw [renderedSlots_nil, List.append_nil]
  · rw [hobject]

/-! ## What is written follows the graph -/

theorem rendered_follows (hg : g.Formed) {room : Nat} (hroom : g.Room room path) (a : Address) :
    g.Follows path a (g.rendered .canonical room path a) := by
  induction room generalizing path a with
  | zero => exact absurd hroom.pos (Nat.lt_irrefl 0)
  | succ room ih =>
    rw [rendered]
    split
    · rename_i hmem
      rw [renderedInside_eq (record_formed hg a) (fun _ _ => rfl) fun _ => .keywords [],
        renderedSlots_canonical]
      exact .cut (List.contains_iff_mem.mp hmem)
    · rename_i hmem
      have hnot : a ∉ path := fun h => hmem (List.contains_iff_mem.mpr h)
      rw [renderedSlots_canonical]
      exact .whole hnot fun c hc => ih (hroom.enter hnot (Edge.lt_records hc)) c

theorem Follows.unique (h : g.Follows path a s) (h' : g.Follows path a t) : t = s := by
  induction h generalizing t with
  | cut hmem =>
    cases h' with
    | cut _ => rfl
    | whole hnot _ => exact absurd hmem hnot
  | whole hnot _ ih =>
    cases h' with
    | cut hmem => exact absurd hmem hnot
    | whole _ hc' => exact written_congr fun c hc => ih c hc (hc' c hc)

/-! ## Cycles -/

theorem Acyclic.of_edge (h : g.Acyclic a) (hc : g.Edge a c) : g.Acyclic c :=
  fun u hu => h u (hu.head hc)

theorem Spells.acyclic (h : g.Spells a s) : g.Acyclic a := by
  induction h with
  | @intro a _ _ ih =>
    intro u hu hcycle
    -- A cycle at the descriptor itself is a cycle at the next one on it.
    rcases hu.cases_head with rfl | ⟨c, hc, hway⟩
    · obtain ⟨c, hc, hback⟩ := Relation.TransGen.head'_iff.mp hcycle
      exact ih c hc c .refl (.tail' hback hc)
    · exact ih c hc u hway hcycle

/-- What is below a descriptor on a path leads on from all the path. -/
theorem leads_cons (hpath : ∀ p ∈ path, Relation.TransGen g.Edge p a) (hc : g.Edge a c) :
    ∀ p ∈ a :: path, Relation.TransGen g.Edge p c := by
  intro p hp
  rcases List.mem_cons.mp hp with rfl | hp
  · exact .single hc
  · exact (hpath p hp).tail hc

/-- Where there is no cycle, nothing on the path is met again. -/
theorem Follows.spells (h : g.Follows path a s) (hacyclic : g.Acyclic a)
    (hpath : ∀ p ∈ path, Relation.TransGen g.Edge p a) : g.Spells a s := by
  induction h with
  | cut hmem => exact absurd (hpath _ hmem) (hacyclic _ .refl)
  | @whole path a _ _ _ ih =>
    exact .intro fun c hc => ih c hc (hacyclic.of_edge hc) (leads_cons hpath hc)

theorem Spells.unique (h : g.Spells a s) (h' : g.Spells a t) : t = s := by
  induction h generalizing t with
  | intro _ ih =>
    cases h' with
    | intro hc' => exact written_congr fun c hc => ih c hc (hc' c hc)

/-- A copy of a schema that has the structure of a descriptor is what that is written as. -/
theorem Spells.rendered_eq (hg : g.Formed) (h : g.Spells a s) :
    g.rendered .canonical (g.records.size + 1) [] a = s := by
  have hfollows : g.Follows [] a (g.rendered .canonical (g.records.size + 1) [] a) :=
    rendered_follows hg (.start g) a
  exact h.unique (hfollows.spells h.acyclic (by simp))

end Graph

/-- A person with two names of one kind, themselves as their own friend, and a rival who is a copy
of them with the same properties. -/
def personGraph : Graph where
  records := #[
    [("type", .data (.text "object")), ("properties", .properties 0), ("required", .required 0)],
    [("type", .data (.text "string"))],
    [("properties", .properties 0), ("description", .data (.text "rival")),
      ("required", .required 0)]]
  bodies := #[⟨[("first", 1), ("last", 1), ("friend", 0), ("rival", 2)], ["first"]⟩]

theorem personGraph_formed : personGraph.Formed := by
  intro a r hr
  have hmem : r ∈ personGraph.records := Array.mem_of_getElem? hr
  simp only [personGraph, List.mem_toArray, List.mem_cons, List.not_mem_nil, or_false] at hmem
  rcases hmem with rfl | rfl | rfl <;>
    exact ⟨⟨by decide, by simp⟩, by simp [Slot.Fits]⟩

/-- The shared name is written four times. The person is cut within themselves, and so is the rival
within the rival, who keeps the description and turns out to be an object. -/
example : personGraph.render .canonical 0 =
    let text : Schema := .keywords [("type", .data (.text "string"))]
    let person : Schema := .keywords [("type", .data (.text "object"))]
    let rival : Schema := .keywords
      [("description", .data (.text "rival")), ("type", .data (.text "object"))]
    let required : String × SchemaPart := ("required", .data (.list [.text "first"]))
    .ok (.keywords [("type", .data (.text "object")),
      ("properties", .properties [("first", text), ("last", text), ("friend", person),
        ("rival", .keywords [
          ("properties", .properties
            [("first", text), ("last", text), ("friend", person), ("rival", rival)]),
          ("description", .data (.text "rival")), required])]),
      required]) := by
  rfl

/-- An opaque object among the members of an enumeration is written as a copy, which is another
object. -/
example : (⟨#[[("enum", .data (.list [.foreign (.written 0)]))]], #[]⟩ : Graph).render .canonical 0
    = .ok (.keywords [("enum", .data (.list [.foreign (.copied "canonical" (.written 0))]))]) :=
  rfl

end ToolCatalog
