import Mathlib.Data.List.Perm.Subperm
import ToolCatalog.Proofs.Copies

/-!
Writing out a descriptor always succeeds.

The only ways to fail are properties that are no properties, which no descriptor of the compiler
has, and too little room, which cannot happen because descriptors inside each other are distinct.
What is written is a copy of `Graph.rendered`, in which nothing is left of the bookkeeping but the
list of the descriptors around.
-/
namespace ToolCatalog

/-- A record with distinct keywords that holds properties under that keyword, if anything. -/
structure Record.Proper (r : Record) : Prop where
  distinct : (r.map (·.1)).Nodup
  properties : ∀ x, ("properties", x) ∈ r → ∃ b, x = .properties b

/-- A graph in which every record is proper. -/
def Graph.Proper (g : Graph) : Prop :=
  ∀ (a : Address) (r : Record), g.records[a]? = some r → r.Proper

/-- Whether a slot holds a descriptor, as such or among properties. -/
def Slot.Leads (g : Graph) (c : Address) : Slot → Prop
  | .schema a => a = c
  | .properties b => ∃ name, (name, c) ∈ (g.body b).properties
  | .data _ | .required _ => False

namespace Graph

/-- A record holds a descriptor. -/
def Below (g : Graph) (r : Record) (c : Address) : Prop :=
  ∃ e ∈ r, e.2.Leads g c

/-- The descriptor at one address holds that at another. -/
def Edge (g : Graph) (a c : Address) : Prop :=
  g.Below (g.record a) c

/-- What a slot is written as, given what descriptors are written as. -/
def renderedSlot (g : Graph) (form : ExportForm) (child : Address → Schema) (keyword : String) :
    Slot → Option SchemaPart
  | .schema a => some (.schema (child a))
  | .properties b => some (.properties ((g.body b).properties.map fun e => (e.1, child e.2)))
  | slot => ((g.slotData? slot).filter (form.keeps keyword)).map .data

/-- What the keywords of a record are written as. -/
def renderedSlots (g : Graph) (form : ExportForm) (child : Address → Schema) (r : Record) :
    List (String × SchemaPart) :=
  r.filterMap fun e => (g.renderedSlot form child e.1 e.2).map fun p => (e.1, p)

/-- What a record is written as inside itself. -/
def renderedInside (g : Graph) (form : ExportForm) (r : Record) : Schema :=
  let kept : List (String × SchemaPart) := r.filterMap fun (k, slot) =>
    if leadsOn k then none
    else ((g.slotData? slot).filter (form.keeps k)).map fun v => (k, .data v)
  if (kept.lookup "type").isSome then .keywords kept
  else .keywords (kept ++ [("type", .data (.text "object"))])

/-- What the descriptor at an address is written as inside the descriptors at `active`. -/
def rendered (g : Graph) (form : ExportForm) : Nat → List Address → Address → Schema
  | 0, _, _ => .keywords []
  | room + 1, active, a =>
    if active.contains a then g.renderedInside form (g.record a)
    else .keywords (g.renderedSlots form (g.rendered form room (a :: active)) (g.record a))

variable {g : Graph} {form : ExportForm} {child : Address → Rendering Schema}
  {result : Address → Schema} {active : List Address}

/-- What is written of a descriptor inside itself is a copy. -/
theorem backEdge_eq (g : Graph) (form : ExportForm) (r : Record) :
    g.backEdge form r = (g.renderedInside form r).copied form := by
  have hkept : (r.filterMap fun e => if leadsOn e.1 then none
        else (g.copied? form e.1 e.2).map fun p => (e.1, p))
      = (r.filterMap fun e => if leadsOn e.1 then none
          else ((g.slotData? e.2).filter (form.keeps e.1)).map fun v =>
            (e.1, SchemaPart.data v)).map
              fun e => (e.1, Schema.renamedPart (.copied form.name) e.2) := by
    rw [List.map_filterMap]
    refine List.filterMap_congr fun e _ => ?_
    split
    · rfl
    · rw [copied?, Option.map_map, Option.map_map]
      rfl
  have hlookup (ps : List (String × SchemaPart)) : ((ps.map fun e =>
      (e.1, Schema.renamedPart (.copied form.name) e.2)).lookup "type").isSome
        = (ps.lookup "type").isSome := by
    induction ps with
    | nil => rfl
    | cons e rest ih =>
      rw [List.map_cons, List.lookup_cons, List.lookup_cons]
      split <;> first | rfl | exact ih
  unfold backEdge renderedInside
  dsimp only
  rw [hkept, hlookup]
  split
  · exact congrArg Schema.keywords (Schema.renamedParts_eq _).symm
  · refine congrArg Schema.keywords ?_
    rw [Schema.renamedParts_eq, List.map_append]
    rfl

theorem run_bind_ok {α β : Type} {m : Rendering α} {f : α → Rendering β} {a : α}
    {active' : List Address} (h : m.run active = .ok (a, active')) :
    (m >>= f).run active = (f a).run active' := by
  rw [StateT.run_bind, h]
  rfl

theorem renderProperties_run {ps : Entries Address} (result : Address → Schema)
    (hc : ∀ e ∈ ps, (child e.2).run active = .ok (result e.2, active)) :
    (renderProperties child ps).run active = .ok (ps.map fun e => (e.1, result e.2), active) := by
  induction ps with
  | nil => rfl
  | cons e rest ih =>
    obtain ⟨k, a⟩ := e
    obtain ⟨ha, hrest⟩ := List.forall_mem_cons.mp hc
    rw [renderProperties, run_bind_ok ha, run_bind_ok (ih hrest)]
    rfl

theorem renderSlots_run {r : Record}
    (hc : ∀ c, g.Below r c → (child c).run active = .ok ((result c).copied form, active))
    (hr : ∀ x, ("properties", x) ∈ r → ∃ b, x = .properties b) :
    (renderSlots g form child r).run active
      = .ok (Schema.renamedParts (.copied form.name) (g.renderedSlots form result r), active) := by
  induction r with
  | nil => rfl
  | cons e rest ih =>
    obtain ⟨k, slot⟩ := e
    have hslot (c) (h : slot.Leads g c) :
        (child c).run active = .ok ((result c).copied form, active) :=
      hc c ⟨_, List.mem_cons_self, h⟩
    have ih := ih (fun c ⟨e, he, h⟩ => hc c ⟨e, List.mem_cons_of_mem _ he, h⟩)
      fun x hx => hr x (List.mem_cons_of_mem _ hx)
    have hk (h : ∀ b, slot ≠ .properties b) : k ≠ "properties" := fun hk => by
      obtain ⟨b, hb⟩ := hr slot (by simp [hk])
      exact h b hb
    cases slot with
    | schema a =>
      rw [renderSlots, run_bind_ok (hslot a rfl), pure_bind, run_bind_ok ih]
      rfl
    | properties b =>
      have hps := renderProperties_run (fun c => (result c).copied form)
        fun e he => hslot e.2 ⟨e.1, he⟩
      have hcopied : Schema.renamedProperties (.copied form.name)
            ((g.body b).properties.map fun e => (e.1, result e.2))
          = (g.body b).properties.map fun e => (e.1, (result e.2).copied form) := by
        rw [Schema.renamedProperties_eq, List.map_map]
        rfl
      rw [renderSlots, run_bind_ok hps, pure_bind, run_bind_ok ih, ← hcopied]
      rfl
    | data v =>
      simp only [renderSlots, if_neg (hk (by simp)), renderedSlots, List.filterMap_cons,
        renderedSlot, copied?]
      cases (g.slotData? (.data v)).filter (form.keeps k) with
      | none => exact run_bind_ok ih
      | some v =>
        rw [Option.map_some, pure_bind, run_bind_ok ih]
        rfl
    | required b =>
      simp only [renderSlots, if_neg (hk (by simp)), renderedSlots, List.filterMap_cons,
        renderedSlot, copied?]
      cases (g.slotData? (.required b)).filter (form.keeps k) with
      | none => exact run_bind_ok ih
      | some v =>
        rw [Option.map_some, pure_bind, run_bind_ok ih]
        rfl

/-- A condition under which there is enough room for a descriptor: some for itself, and once it has
taken that, enough for every descriptor that it holds. -/
structure Suffices (g : Graph) (enough : Nat → List Address → Address → Prop) : Prop where
  pos : ∀ {room active a}, enough room active a → 0 < room
  proper : ∀ {room active a}, enough room active a → (g.record a).Proper
  below : ∀ {room active a c}, enough (room + 1) active a → a ∉ active → g.Edge a c →
    enough room (a :: active) c

/-- With enough room a descriptor is written out, and those around it stay the same. -/
theorem Suffices.run {enough : Nat → List Address → Address → Prop} (hs : g.Suffices enough)
    {room : Nat} {active : List Address} {a : Address} (h : enough room active a) :
    (renderWithin g form room a).run active
      = .ok ((g.rendered form room active a).copied form, active) := by
  induction room generalizing active a with
  | zero => exact absurd (hs.pos h) (Nat.lt_irrefl 0)
  | succ room ih =>
    have hget : (get : Rendering (List Address)).run active = .ok (active, active) := rfl
    rw [renderWithin, run_bind_ok hget, rendered]
    by_cases hmem : active.contains a = true
    · rw [if_pos hmem, if_pos hmem, backEdge_eq]
      rfl
    · have hnot : a ∉ active := by simpa using hmem
      rw [if_neg hmem, if_neg hmem]
      have hmod : (modify (a :: ·) : Rendering PUnit).run active = .ok (⟨⟩, a :: active) := rfl
      have hslots : (renderSlots g form (renderWithin g form room) (g.record a)).run (a :: active)
          = .ok (Schema.renamedParts (.copied form.name)
              (g.renderedSlots form (g.rendered form room (a :: active)) (g.record a)),
                a :: active) :=
        renderSlots_run (fun _ hc => ih (hs.below h hnot hc)) (hs.proper h).properties
      have herase : (modify (·.erase a) : Rendering PUnit).run (a :: active)
          = .ok (⟨⟩, active) := by
        show Except.ok (PUnit.unit, (a :: active).erase a) = _
        rw [List.erase_cons_head]
      rw [run_bind_ok hmod, run_bind_ok hslots, run_bind_ok herase]
      rfl

theorem record_of_getElem? {a : Address} {r : Record} (h : g.records[a]? = some r) :
    g.record a = r := by
  rw [record, h]
  rfl

theorem record_proper (hg : g.Proper) (a : Address) : (g.record a).Proper := by
  unfold record
  cases h : g.records[a]? with
  | none => exact ⟨List.nodup_nil, fun x hx => by simp at hx⟩
  | some r => exact hg a r h

theorem record_of_not_lt {a : Address} (h : ¬a < g.records.size) : g.record a = [] := by
  simp [record, Array.getElem?_eq_none (Nat.le_of_not_lt h)]

/-- Where there is no record, nothing leads on. -/
theorem Edge.lt_records {a c : Address} (h : g.Edge a c) : a < g.records.size := by
  by_contra ha
  obtain ⟨e, he, -⟩ := h
  rw [record_of_not_lt ha] at he
  cases he

/-- There is room for every descriptor that is not on the way, and for one more. -/
structure Room (g : Graph) (room : Nat) (active : List Address) : Prop where
  nodup : active.Nodup
  bounded : ∀ a ∈ active, a < g.records.size
  enough : g.records.size + 1 ≤ room + active.length

namespace Room

variable {room : Nat} {active : List Address}

theorem start (g : Graph) : g.Room (g.records.size + 1) [] :=
  ⟨List.nodup_nil, by simp, by simp⟩

theorem pos (h : g.Room room active) : 0 < room := by
  have hlen : active.length ≤ g.records.size := by
    have hsub : active ⊆ List.range g.records.size :=
      fun a ha => List.mem_range.mpr (h.bounded a ha)
    simpa using (List.subperm_of_subset h.nodup hsub).length_le
  have := h.enough
  omega

theorem enter {a : Address} (h : g.Room (room + 1) active) (ha : a ∉ active)
    (hlt : a < g.records.size) : g.Room room (a :: active) := by
  constructor
  case nodup => exact List.nodup_cons.mpr ⟨ha, h.nodup⟩
  case bounded =>
    intro b hb
    rcases List.mem_cons.mp hb with rfl | hb
    · exact hlt
    · exact h.bounded b hb
  case enough =>
    have := h.enough
    simp only [List.length_cons]
    omega

end Room

/-- There is enough room for what stands in a proper graph. -/
theorem Proper.room_suffices (hg : g.Proper) :
    g.Suffices fun room active _ => g.Room room active where
  pos h := h.pos
  proper {_ _ a} _ := record_proper hg a
  below h hnot hc := h.enter hnot hc.lt_records

theorem renderWithin_run (hg : g.Proper) {room : Nat} {active : List Address}
    (hroom : g.Room room active) (a : Address) :
    (renderWithin g form room a).run active
      = .ok ((g.rendered form room active a).copied form, active) :=
  hg.room_suffices.run (a := a) hroom

/-- Writing out a descriptor of a proper graph succeeds. -/
theorem render_eq (hg : g.Proper) (form : ExportForm) (a : Address) :
    g.render form a = .ok ((g.rendered form (g.records.size + 1) [] a).copied form) := by
  have h : (renderWithin g form (g.records.size + 1) a).run []
      = .ok ((g.rendered form (g.records.size + 1) [] a).copied form, []) :=
    renderWithin_run hg (.start g) a
  show Prod.fst <$> (renderWithin g form (g.records.size + 1) a).run [] = _
  rw [h]
  rfl

end Graph

end ToolCatalog
