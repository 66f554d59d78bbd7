import Mathlib.Logic.Relation
import ToolCatalog.Proofs.Json
import ToolCatalog.Proofs.Rendering

/-!
What is written of a descriptor is JSON exactly if the data of all the descriptors it leads to is.

Cutting cycles loses nothing: what can be reached at all can be reached on a way that meets no
descriptor twice, and along such a way nothing is cut.
-/
namespace ToolCatalog

/-- The data that is kept of a record is JSON. -/
def Record.WireIn (form : ExportForm) (r : Record) : Prop :=
  ∀ k v, (k, Slot.data v) ∈ r → form.keeps k v = true → v.isWire = true

/-! ## Values of schemas -/

namespace Schema

theorem partEntries_isWire {ps : List (String × SchemaPart)} :
    Value.entriesAreWire (partEntries ps) = true ↔ ∀ p ∈ ps, (partValue p.2).isWire = true := by
  induction ps with
  | nil => simp [partEntries, Value.entriesAreWire]
  | cons p rest ih =>
    obtain ⟨k, p⟩ := p
    simp [partEntries, Value.entriesAreWire, Value.textual?, ih]

theorem propertyEntries_isWire {ps : List (String × Schema)} :
    Value.entriesAreWire (propertyEntries ps) = true ↔ ∀ p ∈ ps, p.2.toValue.isWire = true := by
  induction ps with
  | nil => simp [propertyEntries, Value.entriesAreWire]
  | cons p rest ih =>
    obtain ⟨k, s⟩ := p
    simp [propertyEntries, Value.entriesAreWire, Value.textual?, ih]

theorem keywords_isWire {ps : List (String × SchemaPart)} :
    (keywords ps).toValue.isWire = true ↔ ∀ p ∈ ps, (partValue p.2).isWire = true := by
  rw [toValue, Value.isWire, partEntries_isWire]

end Schema

namespace Graph

variable {g : Graph} {form : ExportForm} {child : Address → Schema} {r : Record}

theorem slotData?_isWire {k : String} {slot : Slot} {v : Value} (h : r.WireIn form)
    (hk : (k, slot) ∈ r) (hv : (g.slotData? slot).filter (form.keeps k) = some v) :
    v.isWire = true := by
  obtain ⟨hdata, hkeep⟩ := Option.filter_eq_some_iff.mp hv
  cases slot with
  | data w =>
    cases hdata
    exact h k _ hk hkeep
  | required b =>
    cases hdata
    exact Value.texts_isWire _
  | schema a => cases hdata
  | properties b => cases hdata

theorem renderedSlots_isWire :
    (Schema.keywords (g.renderedSlots form child r)).toValue.isWire = true ↔
      r.WireIn form ∧ ∀ c, g.Below r c → (child c).toValue.isWire = true := by
  rw [Schema.keywords_isWire]
  have hmem {k : String} {slot : Slot} {p : SchemaPart} (hk : (k, slot) ∈ r)
      (hp : g.renderedSlot form child k slot = some p) :
      (k, p) ∈ g.renderedSlots form child r :=
    List.mem_filterMap.mpr ⟨(k, slot), hk, by simp [hp]⟩
  constructor
  · intro h
    refine ⟨fun k v hv hkeep => ?_, fun c hc => ?_⟩
    · exact h _ (hmem hv (p := .data v) (by simp [renderedSlot, slotData?, hkeep]))
    · obtain ⟨⟨k, slot⟩, hk, hc⟩ := hc
      cases slot with
      | schema a => exact hc ▸ h _ (hmem hk rfl)
      | properties b =>
        obtain ⟨name, hc⟩ := hc
        have hprops := h _ (hmem hk rfl)
        rw [Schema.partValue, Value.isWire, Schema.propertyEntries_isWire] at hprops
        exact hprops (name, child c) (List.mem_map_of_mem (f := fun e => (e.1, child e.2)) hc)
      | data v => exact hc.elim
      | required b => exact hc.elim
  · rintro ⟨hdata, hbelow⟩ ⟨k, p⟩ hp
    obtain ⟨⟨k', slot⟩, hk, hpart⟩ := List.mem_filterMap.mp hp
    obtain ⟨part, hpart, heq⟩ := Option.map_eq_some_iff.mp hpart
    cases heq
    cases slot with
    | schema c =>
      cases hpart
      exact hbelow c ⟨_, hk, rfl⟩
    | properties b =>
      cases hpart
      rw [Schema.partValue, Value.isWire, Schema.propertyEntries_isWire]
      intro e he
      obtain ⟨x, hx, rfl⟩ := List.mem_map.mp he
      exact hbelow x.2 ⟨_, hk, x.1, hx⟩
    | data v =>
      obtain ⟨w, hw, rfl⟩ := Option.map_eq_some_iff.mp hpart
      exact slotData?_isWire hdata hk hw
    | required b =>
      obtain ⟨w, hw, rfl⟩ := Option.map_eq_some_iff.mp hpart
      exact slotData?_isWire hdata hk hw

theorem renderedInside_isWire (h : r.WireIn form) :
    (g.renderedInside form r).toValue.isWire = true := by
  have hkept : ∀ p ∈ r.filterMap fun e => if leadsOn e.1 then none
      else ((g.slotData? e.2).filter (form.keeps e.1)).map fun v => (e.1, SchemaPart.data v),
      (Schema.partValue p.2).isWire = true := by
    intro p hp
    obtain ⟨e, he, hpart⟩ := List.mem_filterMap.mp hp
    split at hpart
    · cases hpart
    · obtain ⟨v, hv, rfl⟩ := Option.map_eq_some_iff.mp hpart
      exact slotData?_isWire h he hv
  unfold renderedInside
  dsimp only
  split
  · exact Schema.keywords_isWire.mpr hkept
  · refine Schema.keywords_isWire.mpr fun p hp => ?_
    rcases List.mem_append.mp hp with hp | hp
    · exact hkept p hp
    · rw [List.mem_singleton.mp hp]
      rfl

/-! ## Ways through a graph -/

/-- The way to another descriptor that avoids some goes on from one of those below, and need not
come back. -/
theorem reach_avoiding {avoid : List Address} {a u : Address}
    (h : Relation.ReflTransGen (fun x y => g.Edge x y ∧ y ∉ avoid) a u) :
    u = a ∨ ∃ c, g.Edge a c ∧ c ∉ a :: avoid ∧
      Relation.ReflTransGen (fun x y => g.Edge x y ∧ y ∉ a :: avoid) c u := by
  induction h with
  | refl => exact .inl rfl
  | @tail v u _ hstep ih =>
    obtain ⟨hedge, hnot⟩ := hstep
    -- A way that comes back to `a` may as well not leave it.
    by_cases hu : u = a
    · exact .inl hu
    · have hnew : u ∉ a :: avoid := by simp [hu, hnot]
      rcases ih with rfl | ⟨c, hc, hcn, hway⟩
      · exact .inr ⟨u, hedge, hnew, .refl⟩
      · exact .inr ⟨c, hc, hcn, hway.tail ⟨hedge, hnew⟩⟩

theorem rendered_isWire (room : Nat) {active : List Address} {a : Address}
    (h : ∀ u, Relation.ReflTransGen g.Edge a u → (g.record u).WireIn form) :
    (g.rendered form room active a).toValue.isWire = true := by
  induction room generalizing active a with
  | zero => rfl
  | succ room ih =>
    rw [rendered]
    split
    · exact renderedInside_isWire (h a .refl)
    · refine renderedSlots_isWire.mpr ⟨h a .refl, fun c hc => ih fun u hu => ?_⟩
      exact h u (hu.head hc)

theorem wireIn_of_rendered {room : Nat} {active : List Address} {a u : Address}
    (hroom : g.Room room active) (ha : a ∉ active)
    (h : (g.rendered form room active a).toValue.isWire = true)
    (hu : Relation.ReflTransGen (fun x y => g.Edge x y ∧ y ∉ active) a u) :
    (g.record u).WireIn form := by
  induction room generalizing active a with
  | zero => exact absurd hroom.pos (Nat.lt_irrefl 0)
  | succ room ih =>
    rw [rendered, if_neg (by simpa using ha), renderedSlots_isWire] at h
    obtain ⟨hdata, hbelow⟩ := h
    -- What is cut below `a` lies on the way to it, and the way to `u` avoids that.
    rcases reach_avoiding hu with rfl | ⟨c, hc, hcn, hway⟩
    · exact hdata
    · exact ih (hroom.enter ha hc.lt_records) hcn (hbelow c hc) hway

/-- A descriptor is written as JSON exactly if all the data that can be reached is JSON. -/
theorem rendered_isWire_iff (a : Address) :
    (g.rendered form (g.records.size + 1) [] a).toValue.isWire = true ↔
      ∀ u, Relation.ReflTransGen g.Edge a u → (g.record u).WireIn form := by
  constructor
  · intro h u hu
    refine wireIn_of_rendered (.start g) (by simp) h ?_
    exact Relation.ReflTransGen.mono (fun x y hxy => ⟨hxy, by simp⟩) _ _ hu
  · exact rendered_isWire _

end Graph

end ToolCatalog
