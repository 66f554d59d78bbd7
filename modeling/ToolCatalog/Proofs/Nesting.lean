import Mathlib.Data.Finset.Card
import ToolCatalog.Proofs.Cleaning

/-!
How deep descriptors are written inside each other.

Writing out goes into a descriptor only if that is not being written already. So as many
descriptors are written inside each other as can be met at all, and at most one more, which is cut.
The number of those that are not being written yet falls from each descriptor to the next, which is
why writing out ends on every finite graph, whatever leads back to what and whatever is being
written around it.
-/
namespace ToolCatalog

/-! ## Schemas inside each other -/

namespace Schema

variable {s t : Schema} {n : Nat}

theorem propertiesDepth_le_iff {ps : List (String × Schema)} :
    propertiesDepth ps ≤ n ↔ ∀ e ∈ ps, e.2.depth ≤ n := by
  induction ps with
  | nil => simp [propertiesDepth]
  | cons e rest ih => simp [propertiesDepth, ih]

theorem partsDepth_le_iff {ps : List (String × SchemaPart)} :
    partsDepth ps ≤ n ↔ ∀ e ∈ ps, ∀ t, e.2.Holds t → t.depth ≤ n := by
  induction ps with
  | nil => simp [partsDepth]
  | cons e rest ih =>
    obtain ⟨k, p⟩ := e
    rw [List.forall_mem_cons]
    cases p with
    | data v => simp [partsDepth, ih, SchemaPart.Holds]
    | schema s => simp [partsDepth, ih, SchemaPart.Holds]
    | properties ps =>
      rw [partsDepth, max_le_iff, ih, propertiesDepth_le_iff]
      refine and_congr_left fun _ => ⟨fun h t ht => ?_, fun h e he => h e.2 ⟨e.1, he⟩⟩
      obtain ⟨name, hname⟩ := ht
      exact h (name, t) hname

theorem depth_le_succ_iff : s.depth ≤ n + 1 ↔ ∀ t, s.Holds t → t.depth ≤ n := by
  obtain ⟨ps⟩ := s
  rw [depth, Nat.succ_le_succ_iff, partsDepth_le_iff]
  exact ⟨fun h t ⟨e, he, ht⟩ => h e he t ht, fun h e he t ht => h t ⟨e, he, ht⟩⟩

theorem depth_pos (s : Schema) : 0 < s.depth := by
  obtain ⟨ps⟩ := s
  exact Nat.succ_pos _

theorem Holds.depth_lt (h : s.Holds t) : t.depth < s.depth := by
  obtain ⟨d, hd⟩ := Nat.exists_eq_succ_of_ne_zero (Nat.ne_of_gt s.depth_pos)
  rw [hd, Nat.lt_succ_iff]
  exact depth_le_succ_iff.mp hd.le t h

/-- No chain of schemas inside each other is longer than the first of them is deep. -/
theorem length_le_depth {chain : List Schema} (h : (s :: chain).IsChain Holds) :
    (s :: chain).length ≤ s.depth := by
  induction chain generalizing s with
  | nil => exact s.depth_pos
  | cons t rest ih =>
    obtain ⟨hst, hrest⟩ := List.isChain_cons_cons.mp h
    exact Nat.succ_le_of_lt (Nat.lt_of_le_of_lt (ih hrest) hst.depth_lt)

end Schema

namespace Graph

variable {g : Graph} {form : ExportForm} {r : Record} {room room' : Nat} {active : List Address}
  {a : Address} {enough : Nat → List Address → Address → Prop} {nodes : Finset Address}

/-- Nothing but data is written of a descriptor that is cut. -/
theorem mem_renderedInside {p : String × SchemaPart} (h : p ∈ (g.renderedInside form r).parts) :
    ∃ v, p.2 = .data v := by
  have hkept : ∀ p ∈ r.filterMap fun e => if leadsOn e.1 then none
      else ((g.slotData? e.2).filter (form.keeps e.1)).map fun v => (e.1, SchemaPart.data v),
      ∃ v, p.2 = .data v := by
    intro p hp
    obtain ⟨e, -, hpart⟩ := List.mem_filterMap.mp hp
    split at hpart
    · cases hpart
    · obtain ⟨v, -, rfl⟩ := Option.map_eq_some_iff.mp hpart
      exact ⟨v, rfl⟩
  unfold renderedInside at h
  dsimp only at h
  split at h
  · exact hkept p h
  · rcases List.mem_append.mp h with h | h
    · exact hkept p h
    · rw [List.mem_singleton.mp h]
      exact ⟨_, rfl⟩

theorem depth_renderedInside (g : Graph) (form : ExportForm) (r : Record) :
    (g.renderedInside form r).depth ≤ 1 := by
  refine Schema.depth_le_succ_iff.mpr fun t ⟨p, hp, ht⟩ => ?_
  obtain ⟨v, hv⟩ := mem_renderedInside hp
  rw [hv] at ht
  exact ht.elim

/-! ## Enough room -/

/-- Each descriptor that is written inside another takes up room. -/
theorem Suffices.depth_le (hs : g.Suffices enough) (h : enough room active a) :
    (g.rendered form room active a).depth ≤ room := by
  induction room generalizing active a with
  | zero => exact absurd (hs.pos h) (Nat.lt_irrefl 0)
  | succ room ih =>
    rw [rendered]
    split
    · exact Nat.le_trans (depth_renderedInside g form _) (Nat.succ_le_succ (Nat.zero_le room))
    · rename_i hmem
      have hnot : a ∉ active := by simpa using hmem
      refine Schema.depth_le_succ_iff.mpr fun t ht => ?_
      obtain ⟨c, hc, rfl⟩ := holds_renderedSlots ht
      exact ih (hs.below h hnot hc)

/-- More room than enough changes nothing. -/
theorem Suffices.rendered_eq (hs : g.Suffices enough) (h : enough room active a)
    (h' : enough room' active a) :
    g.rendered form room active a = g.rendered form room' active a := by
  induction room generalizing room' active a with
  | zero => exact absurd (hs.pos h) (Nat.lt_irrefl 0)
  | succ room ih =>
    cases room' with
    | zero => exact absurd (hs.pos h') (Nat.lt_irrefl 0)
    | succ room' =>
      rw [rendered, rendered]
      split
      · rfl
      · rename_i hmem
        have hnot : a ∉ active := by simpa using hmem
        exact congrArg Schema.keywords (renderedSlots_congr fun c hc =>
          ih (hs.below h hnot hc) (hs.below h' hnot hc))

/-! ## Parts of a graph -/

/-- Proper descriptors that hold no others than these. -/
structure SelfContained (g : Graph) (nodes : Finset Address) : Prop where
  proper : ∀ a ∈ nodes, (g.record a).Proper
  closed : ∀ a ∈ nodes, ∀ c, g.Edge a c → c ∈ nodes

/-- How many of these descriptors are not being written yet. -/
def waiting (nodes : Finset Address) (active : List Address) : Nat :=
  (nodes.filter (· ∉ active)).card

theorem waiting_le (nodes : Finset Address) (active : List Address) :
    waiting nodes active ≤ nodes.card :=
  Finset.card_filter_le _ _

theorem waiting_cons_lt (ha : a ∈ nodes) (hnot : a ∉ active) :
    waiting nodes (a :: active) < waiting nodes active := by
  refine Finset.card_lt_card ⟨fun c hc => ?_, fun hsub => ?_⟩
  · have hc := Finset.mem_filter.mp hc
    exact Finset.mem_filter.mpr ⟨hc.1, fun h => hc.2 (List.mem_cons_of_mem _ h)⟩
  · have hin := hsub (Finset.mem_filter.mpr ⟨ha, hnot⟩)
    exact (Finset.mem_filter.mp hin).2 List.mem_cons_self

/-- Room for one more descriptor than are waiting is enough. -/
theorem SelfContained.suffices (hn : g.SelfContained nodes) :
    g.Suffices fun room active a => a ∈ nodes ∧ waiting nodes active < room where
  pos h := Nat.zero_lt_of_lt h.2
  proper h := hn.proper _ h.1
  below {_ _ a c} h hnot hc :=
    ⟨hn.closed a h.1 c hc, Nat.lt_of_lt_of_le (waiting_cons_lt h.1 hnot) (Nat.lt_succ_iff.mp h.2)⟩

/-- Writing out a descriptor ends, in either form and whatever is being written around it. What is
being written stays the same, and no more schemas stand inside each other than there are
descriptors to be met, and one. -/
theorem renderWithin_ends (hn : g.SelfContained nodes) (form : ExportForm) (ha : a ∈ nodes)
    (active : List Address) :
    ∃ s, (∀ room, nodes.card < room →
        (renderWithin g form room a).run active = .ok (s, active)) ∧
      ∀ chain, (s :: chain).IsChain Schema.Holds → (s :: chain).length ≤ nodes.card + 1 := by
  have henough {room : Nat} (h : nodes.card < room) : a ∈ nodes ∧ waiting nodes active < room :=
    ⟨ha, Nat.lt_of_le_of_lt (waiting_le nodes active) h⟩
  have hleast := henough (Nat.lt_succ_self nodes.card)
  refine ⟨(g.rendered form (nodes.card + 1) active a).copied form, fun room hroom => ?_,
    fun chain hchain => ?_⟩
  · rw [hn.suffices.run (henough hroom), hn.suffices.rendered_eq (henough hroom) hleast]
  · calc (_ :: chain).length
        ≤ ((g.rendered form (nodes.card + 1) active a).copied form).depth :=
          Schema.length_le_depth hchain
      _ = (g.rendered form (nodes.card + 1) active a).depth := Schema.depth_renamed _
      _ ≤ nodes.card + 1 := hn.suffices.depth_le hleast

end Graph

/-- A folder, and the list of folders in it. -/
def folderGraph : Graph where
  records := #[
    [("type", .data (.text "object")), ("properties", .properties 0)],
    [("type", .data (.text "array")), ("items", .schema 0)]]
  bodies := #[⟨[("folders", 1)], []⟩]

theorem folderGraph_selfContained : folderGraph.SelfContained {0, 1} where
  proper a ha := by
    simp only [Finset.mem_insert, Finset.mem_singleton] at ha
    rcases ha with rfl | rfl <;>
      exact ⟨by simp [Graph.record, folderGraph], by simp [Graph.record, folderGraph]⟩
  closed a ha := by
    simp only [Finset.mem_insert, Finset.mem_singleton] at ha
    rcases ha with rfl | rfl <;>
      simp [Graph.Edge, Graph.Below, Graph.record, Graph.body, folderGraph, Slot.Leads]

theorem renderWithin_ends_folder : folderGraph.SelfContained {0, 1} ∧
    (0 : Address) ∈ ({0, 1} : Finset Address) ∧
    ∃ s, (∀ room, ({0, 1} : Finset Address).card < room →
        (Graph.renderWithin folderGraph .strict room 0).run [7] = .ok (s, [7])) ∧
      ∀ chain, (s :: chain).IsChain Schema.Holds →
        (s :: chain).length ≤ ({0, 1} : Finset Address).card + 1 :=
  ⟨folderGraph_selfContained, by decide,
    Graph.renderWithin_ends folderGraph_selfContained .strict (by decide) [7]⟩

/-- The folder in the list in the folder is cut. -/
example : folderGraph.render .canonical 0 = .ok (.keywords [("type", .data (.text "object")),
    ("properties", .properties [("folders", .keywords [("type", .data (.text "array")),
      ("items", .schema (.keywords [("type", .data (.text "object"))]))])])]) := by
  rfl

end ToolCatalog
