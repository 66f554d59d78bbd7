import Mathlib.Tactic.FinCases
import ToolCatalog.Proofs.Outline
import ToolCatalog.Proofs.Programs

/-!
The memo is never seen in a result.

For every source, whatever is asked of a session and in which order, the descriptors unfold to the
schemas that plain recursion gives, as long as no call fails.
-/
namespace ToolCatalog

section

variable {defs : Definitions} {s : Session} {t u : TypeExpr}

theorem Leads.meets (h : Leads defs s t u) : t.Meets defs u :=
  have hx : Session.empty.Extends none s :=
    ⟨fun _ _ h => by simp [Session.empty, Graph.empty] at h,
      fun _ _ h => by simp [Session.empty, Graph.empty] at h,
      fun t h => by
        have hn : Session.empty.cached? t = none := Session.cached?_fresh false t
        simp [hn] at h⟩
  h.mono hx

/-- What is met from an expression has every property that passes on to parts and fields. -/
theorem TypeExpr.Meets.closed {Q : TypeExpr → Prop}
    (hpart : ∀ t e, Q t → (t.core.base defs).part? = some e → Q e)
    (hfield : ∀ t c name v, Q t → t.core.base defs = .object c → (name, v) ∈ c.fields → Q v)
    (h : t.Meets defs u) (ht : Q t) : Q u := by
  induction h with
  | here t => exact ht
  | part hp _ ih => exact ih (hpart _ _ ht hp)
  | field hb _ hf _ ih => exact ih (hfield _ _ _ _ ht hb hf)

/-- No call fails where every member that can be met has JSON data. -/
theorem Session.after_ok {calls : List Call}
    (h : ∀ c ∈ calls, ∀ u f, c.type.Meets defs u → ¬(u.core.base defs).Refuses f) :
    ∀ r ∈ (s.after defs calls).1, ∃ a, r = .ok a := by
  induction calls generalizing s with
  | nil => simp [Session.after]
  | cons c rest ih =>
    rcases hr : s.run (c.run defs) with ⟨r, s₁⟩
    simp only [Session.after, hr, List.mem_cons, forall_eq_or_imp]
    refine ⟨?_, ih fun d hd => h d (by simp [hd])⟩
    cases r with
    | ok a => exact ⟨a, rfl⟩
    | error e =>
      obtain ⟨u, f, hl, hf, -⟩ := Call.explained hr
      exact absurd hf (h c (by simp) u f hl.meets)

end

/-- After any calls of which none failed, the descriptor that each of them gave unfolds, to every
depth, to the schema that recursion alone gives. -/
theorem after_unfolds_to_outline (source : Source) (observable : Bool) (calls : List Call)
    (hcalls : ∀ c ∈ calls, source.Expression c.type)
    (hsteady : ∀ c ∈ calls, ∀ u, c.type.Meets source.definitions u → u.Steady)
    (hok : ∀ r ∈ (Session.after source.definitions (.fresh observable) calls).1,
      ∃ a, r = .ok a) (depth : Nat) :
    List.Forall₂
      (fun c r => ∃ a, r = .ok a ∧ c.outline source.definitions depth = .ok
        ((Session.after source.definitions (.fresh observable) calls).2.graph.unfold
          depth a))
      calls (Session.after source.definitions (.fresh observable) calls).1 := by
  obtain ⟨U, hU, hexpr⟩ := source.universe
  have hall : ∀ c ∈ calls, U c.type := fun c hc => hexpr _ (hcalls c hc)
  have hcomplete := Session.after_allComplete hU hall (.fresh observable) (.fresh observable) hok
  have hanswered := Session.after_answered hU hall (.fresh observable)
  refine List.forall₂_iff_zip.mpr ⟨hanswered.length_eq, fun {c r} hz => ?_⟩
  obtain ⟨hc, hr⟩ := List.of_mem_zip hz
  obtain ⟨a, rfl⟩ := hok r hr
  exact ⟨a, rfl, (List.forall₂_zip hanswered hz a rfl).outline_eq hcomplete depth (hsteady c hc)⟩

/-- A class whose fields lead back to it. -/
def treeSource : Source where
  declarations := [.model "Tree" [] none
    [("label", .atom (.builtin .text), .default (.text "leaf")),
      ("children", .generic ⟨.direct, "list", .list⟩ [.forward "Tree"], .nothing)]]
  written := [.reference "Tree"]

/-- The class as it is finished. -/
def treeClass : ObjectClass where
  doc := none
  fields := [("label", .field 3 ⟨some (.text "leaf"), none, none, none, []⟩
      (.atom (.builtin .text))),
    ("children", .field 4 ⟨none, none, none, none, []⟩
      (.generic 2 ⟨.direct, "list", .list⟩ [.declared "Tree"]))]
  unknownName := none

theorem treeSource_find : treeSource.definitions.find? "Tree" = some (.object treeClass) :=
  rfl

/-- What can be met from the class: itself and its fields. -/
theorem meets_tree {u : TypeExpr}
    (h : TypeExpr.Meets treeSource.definitions (.declared "Tree") u) :
    u = .declared "Tree" ∨ ∃ f ∈ treeClass.fields, u = f.2 := by
  have htree : (TypeExpr.declared "Tree").core.base treeSource.definitions = .object treeClass :=
    TypeExpr.base_declared treeSource_find
  refine h.closed (Q := fun u => u = .declared "Tree" ∨ ∃ f ∈ treeClass.fields, u = f.2) ?_ ?_
    (.inl rfl)
  · rintro t e (rfl | ⟨f, hf, rfl⟩) he
    · rw [htree] at he
      cases he
    · rcases List.mem_cons.mp hf with rfl | hf
      · cases he
      · rcases List.mem_singleton.mp hf with rfl
        cases he
        exact Or.inl rfl
  · rintro t c name v (rfl | ⟨f, hf, rfl⟩) hb hv
    · rw [htree] at hb
      cases hb
      exact .inr ⟨(name, v), hv, rfl⟩
    · rcases List.mem_cons.mp hf with rfl | hf
      · cases hb
      · rcases List.mem_singleton.mp hf with rfl
        cases hb

theorem after_unfolds_to_outline_tree :
    List.Forall₂
      (fun (c : Call) r => ∃ a, r = .ok a ∧ c.outline treeSource.definitions 3 = .ok
        ((Session.after treeSource.definitions (.fresh false)
          [.describe (.declared "Tree"), .compile (.declared "Tree")]).2.graph.unfold 3 a))
      [.describe (.declared "Tree"), .compile (.declared "Tree")]
      (Session.after treeSource.definitions (.fresh false)
        [.describe (.declared "Tree"), .compile (.declared "Tree")]).1 := by
  have hnodes : treeSource.nodes = [.declared "Tree"] := rfl
  have htype : ∀ c ∈ [Call.describe (.declared "Tree"), .compile (.declared "Tree")],
      c.type = .declared "Tree" := by
    intro c hc
    fin_cases hc <;> rfl
  refine after_unfolds_to_outline treeSource false _ ?_ ?_ ?_ 3
  · intro c hc
    rw [htype c hc]
    exact .node (by rw [hnodes]; exact List.mem_singleton.mpr rfl)
  · intro c hc u hu
    rw [htype c hc] at hu
    rcases meets_tree hu with rfl | ⟨f, hf, rfl⟩
    · exact fun s s' => rfl
    · fin_cases hf <;> exact fun s s' => rfl
  · refine Session.after_ok fun c hc u f hu => ?_
    rw [htype c hc] at hu
    rintro ⟨ms, hms, -⟩
    rcases meets_tree hu with rfl | ⟨f, hf, rfl⟩
    · have htree : (TypeExpr.declared "Tree").core.base treeSource.definitions
          = .object treeClass := TypeExpr.base_declared treeSource_find
      rw [htree] at hms
      cases hms
    · fin_cases hf <;> cases hms

end ToolCatalog
