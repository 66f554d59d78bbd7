import ToolCatalog.Proofs.Making
import ToolCatalog.Proofs.Rendering

/-!
Every descriptor that a session holds can be written out.

The compiler writes properties only under their keyword and no keyword twice, and what constraints,
defaults and layers add is data under other keywords.
-/
namespace ToolCatalog

namespace Record.Proper

variable {r : Record}

theorem put (h : r.Proper) {k : String} {v : Value} (hk : k ≠ "properties") :
    Record.Proper (Entries.put k (.data v) r) := by
  refine ⟨Entries.nodup_put _ h.distinct, fun x hx => ?_⟩
  rcases Entries.mem_put hx with heq | hx
  · cases heq
    exact absurd rfl hk
  · exact h.properties x hx

theorem putAll (h : r.Proper) {xs : List (String × Value)}
    (hx : ∀ e ∈ xs, e.1 ≠ "properties") : (r.putAll xs).Proper := by
  induction xs generalizing r with
  | nil => exact h
  | cons e rest ih =>
    exact ih (h.put (hx e (by simp))) fun e' he => hx e' (by simp [he])

theorem constrain (h : r.Proper) {family : List (Attribute × String)}
    (hf : ∀ e ∈ family, e.2 ≠ "properties") (cs : List Constraint) :
    (r.constrain family cs).Proper := by
  refine h.putAll fun e he => ?_
  obtain ⟨x, hx, hkey⟩ := Constraint.mem_keywords he
  exact hkey ▸ hf x hx

theorem decorate (h : r.Proper) (an : Analysis) : (an.decorate r).Proper := by
  rw [an.decorate_eq]
  refine h.putAll fun e he => ?_
  rcases Analysis.mem_additions he with ⟨d, -, rfl⟩ | ⟨v, -, rfl⟩ | ⟨-, rfl⟩ | ⟨-, rfl⟩ <;> simp

theorem objectRecord (c : ObjectClass) (b : Address) : (objectRecord c b).Proper := by
  unfold ToolCatalog.objectRecord
  cases nonEmpty? c.doc <;> constructor <;> simp [Record.ofType]

theorem emptyObjectRecord (b : Address) : (emptyObjectRecord b).Proper := by
  unfold ToolCatalog.emptyObjectRecord
  constructor <;> simp [Record.ofType]

theorem recordOf {b : Base} {cs : List Constraint} {p : Address} (h : b.recordOf cs p = .ok r) :
    r.Proper := by
  cases b with
  | string f =>
    cases f with
    | none =>
      cases h
      exact constrain (by constructor <;> simp [Record.ofType]) (by simp [textKeywords]) cs
    | some f =>
      cases h
      exact constrain (by constructor <;> simp [Record.ofType]) (by simp [textKeywords]) cs
  | number i =>
    cases h
    exact constrain (by constructor <;> simp [Record.ofType]) (by simp [numberKeywords]) cs
  | array e =>
    cases h
    exact constrain (by constructor <;> simp [Record.ofType]) (by simp [arrayKeywords]) cs
  | enumeration ms =>
    obtain ⟨data, -, rfl⟩ := Base.recordOf_enumeration h
    unfold enumerationRecord
    cases commonType? (data.map Value.jsonType?) <;> constructor <;> simp [Record.ofType]
  | literal m =>
    obtain ⟨v, -, rfl⟩ := Base.recordOf_literal h
    unfold constantRecord
    cases v.jsonType? <;> constructor <;> simp [Record.ofType]
  | _ =>
    cases h
    constructor <;> simp [Record.ofType]

theorem lasting : Record.Lasting Record.Proper where
  empty := ⟨List.nodup_nil, by simp⟩
  object := objectRecord
  emptyObject := emptyObjectRecord
  base := recordOf
  decorate an _ h := h.decorate an

end Record.Proper

/-! ## Sessions -/

/-- A session whose records are all proper. -/
abbrev Session.Proper (s : Session) : Prop :=
  s.graph.Proper

variable {defs : Definitions} {s s' : Session}

theorem Session.SameWork.proper (h : s.SameWork s') (hs : s.Proper) : s'.Proper :=
  Graph.All.sameWork hs h

theorem Call.proper {c : Call} (hs : s.Proper) {r : Except CompileFault Address}
    (h : s.run (c.run defs) = (r, s')) : s'.Proper :=
  Call.keeps_all Record.Proper.lasting hs h

theorem Session.after_proper (calls : List Call) (hs : s.Proper) :
    (s.after defs calls).2.Proper :=
  Session.after_all Record.Proper.lasting calls hs

theorem Session.fresh_proper (observable : Bool) : (Session.fresh observable).Proper :=
  Graph.All.fresh observable

end ToolCatalog
