import ToolCatalog.Proofs.Runs

/-!
What an analysis reads off an expression, and how much smaller the parts of an expression are.

The base under the layers, the constraints and whether a value may be absent do not depend on what
became of the default. An array or a record leads to a part of the expression or to `anything`, and
only a declared class is an object class.
-/
namespace ToolCatalog

namespace TypeExpr

/-- What stands under all layers. -/
def core (t : TypeExpr) : TypeExpr := t.peel.2

/-- The constraints of all layers. -/
def layerConstraints (t : TypeExpr) : List Constraint := t.peel.1.flatMap Layer.constraints

/-- Whether a layer allows a value to be left out. -/
def allowsAbsence (t : TypeExpr) : Bool := t.peel.1.any Layer.allowsAbsence

/-- Whether a layer allows null. -/
def allowsNull (t : TypeExpr) : Bool := t.peel.1.any Layer.allowsNull

/-- The first description from outside in. -/
def describedBy (defs : Definitions) (t : TypeExpr) : Option String :=
  t.peel.1.findSome? Layer.description <|> nonEmpty? (t.core.base defs).description

theorem analysisWith_eq (defs : Definitions) (t : TypeExpr) (d : Option DefaultOutcome) :
    t.analysisWith defs d =
      { inner := t.core
        base := t.core.base defs
        optional := t.allowsAbsence
        nullable := t.allowsNull
        default := d
        description := t.describedBy defs
        constraints := t.layerConstraints } := rfl

theorem core_core (t : TypeExpr) : t.core.peel = ([], t.core) := by
  unfold core
  fun_induction peel t with
  | case6 t => grind [peel]
  | _ => simp_all

theorem core_size_le (t : TypeExpr) : t.core.size ≤ t.size := by
  unfold core
  fun_induction peel t with
  | case6 t => exact Nat.le_refl _
  | _ => simp_all [size]; omega

theorem size_pos (t : TypeExpr) : 0 < t.size := by
  cases t <;> simp [size]

theorem size_le_sizes {t : TypeExpr} {ts : List TypeExpr} (h : t ∈ ts) : t.size ≤ sizes ts := by
  induction ts with
  | nil => simp at h
  | cons u rest ih =>
    simp only [sizes]
    rcases List.mem_cons.mp h with rfl | h
    · omega
    · have := ih h
      omega

end TypeExpr

/-! ## Where object classes and parts come from -/

theorem Builtin.base_isObject (b : Builtin) : b.base.isObject = false := by
  cases b <;> rfl

theorem Builtin.derivedBase_isObject (b : Builtin) : b.derivedBase.isObject = false := by
  cases b <;> rfl

theorem Builtin.base_part {b : Builtin} {e : TypeExpr} (h : b.base.part? = some e) :
    e = .anything := by
  cases b <;> simp_all [Builtin.base, Base.part?]

theorem Builtin.derivedBase_part (b : Builtin) : b.derivedBase.part? = none := by
  cases b <;> rfl

theorem Origin.base_isObject (o : Origin) (args : List TypeExpr) :
    (o.base args).isObject = false := by
  unfold Origin.base
  repeat' split
  all_goals rfl

theorem Origin.base_part {o : Origin} {args : List TypeExpr} {e : TypeExpr}
    (h : (o.base args).part? = some e) : e = .anything ∨ e ∈ args := by
  unfold Origin.base at h
  split at h
  · simp only [Base.part?, Option.some.injEq] at h
    cases args with
    | nil => exact .inl h.symm
    | cons x rest => exact .inr (by simp [← h])
  · split at h
    · split at h
      · simp only [Base.part?, Option.some.injEq] at h
        exact .inr (by simp [h])
      · simp only [Base.part?, Option.some.injEq] at h
        exact .inl h.symm
    · split at h
      · simp only [Base.part?, Option.some.injEq] at h
        exact .inr (by simp [h])
      · simp [Base.part?] at h

theorem literalBase_isObject (vs : List Value) : (literalBase vs).isObject = false := by
  unfold literalBase
  split <;> rfl

theorem literalBase_part (vs : List Value) : (literalBase vs).part? = none := by
  unfold literalBase
  split <;> rfl

namespace TypeExpr

theorem base_object {defs : Definitions} {t : TypeExpr} {c : ObjectClass}
    (h : t.base defs = .object c) :
    ∃ name, t = .declared name ∧ defs.find? name = some (.object c) := by
  have ho : (t.base defs).isObject = true := by rw [h]; rfl
  cases t with
  | atom a =>
    cases a with
    | builtin b => simp [base, b.base_isObject] at ho
    | bare hd => simp [base, Origin.base_isObject] at ho
    | _ => simp [base, Base.isObject] at ho
  | declared name =>
    refine ⟨name, rfl, ?_⟩
    simp only [base] at h
    cases hf : defs.find? name with
    | none => simp [hf] at h
    | some body =>
      cases body with
      | object c' => simpa [hf, ClassBody.base] using h
      | enumeration e => simp [hf, ClassBody.base] at h
      | derived b =>
        simp only [hf, Option.map_some, Option.getD_some, ClassBody.base] at h
        have hb := b.derivedBase_isObject
        rw [h] at hb
        cases hb
  | generic id hd args => simp [base, Origin.base_isObject] at ho
  | literal id vs => simp [base, literalBase_isObject] at ho
  | _ => simp [base, Base.isObject] at ho

theorem base_declared {defs : Definitions} {name : String} {c : ObjectClass}
    (h : defs.find? name = some (.object c)) : (declared name).base defs = .object c := by
  simp [base, h, ClassBody.base]

/-- The part of a base is `anything` or a smaller expression. -/
theorem base_part {defs : Definitions} {t e : TypeExpr} (h : (t.base defs).part? = some e) :
    e = .anything ∨ ∃ id hd args, t = .generic id hd args ∧ e ∈ args := by
  cases t with
  | atom a =>
    cases a with
    | builtin b => exact .inl (Builtin.base_part h)
    | bare hd =>
      rcases Origin.base_part h with h | h
      · exact .inl h
      · simp at h
    | _ => simp [base, Base.part?] at h
  | declared name =>
    simp only [base] at h
    cases hf : defs.find? name with
    | none => simp [hf, Base.part?] at h
    | some body =>
      cases body with
      | object c => simp [hf, ClassBody.base, Base.part?] at h
      | enumeration e => simp [hf, ClassBody.base, Base.part?] at h
      | derived b => simp [hf, ClassBody.base, b.derivedBase_part] at h
  | generic id hd args =>
    rcases Origin.base_part h with h | h
    · exact .inl h
    · exact .inr ⟨id, hd, args, rfl, h⟩
  | literal id vs => simp [base, literalBase_part] at h
  | _ => simp [base, Base.part?] at h

theorem base_part_size {defs : Definitions} {t e : TypeExpr} (h : (t.base defs).part? = some e) :
    e = .anything ∨ e.size < t.size := by
  rcases base_part h with h | ⟨id, hd, args, rfl, he⟩
  · exact .inl h
  · have := size_le_sizes he
    exact .inr (by simp only [size]; omega)

end TypeExpr

end ToolCatalog
