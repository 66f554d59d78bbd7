import ToolCatalog.Proofs.Unwrapping
import ToolCatalog.Proofs.Bounds
import ToolCatalog.TypeExpr.Written

/-!
Layers put around an expression in any order.

Making an expression merges an annotation with one right under it, and a union with null with one
right under it. So two orders of the same layers make stacks of different heights. `Wrapped` says
what is made of which layers, and the lemmas after it say what an analysis then reads off.
-/
namespace ToolCatalog

/-- A layer as it is put around an expression. -/
inductive Wrapping
  | notRequired
  | required
  /-- A union with the null value. -/
  | optional
  | annotated (items : List Metadata)

namespace Wrapping

/-- Puts a layer around an expression. -/
def apply (t : TypeExpr) : Wrapping → Making TypeExpr
  | notRequired => return .notRequired (← TypeExpr.fresh) t.asType
  | required => return .required (← TypeExpr.fresh) t.asType
  | optional => TypeExpr.unionOf .form [t, .atom .null]
  | annotated items => TypeExpr.annotate t items

/-- Puts layers around an expression, of which the first one is the outermost. -/
def applyAll (t : TypeExpr) : List Wrapping → Making TypeExpr
  | [] => return t
  | w :: ws => do w.apply (← applyAll t ws)

/-- A layer as it is written around an expression. -/
def around (x : Written) : Wrapping → Written
  | notRequired => .notRequired x
  | required => .required x
  | optional => .union [x, .atom .null]
  | annotated items => .annotated x items

/-- A layer whose items have their numbers. -/
def numbered : Wrapping → Making Wrapping
  | annotated items => return .annotated (← items.mapM Metadata.numbered)
  | w => return w

/-- What is written around an expression is put around what the expression stands for. -/
theorem make_around (scope : Scope) (x : Written) (w : Wrapping) :
    (w.around x).make scope = x.make scope >>= fun t => w.numbered >>= fun w' => w'.apply t := by
  cases w with
  | optional => simp [around, Written.make, Written.makeAll, numbered, apply]
  | _ => simp [around, Written.make, numbered, apply]

/-- The layer that an analysis meets. -/
def layer : Wrapping → Layer
  | notRequired => .optional
  | required => .plain
  | optional => .nullable
  | annotated items => .ofItems items

end Wrapping

namespace TypeExpr

/-- Whether an expression has no layer of its own, and is neither a union nor the null value. -/
structure Plain (t : TypeExpr) : Prop where
  layer : t.layer? = none
  union : ∀ id style members, t ≠ .union id style members
  null : t.asType.isNothing = false

end TypeExpr

/-- The expression that these layers make of `T`, of which the first one is the outermost. -/
inductive Wrapped (T : TypeExpr) : List Wrapping → TypeExpr → Prop
  | bare : Wrapped T [] T
  | notRequired {ws t} (id : Nat) (h : Wrapped T ws t) :
      Wrapped T (.notRequired :: ws) (.notRequired id t.asType)
  | required {ws t} (id : Nat) (h : Wrapped T ws t) :
      Wrapped T (.required :: ws) (.required id t.asType)
  | optional {ws t} (id : Nat) (h : Wrapped T ws t)
      (hn : ∀ i style members inner, t ≠ .nullable i style members inner) :
      Wrapped T (.optional :: ws) (.nullable id .form [t.asType, .nothing] t.asType)
  /-- A union that allows null already stays what it is. -/
  | again {ws i style inner} (id : Nat)
      (h : Wrapped T ws (.nullable i style [inner, .nothing] inner)) :
      Wrapped T (.optional :: ws) (.nullable id .form [inner, .nothing] inner)
  | annotated {ws t} (id : Nat) (items : List Metadata) (h : Wrapped T ws t)
      (hn : ∀ i inner earlier, t ≠ .annotated i inner earlier) :
      Wrapped T (.annotated items :: ws) (.annotated id t.asType items)
  /-- An annotation adds its items to those of an annotation. -/
  | merged {ws i inner earlier} (id : Nat) (items : List Metadata)
      (h : Wrapped T ws (.annotated i inner earlier)) :
      Wrapped T (.annotated items :: ws) (.annotated id inner (earlier ++ items))

/-! ## What putting a layer around makes -/

namespace TypeExpr

theorem equal_nothing {t : TypeExpr} (h : t.isNothing = false) : t.equal nothing = false := by
  cases t with
  | atom a =>
    have : a ≠ .builtin .nothing := by
      rintro rfl
      cases h
    simpa [equal, nothing] using this
  | _ => simp [equal, nothing]

theorem asType_spliced {t : TypeExpr} (hu : ∀ id style members, t ≠ .union id style members)
    (hn : ∀ id style members inner, t ≠ .nullable id style members inner) :
    t.asType.spliced = [t.asType] := by
  unfold asType
  split
  · rfl
  · rfl
  · cases t with
    | union id style members => exact absurd rfl (hu id style members)
    | nullable id style members inner => exact absurd rfl (hn id style members inner)
    | _ => rfl

theorem distinct_two {x : TypeExpr} (hx : x.isNothing = false) :
    distinct [x, nothing] = [x, nothing] := by
  simp [distinct, equal_nothing hx]

/-- A union of two members of which the other one is null. -/
theorem run_unionOf {ts : List TypeExpr} {x : TypeExpr} (hx : x.isNothing = false)
    (h : unionMembers ts = [x, nothing]) (style : UnionStyle) (s : Supply) :
    ∃ id s', (unionOf style ts).run s = (.nullable id style [x, nothing] x, s') := by
  refine ⟨s.next, { s with next := s.next + 1 }, ?_⟩
  have hrest : [x, nothing].filter (!·.isNothing) = [x] := by
    simp [hx, show nothing.isNothing = true from rfl]
  have hany : [x, nothing].any isNothing = true := by
    simp [show nothing.isNothing = true from rfl]
  unfold unionOf
  simp only [h, unionObject, hany, if_true, hrest, restUnion]
  rfl

end TypeExpr

namespace Wrapped

variable {T t : TypeExpr} {ws : List Wrapping}

theorem isNothing (hT : T.Plain) (h : Wrapped T ws t) : t.asType.isNothing = false := by
  cases h with
  | bare => exact hT.null
  | _ => rfl

theorem ne_union (hT : T.Plain) (h : Wrapped T ws t) (id : Nat) (style : UnionStyle)
    (members : List TypeExpr) : t ≠ .union id style members := by
  rintro rfl
  cases h with
  | bare => exact hT.union _ _ _ rfl

/-- A union that layers made has null and one other member. -/
theorem of_nullable (hT : T.Plain) {i : Nat} {style : UnionStyle} {members : List TypeExpr}
    {inner : TypeExpr} (h : Wrapped T ws (.nullable i style members inner)) :
    members = [inner, .nothing] ∧ inner.isNothing = false := by
  generalize ht : TypeExpr.nullable i style members inner = t at h
  induction h generalizing i style members inner with
  | bare =>
    have := hT.layer
    rw [← ht] at this
    cases this
  | optional id h _ _ =>
    cases ht
    exact ⟨rfl, h.isNothing hT⟩
  | again id _ ih =>
    cases ht
    exact ⟨rfl, (ih rfl).2⟩
  | _ => cases ht

/-- Putting one more layer around. -/
theorem apply (hT : T.Plain) (h : Wrapped T ws t) (w : Wrapping) (s : Supply) :
    Wrapped T (w :: ws) ((w.apply t).run s).1 := by
  cases w with
  | notRequired => exact .notRequired _ h
  | required => exact .required _ h
  | optional =>
    have hmembers : TypeExpr.unionMembers [t, .atom .null]
        = TypeExpr.distinct (t.asType.spliced ++ [.nothing]) := rfl
    by_cases hn : ∃ i style members inner, t = .nullable i style members inner
    · obtain ⟨i, style, members, inner, rfl⟩ := hn
      obtain ⟨rfl, hinner⟩ := h.of_nullable hT
      have htwo : TypeExpr.unionMembers
          [.nullable i style [inner, .nothing] inner, .atom .null] = [inner, .nothing] := by
        rw [hmembers]
        simp [TypeExpr.asType, TypeExpr.spliced, TypeExpr.distinct,
          TypeExpr.equal_nothing hinner, show TypeExpr.nothing.equal .nothing = true from rfl]
      obtain ⟨id, s', hrun⟩ := TypeExpr.run_unionOf hinner htwo .form s
      rw [Wrapping.apply, hrun]
      exact .again id h
    · replace hn : ∀ i style members inner, t ≠ .nullable i style members inner :=
        fun i style members inner he => hn ⟨i, style, members, inner, he⟩
      have htwo : TypeExpr.unionMembers [t, .atom .null] = [t.asType, .nothing] := by
        rw [hmembers, TypeExpr.asType_spliced (h.ne_union hT) hn]
        exact TypeExpr.distinct_two (h.isNothing hT)
      obtain ⟨id, s', hrun⟩ := TypeExpr.run_unionOf (h.isNothing hT) htwo .form s
      rw [Wrapping.apply, hrun]
      exact .optional id h hn
  | annotated items =>
    by_cases hn : ∃ i inner earlier, t = .annotated i inner earlier
    · obtain ⟨i, inner, earlier, rfl⟩ := hn
      exact .merged _ items h
    · replace hn : ∀ i inner earlier, t ≠ .annotated i inner earlier :=
        fun i inner earlier he => hn ⟨i, inner, earlier, he⟩
      have hrun : ((Wrapping.annotated items).apply t).run s
          = (.annotated s.next t.asType items, { s with next := s.next + 1 }) := by
        cases t with
        | annotated i inner earlier => exact absurd rfl (hn i inner earlier)
        | _ => rfl
      rw [hrun]
      exact .annotated _ items h hn

theorem applyAll (hT : T.Plain) (ws : List Wrapping) (s : Supply) :
    Wrapped T ws ((Wrapping.applyAll T ws).run s).1 := by
  induction ws with
  | nil => exact .bare
  | cons w ws ih => exact ih.apply hT w _

end Wrapped

/-! ## What is read off -/

section

variable {α : Type}

theorem findSome?_cons_or {β : Type} (f : α → Option β) (x : α) (l : List α) :
    (x :: l).findSome? f = (f x).or (l.findSome? f) := by
  rw [List.findSome?_cons]
  cases f x <;> rfl

namespace FieldSpec

theorem lastText_append_list (xs ys : List FieldSpec) :
    lastText (xs ++ ys) = (lastText ys).or (lastText xs) := by
  induction ys using List.reverseRecOn with
  | nil => simp [lastText]
  | append_singleton ys s ih =>
    rw [← List.append_assoc, lastText_append, lastText_append, ih]
    cases s.description? <;> simp

theorem lastSource_append_list (xs ys : List FieldSpec) :
    lastSource (xs ++ ys) = (lastSource ys).or (lastSource xs) := by
  induction ys using List.reverseRecOn with
  | nil => simp [lastSource]
  | append_singleton ys s ih =>
    rw [← List.append_assoc, lastSource_append, lastSource_append, ih]
    cases s.source? <;> simp

end FieldSpec

namespace Layer

variable (earlier items : List Metadata)

theorem description_append : (ofItems (earlier ++ items)).description
    = (ofItems items).description.or (ofItems earlier).description := by
  simp only [ofItems_eq, description_described, Metadata.fields, List.filterMap_append,
    FieldSpec.lastText_append_list]

theorem source?_append : (ofItems (earlier ++ items)).source?
    = (ofItems items).source?.or (ofItems earlier).source? := by
  simp only [ofItems_eq, source?_described, Metadata.fields, List.filterMap_append,
    FieldSpec.lastSource_append_list]

theorem constraints_ofItems : (ofItems items).constraints = items.flatMap Metadata.constraints := by
  rw [ofItems_eq, constraints_described]

theorem allowsAbsence_append : (ofItems (earlier ++ items)).allowsAbsence
    = ((ofItems items).allowsAbsence || (ofItems earlier).allowsAbsence) := by
  simp only [ofItems_eq, allowsAbsence_described, Metadata.fields, List.filterMap_append,
    FieldSpec.lastSource_append_list, Option.isSome_or]

theorem allowsNull_append : (ofItems (earlier ++ items)).allowsNull
    = ((ofItems items).allowsNull || (ofItems earlier).allowsNull) := by
  simp only [ofItems_eq, allowsNull_described, Bool.or_self]

end Layer

namespace TypeExpr

theorem peel_asType (t : TypeExpr) : t.asType.peel.1 = t.peel.1 := by
  unfold asType
  split <;> rfl

theorem layerConstraints_asType (t : TypeExpr) :
    t.asType.layerConstraints = t.layerConstraints := by
  rw [layerConstraints, peel_asType, layerConstraints]

theorem layerConstraints_of_some {t inner : TypeExpr} {l : Layer}
    (h : t.layer? = some (l, inner)) :
    t.layerConstraints = l.constraints ++ inner.layerConstraints := by
  rw [layerConstraints, peel_of_some h, List.flatMap_cons, layerConstraints]

theorem Plain.layerConstraints_eq {t : TypeExpr} (h : t.Plain) : t.layerConstraints = [] := by
  rw [layerConstraints, peel_of_none h.layer]
  rfl

end TypeExpr

end

namespace Wrapped

variable {T t : TypeExpr} {ws : List Wrapping}

theorem asType_core (hT : T.Plain) (h : Wrapped T ws t) : t.asType.core = T.asType := by
  induction h with
  | bare =>
    have hbare : T.asType.layer? = none := by
      have := hT.layer
      unfold TypeExpr.asType
      split
      · rfl
      · rfl
      · exact this
    rw [TypeExpr.core, TypeExpr.peel_of_none hbare]
  | _ => assumption

/-- Under any layers at all stands what the expression stands for as a type. -/
theorem core (hT : T.Plain) {w : Wrapping} (h : Wrapped T (w :: ws) t) : t.core = T.asType := by
  rw [← h.asType_core hT]
  cases h <;> rfl

/-- A property of some layer, if an annotation has it where one of its parts has. -/
theorem any_eq (hT : T.Plain) {p : Layer → Bool} (hmerge : ∀ earlier items,
      p (.ofItems (earlier ++ items)) = (p (.ofItems items) || p (.ofItems earlier)))
    (h : Wrapped T ws t) : t.peel.1.any p = ws.any (p ·.layer) := by
  induction h with
  | bare => rw [TypeExpr.peel_of_none hT.layer]; rfl
  | again id h ih =>
    rw [List.any_cons, ← ih]
    simp [TypeExpr.peel, Wrapping.layer]
  | merged id items h ih =>
    rw [List.any_cons, ← ih]
    simp [TypeExpr.peel, Wrapping.layer, hmerge, Bool.or_assoc]
  | notRequired _ _ ih | required _ _ ih | optional _ _ _ ih | annotated _ _ _ _ ih =>
    rw [List.any_cons, ← ih]
    simp [TypeExpr.peel, Wrapping.layer, TypeExpr.peel_asType]

/-- What is found first from outside in, if an annotation has what its last part has. -/
theorem findSome?_eq {α : Type} (hT : T.Plain) {f : Layer → Option α} (hnull : f .nullable = none)
    (hmerge : ∀ earlier items,
      f (.ofItems (earlier ++ items)) = (f (.ofItems items)).or (f (.ofItems earlier)))
    (h : Wrapped T ws t) : t.peel.1.findSome? f = ws.findSome? (f ·.layer) := by
  induction h with
  | bare => rw [TypeExpr.peel_of_none hT.layer]; rfl
  | again id h ih =>
    rw [findSome?_cons_or, ← ih]
    simp [TypeExpr.peel, Wrapping.layer, hnull]
  | merged id items h ih =>
    rw [findSome?_cons_or, ← ih]
    simp [TypeExpr.peel, Wrapping.layer, findSome?_cons_or, hmerge, Option.or_assoc]
  | notRequired _ _ ih | required _ _ ih | optional _ _ _ ih | annotated _ _ _ _ ih =>
    rw [findSome?_cons_or, ← ih]
    simp [TypeExpr.peel, Wrapping.layer, TypeExpr.peel_asType, findSome?_cons_or]

theorem defaultSource?_eq (hT : T.Plain) (h : Wrapped T ws t) :
    t.defaultSource? = ws.findSome? (·.layer.source?) :=
  h.findSome?_eq hT rfl Layer.source?_append

theorem allowsAbsence_eq (hT : T.Plain) (h : Wrapped T ws t) :
    t.allowsAbsence = ws.any (·.layer.allowsAbsence) :=
  h.any_eq hT Layer.allowsAbsence_append

theorem allowsNull_eq (hT : T.Plain) (h : Wrapped T ws t) :
    t.allowsNull = ws.any (·.layer.allowsNull) :=
  h.any_eq hT Layer.allowsNull_append

theorem description_eq (hT : T.Plain) (h : Wrapped T ws t) :
    t.peel.1.findSome? Layer.description = ws.findSome? (·.layer.description) :=
  h.findSome?_eq hT rfl Layer.description_append

/-- The layers bring their constraints in some order. -/
theorem constraints_perm (hT : T.Plain) (h : Wrapped T ws t) :
    ∃ vs : List Wrapping, vs.Perm ws ∧ t.layerConstraints = vs.flatMap (·.layer.constraints) ∧
      -- An annotation on the outside has the constraints of the first of them.
      ∀ i inner earlier, t = .annotated i inner earlier → ∃ es rest, vs = es ++ rest ∧
        earlier.flatMap Metadata.constraints = es.flatMap (·.layer.constraints) ∧
        inner.layerConstraints = rest.flatMap (·.layer.constraints) := by
  induction h with
  | bare =>
    refine ⟨[], .nil, hT.layerConstraints_eq, ?_⟩
    rintro i inner earlier rfl
    cases hT.layer
  | again id _ ih =>
    obtain ⟨vs, hperm, hvs, -⟩ := ih
    refine ⟨.optional :: vs, hperm.cons _, ?_, nofun⟩
    rw [List.flatMap_cons, ← hvs]
    rfl
  | annotated id items _ _ ih =>
    obtain ⟨vs, hperm, hvs, -⟩ := ih
    refine ⟨.annotated items :: vs, hperm.cons _, ?_, ?_⟩
    · rw [List.flatMap_cons, ← hvs, TypeExpr.layerConstraints_of_some rfl,
        TypeExpr.layerConstraints_asType]
      rfl
    · rintro i inner earlier he
      cases he
      refine ⟨[.annotated items], vs, rfl, ?_, by rw [TypeExpr.layerConstraints_asType, hvs]⟩
      rw [List.flatMap_singleton, Wrapping.layer, Layer.constraints_ofItems]
  | @merged ws i inner earlier id items _ ih =>
    obtain ⟨vs, hperm, -, hsplit⟩ := ih
    obtain ⟨es, rest, rfl, hes, hrest⟩ := hsplit _ _ _ rfl
    have hitems : (earlier ++ items).flatMap Metadata.constraints
        = (es ++ [Wrapping.annotated items]).flatMap (·.layer.constraints) := by
      rw [List.flatMap_append, List.flatMap_append, hes, List.flatMap_singleton, Wrapping.layer,
        Layer.constraints_ofItems]
    refine ⟨es ++ [.annotated items] ++ rest, ?_, ?_, ?_⟩
    · rw [List.append_assoc]
      exact List.perm_middle.trans (hperm.cons _)
    · rw [List.flatMap_append, ← hitems, ← hrest, ← Layer.constraints_ofItems,
        TypeExpr.layerConstraints_of_some rfl]
    · rintro i inner' earlier' he
      cases he
      exact ⟨_, rest, rfl, hitems, hrest⟩
  | notRequired _ _ ih | required _ _ ih | optional _ _ _ ih =>
    obtain ⟨vs, hperm, hvs, -⟩ := ih
    refine ⟨_ :: vs, hperm.cons _, ?_, nofun⟩
    rw [List.flatMap_cons, ← hvs, TypeExpr.layerConstraints_of_some rfl,
      TypeExpr.layerConstraints_asType]
    rfl

/-- Annotations with a union between them, from outside in. -/
theorem constraints_apart (hT : T.Plain) {inside outside : List Metadata}
    (h : Wrapped T [.annotated outside, .optional, .annotated inside] t) : t.layerConstraints
      = outside.flatMap Metadata.constraints ++ inside.flatMap Metadata.constraints := by
  cases h with
  | merged _ _ h => cases h
  | annotated _ _ h =>
    cases h with
    | again _ h => cases h
    | optional _ h =>
      cases h with
      | merged _ _ h =>
        cases h
        cases hT.layer
      | annotated _ _ h =>
        cases h
        rw [TypeExpr.layerConstraints_of_some rfl, Layer.constraints_ofItems,
          TypeExpr.layerConstraints_of_some rfl, TypeExpr.layerConstraints_of_some rfl,
          Layer.constraints_ofItems, TypeExpr.layerConstraints_asType, hT.layerConstraints_eq,
          List.append_nil]
        rfl

/-- One annotation on another one, in the order in which the items were written. -/
theorem constraints_together (hT : T.Plain) {inside outside : List Metadata}
    (h : Wrapped T [.annotated outside, .annotated inside] t) : t.layerConstraints
      = inside.flatMap Metadata.constraints ++ outside.flatMap Metadata.constraints := by
  cases h with
  | annotated _ _ h hn =>
    cases h with
    | annotated => exact absurd rfl (hn _ _ _)
    | merged => exact absurd rfl (hn _ _ _)
  | merged _ _ h =>
    cases h with
    | merged _ _ h =>
      cases h
      cases hT.layer
    | annotated _ _ h =>
      cases h
      rw [TypeExpr.layerConstraints_of_some rfl, Layer.constraints_ofItems, List.flatMap_append,
        TypeExpr.layerConstraints_asType, hT.layerConstraints_eq, List.append_nil]

end Wrapped

end ToolCatalog
