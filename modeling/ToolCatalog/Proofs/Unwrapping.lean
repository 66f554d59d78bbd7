import ToolCatalog.Proofs.Merging

/-!
An analysis as one pass inward.

`TypeExpr.unwrap` takes one layer off at a time and gathers what the layers say, in any monad that
can call factories; `analyse_eq_unwrap` says that the program's analysis is this pass. What is
gathered is told apart by `Analysis.Gathers`, and `TypeExpr.CallsOnce` says which factory is called:
that of the outermost default, once, and no other.
-/
namespace ToolCatalog

/-! ## Stacks of layers -/

namespace TypeExpr

/-- The expression `t` is made of these layers, the outermost first, around an expression that is no
layer. -/
inductive Stack : TypeExpr → List Layer → TypeExpr → Prop
  | base {t} (h : t.layer? = none) : Stack t [] t
  | layer {t l inner layers core} (h : t.layer? = some (l, inner)) (hs : Stack inner layers core) :
      Stack t (l :: layers) core

theorem layer?_size {t inner : TypeExpr} {l : Layer} (h : t.layer? = some (l, inner)) :
    inner.size < t.size := by
  cases t <;> simp only [layer?, reduceCtorEq, Option.some.injEq, Prod.mk.injEq] at h
  all_goals
    obtain ⟨-, rfl⟩ := h
    simp only [size]
    omega

theorem peel_of_none {t : TypeExpr} (h : t.layer? = none) : t.peel = ([], t) := by
  cases t <;> simp_all [layer?, peel]

theorem peel_of_some {t inner : TypeExpr} {l : Layer} (h : t.layer? = some (l, inner)) :
    t.peel = (l :: inner.peel.1, inner.core) := by
  cases t <;> simp_all [layer?, peel, core]

/-- Every expression is a stack of the layers that are taken off. -/
theorem stack_peel (t : TypeExpr) : t.Stack t.peel.1 t.core := by
  rw [core]
  cases h : t.layer? with
  | none =>
    rw [peel_of_none h]
    exact .base h
  | some p =>
    have := layer?_size h
    rw [peel_of_some h]
    exact .layer h (stack_peel p.2)
termination_by t.size

/-- A stack is taken apart in one way. -/
theorem Stack.eq_peel {t core : TypeExpr} {layers : List Layer} (h : t.Stack layers core) :
    t.peel = (layers, core) := by
  induction h with
  | base h => exact peel_of_none h
  | layer h _ ih => rw [peel_of_some h, TypeExpr.core, ih]

end TypeExpr

/-! ## Gathering -/

/-- What a factory makes, before it is converted. -/
def Factory.made (f : Factory) : StateM Session (Except DefaultFault Value) :=
  match f with
  | .returns v => return .ok v
  | .raises kind => return .error (.raised kind)
  | .needsData => return .error .needsData
  | .counter id => do
    let n : Nat ← modifyGet (·.count id)
    return .ok (.int n)
  | .empty b => return match b.emptyValue? with
    | some v => .ok v
    | none => .error .needsData
  | .measures className => do
    let s ← get
    return if s.observable then .ok (.int (s.measure className)) else .error .unobservable

/-- A default is what the factory makes, converted. -/
theorem Factory.call_eq_made (f : Factory) :
    f.call = (·.bind Value.asDefault) <$> f.made := by
  have hint (i : Int) : Value.asDefault (.int i) = .ok (.int i) := rfl
  cases f with
  | empty b =>
    simp only [call, made]
    cases b.emptyValue? <;> rfl
  | measures name =>
    funext s
    change (if s.observable then _ else _, s) = (Except.bind (if s.observable then _ else _) _, s)
    cases s.observable with
    | true => exact congrArg (·, s) (hint _).symm
    | false => rfl
  | counter id => rfl
  | _ => rfl

section

variable {m : Type → Type} [Monad m] (call : Factory → m (Except DefaultFault Value))

/-- Resolves a default: calls its factory, or else takes the fixed value. -/
def DefaultSource.resolve : DefaultSource → m DefaultOutcome
  | .factory f _ => return (← call f).bind Value.asDefault
  | .value v => return v.asDefault

/-- What has been gathered from the layers met so far. -/
structure Gathered where
  optional : Bool
  nullable : Bool
  default : Option DefaultOutcome
  description : Option String
  constraints : List Constraint

namespace Gathered

/-- Nothing gathered yet. -/
def nothing : Gathered := ⟨false, false, none, none, []⟩

/-- After one more layer, with what is known of the default then. -/
def enter (g : Gathered) (l : Layer) (default : Option DefaultOutcome) : Gathered where
  optional := g.optional || l.allowsAbsence
  nullable := g.nullable || l.allowsNull
  default := default
  description := g.description <|> l.description
  constraints := g.constraints ++ l.constraints

/-- Meets a layer. Its default is resolved only if none has been met further out. -/
def meet (g : Gathered) (l : Layer) : m Gathered :=
  match g.default, l.source? with
  | none, some source => return g.enter l (some (← source.resolve call))
  | met, _ => return g.enter l met

/-- The analysis of an expression without layers, after everything around it. -/
def analysis (defs : Definitions) (g : Gathered) (t : TypeExpr) : Analysis where
  inner := t
  base := t.base defs
  optional := g.optional
  nullable := g.nullable
  default := g.default
  description := g.description <|> nonEmpty? (t.base defs).description
  constraints := g.constraints

end Gathered

namespace TypeExpr

/-- Takes the layers off one by one and gathers what they say. -/
def unwrapFrom (defs : Definitions) (g : Gathered) (t : TypeExpr) : m Analysis :=
  match h : t.layer? with
  | some (l, inner) => do
    have := layer?_size h
    unwrapFrom defs (← g.meet call l) inner
  | none => return g.analysis defs t
termination_by t.size

/-- Takes all layers off an expression. -/
def unwrap (defs : Definitions) (t : TypeExpr) : m Analysis :=
  t.unwrapFrom call defs .nothing

theorem unwrapFrom_of_none (defs : Definitions) (g : Gathered) {t : TypeExpr}
    (h : t.layer? = none) : t.unwrapFrom call defs g = pure (g.analysis defs t) := by
  rw [unwrapFrom]
  split <;> simp_all

theorem unwrapFrom_of_some (defs : Definitions) (g : Gathered) {t inner : TypeExpr} {l : Layer}
    (h : t.layer? = some (l, inner)) :
    t.unwrapFrom call defs g = g.meet call l >>= fun g' => inner.unwrapFrom call defs g' := by
  rw [unwrapFrom]
  split <;> simp_all

end TypeExpr

end

/-! ## What is gathered -/

section

variable {m : Type → Type} [Monad m] [LawfulMonad m]
  (call : Factory → m (Except DefaultFault Value)) (defs : Definitions) {t core : TypeExpr}
  {layers : List Layer} {g : Gathered}

/-- What is gathered at the end, if these layers and this core are still to come. -/
def Gathered.around (g : Gathered) (layers : List Layer) (core : TypeExpr)
    (default : Option DefaultOutcome) : Analysis where
  inner := core
  base := core.base defs
  optional := g.optional || layers.any Layer.allowsAbsence
  nullable := g.nullable || layers.any Layer.allowsNull
  default := default
  description := g.description <|>
    (layers.findSome? Layer.description <|> nonEmpty? (core.base defs).description)
  constraints := g.constraints ++ layers.flatMap Layer.constraints

theorem Gathered.around_enter (g : Gathered) (l : Layer) (d : Option DefaultOutcome) :
    (g.enter l d).around defs layers core = g.around defs (l :: layers) core := by
  funext d
  simp only [around, enter, List.any_cons, List.findSome?_cons, List.flatMap_cons, Bool.or_assoc,
    List.append_assoc]
  cases g.description <;> cases l.description <;> rfl

theorem Gathered.around_nil (g : Gathered) :
    g.around defs [] core g.default = g.analysis defs core := by
  simp [around, analysis]

namespace TypeExpr

/-- Once a default has been met, nothing is called any more. -/
theorem unwrapFrom_met (hs : t.Stack layers core) {d : DefaultOutcome} (hd : g.default = some d) :
    t.unwrapFrom call defs g = pure (g.around defs layers core (some d)) := by
  induction hs generalizing g with
  | base h => rw [unwrapFrom_of_none call defs g h, ← hd, g.around_nil]
  | @layer t l inner layers core h _ ih =>
    have hmeet : g.meet call l = pure (g.enter l (some d)) := by
      simp only [Gathered.meet, hd]
    rw [unwrapFrom_of_some call defs g h, hmeet, pure_bind, ih rfl, g.around_enter]

/-- Before a default has been met, the outermost one is resolved. -/
theorem unwrapFrom_new (hs : t.Stack layers core) (hd : g.default = none) :
    t.unwrapFrom call defs g =
      g.around defs layers core <$> (layers.findSome? Layer.source?).mapM (·.resolve call) := by
  induction hs generalizing g with
  | base h =>
    rw [unwrapFrom_of_none call defs g h, List.findSome?_nil, Option.mapM_none, map_pure, ← hd,
      g.around_nil]
  | @layer t l inner layers core h hs ih =>
    rw [unwrapFrom_of_some call defs g h, List.findSome?_cons]
    cases hl : l.source? with
    | none =>
      have hmeet : g.meet call l = pure (g.enter l none) := by
        simp only [Gathered.meet, hd, hl]
      rw [hmeet, pure_bind, ih rfl, g.around_enter]
    | some source =>
      have hmeet : g.meet call l = source.resolve call >>= fun d => pure (g.enter l (some d)) := by
        simp only [Gathered.meet, hd, hl]
      have hrest (d : DefaultOutcome) : inner.unwrapFrom call defs (g.enter l (some d))
          = pure (g.around defs (l :: layers) core (some d)) := by
        rw [unwrapFrom_met call defs hs rfl, g.around_enter]
      simp only [hmeet, bind_assoc, pure_bind, hrest, Option.mapM_some, ← bind_pure_comp]

/-- What is gathered is what the layers say, and the only effects are those of the outermost
default. -/
theorem unwrap_eq (hs : t.Stack layers core) : t.unwrap call defs =
    t.analysisWith defs <$> (layers.findSome? Layer.source?).mapM (·.resolve call) := by
  have hw : t.analysisWith defs = Gathered.nothing.around defs layers core := by
    funext d
    rw [analysisWith, hs.eq_peel]
    simp [Gathered.around, Gathered.nothing]
  rw [unwrap, unwrapFrom_new call defs hs rfl, hw]

end TypeExpr

theorem DefaultSource.find_eq_resolve (d : DefaultSource) : d.find = d.resolve Factory.made := by
  cases d with
  | value v => rfl
  | factory f v => rw [find, f.call_eq_made, resolve, bind_pure_comp]

/-- The analysis is the pass inward that calls the factories themselves. -/
theorem TypeExpr.analyse_eq_unwrap (t : TypeExpr) :
    t.analyse defs = t.unwrap Factory.made defs := by
  have hfind : DefaultSource.find = (·.resolve Factory.made) := funext DefaultSource.find_eq_resolve
  rw [unwrap_eq Factory.made defs t.stack_peel, analyse, defaultSource?, hfind, bind_pure_comp]

end

/-- The analysis `a` says of `core` what these layers around it say together. -/
structure Analysis.Gathers (defs : Definitions) (layers : List Layer) (core : TypeExpr)
    (a : Analysis) : Prop where
  inner : a.inner = core
  base : a.base = core.base defs
  optional : a.optional = true ↔ ∃ l ∈ layers, l = .optional ∨ l = .nullable ∨ l.source?.isSome
  nullable : a.nullable = true ↔ .nullable ∈ layers
  default : a.default.isSome = true ↔ ∃ l ∈ layers, l.source?.isSome
  /-- The first that is not empty, from outside in and the base's own last. -/
  description : a.description =
    (layers.filterMap Layer.description ++ (core.base defs).description.toList).find? (· ≠ "")
  constraints : a.constraints = layers.flatMap Layer.constraints

/-- What a pass inward calls, and what it finds of the default. -/
structure TypeExpr.CallsOnce (defs : Definitions) (layers : List Layer) (t : TypeExpr) : Prop where
  /-- Nothing, where no layer has a default. -/
  without (h : ∀ l ∈ layers, l.source? = none) {m : Type → Type} [Monad m] [LawfulMonad m]
    (call : Factory → m (Except DefaultFault Value)) :
    Analysis.default <$> t.unwrap call defs = pure none
  /-- Nothing, where the outermost default is a fixed value. -/
  fixed {before after : List Layer} {l : Layer} {v : Value} (h : layers = before ++ l :: after)
    (hb : ∀ l ∈ before, l.source? = none) (hl : l.source? = some (.value v))
    {m : Type → Type} [Monad m] [LawfulMonad m] (call : Factory → m (Except DefaultFault Value)) :
    Analysis.default <$> t.unwrap call defs = pure (some v.asDefault)
  /-- The factory of the outermost default once and nothing else, where it has one. -/
  made {before after : List Layer} {l : Layer} {f : Factory} {beside : Option Value}
    (h : layers = before ++ l :: after) (hb : ∀ l ∈ before, l.source? = none)
    (hl : l.source? = some (.factory f beside))
    {m : Type → Type} [Monad m] [LawfulMonad m] (call : Factory → m (Except DefaultFault Value)) :
    Analysis.default <$> t.unwrap call defs =
      (fun made => some (made.bind Value.asDefault)) <$> call f

section

variable (defs : Definitions) (t : TypeExpr)

theorem Layer.allowsAbsence_iff (l : Layer) :
    l.allowsAbsence = true ↔ l = .optional ∨ l = .nullable ∨ l.source?.isSome := by
  cases l <;> simp [allowsAbsence, source?]

theorem Layer.allowsNull_iff (l : Layer) : l.allowsNull = true ↔ l = .nullable := by
  cases l <;> simp [allowsNull]

theorem FieldSpec.description?_ne_empty (s : FieldSpec) : s.description? ≠ some "" := by
  intro h
  have := (Option.filter_eq_some_iff.mp h).2
  simp at this

theorem FieldSpec.lastText_ne_empty (specs : List FieldSpec) : lastText specs ≠ some "" := by
  induction specs using List.reverseRecOn with
  | nil => simp [lastText]
  | append_singleton specs s ih =>
    rw [lastText_append]
    cases h : s.description? with
    | none => simpa using ih
    | some text =>
      have := s.description?_ne_empty
      simpa [h] using this

/-- The layers of an expression carry no empty descriptions. -/
theorem TypeExpr.layer?_description {t inner : TypeExpr} {l : Layer}
    (h : t.layer? = some (l, inner)) : l.description ≠ some "" := by
  cases t with
  | field k spec inner' =>
    cases h
    rw [Layer.ofField_eq, Layer.description_described]
    exact spec.description?_ne_empty
  | annotated i inner' items =>
    cases h
    rw [Layer.ofItems_eq, Layer.description_described]
    exact FieldSpec.lastText_ne_empty _
  | notRequired | required | nullable =>
    cases h
    simp [Layer.description, Layer.plain]
  | _ => cases h

theorem TypeExpr.Stack.description_ne_empty {t core : TypeExpr} {layers : List Layer}
    (h : t.Stack layers core) : ∀ l ∈ layers, l.description ≠ some "" := by
  induction h with
  | base => simp
  | layer h _ ih => exact List.forall_mem_cons.mpr ⟨layer?_description h, ih⟩

/-- The first description of the layers, or else the base's own, is the first that is not empty. -/
theorem findSome?_description (layers : List Layer) (own : Option String)
    (h : ∀ l ∈ layers, l.description ≠ some "") :
    (layers.findSome? Layer.description <|> nonEmpty? own) =
      (layers.filterMap Layer.description ++ own.toList).find? (· ≠ "") := by
  induction layers with
  | nil =>
    cases own with
    | none => rfl
    | some text => by_cases he : text = "" <;> simp [nonEmpty?, he]
  | cons l rest ih =>
    obtain ⟨hl, hrest⟩ := List.forall_mem_cons.mp h
    rw [List.findSome?_cons, List.filterMap_cons]
    cases hd : l.description with
    | none => exact ih hrest
    | some text =>
      have : text ≠ "" := fun he => hl (by rw [hd, he])
      simp [this]

variable {t core : TypeExpr} {layers : List Layer}

theorem TypeExpr.Stack.gathers (hs : t.Stack layers core) {d : Option DefaultOutcome}
    (hd : d.isSome = (layers.findSome? Layer.source?).isSome) :
    (t.analysisWith defs d).Gathers defs layers core := by
  rw [analysisWith, hs.eq_peel]
  exact {
    inner := rfl
    base := rfl
    optional := by simp only [List.any_eq_true, Layer.allowsAbsence_iff]
    nullable := by simp only [List.any_eq_true, Layer.allowsNull_iff, exists_eq_right]
    default := by simp only [hd, List.findSome?_isSome_iff]
    description := findSome?_description layers _ hs.description_ne_empty
    constraints := rfl }

theorem TypeExpr.Stack.default_unwrap (hs : t.Stack layers core) {m : Type → Type} [Monad m]
    [LawfulMonad m] (call : Factory → m (Except DefaultFault Value)) :
    Analysis.default <$> t.unwrap call defs =
      (layers.findSome? Layer.source?).mapM (·.resolve call) := by
  rw [unwrap_eq call defs hs, Functor.map_map]
  exact id_map _

theorem findSome?_source {before after : List Layer} {l : Layer}
    (hb : ∀ l ∈ before, l.source? = none) :
    (before ++ l :: after).findSome? Layer.source? = (l.source?.or (after.findSome? Layer.source?))
    := by
  rw [List.findSome?_append, List.findSome?_eq_none_iff.mpr hb, List.findSome?_cons]
  cases l.source? <;> rfl

theorem TypeExpr.Stack.callsOnce (hs : t.Stack layers core) : t.CallsOnce defs layers where
  without h m _ _ call := by
    rw [hs.default_unwrap, List.findSome?_eq_none_iff.mpr h, Option.mapM_none]
  fixed h hb hl m _ _ call := by
    rw [hs.default_unwrap, h, findSome?_source hb, hl]
    simp [DefaultSource.resolve]
  made h hb hl m _ _ call := by
    rw [hs.default_unwrap, h, findSome?_source hb, hl]
    simp [DefaultSource.resolve]

/-- Something is found of a default exactly if there is one. -/
theorem TypeExpr.analyse_default_isSome (s : Session) :
    ((t.analyse defs).run s).1.default.isSome = t.defaultSource?.isSome := by
  change (t.findDefault.run s).1.isSome = t.defaultSource?.isSome
  unfold findDefault
  cases t.defaultSource? <;> rfl

/-- An analysis is the pass inward over the stack of layers: it gathers what the layers say
together, from outside in, and resolves the outermost default only, calling no other factory. -/
theorem TypeExpr.analyse_unwraps : ∃ layers core, t.Stack layers core ∧
    t.analyse defs = t.unwrap Factory.made defs ∧
    (∀ s : Session, ((t.analyse defs).run s).1.Gathers defs layers core) ∧
    t.CallsOnce defs layers := by
  refine ⟨_, _, t.stack_peel, analyse_eq_unwrap defs t, fun s => ?_, t.stack_peel.callsOnce defs⟩
  exact t.stack_peel.gathers defs (analyse_default_isSome defs s)

-- The outer factory fails, and the good default further in is not used.
example : ((TypeExpr.field 1 ⟨none, some (.raises "ValueError"), none, none, []⟩
    (.annotated 2 (.atom (.builtin .integer)) [.field 3 ⟨some (.int 5), none, none, none, []⟩])
      |>.analyse .empty).run .empty).1.default = some (.error (.raised "ValueError")) := by
  rfl

end

end ToolCatalog
