import ToolCatalog.Proofs.Growth
import ToolCatalog.Proofs.Json
import ToolCatalog.Proofs.Layers

/-!
What the descriptors of a session mean, while some of them are still being filled.

`Shows` relates an expression to the address of its descriptor. It looks through arrays and records
down to their parts, but stops at an object class: there it only asks that the address is the one
remembered for the class. What the fields of a class have to do with its body is said apart from
that, by `Walked`, so that a class whose fields lead back to it needs no unfolding, and a body that
is filled in part is a body that has been walked over a beginning of the fields.
-/
namespace ToolCatalog

/-- Expressions that are closed under what is met below them, and of which two that are remembered
under one key are one expression or two constants. -/
structure Universe (defs : Definitions) (U : TypeExpr → Prop) : Prop where
  core : ∀ {t}, U t → U t.core
  part : ∀ {t e}, U t → (t.core.base defs).part? = some e → U e
  field : ∀ {t c name v}, U t → t.core.base defs = .object c → (name, v) ∈ c.fields → U v
  same : ∀ {t u}, U t → U u → t.watchable = true → u.watchable = true → t.key = u.key →
    t = u ∨ ∃ i v j w, t = .constant i v ∧ u = .constant j w

/-- The descriptor at `a` is what the layers of an expression make of the record `r` at `a₀`: a copy
with their additions, or that very descriptor. -/
def Finished (defs : Definitions) (s : Session) (t : TypeExpr) (a₀ : Address) (r : Record)
    (a : Address) : Prop :=
  ∃ d, t.MayFind d ∧
    if (t.analysisWith defs d).adds r then
      s.graph.records[a]? = some ((t.analysisWith defs d).decorate r)
    else a = a₀

/-- The descriptor at an address is that of an expression. -/
inductive Shows (defs : Definitions) (s : Session) : TypeExpr → Address → Prop
  | object {t c a₀ b a} (hb : t.core.base defs = .object c) (hc : s.cached? t.core = some a₀)
      (hr : s.graph.records[a₀]? = some (objectRecord c b))
      (hf : Finished defs s t a₀ (objectRecord c b) a) : Shows defs s t a
  | value {t p a₀ r a} (hb : (t.core.base defs).isObject = false)
      (hp : ∀ e, (t.core.base defs).part? = some e → Shows defs s e p)
      (hrec : (t.core.base defs).recordOf t.layerConstraints p = .ok r)
      (hr : s.graph.records[a₀]? = some r) (hf : Finished defs s t a₀ r a) : Shows defs s t a

/-- The record `r` at an address is that of what stands under the layers of an expression. -/
inductive Stands (defs : Definitions) (s : Session) (t : TypeExpr) (a : Address) : Record → Prop
  | object {c b} (hb : t.core.base defs = .object c) (hc : s.cached? t.core = some a)
      (hr : s.graph.records[a]? = some (objectRecord c b)) : Stands defs s t a (objectRecord c b)
  | value {p r} (hb : (t.core.base defs).isObject = false)
      (hp : ∀ e, (t.core.base defs).part? = some e → Shows defs s e p)
      (hrec : (t.core.base defs).recordOf t.layerConstraints p = .ok r)
      (hr : s.graph.records[a]? = some r) : Stands defs s t a r

/-- A body is what walking these fields one by one makes of an empty one. -/
inductive Walked (defs : Definitions) (s : Session) : List (String × TypeExpr) → Body → Prop
  | nil : Walked defs s [] ⟨[], []⟩
  | snoc {fs x name t a} (h : Walked defs s fs x) (ht : Shows defs s t a) :
      Walked defs s (fs ++ [(name, t)]) (x.enter name a t.allowsAbsence)

/-- An object class has a descriptor with this body. -/
def Session.Holds (s : Session) (name : String) (c : ObjectClass) (b : Address) : Prop :=
  ∃ a, s.cached? (.declared name) = some a ∧ s.graph.records[a]? = some (objectRecord c b)

/-- What is remembered are descriptors of the expressions; the body of each object class has been
walked over a beginning of the fields and belongs to no other class. -/
structure Invariant (defs : Definitions) (U : TypeExpr → Prop) (s : Session) : Prop where
  shows : ∀ {t a}, U t → s.cached? t = some a → Shows defs s t a
  walked : ∀ {name c a}, defs.find? name = some (.object c) →
    s.cached? (.declared name) = some a → ∃ b x fs rest,
      s.graph.records[a]? = some (objectRecord c b) ∧ s.graph.bodies[b]? = some x ∧
        c.fields = fs ++ rest ∧ Walked defs s fs x
  own : ∀ {name c m c' b}, defs.find? name = some (.object c) → defs.find? m = some (.object c') →
    s.Holds name c b → s.Holds m c' b → name = m

/-- The body of an object class has been walked over all fields. -/
def Complete (defs : Definitions) (s : Session) (name : String) (c : ObjectClass) : Prop :=
  ∃ b x, s.Holds name c b ∧ s.graph.bodies[b]? = some x ∧ Walked defs s c.fields x

/-- All object classes that got a descriptor between two sessions are complete. -/
structure Settled (defs : Definitions) (s s' : Session) : Prop where
  complete : ∀ {name c}, defs.find? name = some (.object c) → s.cached? (.declared name) = none →
    (s'.cached? (.declared name)).isSome → Complete defs s' name c

/-- Object classes keep the very descriptors they have. -/
structure Session.KeepsClasses (defs : Definitions) (s s' : Session) : Prop where
  cached : ∀ {name c a}, defs.find? name = some (.object c) → s.cached? (.declared name) = some a →
    s'.cached? (.declared name) = some a

/-! ## Expressions without layers -/

namespace TypeExpr

theorem eq_declared_of_key {t : TypeExpr} {name : String} (h : t.key = (declared name).key) :
    t = declared name := by
  unfold key at h
  split at h <;> simp_all

theorem MayFind.of_bare {t : TypeExpr} {d : Option DefaultOutcome} (ht : t.peel.1 = [])
    (h : t.MayFind d) : d = none := by
  obtain ⟨s, rfl⟩ := h
  simp only [findDefault, defaultSource?, ht]
  rfl

theorem mayFind_core (t : TypeExpr) : t.core.MayFind none :=
  ⟨.empty, by
    simp only [findDefault, defaultSource?, t.core_core]
    rfl⟩

@[simp] theorem core_idem (t : TypeExpr) : t.core.core = t.core := by
  rw [core, t.core_core]

@[simp] theorem layerConstraints_core (t : TypeExpr) : t.core.layerConstraints = [] := by
  rw [layerConstraints, t.core_core]
  rfl

theorem base_description_of_value {b : Base} (h : b.isObject = false) : b.description = none := by
  cases b <;> first | rfl | cases h

/-- The layers of an expression that has none add nothing to a record that has the description of
the base. -/
theorem adds_of_bare {defs : Definitions} {t : TypeExpr} {d : Option DefaultOutcome} {r : Record}
    (ht : t.peel = ([], t)) (hd : t.MayFind d)
    (hr : ∀ x, nonEmpty? (t.base defs).description = some x →
      r.data? "description" = some (.text x)) :
    (t.analysisWith defs d).adds r = false := by
  obtain rfl := hd.of_bare (by rw [ht])
  have hx : t.describedBy defs = nonEmpty? (t.base defs).description := by
    simp [describedBy, core, ht]
  simp only [analysisWith_eq, Analysis.adds, allowsAbsence, allowsNull, ht, hx, List.any_nil,
    Option.isSome_none, Bool.or_self, Bool.false_or]
  cases h : nonEmpty? (t.base defs).description with
  | none => rfl
  | some x => simp [hr x h]

end TypeExpr

theorem lookup_objectRecord_description (c : ObjectClass) (b : Address) :
    (objectRecord c b).lookup "description" = (nonEmpty? c.doc).map fun d => .data (.text d) := by
  unfold objectRecord
  cases nonEmpty? c.doc <;> rfl

theorem objectRecord_description (c : ObjectClass) (b : Address) :
    Record.data? (objectRecord c b) "description" = (nonEmpty? c.doc).map .text := by
  rw [Record.data?, lookup_objectRecord_description]
  cases nonEmpty? c.doc <;> rfl

section

variable {defs : Definitions} {U : TypeExpr → Prop} {s s' : Session} {t : TypeExpr}
  {a a₀ b : Address} {r : Record}

theorem Stands.adds_bare (h : Stands defs s t a₀ r) (ht : t.peel = ([], t)) {d}
    (hd : t.MayFind d) : (t.analysisWith defs d).adds r = false := by
  have hcore : t.core = t := by rw [TypeExpr.core, ht]
  refine TypeExpr.adds_of_bare ht hd fun x hx => ?_
  cases h with
  | @object c _ hb hc hr =>
    rw [hcore] at hb
    rw [hb] at hx
    rw [objectRecord_description, show nonEmpty? c.doc = some x from hx]
    rfl
  | value hb hp hrec hr =>
    rw [hcore] at hb
    rw [TypeExpr.base_description_of_value hb] at hx
    cases hx

theorem Shows.of_stands (h : Stands defs s t a₀ r) (hf : Finished defs s t a₀ r a) :
    Shows defs s t a := by
  cases h with
  | object hb hc hr => exact .object hb hc hr hf
  | value hb hp hrec hr => exact .value hb hp hrec hr hf

theorem Shows.stands (h : Shows defs s t a) :
    ∃ a₀ r, Stands defs s t a₀ r ∧ Finished defs s t a₀ r a := by
  cases h with
  | object hb hc hr hf => exact ⟨_, _, .object hb hc hr, hf⟩
  | value hb hp hrec hr hf => exact ⟨_, _, .value hb hp hrec hr, hf⟩

theorem Stands.record (h : Stands defs s t a r) : s.graph.records[a]? = some r := by
  cases h with
  | object hb hc hr => exact hr
  | value hb hp hrec hr => exact hr

/-- The descriptor of an expression without layers is that of what stands under them. -/
theorem Shows.bare (h : Shows defs s t a) (ht : t.peel = ([], t)) : ∃ r, Stands defs s t a r := by
  obtain ⟨a₀, r, hs, d, hd, hf⟩ := h.stands
  rw [if_neg (by simp [hs.adds_bare ht hd])] at hf
  exact ⟨r, hf ▸ hs⟩

theorem Stands.shows_bare (h : Stands defs s t a r) (ht : t.peel = ([], t)) :
    Shows defs s t a := by
  have hd : t.MayFind none := by
    have := t.mayFind_core
    rwa [TypeExpr.core, ht] at this
  refine .of_stands h ⟨none, hd, ?_⟩
  rw [if_neg (by simp [h.adds_bare ht hd])]

/-- What stands under an object class is remembered for it. -/
theorem Stands.cached_of_declared (h : Stands defs s t a r) (name : String) (c : ObjectClass)
    (ht : t = .declared name) (hf : defs.find? name = some (.object c)) : s.cached? t = some a := by
  subst ht
  cases h with
  | object hb hc hr => exact hc
  | value hb hp hrec hr =>
    have hobj : (TypeExpr.declared name).core.base defs = .object c := TypeExpr.base_declared hf
    rw [hobj] at hb
    cases hb

/-- An object class, or a base without constraints, is the same with the layers and without. -/
theorem Stands.of_core (h : Stands defs s t.core a r)
    (hc : (t.core.base defs).isObject = true ∨ t.layerConstraints = []) : Stands defs s t a r := by
  cases h with
  | object hb hcache hr =>
    rw [TypeExpr.core_idem] at hb hcache
    exact .object hb hcache hr
  | value hb hp hrec hr =>
    rw [TypeExpr.core_idem] at hb hp hrec
    rcases hc with hc | hc
    · rw [hb] at hc
      cases hc
    · rw [TypeExpr.layerConstraints_core, ← hc] at hrec
      exact .value hb hp hrec hr

theorem Stands.core (h : Stands defs s t a r) (hc : t.layerConstraints = []) :
    Stands defs s t.core a r := by
  cases h with
  | object hb hcache hr =>
    refine .object ?_ ?_ hr <;> rwa [TypeExpr.core_idem]
  | @value p r hb hp hrec hr =>
    refine .value (p := p) ?_ ?_ ?_ hr
    · rwa [TypeExpr.core_idem]
    · rwa [TypeExpr.core_idem]
    · rwa [TypeExpr.core_idem, TypeExpr.layerConstraints_core, ← hc]

theorem Shows.constant_iff {id : Nat} {v : Value} :
    Shows defs s (.constant id v) a ↔ s.graph.records[a]? = some (Record.ofType "any") := by
  constructor
  · intro h
    obtain ⟨r, hs⟩ := h.bare rfl
    cases hs with
    | object hb hc hr => cases hb
    | value hb hp hrec hr =>
      cases hrec
      exact hr
  · intro h
    refine Stands.shows_bare (.value (p := 0) rfl ?_ rfl h) rfl
    intro e he
    cases he

/-! ## Later sessions -/

theorem Finished.mono {free : Option Address} (hx : s.Extends free s')
    (h : Finished defs s t a₀ r a) : Finished defs s' t a₀ r a := by
  obtain ⟨d, hd, hf⟩ := h
  refine ⟨d, hd, ?_⟩
  split
  · rename_i hadd
    rw [if_pos hadd] at hf
    exact hx.record a _ hf
  · rename_i hadd
    rwa [if_neg hadd] at hf

theorem Shows.mono {free : Option Address} (hx : s.Extends free s') (hk : s.KeepsClasses defs s')
    (h : Shows defs s t a) : Shows defs s' t a := by
  induction h with
  | object hb hc hr hf =>
    obtain ⟨name, hname, hfind⟩ := TypeExpr.base_object hb
    refine .object hb ?_ (hx.record _ _ hr) (hf.mono hx)
    rw [hname] at hc ⊢
    exact hk.cached hfind hc
  | value hb _ hrec hr hf ih => exact .value hb ih hrec (hx.record _ _ hr) (hf.mono hx)

theorem Stands.mono {free : Option Address} (hx : s.Extends free s') (hk : s.KeepsClasses defs s')
    (h : Stands defs s t a r) : Stands defs s' t a r := by
  cases h with
  | object hb hc hr =>
    obtain ⟨name, hname, hfind⟩ := TypeExpr.base_object hb
    refine .object hb ?_ (hx.record _ _ hr)
    rw [hname] at hc ⊢
    exact hk.cached hfind hc
  | value hb hp hrec hr =>
    exact .value hb (fun e he => (hp e he).mono hx hk) hrec (hx.record _ _ hr)

theorem Walked.mono {free : Option Address} (hx : s.Extends free s') (hk : s.KeepsClasses defs s')
    {fs : List (String × TypeExpr)} {x : Body} (h : Walked defs s fs x) : Walked defs s' fs x := by
  induction h with
  | nil => exact .nil
  | snoc _ ht ih => exact .snoc ih (ht.mono hx hk)

theorem Session.Holds.mono {free : Option Address} (hx : s.Extends free s')
    (hk : s.KeepsClasses defs s') {name : String} {c : ObjectClass}
    (hfind : defs.find? name = some (.object c)) (h : s.Holds name c b) : s'.Holds name c b := by
  obtain ⟨a, hc, hr⟩ := h
  exact ⟨a, hk.cached hfind hc, hx.record a _ hr⟩

theorem objectRecord_inj {c : ObjectClass} {b b' : Address}
    (h : objectRecord c b = objectRecord c b') : b = b' := by
  simpa [objectRecord] using h

/-- The body of an object class is the one it had. -/
theorem Session.Holds.of_later {free : Option Address} (hi : Invariant defs U s)
    (hx : s.Extends free s') (hk : s.KeepsClasses defs s') {name : String} {c : ObjectClass}
    (hfind : defs.find? name = some (.object c)) (hc : (s.cached? (.declared name)).isSome)
    (h : s'.Holds name c b) : s.Holds name c b := by
  obtain ⟨a, ha⟩ := Option.isSome_iff_exists.mp hc
  obtain ⟨b', x, fs, rest, hr, -⟩ := hi.walked hfind ha
  obtain ⟨a', hc', hr'⟩ := h
  have haa : a = a' := by simpa [hc'] using (hk.cached hfind ha).symm
  subst haa
  have hb : b' = b := objectRecord_inj (by simpa [hr'] using (hx.record _ _ hr).symm)
  exact ⟨a, ha, hb ▸ hr⟩

theorem Complete.mono {free : Option Address} (hx : s.Extends free s')
    (hk : s.KeepsClasses defs s') {name : String} {c : ObjectClass}
    (hfind : defs.find? name = some (.object c)) (hfree : ∀ b, s.Holds name c b → free ≠ some b)
    (h : Complete defs s name c) : Complete defs s' name c := by
  obtain ⟨b, x, hh, hb, hw⟩ := h
  exact ⟨b, x, hh.mono hx hk hfind, hx.body b x hb (hfree b hh), hw.mono hx hk⟩

namespace Session.KeepsClasses

theorem refl (defs : Definitions) (s : Session) : s.KeepsClasses defs s :=
  ⟨fun _ h => h⟩

theorem trans {s₁ : Session} (h : s.KeepsClasses defs s₁) (h' : s₁.KeepsClasses defs s') :
    s.KeepsClasses defs s' := ⟨fun hf hc => h'.cached hf (h.cached hf hc)⟩

theorem of_sameWork (h : s.SameWork s') : s.KeepsClasses defs s' := by
  constructor
  intro name c a _ hc
  rwa [h.cached?]

theorem withRecord (s : Session) (r : Record) : s.KeepsClasses defs (s.withRecord r) :=
  ⟨fun _ h => h⟩

theorem withBodyChanged (s : Session) (b : Address) (f : Body → Body) :
    s.KeepsClasses defs (s.withBodyChanged b f) := ⟨fun _ h => h⟩

/-- Remembering what is no object class, or is remembered already, changes no object class. -/
theorem remember (h : ∀ name c, t = .declared name → defs.find? name = some (.object c) →
    s.cached? t = some a) : s.KeepsClasses defs (s.remember t a) := by
  constructor
  intro name c a' hf hc
  rcases s.cached?_remember t (.declared name) a with ⟨hk, ht, -, hr⟩ | hr
  · have hname : t = .declared name := TypeExpr.eq_declared_of_key hk
    have := h name c hname hf
    rw [hname, hc] at this
    rw [hr, this]
  · rw [hr, hc]

end Session.KeepsClasses

theorem Settled.of_same (hc : ∀ t, s'.cached? t = s.cached? t) : Settled defs s s' := by
  constructor
  intro name c _ hn hs
  simp [hc, hn] at hs

theorem Settled.refl (defs : Definitions) (s : Session) : Settled defs s s :=
  .of_same fun _ => rfl

/-- Classes stay complete unless a body of theirs is free to change. -/
theorem Settled.trans {s₁ : Session} {free : Option Address} (h : Settled defs s s₁)
    (hx : s₁.Extends free s') (hk : s₁.KeepsClasses defs s')
    (hfree : ∀ name c b, defs.find? name = some (.object c) → s.cached? (.declared name) = none →
      s₁.Holds name c b → free ≠ some b)
    (h' : Settled defs s₁ s') : Settled defs s s' := by
  constructor
  intro name c hf hn hs
  by_cases h₁ : (s₁.cached? (.declared name)).isSome
  · exact (h.complete hf hn h₁).mono hx hk hf fun b hb => hfree name c b hf hn hb
  · exact h'.complete hf (by simpa using h₁) hs

theorem Settled.remember (h : ∀ name c, t = .declared name → defs.find? name = some (.object c) →
    s.cached? t = some a) : Settled defs s (s.remember t a) := by
  constructor
  intro name c hf hn hs
  rcases s.cached?_remember t (.declared name) a with ⟨hkey, -, -, -⟩ | hr
  · obtain rfl := TypeExpr.eq_declared_of_key hkey
    rw [h name c rfl hf] at hn
    cases hn
  · simp [hr, hn] at hs

theorem Settled.of_cached {s₁ : Session} (hc : ∀ t, s₁.cached? t = s.cached? t)
    (h : Settled defs s₁ s') : Settled defs s s' := by
  constructor
  intro name c hf hn hs
  exact h.complete hf (by rwa [hc]) hs

end

end ToolCatalog
