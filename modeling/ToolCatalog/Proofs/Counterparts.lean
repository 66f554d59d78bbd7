import ToolCatalog.Proofs.Bounds
import ToolCatalog.Proofs.Frozen
import ToolCatalog.Proofs.Termination

/-!
Two expressions with one core, described from one session.

Up to the record of the base both descriptions do the same: the default is found once in the same
state, and what stands inside the base is described in the same session. So the two descriptors
differ only in what the constraints write into that record and in what the layers add to it.
-/
namespace ToolCatalog

/-- Two expressions with one core and one outermost default, both constrained or neither. -/
structure TypeExpr.Counterparts (t u : TypeExpr) : Prop where
  core : u.core = t.core
  source : u.defaultSource? = t.defaultSource?
  free : u.layerConstraints = [] ↔ t.layerConstraints = []

variable {defs : Definitions} {U : TypeExpr → Prop} {s m : Session} {t u : TypeExpr}

/-- Two records of what stands under the layers of two counterparts, in a session that holds what is
inside: one record where no constraints apply, or one for each list of constraints. -/
inductive OneBase (defs : Definitions) (t u : TypeExpr) (m : Session) : Record → Record → Prop
  | same {a} (hs : Shows defs m t.core a)
      (hf : (t.core.base defs).isObject = true ∨ t.layerConstraints = []) :
      OneBase defs t u m (m.graph.record a) (m.graph.record a)
  | apart {p r r'} (hb : (t.core.base defs).isObject = false)
      (hp : ∀ e, (t.core.base defs).part? = some e → Shows defs m e p)
      (hr : (t.core.base defs).recordOf t.layerConstraints p = .ok r)
      (hr' : (t.core.base defs).recordOf u.layerConstraints p = .ok r') : OneBase defs t u m r r'

/-- What two descriptions come to: one fault, or records of one base with what each stack of layers
adds, in later sessions. -/
inductive Paired (defs : Definitions) (U : TypeExpr → Prop) (t u : TypeExpr) :
    Except CompileFault Address × Session → Except CompileFault Address × Session → Prop
  | failed (e : CompileFault) (s s' : Session) : Paired defs U t u (.error e, s) (.error e, s')
  | made {m d r r' a b s s'} (hi : Invariant defs U m) (hbase : OneBase defs t u m r r')
      (hd : t.MayFind d) (hd' : u.MayFind d) (hx : m.Extends none s) (hx' : m.Extends none s')
      (hr : s.graph.record a = (t.analysisWith defs d).finish r)
      (hr' : s'.graph.record b = (u.analysisWith defs d).finish r') :
      Paired defs U t u (.ok a, s) (.ok b, s')

namespace OneBase

variable {r r' : Record} {k : String} {a : Attribute}

theorem symm (h : OneBase defs t u m r r') (hc : t.Counterparts u) : OneBase defs u t m r' r := by
  cases h with
  | same hs hf => exact .same (hc.core ▸ hs) (by rwa [hc.core, hc.free])
  | apart hb hp hr hr' =>
    rw [← hc.core] at hb hp hr hr'
    exact .apart hb hp hr' hr

theorem stands_core {b : Address} (hs : Shows defs m t.core b) :
    Stands defs m t.core b (m.graph.record b) := by
  obtain ⟨r, hr⟩ := hs.bare t.core_core
  rwa [Graph.record_of_getElem? hr.record]

theorem lookup_description (h : OneBase defs t u m r r') : r.lookup "description"
    = (nonEmpty? (t.core.base defs).description).map fun d => .data (.text d) := by
  cases h with
  | same hs _ =>
    rw [(stands_core hs).lookup_description, t.core_idem]
  | apart hb _ hr _ =>
    rw [Base.recordOf_lookup (.inl rfl) hr, TypeExpr.base_description_of_value hb]
    rfl

theorem lookup_optional (h : OneBase defs t u m r r') : r.lookup "optional" = none := by
  cases h with
  | same hs _ =>
    have hcore := stands_core hs
    generalize m.graph.record _ = r at hcore ⊢
    cases hcore with
    | object => exact objectRecord_optional _ _
    | value _ _ hr _ => exact Base.recordOf_lookup (.inr (.inr rfl)) hr
  | apart _ _ hr _ => exact Base.recordOf_lookup (.inr (.inr rfl)) hr

theorem layered (h : OneBase defs t u m r r') : r.Layered := by
  cases h with
  | same hs _ =>
    obtain ⟨_, hprofile⟩ := (stands_core hs).profile
    exact hprofile.layered
  | apart hb _ hr _ => exact (Record.Profile.recordOf (g := .empty) hb hr).layered

/-- What a base writes as its type is data. -/
theorem lookup_type (h : OneBase defs t u m r r') :
    r.lookup "type" = (r.data? "type").map .data := by
  rw [Record.data?]
  cases hl : r.lookup "type" with
  | none => rfl
  | some x =>
    obtain ⟨v, rfl, -⟩ := h.layered _ _ (Entries.mem_of_lookup hl) (by simp [layerKeywords])
    rfl

theorem lookup_bound (h : OneBase defs t u m r r') (hk : (a, k) ∈ (t.core.base defs).family) :
    r.lookup k = (Constraint.lastSet a t.layerConstraints).map fun v => .data (a.written v) := by
  cases h with
  | same hs hf =>
    have hcore := stands_core hs
    generalize m.graph.record _ = r at hcore ⊢
    cases hcore with
    | object hb =>
      rw [t.core_idem] at hb
      rw [hb] at hk
      cases hk
    | value hb _ hr _ =>
      -- Such a base is shared only where no constraints apply.
      rw [t.core_idem] at hb hr
      obtain hf : t.layerConstraints = [] := by simpa [hb] using hf
      have hfree : t.core.layerConstraints = [] := by
        rw [TypeExpr.layerConstraints, t.core_core]
        rfl
      rw [Base.lookup_bound hr hk, hfree, hf]
  | apart _ _ hr _ => exact Base.lookup_bound hr hk

theorem lookup_unbound (h : OneBase defs t u m r r')
    (hk : ∀ a, (a, k) ∉ (t.core.base defs).family) : r.lookup k = r'.lookup k := by
  cases h with
  | same => rfl
  | apart _ _ hr hr' => exact Base.lookup_unbound hr hr' hk

end OneBase

/-! ## Frozen descriptors -/

namespace Graph.Frozen

variable {g g' : Graph} {a : Address}

theorem partOf_eq (h : g.Frozen g' a) {child child' : Address → Schema}
    (hchild : ∀ c, g.Edge a c → child' c = child c) {k : String} {x : Slot}
    (hx : (k, x) ∈ g.record a) : g'.partOf child' x = g.partOf child x := by
  cases x with
  | data v => rfl
  | schema c => exact congrArg SchemaPart.schema (hchild c ⟨_, hx, rfl⟩)
  | properties b =>
    rw [partOf, partOf, h.body_eq hx rfl]
    refine congrArg SchemaPart.properties (List.map_congr_left fun e he => ?_)
    rw [hchild e.2 ⟨_, hx, e.1, he⟩]
  | required b =>
    rw [partOf, partOf, h.body_eq hx rfl]

/-- What is frozen unfolds to the same later. -/
theorem unfold_eq (h : g.Frozen g' a) (depth : Nat) : g'.unfold depth a = g.unfold depth a := by
  induction depth generalizing a with
  | zero => rfl
  | succ depth ih =>
    rw [unfold, unfold, h.record_eq, Record.written, Record.written]
    refine congrArg Schema.keywords (List.map_congr_left fun e he => ?_)
    rw [h.partOf_eq (fun c hc => ih (h.of_reached (.single hc))) he]

end Graph.Frozen

/-- What the record of a base holds stands for the same in every later session. -/
theorem OneBase.partOf_eq {r r' : Record} (h : OneBase defs t u m r r') (hi : Invariant defs U m)
    (hx : m.Extends none s) {k : String} {x : Slot} (hk : (k, x) ∈ r) (depth : Nat) :
    s.graph.partOf (s.graph.unfold depth) x = m.graph.partOf (m.graph.unfold depth) x := by
  cases h with
  | same hs _ =>
    have hfrozen := hx.frozen fun v hv => hs.reached_present hi hv
    exact hfrozen.partOf_eq
      (fun c hc => (hfrozen.of_reached (.single hc)).unfold_eq depth) hk
  | @apart p _ _ hb hp hr _ =>
    cases x with
    | data v => rfl
    | schema c =>
      have hbelow := (Record.Profile.recordOf (g := .empty) hb hr).below c
      obtain ⟨hpart, rfl⟩ := hbelow.mp ⟨_, hk, rfl⟩
      obtain ⟨e, he⟩ := Option.isSome_iff_exists.mp hpart
      have hfrozen := hx.frozen fun v hv => (hp e he).reached_present hi hv
      exact congrArg SchemaPart.schema (hfrozen.unfold_eq depth)
    | properties b => cases Base.recordOf_body hr _ hk
    | required b => cases Base.recordOf_body hr _ hk

/-! ## Keyword by keyword -/

theorem Graph.lookup_unfold (g : Graph) (depth : Nat) (a : Address) (k : String) :
    (g.unfold (depth + 1) a).parts.lookup k
      = ((g.record a).lookup k).map (g.partOf (g.unfold depth)) := by
  rw [unfold, Record.written, Schema.parts, Entries.lookup_map]

namespace OneBase

variable {s' : Session} {d : Option DefaultOutcome} {r r' : Record} {k : String} {a b : Address}

/-- Where the finished records agree under a keyword, so do the descriptors to every depth. -/
theorem lookup_unfold_eq (h : OneBase defs t u m r r') (hi : Invariant defs U m)
    (hx : m.Extends none s) (hx' : m.Extends none s')
    (hr : s.graph.record a = (t.analysisWith defs d).finish r)
    (hr' : s'.graph.record b = (u.analysisWith defs d).finish r')
    (hk : ((t.analysisWith defs d).finish r).lookup k
      = ((u.analysisWith defs d).finish r').lookup k)
    (depth : Nat) :
    (s.graph.unfold depth a).parts.lookup k = (s'.graph.unfold depth b).parts.lookup k := by
  cases depth with
  | zero => rfl
  | succ depth =>
    rw [Graph.lookup_unfold, Graph.lookup_unfold, hr, hr', ← hk]
    cases hl : ((t.analysisWith defs d).finish r).lookup k with
    | none => rfl
    | some x =>
      -- What the layers add is data, and the rest is there already where the records are made.
      have hmem : (k, x) ∈ r ∨ ∃ v, x = .data v := by
        have hx := Entries.mem_of_lookup hl
        rw [Analysis.finish, Analysis.decorate_eq] at hx
        split at hx
        · rcases Record.mem_putAll hx with hx | ⟨y, -, hy⟩
          · exact .inl hx
          · exact .inr ⟨y.2, congrArg Prod.snd hy⟩
        · exact .inl hx
      refine congrArg some ?_
      rcases hmem with hmem | ⟨v, rfl⟩
      · rw [h.partOf_eq hi hx hmem, h.partOf_eq hi hx' hmem]
      · rfl

theorem finish_bound (h : OneBase defs t u m r r') {e : Attribute}
    (hk : (e, k) ∈ (t.core.base defs).family) : ((t.analysisWith defs d).finish r).lookup k
      = (Constraint.lastSet e t.layerConstraints).map fun v => .data (e.written v) := by
  rw [Analysis.lookup_finish _ _ (Base.family_disjoint hk), h.lookup_bound hk]

theorem finish_optional (h : OneBase defs t u m r r') :
    ((t.analysisWith defs d).finish r).lookup "optional"
      = if t.allowsAbsence then some (.data (.bool true)) else none := by
  rw [Analysis.lookup_finish_optional, h.lookup_optional]
  rfl

theorem lookup_layer (h : OneBase defs t u m r r') (hk : k ∈ layerKeywords) :
    r.lookup k = r'.lookup k :=
  h.lookup_unbound fun _ he => Base.family_disjoint he hk

/-- The finished records agree under a keyword if the two expressions say the same of it. -/
theorem finish_eq (h : OneBase defs t u m r r') (hc : t.Counterparts u)
    (hd : t.MayFind d) (hd' : u.MayFind d)
    (hbound : ∀ e, (e, k) ∈ (t.core.base defs).family →
      Constraint.lastSet e t.layerConstraints = Constraint.lastSet e u.layerConstraints)
    (htext : t.describedBy defs = u.describedBy defs)
    (hnull : k = "type" → t.allowsNull = u.allowsNull)
    (habsence : k = "optional" → t.allowsAbsence = u.allowsAbsence) :
    ((t.analysisWith defs d).finish r).lookup k
      = ((u.analysisWith defs d).finish r').lookup k := by
  by_cases hlayer : k ∈ layerKeywords
  · have hbase := h.lookup_layer hlayer
    simp only [layerKeywords, List.mem_cons, List.not_mem_nil, or_false] at hlayer
    rcases hlayer with rfl | rfl | rfl | rfl
    · rw [TypeExpr.lookup_finish_description hd h.lookup_description,
        TypeExpr.lookup_finish_description hd' (h.symm hc).lookup_description, htext]
    · rw [Analysis.lookup_finish_default, Analysis.lookup_finish_default, hbase]
      rfl
    · have htype : r.data? "type" = r'.data? "type" := by simp only [Record.data?, hbase]
      have hnullable : (t.analysisWith defs d).nullable = (u.analysisWith defs d).nullable :=
        hnull rfl
      rw [Analysis.lookup_finish_type, Analysis.lookup_finish_type, hbase, htype, hnullable]
    · rw [h.finish_optional, (h.symm hc).finish_optional, habsence rfl]
  · by_cases hk : ∃ e, (e, k) ∈ (t.core.base defs).family
    · obtain ⟨e, he⟩ := hk
      rw [h.finish_bound he, (h.symm hc).finish_bound (hc.core ▸ he), hbound e he]
    · rw [Analysis.lookup_finish _ _ hlayer, Analysis.lookup_finish _ _ hlayer,
        h.lookup_unbound fun e he => hk ⟨e, he⟩]

end OneBase

/-! ## Two descriptions from one session -/

/-- Two tasks under the layers: one class or one remembered descriptor, or the part described once
and its record written for either list of constraints. -/
inductive InnerPair (defs : Definitions) (s : Session) (an an' : Analysis) :
    Except CompileFault Address × Session → Except CompileFault Address × Session → Prop
  | object {name c res names} (hn : an.inner = .declared name) (hb : an.base = .object c)
      (ho : Evaluates defs s (.object name c) res names) : InnerPair defs s an an' res res
  | shared {a} (hb : an.base.isObject = false) (hf : an.constraints = [])
      (hc : s.cached? an.inner = some a) : InnerPair defs s an an' (.ok a, s) (.ok a, s)
  | apart {p m} (hb : an.base.isObject = false)
      (hp : an.base.part? = none ∧ s.SameWork m ∨
        ∃ e names, an.base.part? = some e ∧ Evaluates defs s (.field e none) (p, m) names) :
      InnerPair defs s an an' (m.run (enterBase an (p.bind (an.base.recordOf an.constraints ·))))
        (m.run (enterBase an' (p.bind (an.base.recordOf an'.constraints ·))))

section

variable {an an' : Analysis} {res res' : Except CompileFault Address × Session}
  {names : List String}

theorem Evaluates.inner_pair (hi : an'.inner = an.inner) (hb : an'.base = an.base)
    (hc : an'.constraints = [] ↔ an.constraints = [])
    (h : Evaluates defs s (.inner an) res names) :
    ∃ res' names', Evaluates defs s (.inner an') res' names' ∧
      InnerPair defs s an an' res res' := by
  cases h with
  | object hname hbase ho =>
    exact ⟨_, _, .object (hi.trans hname) (hb.trans hbase) ho, .object hname hbase ho⟩
  | shared hobj hf hk =>
    exact ⟨_, _, .shared (hb ▸ hobj) (hc.mpr hf) (hi ▸ hk), .shared hobj hf hk⟩
  | simple hobj hk hp =>
    refine ⟨_, _, .simple (hb ▸ hobj) (fun he => hi ▸ hk (hc.mp he)) (hb ▸ hp), ?_⟩
    rw [hi, hb]
    exact .apart (p := .ok 0) hobj (.inl ⟨hp, an.base.noted_sameWork _ s⟩)
  | part hobj hk hp hd =>
    refine ⟨_, _, .part (hb ▸ hobj) (fun he => hi ▸ hk (hc.mp he)) (hb ▸ hp) hd, ?_⟩
    rw [hb]
    exact .apart hobj (.inr ⟨_, _, hp, hd⟩)

/-- A fault under the layers does not depend on the constraints. -/
theorem InnerPair.of_error {e : CompileFault} {s₁ : Session}
    (h : InnerPair defs s an an' (.error e, s₁) res') : ∃ s₂, res' = (.error e, s₂) := by
  generalize hres : (Except.error e, s₁) = res at h
  cases h with
  | object => exact ⟨s₁, hres.symm⟩
  | shared => cases hres
  | @apart p _ hb hp =>
    cases p with
    | error f =>
      rw [Except.bind, run_enterBase_error] at hres
      cases hres
      exact ⟨s₁, rfl⟩
    | ok q =>
      rw [Except.bind] at hres
      cases hr : an.base.recordOf an.constraints q with
      | ok r =>
        rw [hr, run_enterBase_ok] at hres
        cases hres
      | error f =>
        rw [hr, run_enterBase_error] at hres
        cases hres
        have hr' : an.base.recordOf an'.constraints q = .error e :=
          Base.recordOf_error.mpr (Base.recordOf_error.mp hr)
        rw [Except.bind, hr', run_enterBase_error]
        exact ⟨s₁, rfl⟩

theorem enterBase_record (an : Analysis) (r : Record) (m : Session) :
    ∃ b s', m.run (enterBase an (.ok r)) = (.ok b, s') ∧ m.Extends none s' ∧
      s'.graph.record b = r := by
  have hx := enterBase_extends an (.ok r) m
  rw [run_enterBase_ok] at hx ⊢
  refine ⟨_, _, rfl, hx, Graph.record_of_getElem? ?_⟩
  split
  · rw [Session.remember_graph]
    exact m.withRecord_record r
  · exact m.withRecord_record r

/-- The descriptor of an object class, in the session in which it was made. -/
theorem Evaluates.object_shows (hU : Universe defs U) {name : String} {c : ObjectClass}
    (hname : U (.declared name)) (hb : (TypeExpr.declared name).base defs = .object c)
    (hi : Invariant defs U s) {a : Address} {s' : Session}
    (ho : Evaluates defs s (.object name c) (.ok a, s') names) :
    Invariant defs U s' ∧ Shows defs s' (.declared name) a := by
  obtain ⟨n, hn, hf⟩ := TypeExpr.base_object hb
  cases hn
  have hcall := (Call.Evaluates.object hf ho).result_eq
  have hp := Call.preserves hU (c := .compile (.declared name)) hname hi hcall.symm
  refine ⟨hp.inv, ?_⟩
  cases hp.result a rfl with
  | object _ h => exact h
  | empty hobj =>
    rw [hb] at hobj
    cases hobj

/-- The descriptor of a part, in the session in which it was made. -/
theorem Evaluates.field_shows (hU : Universe defs U) {e : TypeExpr} (he : U e)
    (hi : Invariant defs U s) {p : Except CompileFault Address}
    (hd : Evaluates defs s (.field e none) (p, m) names) :
    Invariant defs U m ∧ ∀ a, p = .ok a → Shows defs m e a := by
  have hcall := (Call.Evaluates.describe hd).result_eq
  have hp := Call.preserves hU (c := .describe e) he hi hcall.symm
  exact ⟨hp.inv, hp.result⟩

end

/-- A descriptor under the layers comes with one under the other layers, and their records are made
of one base. -/
theorem InnerPair.of_ok (hU : Universe defs U) (hcore : U t.core) (hi : Invariant defs U s)
    {d : Option DefaultOutcome} {a : Address} {s₁ : Session}
    {res' : Except CompileFault Address × Session}
    (h : InnerPair defs s (t.analysisWith defs d) (u.analysisWith defs d) (.ok a, s₁) res') :
    ∃ b s₂ m r r', res' = (.ok b, s₂) ∧ Invariant defs U m ∧ OneBase defs t u m r r' ∧
      m.Extends none s₁ ∧ m.Extends none s₂ ∧ s₁.graph.record a = r ∧ s₂.graph.record b = r' := by
  generalize hres : (Except.ok a, s₁) = res at h
  cases h with
  | @object name c _ _ hn hb ho =>
    cases hres
    replace hn : t.core = .declared name := hn
    replace hb : t.core.base defs = .object c := hb
    obtain ⟨hi', hs⟩ := ho.object_shows hU (hn ▸ hcore) (hn ▸ hb) hi
    exact ⟨a, s₁, s₁, _, _, rfl, hi', .same (hn ▸ hs) (.inl (by rw [hb]; rfl)), .refl _ _,
      .refl _ _, rfl, rfl⟩
  | shared hb hf hk =>
    cases hres
    exact ⟨a, s, s, _, _, rfl, hi, .same (hi.shows hcore hk) (.inr hf), .refl _ _, .refl _ _, rfl,
      rfl⟩
  | @apart p m hb hp =>
    replace hb : (t.core.base defs).isObject = false := hb
    obtain ⟨q, rfl⟩ : ∃ q, p = .ok q := by
      cases p with
      | ok q => exact ⟨q, rfl⟩
      | error f =>
        rw [Except.bind, run_enterBase_error] at hres
        cases hres
    obtain ⟨hi', hp'⟩ : Invariant defs U m ∧
        ∀ e, (t.core.base defs).part? = some e → Shows defs m e q := by
      rcases hp with ⟨hp, hs⟩ | ⟨e, names, hp, hd⟩
      · exact ⟨hi.of_sameWork hs, fun e he => by cases hp.symm.trans he⟩
      · have hpart : (t.core.core.base defs).part? = some e := by rwa [t.core_idem]
        obtain ⟨hi', hs⟩ := hd.field_shows hU (hU.part hcore hpart) hi
        refine ⟨hi', fun e' he => ?_⟩
        cases hp.symm.trans he
        exact hs q rfl
    change _ = m.run (enterBase _ ((t.core.base defs).recordOf t.layerConstraints q)) at hres
    cases hr : (t.core.base defs).recordOf t.layerConstraints q with
    | error f =>
      rw [hr, run_enterBase_error] at hres
      cases hres
    | ok r =>
      obtain ⟨r', hr'⟩ : ∃ r', (t.core.base defs).recordOf u.layerConstraints q = .ok r' := by
        cases hr' : (t.core.base defs).recordOf u.layerConstraints q with
        | ok r' => exact ⟨r', rfl⟩
        | error f =>
          have hfails : (t.core.base defs).recordOf t.layerConstraints q = .error f :=
            Base.recordOf_error.mpr (Base.recordOf_error.mp hr')
          cases hr.symm.trans hfails
      obtain ⟨a', s', hrun, hx, hrec⟩ := enterBase_record (t.analysisWith defs d) r m
      obtain ⟨b, s₂, hrun', hx', hrec'⟩ := enterBase_record (u.analysisWith defs d) r' m
      rw [hr, hrun] at hres
      cases hres
      refine ⟨b, s₂, m, r, r', ?_, hi', .apart hb hp' hr hr', hx, hx', hrec, hrec'⟩
      rw [← hrun', ← hr']
      rfl

/-- What the layers make of a descriptor: its record with what they add. -/
theorem addLayers_finish (s : Session) (t : TypeExpr) (an : Analysis) (a : Address) :
    ∃ b s', s.run (addLayers t an a) = (.ok b, s') ∧ s.Extends none s' ∧
      s'.graph.record b = an.finish (s.graph.record a) := by
  have hx := addLayers_extends t an a s
  have h := addLayers_run s t an a
  generalize s.run (addLayers t an a) = res at h hx ⊢
  cases h with
  | bare hadd => exact ⟨a, _, rfl, hx, by rw [Session.remember_graph, an.finish_of_adds _ hadd]⟩
  | @decorated s' hadd _ =>
    refine ⟨_, _, rfl, hx, ?_⟩
    rw [Session.remember_graph, Graph.record_of_getElem? (s'.withRecord_record _), Analysis.finish,
      if_pos hadd]

/-- Counterparts that are both new to a session are described alike but for their constraints and
layers: from one base, made in one session, and with one default. -/
theorem describe_paired (hU : Universe defs U) (hcore : U t.core) (hi : Invariant defs U s)
    (hc : t.Counterparts u) (ht : s.cached? t = none) (hu : s.cached? u = none) :
    Paired defs U t u (s.run (describe defs t)) (s.run (describe defs u)) := by
  obtain ⟨names, h⟩ := (Call.describe t).evaluates defs s
  change Call.Evaluates defs s (.describe t) (s.run (describe defs t)) names at h
  generalize s.run (describe defs t) = res at h
  cases h with | describe h => ?_
  have hfind : u.findDefault = t.findDefault := by
    rw [TypeExpr.findDefault, hc.source]
    rfl
  have hinner (d : Option DefaultOutcome) :
      (u.analysisWith defs d).inner = (t.analysisWith defs d).inner := hc.core
  have hbase (d : Option DefaultOutcome) :
      (u.analysisWith defs d).base = (t.analysisWith defs d).base :=
    congrArg (TypeExpr.base defs) hc.core
  have hmade : AnalysisRun defs s u none (u.analysisWith defs (t.findDefault.run s).1)
      (t.findDefault.run s).2 := by
    rw [← hfind]
    exact .made
  cases h with
  | kept hk => cases ht.symm.trans hk
  | barred _ ha hev =>
    cases ha
    obtain ⟨res', _, hev', hpair⟩ := hev.inner_pair (hinner _) (hbase _) hc.free
    obtain ⟨s₂, rfl⟩ := hpair.of_error
    have hcall := (Call.Evaluates.describe (.barred hu hmade hev')).result_eq
    rw [show s.run (describe defs u) = _ from hcall.symm]
    exact .failed _ _ _
  | layered _ ha hev =>
    cases ha
    obtain ⟨res', _, hev', hpair⟩ := hev.inner_pair (hinner _) (hbase _) hc.free
    have hi₁ := hi.of_sameWork (t.findDefault_sameWork s)
    obtain ⟨b, s₂, m, r, r', rfl, hm, hone, hx, hx', rfl, rfl⟩ :=
      hpair.of_ok hU hcore hi₁
    have hcall := (Call.Evaluates.describe (.layered hu hmade hev')).result_eq
    rw [show s.run (describe defs u) = _ from hcall.symm]
    obtain ⟨a', st, hrun, hxt, hrec⟩ := addLayers_finish _ t _ _
    obtain ⟨b', su, hrun', hxu, hrec'⟩ := addLayers_finish s₂ u _ b
    rw [hrun, hrun']
    exact .made hm hone ⟨s, rfl⟩ ⟨s, by rw [hfind]⟩ (hx.trans hxt) (hx'.trans hxu) hrec hrec'

end ToolCatalog
