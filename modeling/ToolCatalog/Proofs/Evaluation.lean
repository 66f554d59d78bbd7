import ToolCatalog.Proofs.Faults

/-!
The recursion of the compiler without a bound on its depth.

`Evaluates` says which tasks a task hands on, in which sessions and in which order, what comes of it
and which object classes are walked on the way. A derivation is finite. The compiler, which descends
at most so many times, computes what a derivation says as soon as it has room enough; and whatever
it computes without running out of room has a derivation.
-/
namespace ToolCatalog

/-- What the functions of the compiler ask of each other. -/
inductive Task
  /-- The descriptor of an expression. -/
  | field (t : TypeExpr) (known : Option Analysis)
  /-- The descriptor of what stands under the layers. -/
  | inner (an : Analysis)
  | object (name : String) (c : ObjectClass)
  /-- The walk of fields into a body. -/
  | walk (body : Address) (fields : List (String × TypeExpr))

/-- What is done for a task with a number of descents; a walk ends with its body. -/
def Task.within (defs : Definitions) (room : Nat) : Task → Compile Address
  | .field t known => describeWithin defs room t known
  | .inner an => describeInner defs (describeWithin defs room) an
  | .object name c => describeObject defs (describeWithin defs room) (.declared name) c
  | .walk body fields => do
    walkFields defs (describeWithin defs room) body fields
    return body

/-- A task, begun in a session, comes to a result and a session; the names are those of the object
classes whose fields are walked, in the order in which the walks begin. -/
inductive Evaluates (defs : Definitions) :
    Session → Task → Except CompileFault Address × Session → List String → Prop
  | kept {s t known a} (h : s.cached? t = some a) :
      Evaluates defs s (.field t known) (.ok a, s) []
  | barred {s t known an s₁ e s' names} (h : s.cached? t = none)
      (ha : AnalysisRun defs s t known an s₁)
      (hi : Evaluates defs s₁ (.inner an) (.error e, s') names) :
      Evaluates defs s (.field t known) (.error e, s') names
  | layered {s t known an s₁ a s₂ names} (h : s.cached? t = none)
      (ha : AnalysisRun defs s t known an s₁)
      (hi : Evaluates defs s₁ (.inner an) (.ok a, s₂) names) :
      Evaluates defs s (.field t known) (s₂.run (addLayers t an a)) names
  | object {s an name c res names} (hi : an.inner = .declared name) (hb : an.base = .object c)
      (ho : Evaluates defs s (.object name c) res names) :
      Evaluates defs s (.inner an) res names
  | shared {s an a} (hb : an.base.isObject = false) (hf : an.constraints = [])
      (hc : s.cached? an.inner = some a) :
      Evaluates defs s (.inner an) (.ok a, s) []
  | simple {s an} (hb : an.base.isObject = false)
      (hc : an.constraints = [] → s.cached? an.inner = none) (hp : an.base.part? = none) :
      Evaluates defs s (.inner an) ((an.base.noted an.inner.label s).run
        (enterBase an (an.base.recordOf an.constraints 0))) []
  | part {s an e r s₁ names} (hb : an.base.isObject = false)
      (hc : an.constraints = [] → s.cached? an.inner = none) (hp : an.base.part? = some e)
      (hd : Evaluates defs s (.field e none) (r, s₁) names) :
      Evaluates defs s (.inner an)
        (s₁.run (enterBase an (r.bind (an.base.recordOf an.constraints ·)))) names
  | known {s name c a} (h : s.cached? (.declared name) = some a) :
      Evaluates defs s (.object name c) (.ok a, s) []
  | walked {s name c r s' names} (h : s.cached? (.declared name) = none)
      (hw : Evaluates defs (s.withObject (.declared name) c)
        (.walk s.graph.bodies.size c.fields) (r, s') names) :
      Evaluates defs s (.object name c) (r.map fun _ => s.graph.records.size, s') (name :: names)
  | done {s body} : Evaluates defs s (.walk body []) (.ok body, s) []
  | stuck {s body name t rest an s₁ e s₂ names} (ha : AnalysisRun defs s t none an s₁)
      (hd : Evaluates defs s₁ (.field t (some an)) (.error e, s₂) names) :
      Evaluates defs s (.walk body ((name, t) :: rest)) (.error e, s₂) names
  | entered {s body name t rest an s₁ a s₂ res names names'}
      (ha : AnalysisRun defs s t none an s₁)
      (hd : Evaluates defs s₁ (.field t (some an)) (.ok a, s₂) names)
      (hrest : Evaluates defs (s₂.withBodyChanged body (·.enter name a an.optional))
        (.walk body rest) res names') :
      Evaluates defs s (.walk body ((name, t) :: rest)) res (names ++ names')

variable {defs : Definitions} {s s' : Session}

theorem Session.run_return {α β : Type} (s : Session) (m : Compile α) (b : β) :
    s.run (do let _ ← m; return b) = ((s.run m).1.map fun _ => b, (s.run m).2) := by
  rcases h : s.run m with ⟨r, s'⟩
  cases r with
  | error e => exact Session.run_bind_error h
  | ok a => exact Session.run_bind_ok h

theorem Task.run_walk (s : Session) (room : Nat) (body : Address)
    (fields : List (String × TypeExpr)) :
    s.run (Task.within defs room (.walk body fields)) =
      ((s.run (walkFields defs (describeWithin defs room) body fields)).1.map fun _ => body,
        (s.run (walkFields defs (describeWithin defs room) body fields)).2) :=
  s.run_return _ body

/-! ## What a derivation says is computed -/

/-- A task comes to a result in every room that is large enough. -/
def Task.Settles (defs : Definitions) (s : Session) (task : Task)
    (res : Except CompileFault Address × Session) : Prop :=
  ∃ least, ∀ room ≥ least, s.run (task.within defs room) = res

namespace Task.Settles

theorem field {t : TypeExpr} {known : Option Analysis}
    {res : Except CompileFault Address × Session}
    (h : ∃ least, ∀ room ≥ least,
      s.run (describeStep defs (describeWithin defs room) t known) = res) :
    Settles defs s (.field t known) res := by
  obtain ⟨least, h⟩ := h
  refine ⟨least + 1, fun room hroom => ?_⟩
  obtain ⟨n, rfl⟩ : ∃ n, room = n + 1 := ⟨room - 1, by omega⟩
  exact h n (by omega)

/-- A derivation gives what the compiler computes in every room that is large enough. -/
theorem of_evaluates {task : Task} {res : Except CompileFault Address × Session}
    {names : List String} (h : Evaluates defs s task res names) : Settles defs s task res := by
  induction h with
  | kept h => exact field ⟨0, fun room _ => describeStep_kept _ h⟩
  | barred h ha _ ih =>
    obtain ⟨least, ih⟩ := ih
    refine field ⟨least, fun room hroom => ?_⟩
    rw [describeStep_new h ha, describeAnalysed]
    exact Session.run_bind_error (ih room hroom)
  | layered h ha _ ih =>
    obtain ⟨least, ih⟩ := ih
    refine field ⟨least, fun room hroom => ?_⟩
    rw [describeStep_new h ha, describeAnalysed]
    exact Session.run_bind_ok (ih room hroom)
  | object hi hb _ ih =>
    obtain ⟨least, ih⟩ := ih
    refine ⟨least, fun room hroom => ?_⟩
    rw [Task.within, describeInner_object hb, hi]
    exact ih room hroom
  | shared hb hf hc =>
    refine ⟨0, fun room _ => ?_⟩
    rw [Task.within, describeInner_value hb]
    exact describeValue_kept hf hc
  | simple hb hc hp =>
    refine ⟨0, fun room _ => ?_⟩
    rw [Task.within, describeInner_value hb]
    exact describeValue_new hc (toRecord_simple hp _ _ _ _)
  | part hb hc hp _ ih =>
    obtain ⟨least, ih⟩ := ih
    refine ⟨least, fun room hroom => ?_⟩
    rw [Task.within, describeInner_value hb]
    exact describeValue_new hc (toRecord_part hp (ih room hroom) _ _)
  | known h => exact ⟨0, fun room _ => describeObject_kept _ h⟩
  | @walked s name c r s' names h _ ih =>
    obtain ⟨least, ih⟩ := ih
    refine ⟨least, fun room hroom => ?_⟩
    have hw := ih room hroom
    rw [Task.run_walk] at hw
    rw [Task.within, describeObject_new _ h, Session.run_return]
    cases hw
    generalize ((s.withObject (.declared name) c).run _).1 = r
    cases r <;> rfl
  | done => exact ⟨0, fun room _ => rfl⟩
  | stuck ha _ ih =>
    obtain ⟨least, ih⟩ := ih
    refine ⟨least, fun room hroom => ?_⟩
    exact Session.run_bind_error (walkFields_failed _ _ ha (ih room hroom))
  | @entered s body name t rest _ _ _ _ _ _ _ ha _ _ ihd ihrest =>
    obtain ⟨least, ihd⟩ := ihd
    obtain ⟨least', ihrest⟩ := ihrest
    refine ⟨max least least', fun room hroom => ?_⟩
    have hfirst := ihd room (by omega)
    have hothers := ihrest room (by omega)
    rw [Task.run_walk] at hothers ⊢
    rw [walkFields_entered body rest ha hfirst]
    exact hothers

end Task.Settles

/-- A task comes to one result only. -/
theorem Evaluates.result_unique {task : Task} {res res' : Except CompileFault Address × Session}
    {names names' : List String} (h : Evaluates defs s task res names)
    (h' : Evaluates defs s task res' names') : res = res' := by
  obtain ⟨least, hl⟩ := Task.Settles.of_evaluates h
  obtain ⟨least', hl'⟩ := Task.Settles.of_evaluates h'
  exact (hl (max least least') (by omega)).symm.trans (hl' (max least least') (by omega))

/-! ## What is computed has a derivation -/

/-- Whatever comes of describing an expression has a derivation, unless there was no room. -/
def Describe.Derivable (defs : Definitions) (D : Describe) : Prop :=
  ∀ (s : Session) t known, (∀ an ∈ known, t.Analysed defs an) →
    (s.run (D t known)).1 ≠ .error .exhausted →
    ∃ names, Evaluates defs s (.field t known) (s.run (D t known)) names

section Derivable

variable {D : Describe} {t : TypeExpr} {an : Analysis}

theorem Describe.Derivable.of_run (hD : D.Derivable defs) {known : Option Analysis}
    {r : Except CompileFault Address} (hd : s.run (D t known) = (r, s'))
    (hk : ∀ an ∈ known, t.Analysed defs an) (hr : r ≠ .error .exhausted) :
    ∃ names, Evaluates defs s (.field t known) (r, s') names := by
  have h := hD s t known hk
  rw [hd] at h
  exact h hr

theorem walkFields_derivable (hD : D.Derivable defs) (body : Address)
    {fields : List (String × TypeExpr)} {s s' : Session} {r : Except CompileFault Unit}
    (hw : s.run (walkFields defs D body fields) = (r, s')) (hr : r ≠ .error .exhausted) :
    ∃ names, Evaluates defs s (.walk body fields) (r.map fun _ => body, s') names := by
  induction fields generalizing s with
  | nil =>
    cases hw
    exact ⟨[], .done⟩
  | cons f rest ih =>
    obtain ⟨name, t⟩ := f
    have hcase := walkFields_run defs D s body name t rest
    generalize hres : s.run (walkFields defs D body ((name, t) :: rest)) = res at hw hcase
    subst hw
    generalize hres' : (r, s') = res at hcase
    cases hcase with
    | failed ha hd =>
      cases hres'
      obtain ⟨names, hf⟩ := hD.of_run hd (by simpa using ha.analysed (by simp)) (by simpa using hr)
      exact ⟨names, .stuck ha hf⟩
    | entered ha hd =>
      obtain ⟨names, hf⟩ := hD.of_run hd (by simpa using ha.analysed (by simp)) (by simp)
      obtain ⟨names', hrest⟩ := ih hres'.symm
      exact ⟨names ++ names', .entered ha hf hrest⟩

theorem describeObject_derivable (hD : D.Derivable defs) {name : String} {c : ObjectClass}
    {r : Except CompileFault Address}
    (ho : s.run (describeObject defs D (.declared name) c) = (r, s'))
    (hr : r ≠ .error .exhausted) :
    ∃ names, Evaluates defs s (.object name c) (r, s') names := by
  have hcase := describeObject_run defs D s (.declared name) c
  rw [ho] at hcase
  generalize hres : (r, s') = res at hcase
  cases hcase with
  | kept h =>
    cases hres
    exact ⟨[], .known h⟩
  | failed h hw =>
    cases hres
    obtain ⟨names, hwalk⟩ := walkFields_derivable hD _ hw (by simpa using hr)
    exact ⟨name :: names, .walked h hwalk⟩
  | walked h hw =>
    cases hres
    obtain ⟨names, hwalk⟩ := walkFields_derivable hD _ hw (by simp)
    exact ⟨name :: names, .walked h hwalk⟩

theorem describeInner_derivable (hD : D.Derivable defs) (ha : t.Analysed defs an)
    {r : Except CompileFault Address} (hi : s.run (describeInner defs D an) = (r, s'))
    (hr : r ≠ .error .exhausted) : ∃ names, Evaluates defs s (.inner an) (r, s') names := by
  cases hb : an.base.isObject with
  | true =>
    obtain ⟨hinner, hbase⟩ : an.inner = t.core ∧ an.base = t.core.base defs := by
      obtain ⟨d, -, rfl⟩ := ha
      exact ⟨rfl, rfl⟩
    cases ho : an.base with
    | object c =>
      obtain ⟨name, hname, -⟩ := TypeExpr.base_object (hbase.symm.trans ho)
      rw [← hinner] at hname
      rw [describeInner_object ho, hname] at hi
      obtain ⟨names, hobject⟩ := describeObject_derivable hD hi hr
      exact ⟨names, .object hname ho hobject⟩
    | _ =>
      rw [ho] at hb
      cases hb
  | false =>
    rw [describeInner_value hb] at hi
    by_cases hk : an.constraints = [] ∧ (s.cached? an.inner).isSome
    · obtain ⟨hf, hsome⟩ := hk
      obtain ⟨a, hc⟩ := Option.isSome_iff_exists.mp hsome
      rw [describeValue_kept hf hc] at hi
      cases hi
      exact ⟨[], .shared hb hf hc⟩
    have hn : an.constraints = [] → s.cached? an.inner = none := by
      intro hf
      simpa [hf] using hk
    cases hp : an.base.part? with
    | none =>
      rw [describeValue_new hn (toRecord_simple hp _ _ _ s)] at hi
      rw [← hi]
      exact ⟨[], .simple hb hn hp⟩
    | some e =>
      rcases hd : s.run (D e none) with ⟨p, s₁⟩
      rw [describeValue_new hn (toRecord_part hp hd _ _)] at hi
      have hne : p ≠ .error .exhausted := by
        rintro rfl
        rw [Except.bind, run_enterBase_error] at hi
        cases hi
        exact hr rfl
      obtain ⟨names, hpart⟩ := hD.of_run hd (by simp) hne
      rw [← hi]
      exact ⟨names, .part hb hn hp hpart⟩

theorem describeStep_derivable (hD : D.Derivable defs) :
    Describe.Derivable defs (describeStep defs D) := by
  intro s t known hk hr
  cases h : s.cached? t with
  | some a =>
    rw [describeStep_kept known h]
    exact ⟨[], .kept h⟩
  | none =>
    obtain ⟨an, s₁, ha⟩ := AnalysisRun.exists defs s t known
    rw [describeStep_new h ha, describeAnalysed] at hr ⊢
    rcases hi : s₁.run (describeInner defs D an) with ⟨r, s₂⟩
    cases r with
    | error e =>
      rw [Session.run_bind_error hi] at hr ⊢
      obtain ⟨names, hinner⟩ := describeInner_derivable hD (ha.analysed hk) hi hr
      exact ⟨names, .barred h ha hinner⟩
    | ok a =>
      rw [Session.run_bind_ok hi] at hr ⊢
      obtain ⟨names, hinner⟩ := describeInner_derivable hD (ha.analysed hk) hi (by simp)
      exact ⟨names, .layered h ha hinner⟩

theorem describeWithin_derivable (defs : Definitions) (room : Nat) :
    Describe.Derivable defs (describeWithin defs room) := by
  induction room with
  | zero => exact fun _ _ _ _ hr => absurd rfl hr
  | succ room ih => exact describeStep_derivable ih

end Derivable

end ToolCatalog
