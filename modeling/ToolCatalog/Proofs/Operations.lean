import ToolCatalog.Proofs.Registrations

/-!
Everything that can be asked of a registry and its session, in any order.

The compiler is called, tools are registered one by one or in batches, and descriptors are written
out. Each of these may fail. A registration is refused before anything is done, or it stores
definitions up to the first that cannot be built; so whatever fails, the session at the end is later
than the session at the start.
-/
namespace ToolCatalog

variable {defs : Definitions} {U : TypeExpr → Prop} {s s₁ s' : Session} {r r' : Registry}
  {d : ToolDefinition} {ds : List ToolDefinition} {t : TypeExpr} {a : Address} {o : ObjectClass}

/-! ## What a registration can do -/

/-- A registration: it is refused, it breaks off at a definition, or all definitions are stored. -/
inductive RegistrationRun (defs : Definitions) (r : Registry) (x : Registration) :
    Except RegistryFault (List Tool) × Registry → Prop
  | refused {f} (hv : r.validateAll defs [] x.definitions = .error f) :
      RegistrationRun defs r x (.error f, r)
  | failed {f r'} (hv : r.validateAll defs [] x.definitions = .ok ())
      (hs : StoresRun defs r x.definitions (.error f, r')) :
      RegistrationRun defs r x (.error f, r')
  | stored {tools r₁ s'} (hv : r.validateAll defs [] x.definitions = .ok ())
      (hs : StoresRun defs r x.definitions (.ok tools, r₁)) (hsame : r₁.session.SameWork s') :
      RegistrationRun defs r x (.ok tools, { r₁ with session := s' })

namespace Registration

theorem run_invalid {x : Registration} {f : RegistryFault}
    (hv : r.validateAll defs [] x.definitions = .error f) :
    (x.run defs).run.run r = (.error f, r) := by
  cases x with
  | one d => exact run_run_bind_error (Registry.register_refused hv)
  | batch ds => exact Registry.registerBatch_invalid hv

theorem run_one_valid (hv : r.validateAll defs [] [d] = .ok ()) :
    ((one d).run defs).run.run r = (do
      let tool ← Registry.store defs d
      return [tool] : Registering (List Tool)).run.run r := by
  show (Registry.register defs d >>= _).run.run r = _
  rw [Registry.register]
  simp only [bind_assoc]
  rw [run_run_get_bind, hv]
  rfl

end Registration

theorem registration_run (defs : Definitions) (r : Registry) (x : Registration) :
    RegistrationRun defs r x ((x.run defs).run.run r) := by
  cases hv : r.validateAll defs [] x.definitions with
  | error f =>
    rw [Registration.run_invalid hv]
    exact .refused hv
  | ok u =>
    cases x with
    | one d =>
      rw [Registration.run_one_valid hv]
      have hstore := Registry.store_run defs r d
      rcases hd : (Registry.store defs d).run.run r with ⟨res, r₁⟩
      rw [hd] at hstore
      cases res with
      | error f =>
        rw [run_run_bind_error hd]
        exact .failed hv (.failed hstore)
      | ok tool =>
        rw [run_run_bind_ok hd]
        exact .stored hv (.stored hstore (.nil r₁)) (.refl _)
    | batch ds =>
      have hbatch : ((Registration.batch ds).run defs).run.run r = _ :=
        Registry.registerBatch_valid hv
      rw [hbatch]
      have hstores := Registry.mapM_store_run defs ds r
      rcases hd : (ds.mapM (Registry.store defs)).run.run r with ⟨res, r₁⟩
      rw [hd] at hstores
      cases res with
      | error f =>
        rw [run_run_bind_error hd]
        exact .failed hv hstores
      | ok tools =>
        rw [run_run_bind_ok hd]
        exact .stored hv hstores (.report _ _)

/-! ## Calls -/

/-- A class that is remembered is compiled without doing anything. -/
theorem describeParameters_kept (hb : t.base defs = .object o) (hc : s.cached? t = some a) :
    s.run (describeParameters defs t) = (.ok a, s) := by
  have hr : describeParameters defs t
      = describeObject defs (describeWithin defs (defs.room t)) t o := by
    simp only [describeParameters, hb]
  rw [hr]
  exact describeObject_kept o hc

/-! ## Later sessions -/

/-- A session that came later: all that was made is kept, each class has its descriptor, and the new
session is as the compiler leaves it, perhaps after failed calls. -/
structure Session.Later (defs : Definitions) (U : TypeExpr → Prop) (s s' : Session) : Prop where
  growth : s.Extends none s'
  classes : s.KeepsClasses defs s'
  inv : Invariant defs U s'
  proper : s'.Proper

namespace Session.Later

theorem refl (hi : Invariant defs U s) (hp : s.Proper) : s.Later defs U s :=
  ⟨.refl none s, .refl defs s, hi, hp⟩

theorem trans (h : s.Later defs U s₁) (h' : s₁.Later defs U s') : s.Later defs U s' :=
  ⟨h.growth.trans h'.growth, h.classes.trans h'.classes, h'.inv, h'.proper⟩

theorem of_sameWork (hi : Invariant defs U s) (hp : s.Proper) (h : s.SameWork s') :
    s.Later defs U s' :=
  ⟨.of_sameWork h, .of_sameWork h, hi.of_sameWork h, h.proper hp⟩

/-- More work that is none does not matter. -/
theorem sameWork (h : s.Later defs U s₁) (hs : s₁.SameWork s') : s.Later defs U s' :=
  h.trans (.of_sameWork h.inv h.proper hs)

end Session.Later

theorem Call.later (hU : Universe defs U) {c : Call} (hc : U c.type) (hi : Invariant defs U s)
    (hp : s.Proper) {res : Except CompileFault Address} (h : s.run (c.run defs) = (res, s')) :
    s.Later defs U s' := by
  have hpres := Call.preserves hU hc hi h
  exact ⟨hpres.growth, hpres.classes, hpres.inv, Call.proper hp h⟩

theorem StoreRun.later (hU : Universe defs U) (hd : U d.schema) (hi : Invariant defs U r.session)
    (hp : r.session.Proper) {res : Except RegistryFault Tool}
    (h : StoreRun defs r d (res, r')) : r.session.Later defs U r'.session := by
  have hcall {a s'} (hrun : r.session.run (describeParameters defs d.schema) = (a, s')) :
      r.session.Later defs U s' := Call.later hU (c := .compile d.schema) hd hi hp hrun
  have hb := ToolDefinition.build_run defs r.session d
  cases h with
  | failed hrun =>
    rw [hrun] at hb
    cases hb with
    | failed hrun' => exact hcall hrun'
    | unlisted hrun' _ => exact hcall hrun'
  | stored hrun =>
    rw [hrun] at hb
    cases hb with
    | built hrun' _ => exact (hcall hrun').sameWork (.report _ _)

theorem StoresRun.later (hU : Universe defs U) (hds : ∀ d ∈ ds, U d.schema)
    (hi : Invariant defs U r.session) (hp : r.session.Proper)
    {res : Except RegistryFault (List Tool) × Registry} (h : StoresRun defs r ds res) :
    r.session.Later defs U res.2.session := by
  -- The induction is on the members stored so far; each hands its invariant to the next.
  induction h with
  | nil r => exact .refl hi hp
  | failed h => exact h.later hU (hds _ (by simp)) hi hp
  | failedLater h _ ih =>
    have hone := h.later hU (hds _ (by simp)) hi hp
    exact hone.trans (ih (fun d hd => hds d (by simp [hd])) hone.inv hone.proper)
  | stored h _ ih =>
    have hone := h.later hU (hds _ (by simp)) hi hp
    exact hone.trans (ih (fun d hd => hds d (by simp [hd])) hone.inv hone.proper)

theorem RegistrationRun.later (hU : Universe defs U) {x : Registration}
    (hx : ∀ d ∈ x.definitions, U d.schema) (hi : Invariant defs U r.session)
    (hp : r.session.Proper) {res : Except RegistryFault (List Tool) × Registry}
    (h : RegistrationRun defs r x res) : r.session.Later defs U res.2.session := by
  cases h with
  | refused _ => exact .refl hi hp
  | failed _ hs => exact hs.later hU hx hi hp
  | stored _ hs hsame => exact (hs.later hU hx hi hp).sameWork hsame

/-! ## Operations -/

/-- One thing that can be asked of a registry and its session. -/
inductive Operation
  | call (c : Call)
  | register (x : Registration)
  | write (form : ExportForm) (a : Address)

/-- What comes of it. -/
inductive Answer
  | descriptor (r : Except CompileFault Address)
  | tools (r : Except RegistryFault (List Tool))
  | schema (r : Except ExportFault Schema)

namespace Operation

/-- The expressions that an operation describes. -/
def types : Operation → List TypeExpr
  | .call c => [c.type]
  | .register x => x.definitions.map (·.schema)
  | .write _ _ => []

/-- What an operation does. -/
def run (defs : Definitions) (r : Registry) : Operation → Answer × Registry
  | .call c =>
    let (res, s) := r.session.run (c.run defs)
    (.descriptor res, { r with session := s })
  | .register x =>
    let (res, r') := (x.run defs).run.run r
    (.tools res, r')
  | .write form a => (.schema (r.session.graph.render form a), r)

theorem later (hU : Universe defs U) {op : Operation} (hop : ∀ t ∈ op.types, U t)
    (hi : Invariant defs U r.session) (hp : r.session.Proper) :
    r.session.Later defs U (op.run defs r).2.session := by
  cases op with
  | call c => exact Call.later hU (hop c.type (by simp [types])) hi hp rfl
  | register x =>
    refine (registration_run defs r x).later hU (fun d hd => hop d.schema ?_) hi hp
    exact List.mem_map_of_mem hd
  | write form a => exact .refl hi hp

end Operation

/-- A call in a registry changes nothing but its session. -/
theorem Operation.run_call {c : Call} {res : Except CompileFault Address}
    (h : (Operation.call c).run defs r = (.descriptor res, r')) :
    ∃ s', r.session.run (c.run defs) = (res, s') ∧ r' = { r with session := s' } := by
  rcases hrun : r.session.run (c.run defs) with ⟨res', s'⟩
  simp only [Operation.run, hrun, Prod.mk.injEq, Answer.descriptor.injEq] at h
  obtain ⟨rfl, rfl⟩ := h
  exact ⟨s', rfl, rfl⟩

/-- The registry after operations one after the other. -/
def Registry.through (defs : Definitions) (r : Registry) (ops : List Operation) : Registry :=
  ops.foldl (fun r op => (op.run defs r).2) r

/-- The expressions that operations describe belong to a source. -/
def Operation.AllOf (source : Source) (ops : List Operation) : Prop :=
  ∀ op ∈ ops, ∀ t ∈ op.types, source.Expression t

theorem Registry.through_later (hU : Universe defs U) {ops : List Operation}
    (hops : ∀ op ∈ ops, ∀ t ∈ op.types, U t) (hi : Invariant defs U r.session)
    (hp : r.session.Proper) : r.session.Later defs U (r.through defs ops).session := by
  induction ops generalizing r with
  | nil => exact .refl hi hp
  | cons op rest ih =>
    have hone := Operation.later hU (hops op (by simp)) hi hp
    exact hone.trans (ih (fun o ho => hops o (by simp [ho])) hone.inv hone.proper)

/-- Nothing that is asked of a registry in which nothing was made yet breaks its session. -/
theorem Registry.through_fresh {source : Source} {observable : Bool} {ops : List Operation}
    (hU : Universe source.definitions U) (hexpr : ∀ t, source.Expression t → U t)
    (hr : r.session = .fresh observable) (hops : Operation.AllOf source ops) :
    r.session.Later source.definitions U (r.through source.definitions ops).session := by
  refine through_later hU (fun op ho t ht => hexpr t (hops op ho t ht)) ?_ ?_
  · rw [hr]
    exact .fresh observable
  · rw [hr]
    exact Session.fresh_proper observable

end ToolCatalog
