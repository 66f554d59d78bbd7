import ToolCatalog.Proofs.Failing
import ToolCatalog.Proofs.Orders

/-!
A batch against its members registered one by one.

A batch is checked against the names that are taken and against those of its own members before. A
member that is registered alone is checked against a registry that holds those members already. The
two checks find the same fault or none, so a batch does what its members do one by one; but if one
of them is refused, the batch has done nothing.
-/
namespace ToolCatalog

variable {defs : Definitions} {U : TypeExpr → Prop} {s s' : Session} {r r' r₀ : Registry}
  {d : ToolDefinition} {ds : List ToolDefinition} {tool : Tool} {seen : List Value} {t : TypeExpr}

/-! ## Compiling later -/

/-- Compiling a type for parameters succeeds. -/
def Session.CanCompile (defs : Definitions) (s : Session) (t : TypeExpr) : Prop :=
  ∃ a s', s.run (describeParameters defs t) = (.ok a, s')

/-- What can be compiled now can be compiled later: the more is remembered, the less is met. -/
theorem Session.CanCompile.later (hU : Universe defs U) (ht : U t) (hi : Invariant defs U s)
    (hl : s.Later defs U s') (h : s.CanCompile defs t) : s'.CanCompile defs t := by
  obtain ⟨a, s₁, hrun⟩ := h
  have hp := Call.preserves hU (c := .compile t) ht hi hrun
  rcases hlate : s'.run (describeParameters defs t) with ⟨res, s₂⟩
  cases res with
  | ok b => exact ⟨b, s₂, hlate⟩
  | error e =>
    have hobject : (t.base defs).isObject = true := Call.looksInto_of_error (c := .compile t) hlate
    obtain ⟨u, f, hleads, hf, -⟩ := describeParameters_explained hlate
    cases (hp.result a rfl : ShowsParameters defs s₁ t a) with
    | object _ hshows =>
      exact absurd hf (hshows.not_refuses_of_leads (hp.settled a rfl) (hleads.mono hl.growth))
    | empty hb _ _ =>
      rw [hobject] at hb
      cases hb

/-! ## Checking -/

/-- A registry that came from `r` by storing tools under the names `seen`. -/
structure Registry.Ahead (r : Registry) (seen : List Value) (r' : Registry) : Prop where
  namePattern : r'.namePattern = r.namePattern
  permissionPattern : r'.permissionPattern = r.permissionPattern
  taken : ∀ name : Value, name.textual?.isSome = true →
    (r'.find? name).isSome = ((r.find? name).isSome || name.memberOf seen)

namespace Registry

theorem Ahead.refl (r : Registry) : r.Ahead [] r :=
  ⟨rfl, rfl, fun name _ => by simp [Value.memberOf]⟩

theorem Ahead.store (h : r.Ahead seen r') (hd : d.name.textual?.isSome = true) {r₁ : Registry}
    (hs : StoreRun defs r' d (.ok tool, r₁)) : r.Ahead (d.name :: seen) r₁ := by
  obtain ⟨htools, hname⟩ := hs.ok_tools
  have hpatterns : r₁.namePattern = r'.namePattern ∧
      r₁.permissionPattern = r'.permissionPattern := by
    cases hs
    exact ⟨rfl, rfl⟩
  refine ⟨hpatterns.1.trans h.namePattern, hpatterns.2.trans h.permissionPattern, fun name hn => ?_⟩
  have hfind : (r₁.find? name).isSome = ((r'.find? name).isSome || name.equal d.name) := by
    rw [find?, find?, htools, List.find?_append, Value.equal_comm_of_textual hn hd, ← hname]
    cases he : tool.name.equal name <;> cases r'.tools.find? (·.name.equal name) <;> simp [he]
  rw [hfind, h.taken name hn, Value.memberOf, Value.memberOf, List.any_cons, Bool.or_assoc,
    Bool.or_comm (name.equal d.name)]

/-- Validation reads the patterns only. -/
theorem Ahead.validate_eq (h : r.Ahead seen r') (d : ToolDefinition) :
    r'.validate defs d = r.validate defs d := by
  simp only [validate, nameFault, h.namePattern, h.permissionPattern]

/-- What is found in a batch: a fault of its first member, or else what is found in the others. -/
theorem validateAll_cons_eq (r : Registry) (seen : List Value) (d : ToolDefinition)
    (rest : List ToolDefinition) : r.validateAll defs seen (d :: rest) =
      (r.validate defs d).bind fun _ =>
        if (r.find? d.name).isSome || d.name.memberOf seen then
          .error (.tool (.duplicate d.name .empty))
        else r.validateAll defs (d.name :: seen) rest := by
  rw [validateAll]
  cases r.validate defs d with
  | error f => rfl
  | ok u =>
    cases (r.find? d.name).isSome || d.name.memberOf seen <;> rfl

/-- A member alone is checked as it is behind the members before. -/
theorem Ahead.validateAll_eq (h : r.Ahead seen r') (d : ToolDefinition) :
    r'.validateAll defs [] [d] = r.validateAll defs seen [d] := by
  rw [validateAll_cons_eq, validateAll_cons_eq, h.validate_eq]
  cases hv : r.validate defs d with
  | error f => rfl
  | ok u =>
    simp only [Except.bind, h.taken d.name (validate_textual hv), Value.memberOf, List.any_nil,
      Bool.or_false]
    rfl

/-- The fault of a member is that of the batch. -/
theorem validateAll_error {f : RegistryFault} (rest : List ToolDefinition)
    (h : r.validateAll defs seen [d] = .error f) :
    r.validateAll defs seen (d :: rest) = .error f := by
  rw [validateAll_cons_eq] at h ⊢
  cases hv : r.validate defs d with
  | error e => rwa [hv] at h
  | ok u =>
    rw [hv, Except.bind] at h
    rw [Except.bind]
    split at h
    · rename_i htaken
      rwa [if_pos htaken]
    · cases h

/-- Behind a member without fault, the batch goes on. -/
theorem validateAll_go (rest : List ToolDefinition) (h : r.validateAll defs seen [d] = .ok ()) :
    r.validateAll defs seen (d :: rest) = r.validateAll defs (d.name :: seen) rest := by
  obtain ⟨hf, hs, -⟩ := validateAll_tail h
  exact validateAll_cons (validateAll_head h) hf hs

/-- What a valid batch checked of its first member is what the member alone is checked for. -/
theorem Ahead.valid_head {rest : List ToolDefinition} (h : r.Ahead seen r')
    (hv : r.validateAll defs seen (d :: rest) = .ok ()) :
    r'.validate defs d = .ok () ∧ r'.find? d.name = none := by
  cases hone : r.validateAll defs seen [d] with
  | error f => cases (validateAll_error rest hone).symm.trans hv
  | ok u =>
    have halone := (h.validateAll_eq d).trans hone
    exact ⟨validateAll_head halone, (validateAll_tail halone).1⟩

/-! ## Registering -/

/-- A valid definition whose parameters can be compiled is stored. -/
theorem store_compiles (hv : r.validate defs d = .ok ()) (h : r.session.CanCompile defs d.schema) :
    ∃ tool r₁, (store defs d).run.run r = (.ok tool, r₁) := by
  obtain ⟨a, s, hrun⟩ := h
  obtain ⟨tool, r₁, hstore, -⟩ := store_built hrun (validate_listed hv)
  exact ⟨tool, r₁, hstore⟩

/-- Members registered one by one, behind others of their batch: they are stored if the batch finds
no fault in them, and else the fault that it finds comes up. -/
theorem mapM_register_run (hU : Universe defs U) (hds : ∀ d ∈ ds, U d.schema)
    (hi : Invariant defs U r'.session) (hp : r'.session.Proper)
    (hc : ∀ d ∈ ds, r'.session.CanCompile defs d.schema) (h : r.Ahead seen r') :
    (r.validateAll defs seen ds = .ok () ∧ ∃ tools r₁,
        (ds.mapM (register defs)).run.run r' = (.ok tools, r₁) ∧
          (ds.mapM (store defs)).run.run r' = (.ok tools, r₁)) ∨
      ∃ f r₁, r.validateAll defs seen ds = .error f ∧
        (ds.mapM (register defs)).run.run r' = (.error f, r₁) := by
  induction ds generalizing seen r' with
  | nil => exact .inl ⟨rfl, [], r', rfl, rfl⟩
  | cons d rest ih =>
    simp only [List.mapM_cons]
    cases hv : r.validateAll defs seen [d] with
    | error f =>
      have hreg := register_refused ((h.validateAll_eq d).trans hv)
      exact .inr ⟨f, r', validateAll_error rest hv, run_run_bind_error hreg⟩
    | ok u =>
      obtain ⟨hd, hnew⟩ := h.valid_head hv
      obtain ⟨tool, r₁, hstore⟩ := store_compiles hd (hc d (by simp))
      have hreg := (register_new hd hnew).trans hstore
      have hrun : StoreRun defs r' d (.ok tool, r₁) := hstore ▸ store_run defs r' d
      -- What is left can still be compiled after this member.
      have hlater := hrun.later hU (hds d (by simp)) hi hp
      have hrest := ih (fun e he => hds e (by simp [he])) hlater.inv hlater.proper
        (fun e he => (hc e (by simp [he])).later hU (hds e (by simp [he])) hi hlater)
        (h.store (validate_textual hd) hrun)
      rw [validateAll_go rest hv, run_run_bind_ok hreg, run_run_bind_ok hstore]
      rcases hrest with ⟨hok, tools, r₂, hregs, hstores⟩ | ⟨f, r₂, hfault, hregs⟩
      · refine .inl ⟨hok, tool :: tools, r₂, ?_, ?_⟩
        · rw [run_run_bind_ok hregs]
          rfl
        · rw [run_run_bind_ok hstores]
          rfl
      · exact .inr ⟨f, r₂, hfault, run_run_bind_error hregs⟩

end Registry

/-- After anything that was asked before, a batch whose members can all be compiled does what its
members do one by one: it succeeds if they do, with the same tools in the same registry except that
the batch is noted, and else it fails as the first member that fails and leaves the registry as it
was. -/
theorem registerBatch_one_by_one (source : Source) {r₀ : Registry} {observable : Bool}
    (h₀ : r₀.session = .fresh observable) {before : List Operation}
    (hbefore : Operation.AllOf source before) {ds : List ToolDefinition}
    (hds : ∀ d ∈ ds, source.Expression d.schema)
    (hcompiles : ∀ d ∈ ds, (r₀.through source.definitions before).session.CanCompile
      source.definitions d.schema) :
    let r := r₀.through source.definitions before
    let single := (ds.mapM (Registry.register source.definitions)).run.run r
    let batch := (Registry.registerBatch source.definitions ds).run.run r
    (∃ tools r', single = (.ok tools, r') ∧ batch = (.ok tools,
        { r' with session := r'.session.report (.batchRegistered tools.length) })) ∨
      ∃ f r', single = (.error f, r') ∧ batch = (.error f, r) := by
  intro r single batch
  obtain ⟨U, hU, hexpr⟩ := source.universe
  have hlater := Registry.through_fresh hU hexpr h₀ hbefore
  rcases Registry.mapM_register_run hU (fun d hd => hexpr _ (hds d hd)) hlater.inv hlater.proper
      hcompiles (.refl r) with ⟨hv, tools, r', hsingle, hstores⟩ | ⟨f, r', hv, hsingle⟩
  · refine .inl ⟨tools, r', hsingle, ?_⟩
    show (Registry.registerBatch source.definitions ds).run.run r = _
    rw [Registry.registerBatch_valid hv, run_run_bind_ok hstores]
    rfl
  · exact .inr ⟨f, r', hsingle, Registry.registerBatch_invalid hv⟩

/-- The third member has the name of the first. -/
theorem registerBatch_one_by_one_tree :
    let f : RegistryFault := .tool (.duplicate (.text "tree") .empty)
    let ds := [treeDefinition, plantDefinition, treeDefinition]
    (∃ r', (ds.mapM (Registry.register treeSource.definitions)).run.run (.empty wordSettings)
        = (.error f, r')) ∧
      (Registry.registerBatch treeSource.definitions ds).run.run (.empty wordSettings)
        = (.error f, .empty wordSettings) := by
  intro f ds
  have hnodes : treeSource.nodes = [.declared "Tree"] := rfl
  have htree : treeSource.Expression (.declared "Tree") :=
    .node (by rw [hnodes]; exact List.mem_singleton.mpr rfl)
  have hschema : ∀ d ∈ ds, d.schema = .declared "Tree" := by
    simp [ds, treeDefinition, plantDefinition]
  have hfresh : (Registry.empty wordSettings).session = .fresh false := rfl
  have hbefore : Operation.AllOf treeSource [] := by simp [Operation.AllOf]
  have hagree := registerBatch_one_by_one treeSource hfresh hbefore
    (fun d hd => by rw [hschema d hd]; exact htree)
    (fun d hd => by rw [hschema d hd]; exact ⟨0, _, Prod.ext rfl rfl⟩)
  have hv (d) (hd : d = treeDefinition ∨ d = plantDefinition) :
      (Registry.empty wordSettings).validate treeSource.definitions d = .ok () := by
    rcases hd with rfl | rfl <;> exact Registry.validate_ok [] rfl rfl (by simp)
  have hfault : (Registry.empty wordSettings).validateAll treeSource.definitions [] ds
      = .error f := by
    rw [Registry.validateAll_cons (hv _ (.inl rfl)) rfl rfl, Registry.validateAll_cons
      (hv _ (.inr rfl)) rfl (by simp [Value.memberOf, treeDefinition, plantDefinition]),
      Registry.validateAll_cons_eq, hv _ (.inl rfl)]
    simp [Except.bind, Value.memberOf, treeDefinition, plantDefinition]
    rfl
  have hbatch := Registry.registerBatch_invalid hfault
  rcases hagree with ⟨tools, r', -, hok⟩ | ⟨e, r', hsingle, herror⟩
  · cases hok.symm.trans hbatch
  · cases herror.symm.trans hbatch
    exact ⟨⟨r', hsingle⟩, hbatch⟩

end ToolCatalog
