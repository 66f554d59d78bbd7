import ToolCatalog.Proofs.Batches
import ToolCatalog.Proofs.Exported

/-!
Registries that definitions were stored in.

Whether they come one by one or in batches, definitions are stored one after the other, and each of
them under a name that was not taken. A stored tool stays under its name, and its parameters stay a
descriptor of the type that it was defined with.
-/
namespace ToolCatalog

/-- One thing that is asked of a registry. -/
inductive Registration
  | one (d : ToolDefinition)
  | batch (ds : List ToolDefinition)

namespace Registration

/-- The definitions to be stored. -/
def definitions : Registration → List ToolDefinition
  | .one d => [d]
  | .batch ds => ds

/-- What a registration does. -/
def run (defs : Definitions) : Registration → Registering (List Tool)
  | .one d => do
    let tool ← Registry.register defs d
    return [tool]
  | .batch ds => Registry.registerBatch defs ds

end Registration

/-- A registry in which these definitions were stored, each under a new name, and nothing failed. -/
inductive Stored (defs : Definitions) (settings : Settings) : List ToolDefinition → Registry → Prop
  | empty : Stored defs settings [] (.empty settings)
  | store {ds r d tool r'} (h : Stored defs settings ds r) (hname : d.name.textual?.isSome = true)
      (hnew : r.find? d.name = none) (hs : StoreRun defs r d (.ok tool, r')) :
      Stored defs settings (ds ++ [d]) r'
  | report {ds r} (h : Stored defs settings ds r) (e : Event) :
      Stored defs settings ds { r with session := r.session.report e }

variable {defs : Definitions} {settings : Settings} {U : TypeExpr → Prop} {r r' : Registry}
  {d e : ToolDefinition} {ds : List ToolDefinition} {tool : Tool} {tools : List Tool}

/-! ## Names -/

namespace Value

variable {v w : Value}

/-- A text, or a member of an enumeration of texts. -/
theorem textual_cases (h : v.textual?.isSome = true) :
    (∃ s, v = .text s) ∨
      ∃ e n k s, v = .member e n k (.text s) ∧ (k = .text ∨ k = .textual) := by
  unfold textual? at h
  split at h
  · exact .inl ⟨_, rfl⟩
  · exact .inr ⟨_, _, _, _, rfl, .inl rfl⟩
  · exact .inr ⟨_, _, _, _, rfl, .inr rfl⟩
  · cases h

theorem hashable_of_textual (h : v.textual?.isSome = true) : v.hashable = true := by
  rcases textual_cases h with ⟨s, rfl⟩ | ⟨e, n, k, s, rfl, rfl | rfl⟩ <;> rfl

theorem equal_self_of_textual (h : v.textual?.isSome = true) : v.equal v = true := by
  rcases textual_cases h with ⟨s, rfl⟩ | ⟨e, n, k, s, rfl, -⟩ <;> simp [equal]

/-- Values that count as one text are equal. -/
theorem equal_of_textual (hv : v.textual?.isSome = true) (h : v.textual? = w.textual?) :
    v.equal w = true := by
  have hw : w.textual?.isSome = true := h ▸ hv
  rcases textual_cases hv with ⟨s, rfl⟩ | ⟨e, n, k, s, rfl, rfl | rfl⟩ <;>
    rcases textual_cases hw with ⟨s', rfl⟩ | ⟨e', n', k', s', rfl, rfl | rfl⟩ <;>
      simp_all [equal, equal.sameText, textual?]

theorem equal_comm_of_textual (hv : v.textual?.isSome = true) (hw : w.textual?.isSome = true) :
    v.equal w = w.equal v := by
  rcases textual_cases hv with ⟨s, rfl⟩ | ⟨e, n, k, s, rfl, rfl | rfl⟩ <;>
    rcases textual_cases hw with ⟨s', rfl⟩ | ⟨e', n', k', s', rfl, rfl | rfl⟩ <;>
      simp [equal, equal.sameNumber, equal.sameText, Value.exact?, textual?, BEq.comm]

end Value

namespace Registry

theorem matchesText_textual {p : Pattern} {v : Value} (h : matchesText p v = true) :
    v.textual?.isSome = true := by
  unfold matchesText at h
  cases hv : v.textual? with
  | none => simp [hv] at h
  | some s => rfl

theorem validate_textual (h : r.validate defs d = .ok ()) : d.name.textual?.isSome = true := by
  cases hm : matchesText r.namePattern d.name with
  | true => exact matchesText_textual hm
  | false =>
    unfold validate at h
    rw [hm] at h
    cases h

theorem validateAll_tail {seen : List Value} {rest : List ToolDefinition}
    (h : r.validateAll defs seen (d :: rest) = .ok ()) :
    r.find? d.name = none ∧ d.name.memberOf seen = false ∧
      r.validateAll defs (d.name :: seen) rest = .ok () := by
  have hv := validateAll_head h
  unfold validateAll at h
  rw [hv] at h
  by_cases htaken : ((r.find? d.name).isSome || d.name.memberOf seen) = true
  · simp only [htaken] at h
    cases h
  · have hfree := htaken
    rw [Bool.or_eq_true, not_or] at hfree
    simp only [Bool.not_eq_true] at hfree htaken
    simp only [htaken] at h
    exact ⟨by simpa using hfree.1, hfree.2, h⟩

/-- What is so of the members of a valid batch. -/
structure NewNames (r : Registry) (seen : List Value) (ds : List ToolDefinition) : Prop where
  textual : ∀ d ∈ ds, d.name.textual?.isSome = true
  unused : ∀ d ∈ ds, r.find? d.name = none
  unseen : ∀ d ∈ ds, d.name.memberOf seen = false
  distinct : ds.Pairwise fun d e => e.name.equal d.name = false

theorem validateAll_newNames {seen : List Value} (h : r.validateAll defs seen ds = .ok ()) :
    r.NewNames seen ds := by
  induction ds generalizing seen with
  | nil => exact ⟨by simp, by simp, by simp, .nil⟩
  | cons d rest ih =>
    obtain ⟨hfind, hseen, hrest⟩ := validateAll_tail h
    have hnames := ih hrest
    have hapart (e) (he : e ∈ rest) : e.name.equal d.name = false ∧
        e.name.memberOf seen = false := by
      simpa [Value.memberOf] using hnames.unseen e he
    refine ⟨?_, ?_, ?_, .cons (fun e he => (hapart e he).1) hnames.distinct⟩
    · exact List.forall_mem_cons.mpr ⟨validate_textual (validateAll_head h), hnames.textual⟩
    · exact List.forall_mem_cons.mpr ⟨hfind, hnames.unused⟩
    · exact List.forall_mem_cons.mpr ⟨hseen, fun e he => (hapart e he).2⟩

/-! ## Registering -/

theorem ensure_ok {check : Except RegistryFault Unit} {u : Unit}
    (h : (ensure check).run.run r = (.ok u, r')) : check = .ok () ∧ r' = r := by
  cases check with
  | ok u =>
    cases h
    exact ⟨rfl, rfl⟩
  | error f => cases h

theorem register_ok (h : (register defs d).run.run r = (.ok tool, r')) :
    r.NewNames [] [d] ∧ StoreRun defs r d (.ok tool, r') := by
  rw [register, run_run_get_bind] at h
  obtain ⟨u, r₁, hcheck, hstore⟩ := run_run_bind_eq_ok h
  obtain ⟨hv, rfl⟩ := ensure_ok hcheck
  have hs := store_run defs r₁ d
  rw [hstore] at hs
  exact ⟨validateAll_newNames hv, hs⟩

/-- A definition in which a fault is found changes nothing. -/
theorem register_refused {f : RegistryFault} (h : r.validateAll defs [] [d] = .error f) :
    (register defs d).run.run r = (.error f, r) := by
  rw [register, run_run_get_bind, h]
  rfl

/-- A valid definition under a new name is stored. -/
theorem register_new (hv : r.validate defs d = .ok ()) (hf : r.find? d.name = none) :
    (register defs d).run.run r = (store defs d).run.run r := by
  rw [register, run_run_get_bind, validateAll_cons hv hf rfl]
  rfl

theorem registerBatch_ok (h : (registerBatch defs ds).run.run r = (.ok tools, r')) :
    r.NewNames [] ds ∧ ∃ r₁ e, StoresRun defs r ds (.ok tools, r₁) ∧
      r' = { r₁ with session := r₁.session.report e } := by
  rw [registerBatch, run_run_get_bind] at h
  obtain ⟨u, r₁, hcheck, hstore⟩ := run_run_bind_eq_ok h
  obtain ⟨hv, rfl⟩ := ensure_ok hcheck
  obtain ⟨ts, r₂, hstores, hnote⟩ := run_run_bind_eq_ok hstore
  have hs := mapM_store_run defs ds r₁
  rw [hstores] at hs
  cases hnote
  exact ⟨validateAll_newNames hv, r₂, _, hs, rfl⟩

end Registry

namespace Registration

theorem run_one (hv : r.validate defs d = .ok ()) (hf : r.find? d.name = none)
    (hs : (Registry.store defs d).run.run r = (.ok tool, r')) :
    ((one d).run defs).run.run r = (.ok [tool], r') := by
  have hreg := (Registry.register_new hv hf).trans hs
  exact run_run_bind_ok hreg

theorem mapM_run_cons {x : Registration} {xs : List Registration} {others : List (List Tool)}
    {r₁ : Registry} (hx : (x.run defs).run.run r = (.ok tools, r₁))
    (hxs : (xs.mapM (run defs)).run.run r₁ = (.ok others, r')) :
    ((x :: xs).mapM (run defs)).run.run r = (.ok (tools :: others), r') := by
  rw [List.mapM_cons, run_run_bind_ok hx, run_run_bind_ok hxs]
  rfl

end Registration

namespace Stored

/-- Storing several definitions is storing one after the other. -/
theorem stores {before : List ToolDefinition} (h : Stored defs settings before r)
    (hnames : r.NewNames [] ds) (hs : StoresRun defs r ds (.ok tools, r')) :
    Stored defs settings (before ++ ds) r' := by
  generalize hres : ((.ok tools, r') : Except RegistryFault (List Tool) × Registry) = res at hs
  induction hs generalizing before tools with
  | nil r =>
    cases hres
    rwa [List.append_nil]
  | failed _ => cases hres
  | failedLater _ _ _ => cases hres
  | @stored r d tool r₁ tools' r₂ rest hone _ ih =>
    cases hres
    obtain ⟨htools, hname⟩ := hone.ok_tools
    have hd := hnames.textual d (by simp)
    have hstep := h.store hd (hnames.unused d (by simp)) hone
    obtain ⟨hapart, hdistinct⟩ := List.pairwise_cons.mp hnames.distinct
    -- The names that are left differ from the one just taken.
    have hunused (e) (he : e ∈ rest) : r₁.find? e.name = none := by
      have hold := hnames.unused e (by simp [he])
      have hne : tool.name.equal e.name = false := by
        rw [hname, Value.equal_comm_of_textual hd (hnames.textual e (by simp [he]))]
        exact hapart e he
      rw [Registry.find?] at hold ⊢
      rw [htools, List.find?_append, hold]
      simp [hne]
    have hrest := ih hstep
      ⟨fun e he => hnames.textual e (by simp [he]), hunused,
        fun e _ => by simp [Value.memberOf], hdistinct⟩ rfl
    rwa [List.append_assoc] at hrest

theorem registration {before : List ToolDefinition} {x : Registration}
    (h : Stored defs settings before r) (hx : (x.run defs).run.run r = (.ok tools, r')) :
    Stored defs settings (before ++ x.definitions) r' := by
  cases x with
  | one d =>
    obtain ⟨tool, r₁, hreg, hret⟩ := run_run_bind_eq_ok hx
    cases hret
    obtain ⟨hnames, hs⟩ := Registry.register_ok hreg
    exact h.store (hnames.textual d (by simp)) (hnames.unused d (by simp)) hs
  | batch ds =>
    obtain ⟨hnames, r₁, e, hs, rfl⟩ := Registry.registerBatch_ok hx
    exact (h.stores hnames hs).report e

theorem registrations {before : List ToolDefinition} {xs : List Registration}
    {toolss : List (List Tool)} (h : Stored defs settings before r)
    (hxs : (xs.mapM (Registration.run defs)).run.run r = (.ok toolss, r')) :
    Stored defs settings (before ++ xs.flatMap Registration.definitions) r' := by
  induction xs generalizing before r toolss with
  | nil =>
    cases hxs
    rwa [List.flatMap_nil, List.append_nil]
  | cons x rest ih =>
    rw [List.mapM_cons] at hxs
    obtain ⟨tools, r₁, hx, hmore⟩ := run_run_bind_eq_ok hxs
    obtain ⟨others, r₂, hrest, hret⟩ := run_run_bind_eq_ok hmore
    cases hret
    have hall := ih (h.registration hx) hrest
    rwa [List.append_assoc, ← List.flatMap_cons] at hall

end Stored

/-! ## Sessions -/

/-- A session as the compiler leaves it when nothing failed. -/
structure Session.Sound (defs : Definitions) (U : TypeExpr → Prop) (s : Session) : Prop where
  inv : Invariant defs U s
  complete : AllComplete defs s
  proper : s.Proper

namespace Session.Sound

variable {s s' : Session}

theorem empty : Session.empty.Sound defs U :=
  ⟨.fresh false, .fresh false, Session.fresh_proper false⟩

theorem of_sameWork (h : s.SameWork s') (hs : s.Sound defs U) : s'.Sound defs U :=
  ⟨hs.inv.of_sameWork h,
    hs.complete.settled (.of_sameWork h) (.of_sameWork h) (.of_same h.cached?),
    h.proper hs.proper⟩

theorem call (hU : Universe defs U) {c : Call} (hc : U c.type) (hs : s.Sound defs U) {a : Address}
    (h : s.run (c.run defs) = (.ok a, s')) : s'.Sound defs U := by
  have hp := Call.preserves hU hc hs.inv h
  exact ⟨hp.inv, hs.complete.settled hp.growth hp.classes (hp.settled a rfl),
    Call.proper hs.proper h⟩

end Session.Sound

/-! ## What is stored -/

/-- Storing a tool builds it in the session of the registry and reports it there. -/
theorem StoreRun.built (h : StoreRun defs r d (.ok tool, r')) :
    ∃ s, (d.build defs).run.run r.session = (.ok tool, s) ∧ s.SameWork r'.session := by
  cases h with
  | stored hb => exact ⟨_, hb, .report _ _⟩

theorem Stored.sound (hU : Universe defs U) (h : Stored defs settings ds r)
    (hds : ∀ d ∈ ds, U d.schema) : r.session.Sound defs U := by
  induction h with
  | empty => exact .empty
  | @store ds r d tool r' _ _ _ hs ih =>
    obtain ⟨s, hbuild, hsame⟩ := hs.built
    have hd : U (Call.compile d.schema).type := hds d (by simp)
    exact .of_sameWork hsame
      ((ih fun e he => hds e (by simp [he])).call hU hd (ToolDefinition.build_ok hbuild).1)
  | report _ e ih => exact .of_sameWork (.report _ e) (ih hds)

/-- A registry has a tool under the name of a definition, made as the definition says. -/
structure Registry.Serves (defs : Definitions) (r : Registry) (d : ToolDefinition) (tool : Tool) :
    Prop where
  found : r.find? d.name = some tool
  textual : d.name.textual?.isSome = true
  name : tool.name = d.name
  description : tool.description = d.description
  permissions : defs.iterate? d.permissions = some tool.permissions
  parameters : ShowsParameters defs r.session d.schema tool.parameters

namespace Registry.Serves

theorem mono (hx : r.session.Extends none r'.session)
    (hk : r.session.KeepsClasses defs r'.session) (hfind : r'.find? d.name = r.find? d.name)
    (h : r.Serves defs d tool) : r'.Serves defs d tool :=
  { h with found := hfind.trans h.found, parameters := h.parameters.mono hx hk }

theorem lookup (h : r.Serves defs d tool) : r.lookup d.name = .ok tool := by
  rw [Registry.lookup, h.found, Value.hashable_of_textual h.textual]
  rfl

end Registry.Serves

/-- A definition that was stored is served from then on. -/
theorem Stored.serves (hU : Universe defs U) (h : Stored defs settings ds r)
    (hds : ∀ d ∈ ds, U d.schema) : ∀ d ∈ ds, ∃ tool, r.Serves defs d tool := by
  induction h with
  | empty => simp
  | @store ds r d tool r' hstored hname hnew hs ih =>
    have hbefore : ∀ e ∈ ds, U e.schema := fun e he => hds e (by simp [he])
    obtain ⟨s, hbuild, hsame⟩ := hs.built
    obtain ⟨hrun, htool, hdesc, hperm⟩ := ToolDefinition.build_ok hbuild
    have hcall := describeParameters_preserves hU (hds d (by simp)) (hstored.sound hU hbefore).inv
      hrun
    have hx : s.Extends none r'.session := .of_sameWork hsame
    have hk : s.KeepsClasses defs r'.session := .of_sameWork hsame
    have htools := hs.ok_tools.1
    intro e he
    rcases List.mem_append.mp he with he | he
    · obtain ⟨tool', hserves⟩ := ih hbefore e he
      refine ⟨tool', hserves.mono (hcall.growth.trans hx) (hcall.classes.trans hk) ?_⟩
      have hfound := hserves.found
      rw [Registry.find?] at hfound ⊢
      rw [htools, List.find?_append, Registry.find?, hfound]
      rfl
    · obtain rfl := List.mem_singleton.mp he
      refine ⟨tool, ?_, hname, htool, hdesc, hperm, (hcall.result _ rfl).mono hx hk⟩
      rw [Registry.find?] at hnew ⊢
      rw [htools, List.find?_append, hnew]
      simp [htool, Value.equal_self_of_textual hname]
  | @report ds r _ e ih =>
    intro d hd
    obtain ⟨tool, hserves⟩ := ih hds d hd
    exact ⟨tool, hserves.mono (.of_sameWork (.report _ e)) (.of_sameWork (.report _ e)) rfl⟩

end ToolCatalog
