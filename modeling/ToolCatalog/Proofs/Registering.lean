import ToolCatalog.Proofs.Json
import ToolCatalog.Proofs.Runs
import ToolCatalog.Registry

/-!
What building a tool, storing it and registering it can do.

A tool is refused before anything is done, or its building fails and leaves a session behind, or it
is stored at the end. A batch stores its members one after the other up to the first that fails.
-/
namespace ToolCatalog

variable {defs : Definitions}

/-- Building a tool: its parameters cannot be compiled, its permissions cannot be listed, or it is
made of both. -/
inductive BuildRun (defs : Definitions) (s : Session) (d : ToolDefinition) :
    Except BuildFault Tool × Session → Prop
  | failed {e s'} (hp : s.run (describeParameters defs d.schema) = (.error e, s')) :
      BuildRun defs s d (.error (.compile e), s')
  | unlisted {a s'} (hp : s.run (describeParameters defs d.schema) = (.ok a, s'))
      (hl : defs.iterate? d.permissions = none) :
      BuildRun defs s d (.error .permissionsNotListed, s')
  | built {a ps s'} (hp : s.run (describeParameters defs d.schema) = (.ok a, s'))
      (hl : defs.iterate? d.permissions = some ps) :
      BuildRun defs s d (.ok ⟨d.name, d.description, a, ps⟩, s')

theorem ToolDefinition.build_run (defs : Definitions) (s : Session) (d : ToolDefinition) :
    BuildRun defs s d ((d.build defs).run.run s) := by
  rcases hp : s.run (describeParameters defs d.schema) with ⟨r, s'⟩
  have hadapt : (ExceptT.adapt BuildFault.compile (describeParameters defs d.schema)).run.run s
      = (r.mapError BuildFault.compile, s') := by
    change Prod.map (Except.mapError BuildFault.compile) id
      (s.run (describeParameters defs d.schema)) = _
    rw [hp]
    rfl
  unfold build
  cases r with
  | error e =>
    rw [run_run_bind_error hadapt]
    exact .failed hp
  | ok a =>
    rw [run_run_bind_ok hadapt]
    cases hl : defs.iterate? d.permissions with
    | none => exact .unlisted hp hl
    | some ps => exact .built hp hl

/-- What a tool is built of. -/
theorem ToolDefinition.build_ok {s s' : Session} {d : ToolDefinition} {tool : Tool}
    (h : (d.build defs).run.run s = (.ok tool, s')) :
    s.run (describeParameters defs d.schema) = (.ok tool.parameters, s') ∧
      tool.name = d.name ∧ tool.description = d.description ∧
        defs.iterate? d.permissions = some tool.permissions := by
  have hb := build_run defs s d
  rw [h] at hb
  cases hb with
  | built hp hl => exact ⟨hp, rfl, rfl, hl⟩

/-- Storing a tool: it cannot be built, or it stands behind all others. -/
inductive StoreRun (defs : Definitions) (r : Registry) (d : ToolDefinition) :
    Except RegistryFault Tool × Registry → Prop
  | failed {e s'} (hb : (d.build defs).run.run r.session = (.error e, s')) :
      StoreRun defs r d (.error (.build e), { r with session := s' })
  | stored {tool s'} (hb : (d.build defs).run.run r.session = (.ok tool, s')) :
      StoreRun defs r d (.ok tool,
        { r with tools := r.tools ++ [tool], session := s'.report (.toolRegistered tool.name) })

/-- Storing tools one after the other, up to the first that cannot be built. -/
inductive StoresRun (defs : Definitions) :
    Registry → List ToolDefinition → Except RegistryFault (List Tool) × Registry → Prop
  | nil (r) : StoresRun defs r [] (.ok [], r)
  | failed {r d f r' rest} (h : StoreRun defs r d (.error f, r')) :
      StoresRun defs r (d :: rest) (.error f, r')
  | failedLater {r d tool r₁ f r' rest} (h : StoreRun defs r d (.ok tool, r₁))
      (hrest : StoresRun defs r₁ rest (.error f, r')) :
      StoresRun defs r (d :: rest) (.error f, r')
  | stored {r d tool r₁ tools r' rest} (h : StoreRun defs r d (.ok tool, r₁))
      (hrest : StoresRun defs r₁ rest (.ok tools, r')) :
      StoresRun defs r (d :: rest) (.ok (tool :: tools), r')

namespace Registry

variable {r : Registry} {d : ToolDefinition}

theorem store_run (defs : Definitions) (r : Registry) (d : ToolDefinition) :
    StoreRun defs r d ((store defs d).run.run r) := by
  rcases hb : (d.build defs).run.run r.session with ⟨res, s'⟩
  have hb' : (d.build defs).run r.session = (res, s') := hb
  cases res with
  | error e =>
    have hr : (store defs d).run.run r = (.error (.build e), { r with session := s' }) := by
      simp only [store, run_run_get_bind, hb']
      rfl
    rw [hr]
    exact .failed hb
  | ok tool =>
    have hr : (store defs d).run.run r = (.ok tool,
        { r with tools := r.tools ++ [tool]
                 session := s'.report (.toolRegistered tool.name) }) := by
      simp only [store, run_run_get_bind, hb']
      rfl
    rw [hr]
    exact .stored hb

theorem mapM_store_run (defs : Definitions) (ds : List ToolDefinition) (r : Registry) :
    StoresRun defs r ds ((ds.mapM (store defs)).run.run r) := by
  induction ds generalizing r with
  | nil => exact .nil r
  | cons d rest ih =>
    rw [List.mapM_cons]
    have h := store_run defs r d
    rcases hd : (store defs d).run.run r with ⟨res, r₁⟩
    rw [hd] at h
    cases res with
    | error f =>
      rw [run_run_bind_error hd]
      exact .failed h
    | ok tool =>
      rw [run_run_bind_ok hd]
      have hlater := ih r₁
      rcases hrest : (rest.mapM (store defs)).run.run r₁ with ⟨res, r₂⟩
      rw [hrest] at hlater
      cases res with
      | error f =>
        rw [run_run_bind_error hrest]
        exact .failedLater h hlater
      | ok tools =>
        rw [run_run_bind_ok hrest]
        exact .stored h hlater

/-! ## Validation -/

theorem validate_ok (ps : List Value) (hname : matchesText r.namePattern d.name = true)
    (hlist : defs.iterate? d.permissions = some ps)
    (hall : ∀ p ∈ ps, matchesText r.permissionPattern p = true) : r.validate defs d = .ok () := by
  have hnone : ps.find? (!matchesText r.permissionPattern ·) = none := by
    rw [List.find?_eq_none]
    intro p hp
    simp [hall p hp]
  simp only [validate, hname, hlist, hnone]
  rfl

theorem validate_listed (h : r.validate defs d = .ok ()) : defs.iterate? d.permissions ≠ none := by
  intro hn
  unfold validate at h
  rw [hn] at h
  cases hm : matchesText r.namePattern d.name with
  | false =>
    simp only [hm] at h
    cases h
  | true =>
    simp only [hm] at h
    cases h

theorem validateAll_cons {seen : List Value} {rest : List ToolDefinition}
    (hv : r.validate defs d = .ok ()) (hf : r.find? d.name = none)
    (hs : d.name.memberOf seen = false) :
    r.validateAll defs seen (d :: rest) = r.validateAll defs (d.name :: seen) rest := by
  rw [validateAll, hv, hf, hs]
  rfl

theorem validateAll_head {seen : List Value} {rest : List ToolDefinition}
    (h : r.validateAll defs seen (d :: rest) = .ok ()) : r.validate defs d = .ok () := by
  cases hv : r.validate defs d with
  | ok u => rfl
  | error f =>
    simp only [validateAll, hv] at h
    cases h

end Registry

end ToolCatalog
