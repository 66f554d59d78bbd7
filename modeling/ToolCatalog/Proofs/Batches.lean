import ToolCatalog.Proofs.Growth
import ToolCatalog.Proofs.Programs
import ToolCatalog.Proofs.Registering

/-!
What is left of a batch that fails.

A batch whose members are not all valid leaves nothing behind. The members of a valid batch are
built and stored in order, so if the parameters of one cannot be compiled, those before it stay.
-/
namespace ToolCatalog

variable {defs : Definitions} {s s' : Session} {r r' : Registry} {d : ToolDefinition}
  {ds : List ToolDefinition} {f : RegistryFault} {tool : Tool} {tools : List Tool}

/-! ## Sessions -/

theorem BuildRun.extends {res : Except BuildFault Tool} (h : BuildRun defs s d (res, s')) :
    s.Extends none s' := by
  have hs := describeParameters_extends defs d.schema s
  cases h with
  | failed hp | unlisted hp _ | built hp _ =>
    rw [hp] at hs
    exact hs

theorem StoreRun.extends {res : Except RegistryFault Tool} (h : StoreRun defs r d (res, r')) :
    r.session.Extends none r'.session := by
  have hb := ToolDefinition.build_run defs r.session d
  cases h with
  | failed hrun =>
    rw [hrun] at hb
    exact hb.extends
  | stored hrun =>
    rw [hrun] at hb
    exact hb.extends.trans (.of_sameWork (.report _ _))

/-! ## Tools -/

theorem StoreRun.error_tools (h : StoreRun defs r d (.error f, r')) : r'.tools = r.tools := by
  cases h
  rfl

theorem StoreRun.ok_tools (h : StoreRun defs r d (.ok tool, r')) :
    r'.tools = r.tools ++ [tool] ∧ tool.name = d.name := by
  have hb := ToolDefinition.build_run defs r.session d
  cases h with
  | stored hrun =>
    rw [hrun] at hb
    cases hb
    exact ⟨rfl, rfl⟩

theorem StoresRun.ok_tools (h : StoresRun defs r ds (.ok tools, r')) :
    r'.tools = r.tools ++ tools ∧ tools.map (·.name) = ds.map (·.name) := by
  generalize hres : ((.ok tools, r') : Except RegistryFault (List Tool) × Registry) = res at h
  induction h generalizing tools with
  | nil r =>
    cases hres
    simp
  | failed _ => cases hres
  | failedLater _ _ _ => cases hres
  | stored h _ ih =>
    cases hres
    obtain ⟨hone, hname⟩ := h.ok_tools
    obtain ⟨hrest, hnames⟩ := ih rfl
    simp [hrest, hone, hname, hnames]

/-- Where storing stops: all members before are stored, and this one fails. -/
theorem StoresRun.error_split (h : StoresRun defs r ds (.error f, r')) :
    ∃ before d after tools r₁, ds = before ++ d :: after ∧
      StoresRun defs r before (.ok tools, r₁) ∧ StoreRun defs r₁ d (.error f, r') := by
  generalize hres : ((.error f, r') : Except RegistryFault (List Tool) × Registry) = res at h
  induction h with
  | nil r => cases hres
  | @failed r d f r₁ rest h =>
    cases hres
    exact ⟨[], d, rest, [], r, rfl, .nil r, h⟩
  | @failedLater r d tool _ _ _ _ h _ ih =>
    cases hres
    obtain ⟨before, d', after, tools, r₁, rfl, hbefore, hfail⟩ := ih rfl
    exact ⟨d :: before, d', after, tool :: tools, r₁, rfl, .stored h hbefore, hfail⟩
  | stored _ _ _ => cases hres

namespace Registry

/-! ## Batches -/

/-- What a valid batch does. -/
theorem registerBatch_valid (h : r.validateAll defs [] ds = .ok ()) :
    (registerBatch defs ds).run.run r = (do
      let tools ← ds.mapM (store defs)
      modify fun r => { r with session := r.session.report (.batchRegistered tools.length) }
      return tools : Registering (List Tool)).run.run r := by
  rw [registerBatch, run_run_get_bind, h]
  rfl

theorem registerBatch_invalid (h : r.validateAll defs [] ds = .error f) :
    (registerBatch defs ds).run.run r = (.error f, r) := by
  rw [registerBatch, run_run_get_bind, h]
  rfl

/-- A batch that fails is refused before anything is done, or one of its members cannot be
stored. -/
theorem registerBatch_error (h : (registerBatch defs ds).run.run r = (.error f, r')) :
    (r.validateAll defs [] ds = .error f ∧ r' = r) ∨
      (r.validateAll defs [] ds = .ok () ∧ StoresRun defs r ds (.error f, r')) := by
  cases hv : r.validateAll defs [] ds with
  | error e =>
    rw [registerBatch_invalid hv] at h
    cases h
    exact .inl ⟨rfl, rfl⟩
  | ok u =>
    rw [registerBatch_valid hv] at h
    have hstores := mapM_store_run defs ds r
    rcases hm : (ds.mapM (store defs)).run.run r with ⟨res, r₁⟩
    rw [hm] at hstores
    cases res with
    | error e =>
      rw [run_run_bind_error hm] at h
      cases h
      exact .inr ⟨rfl, hstores⟩
    | ok tools =>
      rw [run_run_bind_ok hm] at h
      cases h

/-- A registry shows the same tools as before, under the same names and with the same
descriptors. -/
structure Unchanged (r r' : Registry) : Prop where
  names : r'.names = r.names
  tools : r'.tools = r.tools
  length : r'.tools.length = r.tools.length
  lookup : ∀ name, r'.lookup name = r.lookup name
  descriptors : r.session.Extends none r'.session

theorem Unchanged.of_tools (htools : r'.tools = r.tools)
    (hs : r.session.Extends none r'.session) : r.Unchanged r' := by
  refine ⟨?_, htools, by rw [htools], fun name => ?_, hs⟩
  · simp only [Registry.names, htools]
  · simp only [Registry.lookup, find?, htools]

/-- A batch that fails leaves a registry unchanged exactly if it was refused as a whole, or already
the parameters of its first member cannot be compiled. -/
theorem registerBatch_unchanged_iff
    (h : (registerBatch defs ds).run.run r = (.error f, r')) :
    r.Unchanged r' ↔ r.validateAll defs [] ds = .error f ∨
      ∃ d rest e, ds = d :: rest ∧
        (r.session.run (describeParameters defs d.schema)).1 = .error e := by
  constructor
  · intro hsame
    rcases registerBatch_error h with ⟨hv, -⟩ | ⟨hv, hstores⟩
    · exact .inl hv
    obtain ⟨before, d, after, tools, r₁, rfl, hbefore, hfail⟩ := hstores.error_split
    obtain ⟨htools, hnames⟩ := hbefore.ok_tools
    have hnone : tools = [] := by
      have hsum := hsame.tools
      rw [hfail.error_tools, htools] at hsum
      simpa using hsum
    subst hnone
    have hfirst : before = [] := by simpa using hnames
    subst hfirst
    cases hbefore
    have hb := ToolDefinition.build_run defs r.session d
    cases hfail with
    | failed hrun =>
      rw [hrun] at hb
      cases hb with
      | failed hp => exact .inr ⟨d, after, _, rfl, by rw [hp]⟩
      | unlisted _ hl => exact absurd hl (validate_listed (validateAll_head hv))
  · intro hearly
    rcases registerBatch_error h with ⟨-, rfl⟩ | ⟨hv, hstores⟩
    · exact .of_tools rfl (.refl none _)
    rcases hearly with hrefused | ⟨d, rest, e, rfl, hp⟩
    · rw [hv] at hrefused
      cases hrefused
    have hb := ToolDefinition.build_run defs r.session d
    cases hstores with
    | failed hfail => exact .of_tools hfail.error_tools hfail.extends
    | failedLater hstored _ =>
      cases hstored with
      | stored hrun =>
        rw [hrun] at hb
        cases hb with
        | built hok _ =>
          rw [hok] at hp
          cases hp

end Registry

/-- Words of small letters. -/
def wordPattern : Pattern where
  source := "[a-z]+"
  regex := .times (.set ⟨false, [.range 97 122]⟩ ⟨false, false⟩) 1 none .greedy
  valid := rfl

/-- Names and permissions are words of small letters. -/
def wordSettings : Settings :=
  ⟨wordPattern, wordPattern, "INFO", "json"⟩

/-- Two dictionaries; the key of the second takes bytes that are no text. -/
def batchSource : Source where
  declarations := [.keyed "Good" [] none true [("a", .atom (.builtin .integer))],
    .keyed "Bad" [] none true [("b", .literal [.bytes [0xff]])]]
  written := []

def goodDefinition : ToolDefinition :=
  ⟨.text "good", .text "", .declared "Good", .list []⟩

def badDefinition : ToolDefinition :=
  ⟨.text "bad", .text "", .declared "Bad", .list []⟩

theorem batch_valid : (Registry.empty wordSettings).validateAll batchSource.definitions []
    [goodDefinition, badDefinition] = .ok () := by
  have hgood : (Registry.empty wordSettings).validate batchSource.definitions goodDefinition
      = .ok () := Registry.validate_ok [] rfl rfl (by simp)
  have hbad : (Registry.empty wordSettings).validate batchSource.definitions badDefinition
      = .ok () := Registry.validate_ok [] rfl rfl (by simp)
  rw [Registry.validateAll_cons hgood rfl rfl, Registry.validateAll_cons hbad rfl
    (by simp [Value.memberOf, goodDefinition, badDefinition])]
  rfl

/-- The registry after the batch of both. -/
def batchRegistry : Registry :=
  (([goodDefinition, badDefinition].mapM (Registry.store batchSource.definitions)).run.run
    (.empty wordSettings)).2

theorem batch_fails :
    (Registry.registerBatch batchSource.definitions [goodDefinition, badDefinition]).run.run
        (.empty wordSettings)
      = (.error (.build (.compile (.data .invalidText))), batchRegistry) := by
  rw [Registry.registerBatch_valid batch_valid]
  exact run_run_bind_error rfl

/-- The second member cannot be compiled, and the first one stays. -/
theorem registerBatch_keeps_good :
    (Registry.registerBatch batchSource.definitions [goodDefinition, badDefinition]).run.run
        (.empty wordSettings)
      = (.error (.build (.compile (.data .invalidText))), batchRegistry) ∧
      (Registry.empty wordSettings).names = [] ∧ batchRegistry.names = [.text "good"] :=
  ⟨batch_fails, rfl, rfl⟩

theorem registerBatch_unchanged_iff_good :
    (Registry.empty wordSettings).Unchanged batchRegistry ↔
      (Registry.empty wordSettings).validateAll batchSource.definitions []
          [goodDefinition, badDefinition] = .error (.build (.compile (.data .invalidText))) ∨
        ∃ d rest e, [goodDefinition, badDefinition] = d :: rest ∧
          ((Registry.empty wordSettings).session.run
            (describeParameters batchSource.definitions d.schema)).1 = .error e :=
  Registry.registerBatch_unchanged_iff batch_fails

end ToolCatalog
