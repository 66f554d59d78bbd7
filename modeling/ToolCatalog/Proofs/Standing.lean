import ToolCatalog.Proofs.OneByOne

/-!
What is so of a registry at every point of its life.

Whatever is asked of a registry, and whether it fails or not, tools are only added behind those that
are there. Each was validated, under the same patterns and against all names that were taken, so
names and permissions match and no two names are equal. A tool is therefore found under its name for
ever, and tools that are asked for by their names are advertised in the order of the names.
-/
namespace ToolCatalog

variable {defs : Definitions} {settings : Settings} {s s' : Session} {r r' : Registry}
  {d : ToolDefinition} {ds : List ToolDefinition} {tool : Tool} {seen : List Value}

namespace Registry

/-! ## Validation -/

/-- What is so of a valid definition. -/
theorem validate_matches (h : r.validate defs d = .ok ()) :
    matchesText r.namePattern d.name = true ∧
      ∀ ps, defs.iterate? d.permissions = some ps →
        ∀ p ∈ ps, matchesText r.permissionPattern p = true := by
  cases hname : matchesText r.namePattern d.name with
  | false =>
    rw [validate, hname] at h
    cases h
  | true =>
    refine ⟨rfl, fun ps hps p hp => ?_⟩
    rw [validate, hname, hps] at h
    cases hbad : ps.find? (!matchesText r.permissionPattern ·) with
    | some q =>
      simp only [hbad] at h
      cases h
    | none => simpa using List.find?_eq_none.mp hbad p hp

/-! ## The invariant -/

/-- A registry with these settings in which every tool was validated and no name is taken twice, and
whose session is as the compiler leaves it. -/
structure Orderly (settings : Settings) (r : Registry) : Prop where
  namePattern : r.namePattern = settings.toolNamePattern
  permissionPattern : r.permissionPattern = settings.permissionPattern
  named : ∀ t ∈ r.tools, matchesText settings.toolNamePattern t.name = true
  permitted : ∀ t ∈ r.tools, ∀ p ∈ t.permissions, matchesText settings.permissionPattern p = true
  distinct : r.tools.Pairwise fun t u => t.name.equal u.name = false
  proper : r.session.Proper

namespace Orderly

theorem empty (settings : Settings) : (Registry.empty settings).Orderly settings where
  namePattern := rfl
  permissionPattern := rfl
  named := by simp [Registry.empty]
  permitted := by simp [Registry.empty]
  distinct := .nil
  proper := Session.fresh_proper false

/-- Nothing but the session matters where no tool comes in. -/
theorem withSession (h : r.Orderly settings) (hs : s.Proper) :
    Registry.Orderly settings { r with session := s } :=
  { h with proper := hs }

/-- A valid tool under a new name may come in. -/
theorem withTool (h : r.Orderly settings) (hs : s.Proper) (hv : r.validate defs d = .ok ())
    (hnew : r.find? d.name = none) (hname : tool.name = d.name)
    (hps : defs.iterate? d.permissions = some tool.permissions) :
    Registry.Orderly settings { r with tools := r.tools ++ [tool], session := s } := by
  obtain ⟨hmatch, hpermit⟩ := validate_matches hv
  refine { h with
    named := fun t ht => ?_
    permitted := fun t ht => ?_
    distinct := List.pairwise_append.mpr ⟨h.distinct, List.pairwise_singleton _ _, ?_⟩
    proper := hs }
  · rcases List.mem_append.mp ht with ht | ht
    · exact h.named t ht
    · rw [List.mem_singleton.mp ht, hname, ← h.namePattern]
      exact hmatch
  · rcases List.mem_append.mp ht with ht | ht
    · exact h.permitted t ht
    · rw [List.mem_singleton.mp ht, ← h.permissionPattern]
      exact hpermit _ hps
  · intro t ht u hu
    rw [List.mem_singleton.mp hu, hname]
    simpa using List.find?_eq_none.mp hnew t ht

end Orderly

end Registry

/-! ## Steps -/

theorem BuildRun.proper {res : Except BuildFault Tool} (hs : s.Proper)
    (h : BuildRun defs s d (res, s')) : s'.Proper := by
  cases h with
  | failed hp | unlisted hp _ | built hp _ => exact Call.proper (c := .compile d.schema) hs hp

/-- A valid member under a new name is stored, or nothing but the session changes. -/
theorem StoreRun.orderly {res : Except RegistryFault Tool × Registry} (h : StoreRun defs r d res)
    (ho : r.Orderly settings) (hv : r.validate defs d = .ok ()) (hnew : r.find? d.name = none) :
    res.2.Orderly settings ∧ r.tools <+: res.2.tools := by
  have hb := ToolDefinition.build_run defs r.session d
  cases h with
  | failed hrun =>
    rw [hrun] at hb
    exact ⟨ho.withSession (hb.proper ho.proper), List.prefix_refl _⟩
  | @stored tool s' hrun =>
    obtain ⟨-, hname, -, hps⟩ := ToolDefinition.build_ok hrun
    rw [hrun] at hb
    have hproper : (s'.report (.toolRegistered tool.name)).Proper :=
      Session.SameWork.proper (.report _ _) (hb.proper ho.proper)
    exact ⟨ho.withTool hproper hv hnew hname hps, List.prefix_append _ _⟩

/-- The members of a valid batch are stored, up to the first that cannot be built. -/
theorem StoresRun.orderly {res : Except RegistryFault (List Tool) × Registry}
    (h : StoresRun defs r' ds res) (hahead : r.Ahead seen r')
    (hv : r.validateAll defs seen ds = .ok ()) (ho : r'.Orderly settings) :
    res.2.Orderly settings ∧ r'.tools <+: res.2.tools := by
  induction h generalizing seen with
  | nil r' => exact ⟨ho, List.prefix_refl _⟩
  | failed hone =>
    obtain ⟨hd, hnew⟩ := hahead.valid_head hv
    exact hone.orderly ho hd hnew
  | failedLater hone _ ih | stored hone _ ih =>
    obtain ⟨hd, hnew⟩ := hahead.valid_head hv
    obtain ⟨ho₁, hfirst⟩ := hone.orderly ho hd hnew
    obtain ⟨ho₂, hrest⟩ := ih (hahead.store (Registry.validate_textual hd) hone)
      (Registry.validateAll_tail hv).2.2 ho₁
    exact ⟨ho₂, hfirst.trans hrest⟩

theorem Operation.orderly (op : Operation) (h : r.Orderly settings) :
    (op.run defs r).2.Orderly settings ∧ r.tools <+: (op.run defs r).2.tools := by
  cases op with
  | call c => exact ⟨h.withSession (Call.proper h.proper rfl), List.prefix_refl _⟩
  | write form a => exact ⟨h, List.prefix_refl _⟩
  | register x =>
    have hrun := registration_run defs r x
    show ((x.run defs).run.run r).2.Orderly settings ∧
      r.tools <+: ((x.run defs).run.run r).2.tools
    generalize (x.run defs).run.run r = res at hrun
    cases hrun with
    | refused _ => exact ⟨h, List.prefix_refl _⟩
    | failed hv hs => exact hs.orderly (.refl r) hv h
    | stored hv hs hsame =>
      obtain ⟨ho, hprefix⟩ := hs.orderly (.refl r) hv h
      exact ⟨ho.withSession (hsame.proper ho.proper), hprefix⟩

/-- Whatever is asked of an orderly registry, it stays orderly and keeps its tools in front. -/
theorem Registry.through_orderly (ops : List Operation) (h : r.Orderly settings) :
    (r.through defs ops).Orderly settings ∧ r.tools <+: (r.through defs ops).tools := by
  induction ops generalizing r with
  | nil => exact ⟨h, List.prefix_refl _⟩
  | cons op rest ih =>
    obtain ⟨hone, hfirst⟩ := op.orderly h
    obtain ⟨hrest, hlater⟩ := ih hone
    exact ⟨hrest, hfirst.trans hlater⟩

/-! ## Asking for tools -/

namespace Registry

/-- The fault that there is no tool with this name. -/
def missing (name : Value) : RegistryFault :=
  .tool (.notFound (.text "Tool") name { FaultContext.empty with toolName := name })

/-- Whether some tool has this name. -/
def Holds (r : Registry) (name : Value) : Prop :=
  ∃ t ∈ r.tools, t.name.equal name = true

variable {name : Value} {names : List Value} {tools : List Tool} {t : Tool}

theorem find?_eq_none_iff : r.find? name = none ↔ ¬ r.Holds name := by
  simp [find?, Holds]

theorem lookup_eq (h : name.hashable = true) :
    r.lookup name = (r.find? name).elim (.error (missing name)) .ok := by
  cases hf : r.find? name <;> simp [lookup, h, hf, missing]

theorem lookup_ok (hn : name.hashable = true) (h : r.lookup name = .ok t) :
    t ∈ r.tools ∧ t.name.equal name = true := by
  rw [lookup_eq hn] at h
  cases hf : r.find? name with
  | none =>
    rw [hf] at h
    cases h
  | some u =>
    rw [hf] at h
    cases h
    have hu := List.find?_some (p := fun u : Tool => u.name.equal name) hf
    exact ⟨List.mem_of_find?_eq_some hf, hu⟩

/-- A name that can be looked up is missed exactly if no tool has it. -/
theorem lookup_error_iff (h : name.hashable = true) :
    r.lookup name = .error (missing name) ↔ ¬ r.Holds name := by
  rw [lookup_eq h, ← find?_eq_none_iff]
  cases r.find? name <;> simp

theorem lookup_of_holds (h : name.hashable = true) (hr : r.Holds name) :
    ∃ t, r.lookup name = .ok t := by
  rw [lookup_eq h]
  cases hf : r.find? name with
  | none => exact absurd hr (find?_eq_none_iff.mp hf)
  | some t => exact ⟨t, rfl⟩

/-- The first name that is not held is the one that is missed. -/
theorem mapM_lookup_error (hn : ∀ n ∈ names, n.hashable = true) (hh : ¬ ∀ n ∈ names, r.Holds n) :
    ∃ n ∈ names, ¬ r.Holds n ∧ names.mapM r.lookup = .error (missing n) := by
  induction names with
  | nil => simp at hh
  | cons n rest ih =>
    by_cases hone : r.Holds n
    · obtain ⟨t, ht⟩ := lookup_of_holds (hn n (by simp)) hone
      obtain ⟨m, hm, hno, herror⟩ := ih (fun m hm => hn m (by simp [hm])) (by simpa [hone] using hh)
      refine ⟨m, by simp [hm], hno, ?_⟩
      rw [List.mapM_cons, ht, herror]
      rfl
    · refine ⟨n, by simp, hone, ?_⟩
      rw [List.mapM_cons, (lookup_error_iff (hn n (by simp))).mpr hone]
      rfl

namespace Orderly

/-- Two tools have unequal names. -/
theorem unequal (h : r.Orderly settings) {u : Tool} (ht : t ∈ r.tools) (hu : u ∈ r.tools)
    (hne : t ≠ u) : t.name.equal u.name = false := by
  have hdistinct := List.pairwise_iff_getElem.mp h.distinct
  obtain ⟨i, hi, rfl⟩ := List.getElem_of_mem ht
  obtain ⟨j, hj, rfl⟩ := List.getElem_of_mem hu
  rcases Nat.lt_trichotomy i j with hlt | rfl | hgt
  · exact hdistinct i j hi hj hlt
  · exact absurd rfl hne
  · rw [Value.equal_comm_of_textual (matchesText_textual (h.named _ ht))
      (matchesText_textual (h.named _ hu))]
    exact hdistinct j i hj hi hgt

/-- Two tools whose names are one text are one tool. -/
theorem tool_unique (h : r.Orderly settings) {u : Tool} (ht : t ∈ r.tools) (hu : u ∈ r.tools)
    (hname : t.name.textual? = u.name.textual?) : t = u := by
  by_contra hne
  have hequal := Value.equal_of_textual (matchesText_textual (h.named t ht)) hname
  simp [h.unequal ht hu hne] at hequal

/-- Every tool can be advertised. -/
theorem advertisement_ok (h : r.Orderly settings) (t : Tool) :
    ∃ p, t.advertisement r.session.graph = .ok p :=
  ⟨_, by rw [Tool.advertisement, Graph.render_eq h.proper]; rfl⟩

/-- Tools that were looked up in order are advertised in that order. -/
theorem advertised_in_order (h : r.Orderly settings)
    (hall : List.Forall₂ (fun n t => r.lookup n = .ok t) names tools) :
    ∃ payloads, tools.mapM (Tool.advertisement r.session.graph) = .ok payloads ∧
      List.Forall₂ (fun n p => ∃ t, r.lookup n = .ok t ∧
        t.advertisement r.session.graph = .ok p) names payloads := by
  obtain ⟨payloads, hpayloads, hadvertised⟩ :=
    exists_mapM_ok fun t (_ : t ∈ tools) => h.advertisement_ok t
  exact ⟨payloads, hpayloads, forall₂_comp hall hadvertised⟩

/-- A tool is found under any value that counts as its name. -/
theorem lookup_text_iff (h : r.Orderly settings) {s : String} :
    r.lookup (.text s) = .ok t ↔ t ∈ r.tools ∧ t.name.textual? = some s := by
  have hequal (v : Tool) (hv : v ∈ r.tools) :
      v.name.equal (.text s) = true ↔ v.name.textual? = some s := by
    rw [Value.equal_comm_of_textual (matchesText_textual (h.named v hv)) rfl]
    simp [Value.equal]
  constructor
  · intro hl
    obtain ⟨ht, hname⟩ := lookup_ok rfl hl
    exact ⟨ht, (hequal t ht).mp hname⟩
  · rintro ⟨ht, hname⟩
    have hheld : r.Holds (.text s) := ⟨t, ht, (hequal t ht).mpr hname⟩
    obtain ⟨u, hl⟩ := lookup_of_holds rfl hheld
    obtain ⟨hu, hname'⟩ := lookup_ok rfl hl
    rwa [h.tool_unique ht hu (hname.trans ((hequal u hu).mp hname').symm)]

theorem lookup_name (h : r.Orderly settings) (ht : t ∈ r.tools) : r.lookup t.name = .ok t := by
  have htextual := matchesText_textual (h.named t ht)
  have hhash := Value.hashable_of_textual htextual
  obtain ⟨u, hl⟩ := lookup_of_holds hhash ⟨t, ht, Value.equal_self_of_textual htextual⟩
  obtain ⟨hu, hname⟩ := lookup_ok hhash hl
  by_cases hut : u = t
  · rwa [hut] at hl
  · exact absurd hname (by simp [h.unequal hu ht hut])

end Orderly

/-- How a registry answers for the tools that it holds. -/
structure Answers (defs : Definitions) (r : Registry) : Prop where
  own : ∀ t ∈ r.tools, r.lookup t.name = .ok t
  text : ∀ s t, r.lookup (.text s) = .ok t ↔ t ∈ r.tools ∧ t.name.textual? = some s
  /-- A name that can be looked up is missed exactly if no tool has it. -/
  one : ∀ n : Value, n.hashable = true →
    (∃ t ∈ r.tools, t.name.equal n = true ∧ r.lookup n = .ok t) ∨
      ¬ r.Holds n ∧ r.lookup n = .error (missing n)
  /-- Several tools are advertised in the order of their names, unless a name is missed. -/
  several : ∀ (given : Value) (ns : List Value), given.isNull = false →
    defs.iterate? given = some ns → (∀ n ∈ ns, n.hashable = true) →
    ((∀ n ∈ ns, r.Holds n) ∧ ∃ ts payloads, r.select defs given = .ok ts ∧
      ts.mapM (Tool.advertisement r.session.graph) = .ok payloads ∧
      List.Forall₂ (fun n p => ∃ t, r.lookup n = .ok t ∧
        t.advertisement r.session.graph = .ok p) ns payloads) ∨
      ∃ n ∈ ns, ¬ r.Holds n ∧ r.select defs given = .error (missing n)

theorem select_given {given : Value} (hnull : given.isNull = false)
    (hlist : defs.iterate? given = some names) : r.select defs given = names.mapM r.lookup := by
  simp [select, hnull, hlist]

theorem Orderly.answers (defs : Definitions) (h : r.Orderly settings) : r.Answers defs where
  own _ := h.lookup_name
  text _ _ := h.lookup_text_iff
  one n hn := by
    by_cases hr : r.Holds n
    · obtain ⟨t, hl⟩ := lookup_of_holds hn hr
      obtain ⟨ht, hname⟩ := lookup_ok hn hl
      exact .inl ⟨t, ht, hname, hl⟩
    · exact .inr ⟨hr, (lookup_error_iff hn).mpr hr⟩
  several given ns hnull hlist hn := by
    rw [select_given hnull hlist]
    by_cases hr : ∀ n ∈ ns, r.Holds n
    · obtain ⟨ts, hts, hall⟩ := exists_mapM_ok fun n hm => lookup_of_holds (hn n hm) (hr n hm)
      obtain ⟨ps, hps, hadvertised⟩ := h.advertised_in_order hall
      exact .inl ⟨hr, ts, ps, hts, hps, hadvertised⟩
    · exact .inr (mapM_lookup_error hn hr)

end Registry

/-- At every point of a registry's life, whatever was asked of it and whatever failed: no name is
there twice, names and permissions match their patterns, names and tools go together, what was there
before is in front of what came later, and the registry answers for exactly the tools it holds. -/
theorem registry_stands (defs : Definitions) (settings : Settings) (observable : Bool)
    (before later : List Operation) :
    let r := ({ Registry.empty settings with session := .fresh observable } : Registry).through
      defs before
    let r' := r.through defs later
    r.names.Pairwise (fun n m => n.equal m = false) ∧
      (∀ n ∈ r.names, Registry.matchesText settings.toolNamePattern n = true) ∧
      (∀ t ∈ r.tools, ∀ p ∈ t.permissions,
        Registry.matchesText settings.permissionPattern p = true) ∧
      (∀ i : Nat, r.names[i]? = r.tools[i]?.map (·.name)) ∧
      r.names <+: r'.names ∧ r.tools <+: r'.tools ∧ r.Answers defs := by
  intro r r'
  have hfresh := (Registry.Orderly.empty settings).withSession (Session.fresh_proper observable)
  have ho : r.Orderly settings := (Registry.through_orderly before hfresh).1
  have hprefix : r.tools <+: r'.tools := (Registry.through_orderly later ho).2
  refine ⟨List.pairwise_map.mpr ho.distinct, ?_, ho.permitted, fun i => List.getElem?_map,
    hprefix.map _, hprefix, ho.answers defs⟩
  intro n hn
  obtain ⟨t, ht, rfl⟩ := List.mem_map.mp hn
  exact ho.named t ht

end ToolCatalog
