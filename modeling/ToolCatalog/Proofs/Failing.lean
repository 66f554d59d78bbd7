import Mathlib.Logic.Relation
import ToolCatalog.Proofs.Operations
import ToolCatalog.Proofs.Refusal

/-!
What is left of a call that fails.

An object class is remembered before its fields are walked. If one of them cannot be described, the
class stays remembered, with the fields before that one, and every later call finds it so. A failing
call leaves one such class for each class that it was walking when it broke off. If it was walking
none, it leaves nothing and fails again at any time.
-/
namespace ToolCatalog

variable {defs : Definitions} {U : TypeExpr → Prop} {s s₁ s₂ s' : Session} {t u v e : TypeExpr}
  {a b : Address} {name : String} {c : ObjectClass} {done rest : List (String × TypeExpr)}
  {fault : CompileFault}

theorem Session.SameWork.trans (h : s.SameWork s₁) (h' : s₁.SameWork s') : s.SameWork s' :=
  ⟨h'.graph.trans h.graph, h'.memo.trans h.memo, h'.observable.trans h.observable⟩

/-! ## Parts -/

/-- One expression is the part of another, or the part of its part, and so on. -/
abbrev TypeExpr.Parts (defs : Definitions) : TypeExpr → TypeExpr → Prop :=
  Relation.ReflTransGen fun t e => (t.core.base defs).part? = some e

theorem Base.Refuses.part?_eq {base : Base} {f : DataFault} (h : base.Refuses f) :
    base.part? = none ∧ base.isObject = false := by
  obtain ⟨ms, hms, -⟩ := h
  cases base <;> first | exact ⟨rfl, rfl⟩ | cases hms

theorem Base.Refuses.unique {base : Base} {f f' : DataFault} (h : base.Refuses f)
    (h' : base.Refuses f') : f = f' := by
  obtain ⟨ms, hms, hf, -⟩ := h
  obtain ⟨ms', hms', hf', -⟩ := h'
  obtain rfl : ms = ms' := by simpa [hms] using hms'
  simpa [hf] using hf'

theorem TypeExpr.Parts.leads (h : t.Parts defs u) : Leads defs s t u := by
  induction h using Relation.ReflTransGen.head_induction_on with
  | refl => exact .here u
  | head hp _ ih => exact .part hp ih

/-- What refuses is met behind every part on the way. -/
theorem Leads.behind_parts {f : DataFault} (h : Leads defs s t v)
    (hf : (v.core.base defs).Refuses f) (hp : t.Parts defs u) : Leads defs s u v := by
  induction hp using Relation.ReflTransGen.head_induction_on with
  | refl => exact h
  | @head t e hpart _ ih =>
    cases h with
    | here =>
      rw [hf.part?_eq.1] at hpart
      cases hpart
    | part hpart' h =>
      rw [hpart, Option.some.injEq] at hpart'
      exact ih (hpart' ▸ h)
    | field hb _ _ _ =>
      rw [hb] at hpart
      cases hpart

/-- Nothing that refuses is met behind parts that end in a class with a descriptor. -/
theorem Leads.not_behind_class {f : DataFault} (h : Leads defs s t v)
    (hf : (v.core.base defs).Refuses f) (hp : t.Parts defs u) (hb : u.core.base defs = .object c) :
    s.cached? u.core = none := by
  cases h.behind_parts hf hp with
  | here =>
    have hobj := hf.part?_eq.2
    rw [hb] at hobj
    cases hobj
  | part hpart _ =>
    rw [hb] at hpart
    cases hpart
  | field _ hn _ _ => exact hn

/-! ## Classes that were left unfinished -/

/-- An object class whose walk broke off: the fields that were entered, the one that could not be
described, those behind it, and the address of the descriptor. -/
structure Unfinished where
  name : String
  object : ObjectClass
  done : List (String × TypeExpr)
  field : String × TypeExpr
  rest : List (String × TypeExpr)
  address : Address

namespace Unfinished

/-- In a session, the class has a descriptor with the fields that were entered and no others. -/
structure Left (defs : Definitions) (s : Session) (x : Unfinished) : Prop where
  found : defs.find? x.name = some (.object x.object)
  fields : x.object.fields = x.done ++ x.field :: x.rest
  cached : s.cached? (.declared x.name) = some x.address
  filled : ∃ b y, s.graph.records[x.address]? = some (objectRecord x.object b) ∧
    s.graph.bodies[b]? = some y ∧ Walked defs s x.done y

variable {x : Unfinished}

/-- What was left unfinished stays so. -/
theorem Left.mono (h : x.Left defs s) (hx : s.Extends none s') (hk : s.KeepsClasses defs s') :
    x.Left defs s' := by
  obtain ⟨b, y, hr, hb, hw⟩ := h.filled
  exact ⟨h.found, h.fields, hk.cached h.found h.cached, b, y, hx.record _ _ hr,
    hx.body _ _ hb (by simp), hw.mono hx hk⟩

/-- Compiling the class gives the descriptor as it was left. -/
theorem Left.compiled (h : x.Left defs s) :
    s.run (describeParameters defs (.declared x.name)) = (.ok x.address, s) :=
  describeParameters_kept (TypeExpr.base_declared h.found) h.cached

/-- The descriptor of the class has the properties of the fields that were entered and requires no
others. So the field that could not be described is missing, unless an earlier one has its key. -/
def Lacks (g : Graph) (x : Unfinished) : Prop :=
  ∃ b, g.record x.address = objectRecord x.object b ∧
    (g.body b).properties.keys = (Entries.ofList x.done).keys ∧
    (g.body b).required = (x.done.filter fun f => !f.2.allowsAbsence).map (·.1) ∧
    (x.field.1 ∉ x.done.map (·.1) → x.field.1 ∉ (g.body b).properties.keys)

theorem Left.lacks (h : x.Left defs s) : x.Lacks s.graph := by
  obtain ⟨b, y, hr, hb, hw⟩ := h.filled
  have hbody : s.graph.body b = y := by simp [Graph.body, hb]
  have hkeys : (Entries.ofList x.done).keys = y.properties.keys :=
    map_eq_of_forall₂ (hw.properties.imp fun _ _ h => h.1)
  refine ⟨b, Graph.record_of_getElem? hr, ?_⟩
  rw [hbody]
  refine ⟨hkeys.symm, hw.required.symm, fun hnew hmem => hnew ?_⟩
  rw [← hkeys] at hmem
  obtain ⟨f, hf, hname⟩ := List.mem_map.mp hmem
  exact hname ▸ List.mem_map_of_mem (Entries.mem_ofList hf)

end Unfinished

/-- Where describing an expression breaks off between two sessions: at a member without data that it
came to through parts only, or at a field of a class that it came to through parts and that had no
descriptor before. The classes that are left are listed from outside in. -/
inductive BreaksOff (defs : Definitions) (s s' : Session) (fault : CompileFault) :
    TypeExpr → List Unfinished → Prop
  | member {t u : TypeExpr} {f : DataFault} (hp : t.Parts defs u)
      (hf : (u.core.base defs).Refuses f) (he : fault = .data f) :
      BreaksOff defs s s' fault t []
  | field {t u : TypeExpr} {x : Unfinished} {xs : List Unfinished} (hp : t.Parts defs u)
      (hu : u.core = .declared x.name) (hn : s.cached? (.declared x.name) = none)
      (hx : x.Left defs s') (h : BreaksOff defs s s' fault x.field.2 xs) :
      BreaksOff defs s s' fault t (x :: xs)

namespace BreaksOff

variable {xs : List Unfinished}

theorem part (hp : (t.core.base defs).part? = some e) (h : BreaksOff defs s s' fault e xs) :
    BreaksOff defs s s' fault t xs := by
  cases h with
  | member hparts hf he => exact .member (hparts.head hp) hf he
  | field hparts hu hn hx h => exact .field (hparts.head hp) hu hn hx h

/-- What had no descriptor later had none before. -/
theorem of_later (hc : ∀ t, (s.cached? t).isSome → (s₁.cached? t).isSome)
    (h : BreaksOff defs s₁ s' fault t xs) : BreaksOff defs s s' fault t xs := by
  induction h with
  | member hp hf he => exact .member hp hf he
  | @field t u x xs hp hu hn hx _ ih =>
    refine .field hp hu ?_ hx ih
    by_contra hsome
    have := hc (.declared x.name) (Option.isSome_iff_ne_none.mpr hsome)
    rw [hn] at this
    cases this

/-- A class itself leaves at least itself. -/
theorem of_object (hb : t.base defs = .object c) (h : BreaksOff defs s s' fault t xs) :
    ∃ x rest, xs = x :: rest ∧ t = .declared x.name := by
  obtain ⟨name, rfl, hf⟩ := TypeExpr.base_object hb
  have hself {u} (hp : (TypeExpr.declared name).Parts defs u) : u = .declared name := by
    rcases hp.cases_head with heq | ⟨e, hpart, -⟩
    · exact heq.symm
    · have hcore : (TypeExpr.declared name).core.base defs = .object c := hb
      rw [hcore] at hpart
      cases hpart
  cases h with
  | member hp hf' _ =>
    obtain rfl := hself hp
    have hobj := hf'.part?_eq.2
    rw [show (TypeExpr.declared name).core.base defs = .object c from hb] at hobj
    cases hobj
  | field hp hu _ _ _ =>
    obtain rfl := hself hp
    exact ⟨_, _, rfl, hu⟩

theorem left (h : BreaksOff defs s s' fault t xs) : ∀ x ∈ xs, x.Left defs s' := by
  induction h with
  | member _ _ _ => simp
  | field _ _ _ hx _ ih => exact List.forall_mem_cons.mpr ⟨hx, ih⟩

end BreaksOff

/-! ## Walks that break off -/

/-- A failed run leaves behind only classes that it was walking, and nothing if there were none. -/
def LeavesOff (defs : Definitions) (s s' : Session) (fault : CompileFault) (t : TypeExpr) : Prop :=
  ∃ xs, BreaksOff defs s s' fault t xs ∧ (xs = [] → s.SameWork s')

/-- Every description by `D` that fails, other than for want of room, leaves off so. -/
def Describe.Breaks (defs : Definitions) (U : TypeExpr → Prop) (D : Describe) : Prop :=
  ∀ {s s' t known fault}, U t → (∀ an ∈ known, t.Analysed defs an) → Invariant defs U s →
    s.run (D t known) = (.error fault, s') → fault ≠ .exhausted → LeavesOff defs s s' fault t

/-- A walk that stopped before a field leaves its class unfinished. -/
theorem Walking.leaves {f : String × TypeExpr} (h : Walking defs name c b done (f :: rest) s)
    (hc : s.cached? (.declared name) = some a) :
    Unfinished.Left defs s ⟨name, c, done, f, rest, a⟩ := by
  obtain ⟨a', ha', hr⟩ := h.holds
  obtain rfl : a' = a := by simpa [hc] using ha'.symm
  obtain ⟨x, hb, hw⟩ := h.walked
  exact ⟨h.found, h.fields, hc, b, x, hr, hb, hw⟩

section

variable {D : Describe} (hD : D.Preserves defs U) (hB : D.Breaks defs U)

include hD hB

theorem walkFields_breaks {left : List (String × TypeExpr)} (hU : ∀ f ∈ left, U f.2)
    (hi : Invariant defs U s) (h : Walking defs name c b done left s)
    (hrun : s.run (walkFields defs D b left) = (.error fault, s')) (he : fault ≠ .exhausted) :
    ∃ done f rest xs, Walking defs name c b done (f :: rest) s' ∧
      BreaksOff defs s s' fault f.2 xs := by
  -- The fields that are left get fewer until one of them fails.
  induction left generalizing done s with
  | nil => cases hrun
  | cons f rest ih =>
    obtain ⟨n, t⟩ := f
    have ht : U t := hU (n, t) (by simp)
    have hcase := walkFields_run defs D s b n t rest
    rw [hrun] at hcase
    generalize hres : ((.error fault, s') : Except CompileFault Unit × Session) = res at hcase
    cases hcase with
    | @failed an s₁ e s₂ ha hd =>
      cases hres
      have hp := hD.field ht hi ha hd
      obtain ⟨xs, hxs, -⟩ := hB ht ha.analysed_known (hi.of_sameWork ha.sameWork) hd he
      refine ⟨done, (n, t), rest, xs, h.mono hp.growth hp.classes, hxs.of_later fun u hu => ?_⟩
      rwa [ha.sameWork.cached?]
    | @entered an s₁ a s₂ ha hd =>
      have hp := hD.field ht hi ha hd
      rw [ha.optional_eq] at hres
      have hwalk := h.mono hp.growth hp.classes
      have hshows : Shows defs s₂ t a := hp.result a rfl
      obtain ⟨done', f, rest', xs, hwalk', hxs⟩ := ih (fun f hf => hU f (by simp [hf]))
        (hp.inv.entered hwalk hshows) (hwalk.enter hshows) hres.symm
      have hkept (u) (hu : (s.cached? u).isSome) :
          ((s₂.withBodyChanged b (·.enter n a t.allowsAbsence)).cached? u).isSome :=
        hp.growth.cached u hu
      exact ⟨done', f, rest', xs, hwalk', hxs.of_later hkept⟩

theorem describeObject_breaks (hU : Universe defs U) (hname : U (.declared name))
    (hf : defs.find? name = some (.object c)) (hi : Invariant defs U s)
    (h : s.run (describeObject defs D (.declared name) c) = (.error fault, s'))
    (he : fault ≠ .exhausted) :
    ∃ (x : Unfinished) (xs : List Unfinished), x.name = name ∧
      s.cached? (.declared name) = none ∧ x.Left defs s' ∧
        BreaksOff defs s s' fault x.field.2 xs := by
  have hcase := describeObject_run defs D s (.declared name) c
  rw [h] at hcase
  cases hcase with
  | failed hn hw =>
    have hfields (f) (hfm : f ∈ c.fields) : U f.2 :=
      hU.field hname (TypeExpr.base_declared hf) hfm
    obtain ⟨done, f, rest, xs, hwalk, hxs⟩ :=
      walkFields_breaks hD hB hfields (hi.withObject hf hn) (.start hf s) hw he
    obtain ⟨a, ha, -⟩ := id hwalk.holds
    exact ⟨⟨name, c, done, f, rest, a⟩, xs, rfl, hn, hwalk.leaves ha,
      hxs.of_later (Session.Extends.withObject s (.declared name) c).cached⟩

theorem describeInner_breaks (hU : Universe defs U) (ht : U t)
    (hi : Invariant defs U s) {an : Analysis} (ha : t.Analysed defs an)
    (h : s.run (describeInner defs D an) = (.error fault, s')) (he : fault ≠ .exhausted) :
    LeavesOff defs s s' fault t := by
  have hcase := describeInner_run defs D s an
  rw [h] at hcase
  obtain ⟨d, -, rfl⟩ := ha
  rw [TypeExpr.analysisWith_eq] at hcase
  generalize hres : ((.error fault, s') : Except CompileFault Address × Session) = res at hcase
  cases hcase with
  | @object c hb =>
    obtain ⟨name, hname, hf⟩ := TypeExpr.base_object hb
    simp only [hname] at hres
    obtain ⟨x, xs, rfl, hn, hx, hxs⟩ :=
      describeObject_breaks hD hB hU (hname ▸ hU.core ht) hf hi hres.symm he
    exact ⟨x :: xs, .field .refl hname hn hx hxs, nofun⟩
  | kept _ _ _ => cases hres
  | failed hb hc hp =>
    cases hres
    cases hp with
    | part hpart hd =>
      obtain ⟨xs, hxs, hsame⟩ := hB (hU.part ht hpart) (by simp) hi hd he
      exact ⟨xs, hxs.part hpart, hsame⟩
  | refused hb hc hp hrec =>
    cases hres
    obtain ⟨f, hf, rfl⟩ := Base.recordOf_error.mp hrec
    refine ⟨[], .member .refl hf rfl, fun _ => ?_⟩
    cases hp with
    | part hpart _ =>
      rw [hf.part?_eq.1] at hpart
      cases hpart
    | simple _ hs => exact hs
  | made _ _ _ _ => cases hres

theorem describeStep_breaks (hU : Universe defs U) :
    Describe.Breaks defs U (describeStep defs D) := by
  intro s s' t known fault ht hk hi h he
  have hcase := describeStep_run defs D s t known
  rw [h] at hcase
  generalize hres : ((.error fault, s') : Except CompileFault Address × Session) = res at hcase
  cases hcase with
  | kept _ => cases hres
  | failed hc ha hrun =>
    cases hres
    obtain ⟨xs, hxs, hsame⟩ := describeInner_breaks hD hB hU ht (hi.of_sameWork ha.sameWork)
      (ha.analysed hk) hrun he
    refine ⟨xs, hxs.of_later fun u hu => ?_, fun hnil => ha.sameWork.trans (hsame hnil)⟩
    rwa [ha.sameWork.cached?]
  | bare _ _ _ _ => cases hres
  | decorated _ _ _ _ _ => cases hres

end

theorem describeWithin_breaks (hU : Universe defs U) (room : Nat) :
    Describe.Breaks defs U (describeWithin defs room) := by
  induction room with
  | zero =>
    intro s s' t known fault _ _ _ h he
    cases h
    exact absurd rfl he
  | succ room ih =>
    exact describeStep_breaks (describeWithin_preserves hU room) ih hU

/-! ## Calls that fail -/

theorem Call.leavesOff (hU : Universe defs U) {c : Call} (hc : U c.type) (hi : Invariant defs U s)
    (h : s.run (c.run defs) = (.error fault, s')) : LeavesOff defs s s' fault c.type := by
  have he : fault ≠ .exhausted := by
    obtain ⟨u, f, -, -, rfl⟩ := Call.explained h
    exact nofun
  cases c with
  | describe t => exact describeWithin_breaks hU _ hc (by simp) hi h he
  | compile t =>
    have hcase := describeParameters_run defs s t
    have hrun : s.run (describeParameters defs t) = (.error fault, s') := h
    rw [hrun] at hcase
    generalize hres : ((.error fault, s') : Except CompileFault Address × Session) = res at hcase
    cases hcase with
    | empty _ _ => cases hres
    | object hb =>
      obtain ⟨name, rfl, hf⟩ := TypeExpr.base_object hb
      obtain ⟨x, xs, rfl, hn, hx, hxs⟩ := describeObject_breaks (describeWithin_preserves hU _)
        (describeWithin_breaks hU _) hU hc hf hi hres.symm he
      exact ⟨x :: xs, .field .refl rfl hn hx hxs, nofun⟩

/-- Parameters fail only as an object class, and this one is left. -/
theorem BreaksOff.of_parameters {xs : List Unfinished} (h : BreaksOff defs s s' fault t xs)
    (hrun : s.run (describeParameters defs t) = (.error fault, s')) :
    ∃ x rest, xs = x :: rest ∧ t = .declared x.name := by
  have hcase := describeParameters_run defs s t
  rw [hrun] at hcase
  generalize hres : ((.error fault, s') : Except CompileFault Address × Session) = res at hcase
  cases hcase with
  | object hb => exact h.of_object hb
  | empty _ _ => cases hres

/-- A description that came to a member without data through parts only fails again at any time. -/
theorem BreaksOff.fails_again (hU : Universe defs U) (ht : U t) (hi : Invariant defs U s₁)
    (h : BreaksOff defs s s' fault t []) : (s₁.run (describe defs t)).1 = .error fault := by
  cases h with
  | @member _ u f hp hf he =>
    rcases hr : s₁.run (describe defs t) with ⟨r, s₂⟩
    cases r with
    | ok a =>
      have hpres := describe_preserves hU ht hi hr
      exact absurd hf ((hpres.result a rfl).not_refuses_of_leads (hpres.settled a rfl) hp.leads)
    | error fault' =>
      obtain ⟨v, f', hl, hf', rfl⟩ := Call.explained (c := .describe t) hr
      cases hl.behind_parts hf' hp with
      | here => rw [he, hf'.unique hf]
      | part hpart _ =>
        rw [hf.part?_eq.1] at hpart
        cases hpart
      | field hb _ _ _ =>
        have hobj := hf.part?_eq.2
        rw [hb] at hobj
        cases hobj

/-- A call that broke off in a class succeeds once the class has a descriptor. -/
theorem BreaksOff.succeeds {c : Call} {x : Unfinished} {xs : List Unfinished}
    (h : BreaksOff defs s s' fault c.type (x :: xs)) (hx : x.Left defs s₁) :
    ∃ a, (s₁.run (c.run defs)).1 = .ok a := by
  cases h with
  | field hp hu hn _ _ =>
    rcases hr : s₁.run (c.run defs) with ⟨r, s₂⟩
    cases r with
    | ok a => exact ⟨a, rfl⟩
    | error fault' =>
      obtain ⟨v, f, hl, hf, -⟩ := Call.explained hr
      have hb := TypeExpr.base_declared hx.found
      rw [← hu] at hb
      have hnone := hl.not_behind_class hf hp hb
      rw [hu, hx.cached] at hnone
      cases hnone

/-! ## Registering again -/

namespace Registry

variable {r : Registry} {d : ToolDefinition}

theorem store_failed (h : r.session.run (describeParameters defs d.schema) = (.error fault, s')) :
    (store defs d).run.run r = (.error (.build (.compile fault)), { r with session := s' }) := by
  have hb := ToolDefinition.build_run defs r.session d
  have hs := store_run defs r d
  generalize (store defs d).run.run r = res at hs ⊢
  cases hs with
  | failed hrun =>
    rw [hrun] at hb
    cases hb with
    | failed hp =>
      rw [h] at hp
      cases hp
      rfl
    | unlisted hp _ =>
      rw [h] at hp
      cases hp
  | stored hrun =>
    rw [hrun] at hb
    cases hb with
    | built hp _ =>
      rw [h] at hp
      cases hp

theorem store_built (h : r.session.run (describeParameters defs d.schema) = (.ok a, s'))
    (hl : defs.iterate? d.permissions ≠ none) :
    ∃ tool r', (store defs d).run.run r = (.ok tool, r') ∧ tool.parameters = a := by
  have hb := ToolDefinition.build_run defs r.session d
  have hs := store_run defs r d
  generalize (store defs d).run.run r = res at hs ⊢
  cases hs with
  | failed hrun =>
    rw [hrun] at hb
    cases hb with
    | failed hp =>
      rw [h] at hp
      cases hp
    | unlisted _ hnone => exact absurd hnone hl
  | stored hrun =>
    rw [hrun] at hb
    cases hb with
    | built hp _ =>
      rw [h] at hp
      cases hp
      exact ⟨_, _, rfl, rfl⟩

/-- A tool whose parameters fail is refused. When it is tried again it is stored, with the class as
it was left for its parameters. -/
theorem register_twice {x : Unfinished} (hv : r.validate defs d = .ok ())
    (hf : r.find? d.name = none) (hd : d.schema = .declared x.name)
    (h : r.session.run (describeParameters defs d.schema) = (.error fault, s'))
    (hx : x.Left defs s') :
    (register defs d).run.run r = (.error (.build (.compile fault)), { r with session := s' }) ∧
      ∃ tool r', (register defs d).run.run { r with session := s' } = (.ok tool, r') ∧
        tool.parameters = x.address := by
  refine ⟨(register_new hv hf).trans (store_failed h), ?_⟩
  -- The patterns and the names are those from before.
  have hv' : validate defs { r with session := s' } d = .ok () := hv
  have hf' : find? { r with session := s' } d.name = none := hf
  have hcompiled : s'.run (describeParameters defs d.schema) = (.ok x.address, s') := by
    rw [hd]
    exact hx.compiled
  rw [register_new hv' hf']
  exact store_built hcompiled (validate_listed hv)

end Registry

/-- What is so of a registry from the moment on at which a call failed in it and left these
classes. -/
structure Aftermath (source : Source) (r r' : Registry) (c : Call) (fault : CompileFault)
    (xs : List Unfinished) : Prop where
  /-- If there are none, nothing was made, and the call fails again at any time. -/
  harmless : xs = [] → r.session.SameWork r'.session ∧
    ∀ later, Operation.AllOf source later →
      ((r'.through source.definitions later).session.run (c.run source.definitions)).1
        = .error fault
  /-- Each of them is compiled to a descriptor that lacks fields, at any time. -/
  lacking : ∀ x ∈ xs, ∀ later, Operation.AllOf source later →
    let s := (r'.through source.definitions later).session
    x.Left source.definitions s ∧ x.Lacks s.graph ∧
      s.run (describeParameters source.definitions (.declared x.name)) = (.ok x.address, s)
  /-- If there are any, the same call succeeds at any time. -/
  repeated : xs ≠ [] → ∀ later, Operation.AllOf source later →
    ∃ a, ((r'.through source.definitions later).session.run (c.run source.definitions)).1 = .ok a
  /-- A tool with the outermost of them for its parameters could not be registered, and can be if it
  is tried again. -/
  registered : ∀ d, c = .compile d.schema → r.validate source.definitions d = .ok () →
    r.find? d.name = none →
      (Registry.register source.definitions d).run.run r
          = (.error (.build (.compile fault)), r') ∧
        ∃ x ∈ xs, d.schema = .declared x.name ∧ ∃ tool r'',
          (Registry.register source.definitions d).run.run r' = (.ok tool, r'') ∧
            tool.parameters = x.address

/-- After anything that was asked before, a call that fails leaves the classes that it was walking,
each with the fields before the one that could not be described. If it was walking none, it leaves
nothing. -/
theorem failed_call_leaves (source : Source) {r₀ : Registry} {observable : Bool}
    (h₀ : r₀.session = .fresh observable) {before : List Operation}
    (hbefore : Operation.AllOf source before) {c : Call} (hc : source.Expression c.type)
    {fault : CompileFault} {r' : Registry}
    (h : (Operation.call c).run source.definitions (r₀.through source.definitions before)
      = (.descriptor (.error fault), r')) :
    let r := r₀.through source.definitions before
    ∃ xs, BreaksOff source.definitions r.session r'.session fault c.type xs ∧
      Aftermath source r r' c fault xs := by
  intro r
  obtain ⟨U, hU, hexpr⟩ := source.universe
  have hfirst : r₀.session.Later source.definitions U r.session :=
    Registry.through_fresh hU hexpr h₀ hbefore
  obtain ⟨s', hrun, rfl⟩ := Operation.run_call h
  have hcall : r.session.Later source.definitions U s' :=
    Call.later hU (hexpr _ hc) hfirst.inv hfirst.proper hrun
  have hlater {later} (hl : Operation.AllOf source later) : s'.Later source.definitions U
      (Registry.through source.definitions { r with session := s' } later).session :=
    Registry.through_later (r := { r with session := s' }) hU
      (fun op ho t ht => hexpr t (hl op ho t ht)) hcall.inv hcall.proper
  obtain ⟨xs, hxs, hsame⟩ := Call.leavesOff hU (hexpr _ hc) hfirst.inv hrun
  have hleft (x) (hx : x ∈ xs) {later} (hl : Operation.AllOf source later) :
      x.Left source.definitions
        (Registry.through source.definitions { r with session := s' } later).session :=
    (hxs.left x hx).mono (hlater hl).growth (hlater hl).classes
  refine ⟨xs, hxs, ?_⟩
  constructor
  case harmless =>
    rintro rfl
    refine ⟨hsame rfl, fun later hl => ?_⟩
    cases c with
    | describe t => exact hxs.fails_again hU (hexpr _ hc) (hlater hl).inv
    | compile t =>
      obtain ⟨x, rest, hnil, -⟩ := hxs.of_parameters hrun
      cases hnil
  case lacking =>
    intro x hx later hl
    have hx' := hleft x hx hl
    exact ⟨hx', hx'.lacks, hx'.compiled⟩
  case repeated =>
    intro hne later hl
    cases xs with
    | nil => exact absurd rfl hne
    | cons x rest => exact hxs.succeeds (hleft x (by simp) hl)
  case registered =>
    rintro d rfl hv hf
    obtain ⟨x, rest, rfl, hschema⟩ := hxs.of_parameters hrun
    obtain ⟨hfails, hstored⟩ :=
      Registry.register_twice hv hf hschema hrun (hxs.left x List.mem_cons_self)
    exact ⟨hfails, x, List.mem_cons_self, hschema, hstored⟩

/-- A dictionary whose second key takes bytes that are no text. -/
def halfSource : Source where
  declarations := [.keyed "Half" [] none true
    [("a", .atom (.builtin .integer)), ("b", .literal [.bytes [0xff]])]]
  written := [.reference "Half"]

/-- The dictionary as it is finished. -/
def halfClass : ObjectClass :=
  ⟨none, [("a", .atom (.builtin .integer)), ("b", .literal 0 [.bytes [0xff]])], none⟩

/-- The registry in which the dictionary was compiled, which failed, and then compiled again. -/
def halfOnce : Registry :=
  ((Operation.call (.compile (.declared "Half"))).run halfSource.definitions
    (.empty wordSettings)).2

def halfTwice : Registry :=
  ((Operation.call (.compile (.declared "Half"))).run halfSource.definitions halfOnce).2

/-- Compiling the dictionary fails, and when it is tried again succeeds without the second key. -/
theorem half_compiled_without_key :
    halfSource.nodes = [.declared "Half"] ∧
      halfSource.definitions.find? "Half" = some (.object halfClass) ∧
      (Operation.call (.compile (.declared "Half"))).run halfSource.definitions
          (.empty wordSettings) = (.descriptor (.error (.data .invalidText)), halfOnce) ∧
      (Operation.call (.compile (.declared "Half"))).run halfSource.definitions halfOnce
          = (.descriptor (.ok 0), halfTwice) ∧
      halfTwice.session.graph.record 0 = objectRecord halfClass 0 ∧
      halfTwice.session.graph.body 0 = ⟨[("a", 1)], ["a"]⟩ ∧
      halfClass.fields.map (·.1) = ["a", "b"] :=
  ⟨rfl, rfl, Prod.ext rfl rfl, Prod.ext rfl rfl, rfl, rfl, rfl⟩

theorem failed_call_leaves_half :
    ∃ xs, BreaksOff halfSource.definitions (Registry.empty wordSettings).session halfOnce.session
        (.data .invalidText) (.declared "Half") xs ∧
      Aftermath halfSource (.empty wordSettings) halfOnce (.compile (.declared "Half"))
        (.data .invalidText) xs := by
  have hnodes : halfSource.nodes = [.declared "Half"] := rfl
  have hhalf : halfSource.Expression (Call.compile (.declared "Half")).type :=
    .node (by rw [hnodes]; exact List.mem_singleton.mpr rfl)
  have hfresh : (Registry.empty wordSettings).session = .fresh false := rfl
  have hnone : Operation.AllOf halfSource [] := by simp [Operation.AllOf]
  exact failed_call_leaves halfSource hfresh hnone hhalf (Prod.ext rfl rfl)

end ToolCatalog
