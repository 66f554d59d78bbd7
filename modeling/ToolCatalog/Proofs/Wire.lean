import ToolCatalog.Proofs.Plain
import ToolCatalog.Proofs.Registering
import ToolCatalog.Proofs.Serial

/-!
When what is written about a tool is JSON.

The descriptors that a tool leads to are those of the expressions that its parameters hold, in parts
and in fields, as deep as one likes. So both forms of a tool are JSON exactly if each of these
expressions has a base whose bounds and members are.
-/
namespace ToolCatalog

/-! ## Defaults -/

theorem Value.asDefault_isWire {v w : Value} (h : v.asDefault = .ok w) : w.isWire = true := by
  unfold asDefault at h
  cases hd : v.toData with
  | error f =>
    rw [hd] at h
    cases h
  | ok d =>
    rw [hd] at h
    cases h
    exact toData_wire hd

theorem Factory.call_isWire {f : Factory} {s : Session} {w : Value}
    (h : (f.call.run s).1 = .ok w) : w.isWire = true := by
  cases f with
  | returns v => exact Value.asDefault_isWire h
  | empty b =>
    cases hv : b.emptyValue? with
    | none =>
      simp only [Factory.call, hv] at h
      cases h
    | some v =>
      simp only [Factory.call, hv] at h
      exact Value.asDefault_isWire h
  | counter id =>
    cases h
    rfl
  | measures name =>
    change (if s.observable then Except.ok (.int (s.measure name))
      else Except.error DefaultFault.unobservable) = .ok w at h
    split at h
    · cases h
      rfl
    · cases h
  | _ => cases h

theorem DefaultSource.find_isWire {d : DefaultSource} {s : Session} {w : Value}
    (h : (d.find.run s).1 = .ok w) : w.isWire = true := by
  cases d with
  | value v => exact Value.asDefault_isWire h
  | factory f v => exact f.call_isWire h

/-- A default that was found is JSON. -/
theorem TypeExpr.MayFind.isWire {t : TypeExpr} {d : Option DefaultOutcome} (h : t.MayFind d)
    (defs : Definitions) : ∀ w, (t.analysisWith defs d).default? = some w → w.isWire = true := by
  intro w hw
  obtain ⟨s, rfl⟩ := h
  unfold Analysis.default? at hw
  split at hw
  · rename_i v hv
    cases hw
    change (t.findDefault.run s).1 = _ at hv
    unfold findDefault at hv
    cases hsource : t.defaultSource? with
    | none =>
      rw [hsource] at hv
      cases hv
    | some source =>
      rw [hsource] at hv
      have hrun : ((some source).mapM DefaultSource.find).run s
          = (some (source.find.run s).1, (source.find.run s).2) := rfl
      rw [hrun] at hv
      exact source.find_isWire (Option.some.inj hv)
  · cases hw

/-! ## What an expression holds -/

/-- The bounds and the members of what stands under the layers of an expression are JSON. -/
def TypeExpr.Serial (defs : Definitions) (t : TypeExpr) : Prop :=
  (t.core.base defs).Serial t.layerConstraints

/-- An expression holds its part, and of the fields of an object class with one name the last. -/
inductive TypeExpr.Holds (defs : Definitions) (t e : TypeExpr) : Prop
  | part (hp : (t.core.base defs).part? = some e)
  | field {c : ObjectClass} {name : String} (hb : t.core.base defs = .object c)
      (hf : (name, e) ∈ Entries.ofList c.fields)

/-- The expressions that an expression holds, as deep as one likes. -/
abbrev TypeExpr.Reaches (defs : Definitions) : TypeExpr → TypeExpr → Prop :=
  Relation.ReflTransGen (TypeExpr.Holds defs)

section

variable {defs : Definitions} {U : TypeExpr → Prop} {s s' : Session} {t v : TypeExpr}
  {a a₀ c : Address} {r : Record}

theorem Stands.profile (h : Stands defs s t a r) : ∃ below,
    Record.Profile s.graph r (t.Serial defs) below := by
  cases h with
  | object hb hc hr =>
    refine ⟨_, (Record.Profile.objectRecord _ _).congr (iff_of_true trivial ?_) fun _ => Iff.rfl⟩
    rw [TypeExpr.Serial, hb]
    exact Base.serial_of_plain rfl rfl
  | value hb hp hrec hr => exact ⟨_, .recordOf hb hrec⟩

/-- The data in the descriptor of an expression is JSON exactly if the expression is serial. -/
theorem Shows.wireIn_iff (h : Shows defs s t a) (form : ExportForm) :
    (s.graph.record a).WireIn form ↔ t.Serial defs := by
  obtain ⟨a₀, r, hs, hf⟩ := h.stands
  obtain ⟨below, hr⟩ := hs.profile
  obtain ⟨d, hd, heq⟩ := hf.finish hs.record
  have hp := hr.finish (hd.isWire defs)
  rw [heq, hp.layered.wireIn_iff, hp.wire]

/-- The descriptor of an expression leads where that of its base leads. -/
theorem Shows.edge_iff (hs : Stands defs s t a₀ r) (hf : Finished defs s t a₀ r a) :
    s.graph.Edge a c ↔ s.graph.Below r c := by
  obtain ⟨below, hr⟩ := hs.profile
  obtain ⟨d, hd, heq⟩ := hf.finish hs.record
  rw [Graph.Edge, heq, (hr.finish (hd.isWire defs)).below, hr.below]

/-- What stands among the properties of an object class is the descriptor of a field of that name.
-/
theorem Invariant.field_shown (hi : Invariant defs U s) {o : ObjectClass} {b : Address}
    {name : String} (hb : t.core.base defs = .object o) (hc : s.cached? t.core = some a₀)
    (hr : s.graph.records[a₀]? = some (objectRecord o b))
    (hname : (name, c) ∈ (s.graph.body b).properties) :
    ∃ e, (name, e) ∈ o.fields ∧ Shows defs s e c := by
  obtain ⟨m, hm, hfind⟩ := TypeExpr.base_object hb
  -- A class whose walk broke off has a body for its first fields only.
  obtain ⟨b', x, fs, rest, hr', hbody, hfields, hw⟩ := hi.walked hfind (hm ▸ hc)
  obtain rfl : b' = b := objectRecord_inj (Option.some.inj (hr'.symm.trans hr))
  rw [Graph.body, hbody] at hname
  obtain ⟨f, hfs, rfl, hshows⟩ := exists_of_mem_right hw.properties hname
  exact ⟨f.2, hfields ▸ List.mem_append_left rest (Entries.mem_ofList hfs), hshows⟩

/-- What the descriptor of an expression leads to are descriptors of expressions met from it. -/
theorem Shows.edge_meets (hi : Invariant defs U s) (h : Shows defs s t a)
    (he : s.graph.Edge a c) :
    ∃ v, Shows defs s v c ∧ ∀ u, v.Meets defs u → t.Meets defs u := by
  cases h with
  | @object t o a₀ b a hb hc hr hf =>
    rw [Shows.edge_iff (.object hb hc hr) hf, (Record.Profile.objectRecord o b).below] at he
    obtain ⟨name, hname⟩ := he
    obtain ⟨e, hmem, hshows⟩ := hi.field_shown hb hc hr hname
    exact ⟨e, hshows, fun u hu => .field hb (Session.cached?_fresh false _) hmem hu⟩
  | @value t p a₀ r a hb hp hrec hr hf =>
    rw [Shows.edge_iff (.value hb hp hrec hr) hf, (Record.Profile.recordOf hb hrec).below] at he
    obtain ⟨hpart, rfl⟩ := he
    obtain ⟨e, he⟩ := Option.isSome_iff_exists.mp hpart
    exact ⟨e, hp e he, fun u hu => .part he hu⟩

/-- Where nothing that is met is wanting, every form of a descriptor is JSON, whatever failed
before. -/
theorem Shows.rendered_isWire (hi : Invariant defs U s) (h : Shows defs s t a)
    (hserial : ∀ u, t.Meets defs u → u.Serial defs) (form : ExportForm) (room : Nat) :
    (s.graph.rendered form room [] a).toValue.isWire = true := by
  refine Graph.rendered_isWire room fun u hu => ?_
  induction hu using Relation.ReflTransGen.head_induction_on generalizing t with
  | refl => exact (h.wireIn_iff form).mpr (hserial t (.here t))
  | head he _ ih =>
    obtain ⟨v, hv, hmeets⟩ := h.edge_meets hi he
    exact ih hv fun u hu => hserial u (hmeets u hu)

section

variable (hall : AllComplete defs s) (hx : s.Extends none s') (hk : s.KeepsClasses defs s')

include hall hx hk

/-- Where all classes are complete, the descriptor of an expression leads to the descriptors of what
the expression holds, and to no others. -/
theorem Shows.edge_holds (h : Shows defs s t a) :
    (∀ c, s'.graph.Edge a c → ∃ v, t.Holds defs v ∧ Shows defs s v c) ∧
      ∀ v, t.Holds defs v → ∃ c, s'.graph.Edge a c ∧ Shows defs s v c := by
  cases h with
  | @object t o a₀ b a hb hc hr hf =>
    have hs : Stands defs s t a₀ (objectRecord o b) := .object hb hc hr
    obtain ⟨m, hm, hfind⟩ := TypeExpr.base_object hb
    -- Here the body is that of all fields.
    obtain ⟨b', x, ⟨a', hc', hr'⟩, hbody, hw⟩ := hall m o hfind (by rw [← hm, hc]; rfl)
    obtain rfl : a₀ = a' := Option.some.inj ((hm ▸ hc).symm.trans hc')
    obtain rfl : b' = b := objectRecord_inj (Option.some.inj (hr'.symm.trans hr))
    have hedge (c : Address) :
        s'.graph.Edge a c ↔ ∃ name, (name, c) ∈ x.properties := by
      rw [Shows.edge_iff (hs.mono hx hk) (hf.mono hx), (Record.Profile.objectRecord o b').below,
        Graph.body, hx.body b' x hbody (by simp)]
      rfl
    constructor
    · intro c he
      obtain ⟨name, hname⟩ := (hedge c).mp he
      obtain ⟨f, hfs, -, hshows⟩ := exists_of_mem_right hw.properties hname
      exact ⟨f.2, .field hb hfs, hshows⟩
    · intro v hv
      cases hv with
      | part hp =>
        rw [hb] at hp
        cases hp
      | @field o' name hb' hf =>
        obtain rfl : o = o' := by simpa [hb] using hb'
        obtain ⟨e, he, -, hshows⟩ := exists_of_mem_left hw.properties hf
        exact ⟨e.2, (hedge e.2).mpr ⟨e.1, he⟩, hshows⟩
  | @value t p a₀ r a hb hp hrec hr hf =>
    have hs : Stands defs s t a₀ r := .value hb hp hrec hr
    have hedge (c : Address) :
        s'.graph.Edge a c ↔ (t.core.base defs).part?.isSome = true ∧ p = c := by
      rw [Shows.edge_iff (hs.mono hx hk) (hf.mono hx), (Record.Profile.recordOf hb hrec).below]
    constructor
    · intro c he
      obtain ⟨hpart, rfl⟩ := (hedge c).mp he
      obtain ⟨e, he⟩ := Option.isSome_iff_exists.mp hpart
      exact ⟨e, .part he, hp e he⟩
    · intro v hv
      cases hv with
      | part he => exact ⟨p, (hedge p).mpr ⟨by rw [he]; rfl, rfl⟩, hp v he⟩
      | field hb' hf =>
        rw [hb'] at hb
        cases hb

/-- Every form of a descriptor is JSON exactly if what its expression reaches is serial. -/
theorem Shows.rendered_isWire_iff (h : Shows defs s t a) (form : ExportForm) :
    (s'.graph.rendered form (s'.graph.records.size + 1) [] a).toValue.isWire = true ↔
      ∀ v, t.Reaches defs v → v.Serial defs := by
  rw [Graph.rendered_isWire_iff]
  constructor
  · intro hwire v hv
    -- The ways through descriptors and through expressions run side by side.
    obtain ⟨u, hu, hshows⟩ : ∃ u, Relation.ReflTransGen s'.graph.Edge a u ∧
        Shows defs s v u := by
      induction hv with
      | refl => exact ⟨a, .refl, h⟩
      | tail _ hstep ih =>
        obtain ⟨u, hu, hshows⟩ := ih
        obtain ⟨c, hc, hshows'⟩ := (hshows.edge_holds hall hx hk).2 _ hstep
        exact ⟨c, hu.tail hc, hshows'⟩
    exact ((hshows.mono hx hk).wireIn_iff form).mp (hwire u hu)
  · intro hserial u hu
    obtain ⟨v, hv, hshows⟩ : ∃ v, t.Reaches defs v ∧ Shows defs s v u := by
      induction hu with
      | refl => exact ⟨t, .refl, h⟩
      | tail _ hstep ih =>
        obtain ⟨v, hv, hshows⟩ := ih
        obtain ⟨w, hw, hshows'⟩ := (hshows.edge_holds hall hx hk).1 _ hstep
        exact ⟨w, hv.tail hw, hshows'⟩
    exact ((hshows.mono hx hk).wireIn_iff form).mpr (hserial v hv)

end

/-- The empty object that stands for parameters of another kind is JSON. -/
theorem ShowsParameters.empty_isWire {b : Address}
    (hr : s.graph.records[a]? = some (emptyObjectRecord b))
    (hbody : s.graph.bodies[b]? = some ⟨[], []⟩) (form : ExportForm) (room : Nat) :
    (s.graph.rendered form room [] a).toValue.isWire = true := by
  have hprofile := Record.Profile.emptyObjectRecord (g := s.graph) b
  have hrecord : s.graph.record a = emptyObjectRecord b := Graph.record_of_getElem? hr
  have hedge (c : Address) : ¬s.graph.Edge a c := by
    rw [Graph.Edge, hrecord, hprofile.below, Graph.body, hbody]
    simp
  refine Graph.rendered_isWire room fun u hu => ?_
  rcases hu.cases_head with rfl | ⟨c, hc, -⟩
  · rw [hrecord]
    exact (hprofile.wire.mpr trivial).wireIn
  · exact absurd hc (hedge c)

/-- Where nothing that is met is wanting, every form of parameters is JSON. -/
theorem ShowsParameters.rendered_isWire (hi : Invariant defs U s)
    (h : ShowsParameters defs s t a) (hserial : ∀ u, t.Meets defs u → u.Serial defs)
    (form : ExportForm) (room : Nat) :
    (s.graph.rendered form room [] a).toValue.isWire = true := by
  cases h with
  | object hb h => exact h.rendered_isWire hi hserial form room
  | empty hb hr hbody => exact empty_isWire hr hbody form room

/-- Every form of parameters is JSON exactly if they are no object, or what they reach is serial. -/
theorem ShowsParameters.rendered_isWire_iff (hall : AllComplete defs s)
    (hx : s.Extends none s') (hk : s.KeepsClasses defs s') (h : ShowsParameters defs s t a)
    (form : ExportForm) :
    (s'.graph.rendered form (s'.graph.records.size + 1) [] a).toValue.isWire = true ↔
      ((t.base defs).isObject = true → ∀ v, t.Reaches defs v → v.Serial defs) := by
  cases h with
  | object hb h =>
    rw [h.rendered_isWire_iff hall hx hk form]
    exact ⟨fun hserial _ => hserial, fun hserial => hserial hb⟩
  | empty hb hr hbody =>
    refine iff_of_true (empty_isWire (hx.record _ _ hr) (hx.body _ _ hbody (by simp)) _ _) ?_
    intro hobject
    rw [hb] at hobject
    cases hobject

end

/-! ## Tools -/

/-- The parameters of a tool reach nothing that is not serial. Only an object is looked into. -/
def ToolDefinition.Serial (defs : Definitions) (d : ToolDefinition) : Prop :=
  (d.schema.base defs).isObject = true → ∀ v, d.schema.Reaches defs v → v.Serial defs

namespace Tool

variable {g : Graph} {t : Tool}

theorem configuration_isWire (hg : g.Proper) (hname : t.name.textual?.isSome = true)
    (hdesc : t.description.textual?.isSome = true)
    (hperm : ∀ p ∈ t.permissions, p.textual?.isSome = true) :
    ∃ c, t.configuration g = .ok c ∧ (c.isWire = true ↔
      (g.rendered .canonical (g.records.size + 1) [] t.parameters).toValue.isWire = true) := by
  refine ⟨_, by rw [configuration, Graph.render_eq hg]; rfl, ?_⟩
  have hlist : Value.areWire t.permissions = true :=
    Value.areWire_iff.mpr fun p hp => Value.isWire_of_textual? (hperm p hp)
  simp [Value.isWire, Value.entriesAreWire, Value.textual?, Value.isWire_of_textual? hname,
    Value.isWire_of_textual? hdesc, hlist, Schema.isWire_copied]

theorem advertisement_isWire (hg : g.Proper) (hname : t.name.textual?.isSome = true)
    (hdesc : t.description.textual?.isSome = true) :
    ∃ c, t.advertisement g = .ok c ∧ (c.isWire = true ↔
      (g.rendered .strict (g.records.size + 1) [] t.parameters).toValue.isWire = true) := by
  refine ⟨_, by rw [advertisement, Graph.render_eq hg]; rfl, ?_⟩
  simp [Value.isWire, Value.entriesAreWire, Value.textual?, Value.isWire_of_textual? hname,
    Value.isWire_of_textual? hdesc, Schema.isWire_copied]

end Tool

/-- Both forms of a tool can be written out at any time after it has been built. They are JSON if
nothing that the parameters meet is wanting; and if no call failed before, they are JSON exactly if
nothing that the parameters reach is. -/
theorem build_isWire_iff (source : Source) (observable : Bool) (calls : List Call)
    (hcalls : ∀ c ∈ calls, source.Expression c.type) {d : ToolDefinition}
    (hd : source.Expression d.schema) (hname : d.name.textual?.isSome = true)
    (hdesc : d.description.textual?.isSome = true)
    (hperm : ∀ ps, source.definitions.iterate? d.permissions = some ps →
      ∀ p ∈ ps, p.textual?.isSome = true) {tool : Tool} {s : Session}
    (h : (d.build source.definitions).run.run
      (Session.after source.definitions (.fresh observable) calls).2 = (.ok tool, s))
    (later : List Call) (hlater : ∀ c ∈ later, source.Expression c.type) :
    ∃ c ad, tool.configuration (s.after source.definitions later).2.graph = .ok c ∧
      tool.advertisement (s.after source.definitions later).2.graph = .ok ad ∧
      ((∀ u, d.schema.Meets source.definitions u → u.Serial source.definitions) →
        c.isWire = true ∧ ad.isWire = true) ∧
      ((∀ r ∈ (Session.after source.definitions (.fresh observable) calls).1, ∃ a, r = .ok a) →
        (c.isWire = true ↔ d.Serial source.definitions) ∧
          (ad.isWire = true ↔ d.Serial source.definitions)) := by
  obtain ⟨U, hU, hexpr⟩ := source.universe
  have hall : ∀ c ∈ calls, U c.type := fun c hc => hexpr _ (hcalls c hc)
  obtain ⟨-, -, hinv⟩ := Session.after_preserves hU hall (.fresh observable)
  obtain ⟨hrun, hn, hde, hps⟩ := ToolDefinition.build_ok h
  have hp := Call.preserves hU (c := .compile d.schema) (hexpr _ hd) hinv hrun
  have hshows : ShowsParameters source.definitions s d.schema tool.parameters := hp.result _ rfl
  obtain ⟨hx, hk, hinv'⟩ := Session.after_preserves hU (fun c hc => hexpr _ (hlater c hc)) hp.inv
  have hproper : (s.after source.definitions later).2.Proper := by
    refine Session.after_proper later (Call.proper (c := .compile d.schema) ?_ hrun)
    exact Session.after_proper calls (Session.fresh_proper observable)
  obtain ⟨c, hc, hcwire⟩ := tool.configuration_isWire hproper (hn ▸ hname) (hde ▸ hdesc)
    (hperm _ hps)
  obtain ⟨ad, had, hadwire⟩ := tool.advertisement_isWire hproper (hn ▸ hname) (hde ▸ hdesc)
  refine ⟨c, ad, hc, had, fun hserial => ?_, fun hok => ?_⟩
  · have hwire := (hshows.mono hx hk).rendered_isWire hinv' hserial
    exact ⟨hcwire.mpr (hwire _ _), hadwire.mpr (hwire _ _)⟩
  -- No call failed and the build did not either, so no class is left half walked.
  · have hcomplete : AllComplete source.definitions s :=
      (Session.after_allComplete hU hall (.fresh observable) (.fresh observable) hok).settled
        hp.growth hp.classes (hp.settled _ rfl)
    have hwire := hshows.rendered_isWire_iff hcomplete hx hk
    exact ⟨hcwire.trans (hwire _), hadwire.trans (hwire _)⟩

/-- A class with an amount whose least value is written as a decimal. -/
def priceSource : Source where
  declarations := [.model "Price" [] none
    [("amount", .annotated (.atom (.builtin .real))
      [.constraint (.atLeast (.decimal (.finite false 15 (-1))))], .nothing)]]
  written := [.reference "Price"]

/-- A tool with that class for its parameters. -/
def priceDefinition : ToolDefinition :=
  ⟨.text "price", .text "", .declared "Price", .list []⟩

def priceTool : Tool :=
  ⟨.text "price", .text "", 0, []⟩

theorem priceSource_nodes : priceSource.nodes = [.declared "Price"] :=
  rfl

/-- The session in which the tool has been built. -/
def priceSession : Session :=
  ((priceDefinition.build priceSource.definitions).run.run (.fresh false)).2

/-- The decimal is copied as it is. -/
theorem build_price_not_wire :
    priceSource.nodes = [.declared "Price"] ∧
      (priceDefinition.build priceSource.definitions).run.run (.fresh false)
        = (.ok priceTool, priceSession) ∧
      ∃ c ad, priceTool.configuration priceSession.graph = .ok c ∧
        priceTool.advertisement priceSession.graph = .ok ad ∧
          c.isWire = false ∧ ad.isWire = false := by
  have hbuild : (priceDefinition.build priceSource.definitions).run.run (.fresh false)
      = (.ok priceTool, priceSession) := rfl
  have hproper : priceSession.Proper := by
    have hrun := (ToolDefinition.build_ok hbuild).1
    exact @Call.proper priceSource.definitions _ _ (.compile priceDefinition.schema)
      (Session.fresh_proper false) _ hrun
  have hobject : priceSession.graph.record 0 = [("type", .data (.text "object")),
      ("properties", .properties 0), ("required", .required 0)] := rfl
  have hamount : priceSession.graph.record 1 = [("type", .data (.text "number")),
      ("minimum", .data (.decimal (.finite false 15 (-1))))] := rfl
  have hbody : (priceSession.graph.body 0).properties = [("amount", 1)] := rfl
  have hedge : priceSession.graph.Edge 0 1 :=
    ⟨("properties", .properties 0), by simp [hobject], "amount", by simp [hbody]⟩
  have hrendered (form : ExportForm) : ¬(priceSession.graph.rendered form
      (priceSession.graph.records.size + 1) [] 0).toValue.isWire = true := by
    rw [Graph.rendered_isWire_iff]
    intro h
    have hbound := h 1 (.single hedge) "minimum" (.decimal (.finite false 15 (-1)))
      (by simp [hamount]) (by cases form <;> rfl)
    cases hbound
  obtain ⟨c, hc, hcwire⟩ := priceTool.configuration_isWire hproper rfl rfl (by simp [priceTool])
  obtain ⟨ad, had, hadwire⟩ := priceTool.advertisement_isWire hproper rfl rfl
  refine ⟨priceSource_nodes, hbuild, c, ad, hc, had, ?_, ?_⟩
  · exact Bool.eq_false_iff.mpr (mt hcwire.mp (hrendered .canonical))
  · exact Bool.eq_false_iff.mpr (mt hadwire.mp (hrendered .strict))

theorem build_isWire_iff_price :
    ∃ c ad, priceTool.configuration priceSession.graph = .ok c ∧
      priceTool.advertisement priceSession.graph = .ok ad ∧
      ((∀ u, (TypeExpr.declared "Price").Meets priceSource.definitions u →
        u.Serial priceSource.definitions) → c.isWire = true ∧ ad.isWire = true) ∧
      ((∀ r ∈ (Session.after priceSource.definitions (.fresh false) []).1, ∃ a, r = .ok a) →
        (c.isWire = true ↔ priceDefinition.Serial priceSource.definitions) ∧
          (ad.isWire = true ↔ priceDefinition.Serial priceSource.definitions)) :=
  build_isWire_iff priceSource false [] (by simp) (d := priceDefinition)
    (.node (by rw [priceSource_nodes]; exact List.mem_singleton.mpr rfl)) rfl rfl
    (by rintro ps hps p hp; cases hps; cases hp) rfl [] (by simp)

end ToolCatalog
