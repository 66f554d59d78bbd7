import ToolCatalog.Proofs.Alike
import ToolCatalog.Proofs.Registrations
import ToolCatalog.Proofs.Termination

/-!
What a tool shows does not depend on what else was registered, or when.

The parameters of a tool unfold to the same schema in every registry. What is written of them may
still differ, because a descriptor is cut where it stands inside itself, and an expression that was
met while it was pending has two descriptors. Where the way is clear for all tools, both forms are
the same.
-/
namespace ToolCatalog

variable {defs : Definitions} {U : TypeExpr → Prop} {s s' : Session} {L L' : Chart} {t : TypeExpr}
  {a a' : Address}

/-- Describing parameters meets nothing while it is pending. Only an object is looked into. -/
def ClearParameters (defs : Definitions) (t : TypeExpr) : Prop :=
  (t.base defs).isObject = true → Clear defs (fun _ => False) [] t

/-! ## Sessions with charts -/

namespace Charted

theorem empty : Charted defs U .empty fun _ => none where
  seated := by
    constructor
    case bounded => nofun
    case distinct => nofun
    case opened => nofun
    case sits =>
      intro t a _ h
      have hnone : Session.empty.cached? t = none := Session.cached?_fresh false t
      simp [hnone] at h
    case values => simp
  filled := by
    intro name c _ _ h
    have hnone : Session.empty.known? (.declared name) = none :=
      Session.cached?_fresh false (.declared name)
    exact absurd h (by simp [Session.Knows, hnone])
  complete := .fresh false

theorem grown {here : Seat → Prop} (h : Charted defs U s L)
    (hg : Grown defs U [] here none s L s' L') (hall : AllComplete defs s') :
    Charted defs U s' L' := by
  refine ⟨hg.seated, fun name c hU hf hk => ?_, hall⟩
  by_cases hn : s.Knows name
  · exact (h.filled name c hU hf hn).mono hg.growth hg.charts
      (fun a ha => hg.keeps h.seated hU ha) (by simp)
  · have hnone : s.known? (.declared name) = none := by simpa [Session.Knows] using hn
    exact (hg.filled hU hf hnone hk).weaken (Nat.zero_le _)

theorem of_sameWork (hs : s.SameWork s') (h : Charted defs U s L) : Charted defs U s' L := by
  have hg : Grown defs U [] (fun _ => False) none s L s' L :=
    .later (.of_sameWork hs) (by rw [hs.graph]) hs.known? h.seated
  exact h.grown hg
    (h.complete.settled (.of_sameWork hs) (.of_sameWork hs) (.of_same hs.cached?))

/-- Describing parameters keeps a chart where the way is clear. -/
theorem parameters (hU : Universe defs U) (ht : U t) (hclear : ClearParameters defs t)
    (hi : Invariant defs U s) (h : Charted defs U s L)
    (hrun : s.run (describeParameters defs t) = (.ok a, s')) : ∃ L', Charted defs U s' L' := by
  have hp := describeParameters_preserves hU ht hi hrun
  have hall := h.complete.settled hp.growth hp.classes (hp.settled a rfl)
  obtain ⟨names, heval⟩ := (Call.compile t).evaluates defs s
  have hcall : s.run ((Call.compile t).run defs) = (.ok a, s') := hrun
  rw [hcall] at heval
  generalize hres : ((.ok a, s') : Except CompileFault Address × Session) = res at heval
  cases heval with
  | @object name c _ _ hf hobject =>
    subst hres
    have hb : (TypeExpr.declared name).base defs = .object c := TypeExpr.base_declared hf
    have hways (hn : ¬s.Knows name) (f) (hfm : f ∈ c.fields) :
        Clear defs (fun n => n = name ∨ s.Knows n) [] f.2 :=
      ((hclear (by rw [hb]; rfl)).field rfl hf not_false hfm).mono
        (fun n hn => hn.imp_right False.elim) (List.nil_subset _)
    obtain ⟨L', hg, -⟩ := hobject.grows hU a s' rfl [] L hf ht h.seated hways
    exact ⟨L', h.grown hg hall⟩
  | empty hb =>
    have hcase := describeParameters_run defs s t
    rw [hrun] at hcase
    generalize hres : ((.ok a, s') : Except CompileFault Address × Session) = res at hcase
    cases hcase with
    | object hb' =>
      rw [hb'] at hb
      cases hb
    | @empty s₁ _ hs =>
      cases hres
      have hg : Grown defs U [] (fun _ => False) none s L
          (s₁.withBody.withRecord (emptyObjectRecord s₁.graph.bodies.size)) L :=
        .later hp.growth hp.growth.bodies_size hs.known? h.seated
      exact ⟨L, h.grown hg hall⟩

end Charted

theorem Stored.charted {settings : Settings} {ds : List ToolDefinition} {r : Registry}
    (hU : Universe defs U) (h : Stored defs settings ds r) (hds : ∀ d ∈ ds, U d.schema)
    (hclear : ∀ d ∈ ds, ClearParameters defs d.schema) : ∃ L, Charted defs U r.session L := by
  induction h with
  | empty => exact ⟨_, .empty⟩
  | @store ds r d tool r' hstored _ _ hs ih =>
    have hbefore : ∀ e ∈ ds, U e.schema := fun e he => hds e (by simp [he])
    obtain ⟨L, hc⟩ := ih hbefore fun e he => hclear e (by simp [he])
    obtain ⟨s, hbuild, hsame⟩ := hs.built
    obtain ⟨L', hc'⟩ := hc.parameters hU (hds d (by simp)) (hclear d (by simp))
      (hstored.sound hU hbefore).inv (ToolDefinition.build_ok hbuild).1
    exact ⟨L', hc'.of_sameWork hsame⟩
  | report _ e ih =>
    obtain ⟨L, hc⟩ := ih hds hclear
    exact ⟨L, hc.of_sameWork (.report _ e)⟩

/-! ## Both forms -/

/-- The empty object that stands for parameters of another kind is written alike everywhere. -/
theorem Graph.rendered_empty_eq {g g' : Graph} {b b' : Address}
    (hr : g.records[a]? = some (emptyObjectRecord b)) (hb : g.bodies[b]? = some ⟨[], []⟩)
    (hr' : g'.records[a']? = some (emptyObjectRecord b')) (hb' : g'.bodies[b']? = some ⟨[], []⟩)
    (form : ExportForm) (room room' : Nat) :
    g.rendered form (room + 1) [] a = g'.rendered form (room' + 1) [] a' := by
  rw [rendered, rendered, if_neg (by simp), if_neg (by simp), record_of_getElem? hr,
    record_of_getElem? hr']
  refine congrArg Schema.keywords (Record.Agree.renderedSlots_eq
    (Record.agree_ofType (g.partOf_keepsData _) (g'.partOf_keepsData _) "object"
      (.cons ⟨rfl, ?_, by simp⟩ .nil)))
  simp [partOf, body, hb, hb']

/-- The descriptor of an object class is the one that is remembered for it. -/
theorem Shows.cached_of_object (hb : (t.base defs).isObject = true) (h : Shows defs s t a) :
    s.cached? t = some a := by
  cases hbase : t.base defs with
  | object c =>
    obtain ⟨name, rfl, hf⟩ := TypeExpr.base_object hbase
    obtain ⟨r, hstands⟩ := h.bare rfl
    exact hstands.cached_of_declared name c rfl hf
  | _ =>
    rw [hbase] at hb
    cases hb

/-- Parameters are written alike in two sessions with charts. -/
theorem ShowsParameters.rendered_eq (hU : Universe defs U) (hc : Charted defs U s L)
    (hc' : Charted defs U s' L') (ht : U t) (hsteady : ∀ u, t.Meets defs u → u.Steady)
    (h : ShowsParameters defs s t a) (h' : ShowsParameters defs s' t a') (form : ExportForm) :
    s.graph.rendered form (s.graph.records.size + 1) [] a
      = s'.graph.rendered form (s'.graph.records.size + 1) [] a' := by
  cases h with
  | object hb hshows =>
    cases h' with
    | empty hb' _ _ =>
      rw [hb] at hb'
      cases hb'
    | object _ hshows' =>
      have hstays {s : Session} {L : Chart} {a : Address} (hc : Charted defs U s L)
          (h : Shows defs s t a) : Stays defs s L (.own t.key) t a :=
        ⟨h, hc.seated.sits ht (h.cached_of_object hb)⟩
      exact (hstays hc hshows).rendered_eq hU hc hc' form (.start _) (.start _) rfl ht hsteady
        (hstays hc' hshows')
  | empty hb hr hbody =>
    cases h' with
    | object hb' _ =>
      rw [hb] at hb'
      cases hb'
    | empty _ hr' hbody' =>
      exact Graph.rendered_empty_eq hr hbody hr' hbody' form _ _

namespace Tool

variable {g g' : Graph} {tool tool' : Tool}

theorem configuration_eq (hg : g.Proper) (hg' : g'.Proper) (hname : tool.name = tool'.name)
    (hdesc : tool.description = tool'.description) (hperm : tool.permissions = tool'.permissions)
    (h : g.rendered .canonical (g.records.size + 1) [] tool.parameters
      = g'.rendered .canonical (g'.records.size + 1) [] tool'.parameters) :
    ∃ c, tool.configuration g = .ok c ∧ tool'.configuration g' = .ok c := by
  refine ⟨_, by rw [configuration, Graph.render_eq hg]; rfl, ?_⟩
  rw [configuration, Graph.render_eq hg', ← h, ← hname, ← hdesc, ← hperm]
  rfl

theorem advertisement_eq (hg : g.Proper) (hg' : g'.Proper) (hname : tool.name = tool'.name)
    (hdesc : tool.description = tool'.description)
    (h : g.rendered .strict (g.records.size + 1) [] tool.parameters
      = g'.rendered .strict (g'.records.size + 1) [] tool'.parameters) :
    ∃ ad, tool.advertisement g = .ok ad ∧ tool'.advertisement g' = .ok ad := by
  refine ⟨_, by rw [advertisement, Graph.render_eq hg]; rfl, ?_⟩
  rw [advertisement, Graph.render_eq hg', ← h, ← hname, ← hdesc]
  rfl

end Tool

/-- Where the same definition was stored in two registries, before and after any others and in
batches or not, its parameters unfold to the same schema. Both forms of the tool are the same if
describing the parameters of no definition meets anything while it is pending. -/
theorem lookup_shows_alike (source : Source) (settings : Settings) {xs xs' : List Registration}
    (hxs : ∀ e ∈ xs.flatMap Registration.definitions, source.Expression e.schema)
    (hxs' : ∀ e ∈ xs'.flatMap Registration.definitions, source.Expression e.schema)
    {tools tools' : List (List Tool)} {r r' : Registry}
    (h : (xs.mapM (Registration.run source.definitions)).run.run (.empty settings)
      = (.ok tools, r))
    (h' : (xs'.mapM (Registration.run source.definitions)).run.run (.empty settings)
      = (.ok tools', r'))
    {d : ToolDefinition} (hd : d ∈ xs.flatMap Registration.definitions)
    (hd' : d ∈ xs'.flatMap Registration.definitions)
    (hsteady : ∀ u, d.schema.Meets source.definitions u → u.Steady) :
    ∃ tool tool', r.lookup d.name = .ok tool ∧ r'.lookup d.name = .ok tool' ∧
      (∀ depth, r.session.graph.unfold depth tool.parameters
        = r'.session.graph.unfold depth tool'.parameters) ∧
      ((∀ e ∈ xs.flatMap Registration.definitions ++ xs'.flatMap Registration.definitions,
          ClearParameters source.definitions e.schema) →
        ∃ c ad, tool.configuration r.session.graph = .ok c ∧
          tool'.configuration r'.session.graph = .ok c ∧
          tool.advertisement r.session.graph = .ok ad ∧
          tool'.advertisement r'.session.graph = .ok ad) := by
  obtain ⟨U, hU, hexpr⟩ := source.universe
  have hds := fun e he => hexpr _ (hxs e he)
  have hds' := fun e he => hexpr _ (hxs' e he)
  have hstored := Stored.empty.registrations h
  have hstored' := Stored.empty.registrations h'
  rw [List.nil_append] at hstored hstored'
  have hsound := hstored.sound hU hds
  have hsound' := hstored'.sound hU hds'
  obtain ⟨tool, ht⟩ := hstored.serves hU hds d hd
  obtain ⟨tool', ht'⟩ := hstored'.serves hU hds' d hd'
  have hname := ht.name.trans ht'.name.symm
  have hdesc := ht.description.trans ht'.description.symm
  have hperm := Option.some.inj (ht.permissions.symm.trans ht'.permissions)
  refine ⟨tool, tool', ht.lookup, ht'.lookup, fun depth => ?_, fun hclear => ?_⟩
  · have hone := Call.Answered.outline_eq (c := .compile d.schema) hsound.complete depth
      ht.parameters hsteady
    have htwo := Call.Answered.outline_eq (c := .compile d.schema) hsound'.complete depth
      ht'.parameters hsteady
    exact Except.ok.inj (hone.symm.trans htwo)
  · obtain ⟨L, hc⟩ := hstored.charted hU hds fun e he => hclear e (List.mem_append_left _ he)
    obtain ⟨L', hc'⟩ := hstored'.charted hU hds' fun e he => hclear e (List.mem_append_right _ he)
    have hrendered := ht.parameters.rendered_eq hU hc hc' (hds d hd) hsteady ht'.parameters
    obtain ⟨c, hconf, hconf'⟩ := Tool.configuration_eq hsound.proper hsound'.proper hname hdesc
      hperm (hrendered .canonical)
    obtain ⟨ad, hadv, hadv'⟩ := Tool.advertisement_eq hsound.proper hsound'.proper hname hdesc
      (hrendered .strict)
    exact ⟨c, ad, hconf, hconf', hadv, hadv'⟩

/-- The registry after one more definition was stored. -/
def Registry.after (defs : Definitions) (r : Registry) (d : ToolDefinition) : Registry :=
  ((Registry.store defs d).run.run r).2

theorem Registration.run_one_after {r : Registry} {d : ToolDefinition} {tool : Tool}
    (hv : r.validate defs d = .ok ()) (hf : r.find? d.name = none)
    (hs : ((Registry.store defs d).run.run r).1 = .ok tool) :
    ((Registration.one d).run defs).run.run r = (.ok [tool], r.after defs d) :=
  run_one hv hf (Prod.ext hs rfl)

/-- The fields of the class lead to nothing but the class itself. -/
theorem clear_tree : Clear treeSource.definitions (fun _ => False) [] (.declared "Tree") := by
  refine .mk (by simp) (fun e he => ?_) fun name c hname hf _ f hfm => ?_
  · rw [TypeExpr.core_of_bare rfl, TypeExpr.base_declared treeSource_find] at he
    cases he
  · cases hname
    rw [treeSource_find] at hf
    cases hf
    rw [TypeExpr.pending_declared treeSource_find]
    rcases List.mem_pair.mp hfm with rfl | rfl
    · refine .mk (by simp) nofun fun name c hname => ?_
      cases hname
    · refine .mk (by simp) (fun e he => ?_) fun name c hname => ?_
      · cases he
        exact .known treeSource_find (.inl rfl)
      · cases hname

def treeDefinition : ToolDefinition :=
  ⟨.text "tree", .text "", .declared "Tree", .list []⟩

def plantDefinition : ToolDefinition :=
  ⟨.text "plant", .text "", .declared "Tree", .list []⟩

/-- Registries in which the same class was stored under one name, and under two. -/
def treeOnly : Registry :=
  (Registry.empty wordSettings).after treeSource.definitions treeDefinition

def plantOnly : Registry :=
  (Registry.empty wordSettings).after treeSource.definitions plantDefinition

def plantFirst : Registry :=
  plantOnly.after treeSource.definitions treeDefinition

theorem treeOnly_registered :
    ([Registration.one treeDefinition].mapM
        (Registration.run treeSource.definitions)).run.run (.empty wordSettings)
      = (.ok [[⟨.text "tree", .text "", 0, []⟩]], treeOnly) := by
  have htree : Registry.matchesText wordPattern (.text "tree") = true := rfl
  exact Registration.mapM_run_cons (Registration.run_one_after
    (Registry.validate_ok [] htree rfl (by simp)) rfl rfl) rfl

theorem plantFirst_registered :
    ([Registration.one plantDefinition, .one treeDefinition].mapM
        (Registration.run treeSource.definitions)).run.run (.empty wordSettings)
      = (.ok [[⟨.text "plant", .text "", 0, []⟩], [⟨.text "tree", .text "", 0, []⟩]],
        plantFirst) := by
  have hplant : Registry.matchesText wordPattern (.text "plant") = true := rfl
  have htree : Registry.matchesText wordPattern (.text "tree") = true := rfl
  have hfirst : ((Registration.one plantDefinition).run treeSource.definitions).run.run
      (.empty wordSettings) = (.ok [⟨.text "plant", .text "", 0, []⟩], plantOnly) :=
    Registration.run_one_after (Registry.validate_ok [] hplant rfl (by simp)) rfl rfl
  have htools : plantOnly.tools = [⟨.text "plant", .text "", 0, []⟩] := rfl
  have hsecond : ((Registration.one treeDefinition).run treeSource.definitions).run.run plantOnly
      = (.ok [⟨.text "tree", .text "", 0, []⟩], plantFirst) :=
    Registration.run_one_after (Registry.validate_ok [] htree rfl (by simp))
      (by simp [Registry.find?, htools, treeDefinition]) rfl
  exact Registration.mapM_run_cons hfirst (Registration.mapM_run_cons hsecond rfl)

theorem lookup_shows_alike_tree :
    ∃ tool tool', treeOnly.lookup (.text "tree") = .ok tool ∧
      plantFirst.lookup (.text "tree") = .ok tool' ∧
      (∀ depth, treeOnly.session.graph.unfold depth tool.parameters
        = plantFirst.session.graph.unfold depth tool'.parameters) ∧
      ∃ c ad, tool.configuration treeOnly.session.graph = .ok c ∧
        tool'.configuration plantFirst.session.graph = .ok c ∧
        tool.advertisement treeOnly.session.graph = .ok ad ∧
        tool'.advertisement plantFirst.session.graph = .ok ad := by
  have hnodes : treeSource.nodes = [.declared "Tree"] := rfl
  have hexpr : treeSource.Expression (.declared "Tree") :=
    .node (by rw [hnodes]; exact List.mem_singleton.mpr rfl)
  have hone : ∀ e ∈ [Registration.one treeDefinition].flatMap Registration.definitions,
      e.schema = .declared "Tree" := by
    simp [Registration.definitions, treeDefinition]
  have htwo : ∀ e ∈ [Registration.one plantDefinition, .one treeDefinition].flatMap
      Registration.definitions, e.schema = .declared "Tree" := by
    simp [Registration.definitions, treeDefinition, plantDefinition]
  have hsteady : ∀ u, treeDefinition.schema.Meets treeSource.definitions u → u.Steady := by
    intro u hu
    rcases meets_tree hu with rfl | ⟨f, hf, rfl⟩
    · exact fun s s' => rfl
    · fin_cases hf <;> exact fun s s' => rfl
  obtain ⟨tool, tool', ht, ht', hunfold, hforms⟩ := lookup_shows_alike treeSource wordSettings
    (fun e he => hone e he ▸ hexpr) (fun e he => htwo e he ▸ hexpr) treeOnly_registered
    plantFirst_registered (d := treeDefinition) (by simp [Registration.definitions])
    (by simp [Registration.definitions]) hsteady
  refine ⟨tool, tool', ht, ht', hunfold, hforms fun e he _ => ?_⟩
  have hschema : e.schema = .declared "Tree" :=
    (List.mem_append.mp he).elim (hone e) (htwo e)
  exact hschema ▸ clear_tree

/-! ## A list that is registered first or last -/

/-- The descriptor of a dictionary, with what else is said of it. -/
def dictionaryRecord (type : Value) (b : Address) (more : List (String × Value)) : Record :=
  [("type", .data type), ("properties", .properties b), ("required", .required b)] ++
    more.map fun e => (e.1, .data e.2)

/-- What is written of a dictionary with one key that may be absent. -/
def dictionarySchema (type : Value) (key : String) (s : Schema) (more : List (String × Value)) :
    Schema :=
  .keywords ([("type", .data type), ("properties", .properties [(key, s)]),
    ("required", .data (.list []))] ++ more.map fun e => (e.1, .data e.2))

namespace Graph

variable {g : Graph} {b c : Address} {type : Value} {more : List (String × Value)} {key : String}
  {active : List Address}

theorem rendered_dictionary (hr : g.record a = dictionaryRecord type b more)
    (hb : g.body b = ⟨[(key, c)], []⟩) (ha : a ∉ active) (room : Nat) :
    g.rendered .canonical (room + 1) active a
      = dictionarySchema type key (g.rendered .canonical room (a :: active) c) more := by
  have hmore : (more.map fun e => (e.1, Slot.data e.2)).filterMap (fun e =>
      (g.renderedSlot .canonical (g.rendered .canonical room (a :: active)) e.1 e.2).map
        fun p => (e.1, p)) = more.map fun e => (e.1, .data e.2) := by
    simp [List.filterMap_map, renderedSlot, slotData?, ExportForm.keeps, Option.filter]
  rw [rendered, if_neg (by simpa using ha), renderedSlots, hr, dictionaryRecord,
    List.filterMap_append, hmore]
  simp [dictionarySchema, renderedSlot, hb, slotData?, ExportForm.keeps, Option.filter,
    Value.texts]

theorem rendered_inside (hr : g.record a = dictionaryRecord type b more)
    (hmore : ∀ e ∈ more, leadsOn e.1 = false) (ha : a ∈ active) (room : Nat) :
    g.rendered .canonical (room + 1) active a
      = .keywords (("type", .data type) :: more.map fun e => (e.1, .data e.2)) := by
  have hkept : (more.map fun e => (e.1, Slot.data e.2)).filterMap (fun e =>
      if leadsOn e.1 then none
      else ((g.slotData? e.2).filter (ExportForm.canonical.keeps e.1)).map
        fun v => (e.1, SchemaPart.data v)) = more.map fun e => (e.1, .data e.2) := by
    rw [List.filterMap_map, ← List.filterMap_eq_map]
    refine List.filterMap_congr fun e he => ?_
    simp [hmore e he, slotData?, ExportForm.keeps, Option.filter]
  rw [rendered, if_pos (by simpa using ha), hr, dictionaryRecord]
  unfold renderedInside
  rw [List.filterMap_append, hkept]
  simp [leadsOn, slotData?, ExportForm.keeps, Option.filter]

end Graph

/-- A list whose nodes lead on to nodes, and a root that leads to a node. Both fields have one
expression. -/
def nodeSource : Source where
  declarations := [
    .keyed "Node" [] none true [("next", .union [.forward "Node", .atom .null])],
    .keyed "Root" [] none true [("head", .union [.forward "Node", .atom .null])]]
  written := [.reference "Node", .reference "Root"]

def nodeDefinition : ToolDefinition :=
  ⟨.text "node", .text "", .declared "Node", .list []⟩

def rootDefinition : ToolDefinition :=
  ⟨.text "root", .text "", .declared "Root", .list []⟩

/-- The registries in which the node was stored, and then the root. -/
def nodeOnly : Registry :=
  (Registry.empty wordSettings).after nodeSource.definitions nodeDefinition

def nodeFirst : Registry :=
  nodeOnly.after nodeSource.definitions rootDefinition

/-- The registries in which the root was stored, and then the node. -/
def rootOnly : Registry :=
  (Registry.empty wordSettings).after nodeSource.definitions rootDefinition

def rootFirst : Registry :=
  rootOnly.after nodeSource.definitions nodeDefinition

/-- The type of a dictionary that may be null. -/
def nullableType : Value :=
  typeWithNull (some (.text "object"))

theorem nodeFirst_graph : nodeFirst.session.graph
    = ⟨#[dictionaryRecord (.text "object") 0 [],
        dictionaryRecord nullableType 0 [("optional", .bool true)],
        dictionaryRecord (.text "object") 1 []],
      #[⟨[("next", 1)], []⟩, ⟨[("head", 1)], []⟩]⟩ := rfl

theorem rootFirst_graph : rootFirst.session.graph
    = ⟨#[dictionaryRecord (.text "object") 0 [], dictionaryRecord (.text "object") 1 [],
        dictionaryRecord nullableType 1 [("optional", .bool true)],
        dictionaryRecord nullableType 1 [("optional", .bool true)]],
      #[⟨[("head", 3)], []⟩, ⟨[("next", 2)], []⟩]⟩ := rfl

/-- What is written of a node inside itself. -/
def innermost : Schema :=
  .keywords [("type", .data nullableType), ("optional", .data (.bool true))]

theorem dictionarySchema_isWire {type : Value} {s : Schema} {more : List (String × Value)}
    (key : String) (htype : type.isWire = true) (hs : s.toValue.isWire = true)
    (hmore : ∀ e ∈ more, e.2.isWire = true) :
    (dictionarySchema type key s more).toValue.isWire = true := by
  have hproperties : (Value.dict (Schema.propertyEntries [(key, s)])).isWire = true := by
    simp [Value.isWire, Schema.propertyEntries_isWire, hs]
  have hrequired : (Value.list []).isWire = true := rfl
  rw [dictionarySchema, Schema.keywords_isWire, List.forall_mem_append, List.forall_mem_map]
  exact ⟨by simp [Schema.partValue, htype, hproperties, hrequired], hmore⟩

theorem nullableType_isWire : nullableType.isWire = true := by
  refine typeWithNull_isWire fun v hv => ?_
  cases hv
  rfl

/-- What is written of a node has a JSON value, wherever it stands. -/
theorem nullable_dictionarySchema_isWire {s : Schema} (hs : s.toValue.isWire = true) :
    (dictionarySchema nullableType "next" s [("optional", .bool true)]).toValue.isWire = true :=
  dictionarySchema_isWire "next" nullableType_isWire hs (by simp [Value.isWire])

theorem innermost_isWire : innermost.toValue.isWire = true := by
  simp [innermost, Schema.keywords_isWire, Schema.partValue, nullableType_isWire, Value.isWire]

theorem nodeFirst_rendered : nodeFirst.session.graph.rendered .canonical 4 [] 2
    = dictionarySchema (.text "object") "head"
        (dictionarySchema nullableType "next" innermost [("optional", .bool true)]) [] := by
  rw [nodeFirst_graph, Graph.rendered_dictionary rfl rfl (by simp),
    Graph.rendered_dictionary rfl rfl (by simp),
    Graph.rendered_inside rfl (by simp [leadsOn]) (by simp)]
  rfl

theorem rootFirst_rendered : rootFirst.session.graph.rendered .canonical 5 [] 0
    = dictionarySchema (.text "object") "head"
        (dictionarySchema nullableType "next"
          (dictionarySchema nullableType "next" innermost [("optional", .bool true)])
          [("optional", .bool true)]) [] := by
  rw [rootFirst_graph, Graph.rendered_dictionary rfl rfl (by simp),
    Graph.rendered_dictionary rfl rfl (by simp), Graph.rendered_dictionary rfl rfl (by simp),
    Graph.rendered_inside rfl (by simp [leadsOn]) (by simp)]
  rfl

def nodeTool (a : Address) : Tool :=
  ⟨.text "node", .text "", a, []⟩

def rootTool (a : Address) : Tool :=
  ⟨.text "root", .text "", a, []⟩

theorem wordPattern_node : Registry.matchesText wordPattern (.text "node") = true :=
  rfl

theorem wordPattern_root : Registry.matchesText wordPattern (.text "root") = true :=
  rfl

theorem nodeFirst_registered :
    ([Registration.one nodeDefinition, .one rootDefinition].mapM
        (Registration.run nodeSource.definitions)).run.run (.empty wordSettings)
      = (.ok [[nodeTool 0], [rootTool 2]], nodeFirst) := by
  have hfirst : ((Registration.one nodeDefinition).run nodeSource.definitions).run.run
      (.empty wordSettings) = (.ok [nodeTool 0], nodeOnly) :=
    Registration.run_one_after (Registry.validate_ok [] wordPattern_node rfl (by simp)) rfl rfl
  have htools : nodeOnly.tools = [nodeTool 0] := rfl
  have hsecond : ((Registration.one rootDefinition).run nodeSource.definitions).run.run nodeOnly
      = (.ok [rootTool 2], nodeFirst) :=
    Registration.run_one_after (Registry.validate_ok [] wordPattern_root rfl (by simp))
      (by simp [Registry.find?, htools, nodeTool, rootDefinition]) rfl
  exact Registration.mapM_run_cons hfirst (Registration.mapM_run_cons hsecond rfl)

theorem rootFirst_registered :
    ([Registration.one rootDefinition, .one nodeDefinition].mapM
        (Registration.run nodeSource.definitions)).run.run (.empty wordSettings)
      = (.ok [[rootTool 0], [nodeTool 1]], rootFirst) := by
  have hfirst : ((Registration.one rootDefinition).run nodeSource.definitions).run.run
      (.empty wordSettings) = (.ok [rootTool 0], rootOnly) :=
    Registration.run_one_after (Registry.validate_ok [] wordPattern_root rfl (by simp)) rfl rfl
  have htools : rootOnly.tools = [rootTool 0] := rfl
  have hsecond : ((Registration.one nodeDefinition).run nodeSource.definitions).run.run rootOnly
      = (.ok [nodeTool 1], rootFirst) :=
    Registration.run_one_after (Registry.validate_ok [] wordPattern_node rfl (by simp))
      (by simp [Registry.find?, htools, rootTool, nodeDefinition]) rfl
  exact Registration.mapM_run_cons hfirst (Registration.mapM_run_cons hsecond rfl)

theorem nodeSource_nodes : nodeSource.nodes = [.declared "Node", .declared "Root"] :=
  rfl

theorem nodeSource_proper {ds : List ToolDefinition} {r : Registry}
    (h : Stored nodeSource.definitions wordSettings ds r)
    (hds : ∀ d ∈ ds, d = nodeDefinition ∨ d = rootDefinition) : r.session.Proper := by
  obtain ⟨U, hU, hexpr⟩ := nodeSource.universe
  refine (h.sound hU fun d hd => hexpr _ (.node ?_)).proper
  rw [nodeSource_nodes]
  rcases hds d hd with rfl | rfl <;> simp [nodeDefinition, rootDefinition]

/-- Where the node was stored first, the root is written with one node less. -/
theorem root_shown_by_order :
    ([Registration.one nodeDefinition, .one rootDefinition].mapM
          (Registration.run nodeSource.definitions)).run.run (.empty wordSettings)
        = (.ok [[nodeTool 0], [rootTool 2]], nodeFirst) ∧
      ([Registration.one rootDefinition, .one nodeDefinition].mapM
          (Registration.run nodeSource.definitions)).run.run (.empty wordSettings)
        = (.ok [[rootTool 0], [nodeTool 1]], rootFirst) ∧
      ∃ c c', (rootTool 2).configuration nodeFirst.session.graph = .ok c ∧
        (rootTool 0).configuration rootFirst.session.graph = .ok c' ∧ c.equal c' = false := by
  have hnode : nodeFirst.session.Proper :=
    nodeSource_proper (Stored.empty.registrations nodeFirst_registered)
      (by simp [Registration.definitions])
  have hroot : rootFirst.session.Proper :=
    nodeSource_proper (Stored.empty.registrations rootFirst_registered)
      (by simp [Registration.definitions])
  have hsize : nodeFirst.session.graph.records.size + 1 = 4 := by
    rw [nodeFirst_graph]
    rfl
  have hsize' : rootFirst.session.graph.records.size + 1 = 5 := by
    rw [rootFirst_graph]
    rfl
  -- What has a JSON value is equal to its copies.
  have hwire := nullable_dictionarySchema_isWire innermost_isWire
  have hplain (s : Schema) (hs : s.toValue.isWire = true) :
      (dictionarySchema (.text "object") "head" s []).copied .canonical
        = dictionarySchema (.text "object") "head" s [] :=
    Schema.copied_eq_self (Value.not_holdsIdentity_of_isWire
      (dictionarySchema_isWire "head" rfl hs (by simp))) .canonical
  have hwritten : nodeFirst.session.graph.render .canonical (rootTool 2).parameters = .ok _ :=
    (Graph.render_eq hnode .canonical 2).trans (by
      rw [hsize, nodeFirst_rendered, hplain _ hwire])
  have hwritten' : rootFirst.session.graph.render .canonical (rootTool 0).parameters = .ok _ :=
    (Graph.render_eq hroot .canonical 0).trans (by
      rw [hsize', rootFirst_rendered, hplain _ (nullable_dictionarySchema_isWire hwire)])
  refine ⟨nodeFirst_registered, rootFirst_registered, _, _,
    by rw [Tool.configuration, hwritten]; rfl, by rw [Tool.configuration, hwritten']; rfl, ?_⟩
  simp [rootTool, dictionarySchema, innermost, Schema.toValue, Schema.partValue,
    Schema.partEntries, Schema.propertyEntries, Value.equal, Value.subsetEntries, Value.textual?]

end ToolCatalog
