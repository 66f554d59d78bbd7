import ToolCatalog.Proofs.Frozen
import ToolCatalog.Proofs.Objects
import ToolCatalog.Proofs.Refusal
import ToolCatalog.Proofs.Seating

/-!
References to an object class share its descriptor.

A site in the graph of a descriptor that a call returned stands for an expression: the one that the
call was about, its part, or a field of its object class. Where that expression refers to an object
class, the site holds the descriptor of the class itself, or, if its layers say more, a copy that
has the same body.
-/
namespace ToolCatalog

variable {defs : Definitions} {U : TypeExpr → Prop} {s s' : Session} {t u : TypeExpr}
  {a a₀ b : Address} {o : ObjectClass}

/-! ## Copies -/

/-- Layers leave every keyword alone that is not theirs. -/
theorem Analysis.lookup_decorate {key : String} (an : Analysis) (r : Record)
    (hkey : key ∉ layerKeywords) : (an.decorate r).lookup key = r.lookup key := by
  rw [an.decorate_eq]
  refine Record.lookup_putAll_of_notMem fun x hx he => hkey ?_
  exact he ▸ Analysis.additions_key hx

theorem Analysis.decorate_type (an : Analysis) (r : Record) (hn : an.nullable = true) :
    (an.decorate r).data? "type" = some (typeWithNull (r.data? "type")) := by
  have htype : (an.decorate r).lookup "type" = some (.data (typeWithNull (r.data? "type"))) := by
    unfold Analysis.decorate
    cases an.description <;> cases an.default? <;> cases an.optional <;>
      simp [hn, Entries.lookup_put_self, Entries.lookup_put_ne, Record.data?_put_ne]
  rw [Record.data?, htype]

/-- An expression with a default may be absent. -/
theorem TypeExpr.allowsAbsence_of_default (h : t.defaultSource?.isSome = true) :
    t.allowsAbsence = true := by
  rw [defaultSource?, List.findSome?_isSome_iff] at h
  obtain ⟨l, hl, hsource⟩ := h
  refine List.any_eq_true.mpr ⟨l, hl, ?_⟩
  cases l <;> simp_all [Layer.source?, Layer.allowsAbsence]

/-- The properties and the required names of a record are those of a body. -/
structure Record.HasBody (r : Record) (body : Address) : Prop where
  properties : r.lookup "properties" = some (.properties body)
  required : r.lookup "required" = some (.required body)

theorem objectRecord_hasBody (o : ObjectClass) (b : Address) : (objectRecord o b).HasBody b := by
  unfold objectRecord
  cases nonEmpty? o.doc <;> exact ⟨rfl, rfl⟩

theorem Record.HasBody.decorate {r : Record} (h : r.HasBody b) (an : Analysis) :
    (an.decorate r).HasBody b := by
  constructor
  · rw [an.lookup_decorate r (by simp [layerKeywords]), h.properties]
  · rw [an.lookup_decorate r (by simp [layerKeywords]), h.required]

/-- A copy with additions is no descriptor of the class itself. -/
theorem decorate_ne_objectRecord (hb : t.core.base defs = .object o)
    (henlarge : t.enlarges defs = true) {d : Option DefaultOutcome} {b b' : Address} :
    (t.analysisWith defs d).decorate (objectRecord o b) ≠ objectRecord o b' := by
  intro heq
  have htype (b : Address) : Record.data? (objectRecord o b) "type" = some (.text "object") := by
    unfold objectRecord
    cases nonEmpty? o.doc <;> rfl
  have hoptional : t.allowsAbsence = false := by
    have hlookup := congrArg (List.lookup "optional") heq
    rw [Analysis.decorate_optional, objectRecord_optional, TypeExpr.analysisWith_eq] at hlookup
    by_cases habs : t.allowsAbsence = true
    · simp [habs, objectRecord_optional] at hlookup
    · exact Bool.eq_false_iff.mpr habs
  have hnullable : t.allowsNull = false := by
    by_contra hnull
    have hn : (t.analysisWith defs d).nullable = true := by
      rw [TypeExpr.analysisWith_eq]
      exact Bool.eq_true_of_not_eq_false hnull
    have hdata := congrArg (Record.data? · "type") heq
    simp [Analysis.decorate_type _ _ hn, htype, typeWithNull] at hdata
  have hdefault : t.defaultSource?.isSome = false := by
    by_contra hdef
    rw [TypeExpr.allowsAbsence_of_default (Bool.eq_true_of_not_eq_false hdef)] at hoptional
    cases hoptional
  -- What is left to be added is another description.
  have hother : t.describedBy defs ≠ nonEmpty? o.doc := by
    simpa [TypeExpr.enlarges, hoptional, hnullable, hdefault, hb, Base.description] using henlarge
  have hdata := congrArg (Record.data? · "description") heq
  simp only [Analysis.decorate_description, objectRecord_description,
    TypeExpr.analysisWith_eq] at hdata
  have hlayers : t.describedBy defs
      = (t.peel.1.findSome? Layer.description).or (nonEmpty? o.doc) := by
    cases hown : t.peel.1.findSome? Layer.description <;>
      simp [TypeExpr.describedBy, hown, hb, Base.description]
  cases hown : t.peel.1.findSome? Layer.description with
  | none =>
    rw [hown, Option.none_or] at hlayers
    exact hother hlayers
  | some x =>
    rw [hown, Option.some_or] at hlayers
    rw [hlayers] at hdata hother
    cases hdoc : nonEmpty? o.doc with
    | none =>
      rw [hdoc] at hdata
      cases hdata
    | some y =>
      rw [hdoc] at hdata hother
      cases hdata
      exact hother rfl

/-! ## What refers to an object class -/

/-- A descriptor that stands for a reference to an object class: the descriptor `a₀` of the class
itself, or a copy that says more and has the same body. -/
structure Refers (defs : Definitions) (g : Graph) (t : TypeExpr) (o : ObjectClass)
    (a₀ a : Address) : Prop where
  itself : t.enlarges defs = false → a = a₀
  copied : t.enlarges defs = true → a ≠ a₀
  body : ∃ body, g.record a₀ = objectRecord o body ∧ (g.record a₀).HasBody body ∧
    (g.record a).HasBody body

/-- Layers add something to what stands under them exactly if they say more. -/
theorem Stands.adds_eq {r : Record} (h : Stands defs s t a r) {d : Option DefaultOutcome}
    (hd : t.MayFind d) : (t.analysisWith defs d).adds r = t.enlarges defs := by
  refine TypeExpr.adds_eq hd ?_
  cases h with
  | object hb _ _ =>
    rw [objectRecord_description, hb]
    rfl
  | value hb _ hrec _ =>
    rw [Record.data?, Base.recordOf_lookup (.inl rfl) hrec, TypeExpr.base_description_of_value hb]
    rfl

theorem Shows.refers (h : Shows defs s t a) (hb : t.core.base defs = .object o) :
    ∃ a₀, s.cached? t.core = some a₀ ∧ Refers defs s.graph t o a₀ a := by
  cases h with
  | value hb' _ _ _ _ =>
    rw [hb] at hb'
    cases hb'
  | @object _ o' a₀ body _ hb' hc hr hf =>
    obtain rfl : o' = o := by simpa [hb] using hb'.symm
    obtain ⟨d, hd, hf⟩ := hf
    have hrecord : s.graph.record a₀ = objectRecord o' body := Graph.record_of_getElem? hr
    have hown : (s.graph.record a₀).HasBody body := hrecord ▸ objectRecord_hasBody o' body
    rw [Stands.adds_eq (.object hb hc hr) hd] at hf
    refine ⟨a₀, hc, ?_⟩
    by_cases henlarge : t.enlarges defs = true
    · rw [if_pos henlarge] at hf
      have hcopy := Graph.record_of_getElem? hf
      refine ⟨fun hn => ?_, fun _ heq => ?_, body, hrecord, hown, ?_⟩
      · rw [henlarge] at hn
        cases hn
      · rw [heq, hrecord] at hcopy
        exact decorate_ne_objectRecord hb henlarge hcopy.symm
      · rw [hcopy]
        exact (objectRecord_hasBody o' body).decorate _
    · rw [if_neg henlarge] at hf
      subst hf
      exact ⟨fun _ => rfl, fun hn => absurd hn henlarge, body, hrecord, hown, hown⟩

/-! ## Sites -/

/-- The sites of a graph that stand for what is met from an expression whose descriptor is at an
address: the expression itself, parts, and of the fields of a class with one name the last. -/
inductive Site (defs : Definitions) (g : Graph) (t : TypeExpr) (a : Address) :
    TypeExpr → Address → Prop
  | root : Site defs g t a t a
  | part {u b e c k} (h : Site defs g t a u b) (hp : (u.core.base defs).part? = some e)
      (hk : (k, .schema c) ∈ g.record b) : Site defs g t a e c
  | field {u b o name v c k body} (h : Site defs g t a u b) (hb : u.core.base defs = .object o)
      (hf : (name, v) ∈ Entries.ofList o.fields) (hk : (k, .properties body) ∈ g.record b)
      (hc : (name, c) ∈ (g.body body).properties) : Site defs g t a v c

/-- Two lists of entries side by side hold what belongs together under one key. -/
theorem related_of_keys {α β : Type} {R : α → β → Prop} {l : List (String × α)}
    {m : List (String × β)} (h : List.Forall₂ (fun x y => x.1 = y.1 ∧ R x.2 y.2) l m)
    (hl : (l.map (·.1)).Nodup) {k : String} {v : α} {w : β} (hv : (k, v) ∈ l)
    (hw : (k, w) ∈ m) : R v w := by
  obtain ⟨⟨k', v'⟩, hv', hkey, hr⟩ := exists_of_mem_right h hw
  obtain rfl : k' = k := hkey
  have heq : (k', v') = (k', v) := List.inj_on_of_nodup_map hl hv' hv rfl
  cases heq
  exact hr

/-- The schema in the descriptor of an expression is the descriptor of its part. -/
theorem Shows.part_shows {e : TypeExpr} {c : Address} {k : String} (h : Shows defs s t a)
    (hp : (t.core.base defs).part? = some e) (hk : (k, .schema c) ∈ s.graph.record a) :
    Shows defs s e c := by
  have hedge : s.graph.Edge a c := ⟨_, hk, rfl⟩
  cases h with
  | object hb _ _ _ =>
    rw [hb] at hp
    cases hp
  | @value _ p a₀ r _ hb hpart hrec hr hf =>
    rw [Shows.edge_iff (.value hb hpart hrec hr) hf,
      (Record.Profile.recordOf hb hrec).below] at hedge
    exact hedge.2 ▸ hpart e hp

/-- Where all classes are complete, the properties of the descriptor of an object class are the
descriptors of its fields. -/
theorem Shows.field_shows (hall : AllComplete defs s) {name : String} {v : TypeExpr}
    {body c : Address} {k : String} (h : Shows defs s t a) (hb : t.core.base defs = .object o)
    (hf : (name, v) ∈ Entries.ofList o.fields) (hk : (k, .properties body) ∈ s.graph.record a)
    (hc : (name, c) ∈ (s.graph.body body).properties) : Shows defs s v c := by
  cases h with
  | value hb' _ _ _ _ =>
    rw [hb] at hb'
    cases hb'
  | @object _ o' a₀ b _ hb' hcache hr hfin =>
    obtain rfl : o' = o := by simpa [hb] using hb'.symm
    obtain ⟨d, hd, heq⟩ := hfin.finish hr
    obtain ⟨m, hm, hfind⟩ := TypeExpr.base_object hb
    obtain ⟨b', x, ⟨a', hc', hr'⟩, hbody, hw⟩ := hall m o' hfind (by rw [← hm, hcache]; rfl)
    obtain rfl : a₀ = a' := Option.some.inj ((hm ▸ hcache).symm.trans hc')
    obtain rfl : b' = b := objectRecord_inj (Option.some.inj (hr'.symm.trans hr))
    -- The layers add data only, so the properties are those of the class.
    rw [heq] at hk
    have hmem : (k, Slot.properties body) ∈ objectRecord o' b' := by
      have hprofile := Record.Profile.objectRecord (g := s.graph) o' b'
      rcases Analysis.mem_finish (hd.isWire defs) hprofile.layered hk with hk | ⟨w, hw, -⟩
      · exact hk
      · cases hw
    rw [objectRecord_body hmem rfl, Graph.body, hbody] at hc
    exact related_of_keys hw.properties (Entries.nodup_ofList o'.fields) hf hc

/-- What stands at a site is the descriptor of the expression that the site stands for. -/
theorem Site.shows (hall : AllComplete defs s) (h : Shows defs s t a)
    (hp : Site defs s.graph t a u b) : Shows defs s u b := by
  induction hp with
  | root => exact h
  | part _ hpart hk ih => exact ih.part_shows hpart hk
  | field _ hb hf hk hc ih => exact ih.field_shows hall hb hf hk hc

/-! ## Compiling again -/

/-- Compiling an expression gives this descriptor, now and after any other calls of expressions of
the source, failed ones included, and does nothing else. -/
def Session.Compiles (source : Source) (s : Session) (t : TypeExpr) (a : Address) : Prop :=
  ∀ later : List Call, (∀ c ∈ later, source.Expression c.type) →
    let s' := (s.after source.definitions later).2
    s'.run (describeParameters source.definitions t) = (.ok a, s')

/-- After any calls of which none failed, wherever a descriptor that was returned leads to a
reference to an object class, what stands there is the very descriptor that compiling the class
gives, now and later, or a copy with more to say that shares its body. -/
theorem reference_shares_object (source : Source) (observable : Bool) (calls : List Call)
    (hcalls : ∀ c ∈ calls, source.Expression c.type)
    (hok : ∀ r ∈ (Session.after source.definitions (.fresh observable) calls).1, ∃ a, r = .ok a)
    {c : Call} {a : Address}
    (hc : (c, .ok a) ∈ calls.zip (Session.after source.definitions (.fresh observable) calls).1)
    (hlook : c.looksInto source.definitions = true) {u : TypeExpr} {b : Address}
    (hsite : Site source.definitions
      (Session.after source.definitions (.fresh observable) calls).2.graph c.type a u b)
    {o : ObjectClass} (hu : u.core.base source.definitions = .object o) :
    let s := (Session.after source.definitions (.fresh observable) calls).2
    ∃ a₀, s.Compiles source u.core a₀ ∧ Refers source.definitions s.graph u o a₀ b := by
  intro s
  obtain ⟨U, hU, hexpr⟩ := source.universe
  have hall : ∀ c ∈ calls, U c.type := fun c hc => hexpr _ (hcalls c hc)
  obtain ⟨-, -, hinv⟩ := Session.after_preserves hU hall (.fresh observable)
  have hcomplete := Session.after_allComplete hU hall (.fresh observable) (.fresh observable) hok
  have hanswered := List.forall₂_zip (Session.after_answered hU hall (.fresh observable)) hc a rfl
  have hroot : Shows source.definitions s c.type a := by
    cases c with
    | describe t => exact hanswered
    | compile t =>
      cases hanswered with
      | object _ h => exact h
      | empty hb _ _ =>
        rw [Call.looksInto, hb] at hlook
        cases hlook
  obtain ⟨a₀, hcached, hrefers⟩ := (hsite.shows hcomplete hroot).refers hu
  refine ⟨a₀, fun later hlater => ?_, hrefers⟩
  obtain ⟨-, hk, -⟩ := Session.after_preserves hU (fun c hc => hexpr _ (hlater c hc)) hinv
  obtain ⟨name, hname, hfind⟩ := TypeExpr.base_object hu
  rw [hname] at hcached ⊢
  exact describeParameters_kept (TypeExpr.base_declared hfind) (hk.cached hfind hcached)

/-- The expression of both fields of the list and its root. -/
def nodeLink : TypeExpr :=
  .nullable 4 .form [.declared "Node", .nothing] (.declared "Node")

/-- The node and the root as they are finished. -/
def nodeClass : ObjectClass :=
  ⟨none, [("next", nodeLink)], none⟩

def rootClass : ObjectClass :=
  ⟨none, [("head", nodeLink)], none⟩

theorem nodeSource_find : nodeSource.definitions.find? "Node" = some (.object nodeClass) ∧
    nodeSource.definitions.find? "Root" = some (.object rootClass) :=
  ⟨rfl, rfl⟩

/-- The session after the root was compiled, and with it the node. -/
def rootCompiled : Session :=
  (Session.after nodeSource.definitions (.fresh false) [.compile (.declared "Root")]).2

theorem rootCompiled_graph : rootCompiled.graph
    = ⟨#[dictionaryRecord (.text "object") 0 [], dictionaryRecord (.text "object") 1 [],
        dictionaryRecord nullableType 1 [("optional", .bool true)],
        dictionaryRecord nullableType 1 [("optional", .bool true)]],
      #[⟨[("head", 3)], []⟩, ⟨[("next", 2)], []⟩]⟩ := rfl

/-- The link to the node that was described while the node was being walked. -/
theorem rootCompiled_site :
    Site nodeSource.definitions rootCompiled.graph (.declared "Root") 0 nodeLink 2 := by
  have hhead : Site nodeSource.definitions rootCompiled.graph (.declared "Root") 0 nodeLink 3 := by
    have hrecord : ("properties", Slot.properties 0) ∈ rootCompiled.graph.record 0 := by
      simp [rootCompiled_graph, Graph.record, dictionaryRecord]
    have hbody : ("head", 3) ∈ (rootCompiled.graph.body 0).properties := by
      simp [rootCompiled_graph, Graph.body]
    exact .field .root (TypeExpr.base_declared nodeSource_find.2) (List.mem_singleton.mpr rfl)
      hrecord hbody
  have hrecord : ("properties", Slot.properties 1) ∈ rootCompiled.graph.record 3 := by
    simp [rootCompiled_graph, Graph.record, dictionaryRecord]
  have hbody : ("next", 2) ∈ (rootCompiled.graph.body 1).properties := by
    simp [rootCompiled_graph, Graph.body]
  exact .field hhead (TypeExpr.base_declared nodeSource_find.1) (List.mem_singleton.mpr rfl)
    hrecord hbody

theorem reference_shares_object_link :
    ∃ a₀, rootCompiled.Compiles nodeSource (.declared "Node") a₀ ∧
      Refers nodeSource.definitions rootCompiled.graph nodeLink nodeClass a₀ 2 := by
  refine reference_shares_object nodeSource false [.compile (.declared "Root")] ?_ ?_
    (c := .compile (.declared "Root")) (a := 0) (List.mem_singleton.mpr rfl) rfl
    rootCompiled_site (TypeExpr.base_declared nodeSource_find.1)
  · intro c hc
    obtain rfl := List.mem_singleton.mp hc
    exact .node (by rw [nodeSource_nodes]; simp [Call.type])
  · intro r hr
    exact ⟨0, List.mem_singleton.mp hr⟩

end ToolCatalog
