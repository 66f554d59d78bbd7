import ToolCatalog.Proofs.Orders
import ToolCatalog.Proofs.Renumbering

/-!
One annotation as the type of a model's field and of a dictionary's key.

The field information in an annotation is put together in two ways. A model merges its items, and
what a later item gives wins, an empty description too. The layer of an annotation takes the last
description that is not empty. In everything else the two ways agree, so a field and a key are
described alike unless an empty description comes after another one, and then only if that other one
is found under the annotation as well.
-/
namespace ToolCatalog

variable {defs : Definitions} {t u inner : TypeExpr} {items : List Metadata} {i : Nat}

/-! ## Merging items -/

namespace FieldSpec

/-- Items put together, where each wins over those before. -/
def merged (specs : List FieldSpec) : FieldSpec :=
  specs.foldl override empty

/-- The last description that is not empty. -/
def lastText (specs : List FieldSpec) : Option String :=
  specs.foldl (fun d s => s.description? <|> d) none

/-- The last default. -/
def lastSource (specs : List FieldSpec) : Option DefaultSource :=
  specs.foldl (fun d s => s.source? <|> d) none

/-- A field is not given both a default and a factory. -/
def OneDefault (s : FieldSpec) : Prop :=
  s.default = none ∨ s.factory = none

theorem merged_append (specs : List FieldSpec) (s : FieldSpec) :
    merged (specs ++ [s]) = (merged specs).override s := by
  simp [merged]

theorem lastText_append (specs : List FieldSpec) (s : FieldSpec) :
    lastText (specs ++ [s]) = (s.description? <|> lastText specs) := by
  simp [lastText]

theorem lastSource_append (specs : List FieldSpec) (s : FieldSpec) :
    lastSource (specs ++ [s]) = (s.source? <|> lastSource specs) := by
  simp [lastSource]

/-- What items describe together is the last text that is not empty, or nothing. -/
theorem merged_description (specs : List FieldSpec) :
    (merged specs).description? = none ∨ (merged specs).description? = lastText specs := by
  induction specs using List.reverseRecOn with
  | nil => exact .inl rfl
  | append_singleton specs s ih =>
    rw [merged_append, lastText_append]
    cases hd : s.description with
    | none =>
      have hnone : s.description? = none := by simp [description?, hd]
      have hkept : ((merged specs).override s).description? = (merged specs).description? := by
        simp [override, description?, hd]
      rw [hkept, hnone]
      exact ih
    | some d =>
      -- An empty text takes away those before, which the layer keeps.
      by_cases hempty : d = ""
      · exact .inl (by simp [override, description?, hd, hempty])
      · have htext : s.description? = some d := by simp [description?, hd, hempty]
        have hgiven : ((merged specs).override s).description? = some d := by
          simp [override, description?, hd, hempty]
        rw [hgiven, htext]
        exact .inr rfl

/-- Where no default comes together with a factory, the last of them is the one that counts. -/
theorem merged_source (specs : List FieldSpec) (h : (merged specs).OneDefault) :
    (merged specs).source? = lastSource specs := by
  induction specs using List.reverseRecOn with
  | nil => rfl
  | append_singleton specs s ih =>
    rw [merged_append] at h ⊢
    rw [lastSource_append]
    cases hs : s.source? with
    | none =>
      obtain ⟨hf, hd⟩ : s.factory = none ∧ s.default = none := by
        unfold source? at hs
        split at hs <;> simp_all
      have hsame : ((merged specs).override s).source? = (merged specs).source? := by
        simp [override, source?, hf, hd]
      rw [hsame]
      exact ih (by simpa [OneDefault, override, hf, hd] using h)
    | some source =>
      rw [← hs]
      cases hf : s.factory with
      | some f => simp_all [OneDefault, override, source?]
      | none =>
        cases hd : s.default with
        | some v => simp_all [OneDefault, override, source?]
        | none => simp [source?, hf, hd] at hs

end FieldSpec

/-! ## The two layers -/

namespace Layer

/-- The layer of remarks and perhaps a default. -/
def described (r : Remarks) (source : Option DefaultSource) : Layer :=
  source.elim (.remarks r) (.default r)

variable (r : Remarks) (source : Option DefaultSource)

@[simp] theorem description_described : (described r source).description = r.description := by
  cases source <;> rfl

@[simp] theorem constraints_described : (described r source).constraints = r.constraints := by
  cases source <;> rfl

@[simp] theorem source?_described : (described r source).source? = source := by
  cases source <;> rfl

@[simp] theorem allowsAbsence_described :
    (described r source).allowsAbsence = source.isSome := by
  cases source <;> rfl

@[simp] theorem allowsNull_described : (described r source).allowsNull = false := by
  cases source <;> rfl

theorem ofField_eq (spec : FieldSpec) :
    ofField spec = described ⟨spec.description?, spec.constraints⟩ spec.source? := by
  unfold ofField
  cases spec.source? <;> rfl

theorem ofItems_eq (items : List Metadata) : ofItems items =
    described ⟨FieldSpec.lastText (Metadata.fields items), items.flatMap Metadata.constraints⟩
      (FieldSpec.lastSource (Metadata.fields items)) := by
  simp only [ofItems, FieldSpec.lastSource]
  cases (Metadata.fields items).foldl (fun d s => s.source? <|> d) none <;> rfl

end Layer

/-- The field information of an annotation as a model merges it. -/
theorem ModelField.content_annotated (i : Nat) (inner : TypeExpr) (items : List Metadata) :
    content (.annotated i inner items) .nothing =
      ({ FieldSpec.merged (Metadata.fields items) with
          constraints := items.flatMap Metadata.constraints }, inner) :=
  rfl

namespace TypeExpr

theorem describedBy_field (defs : Definitions) (k : Nat) (spec : FieldSpec) (inner : TypeExpr) :
    (field k spec inner).describedBy defs = (spec.description? <|> inner.describedBy defs) := by
  simp only [describedBy, peel, core, List.findSome?_cons, Layer.ofField_eq,
    Layer.description_described]
  cases spec.description? <;> rfl

theorem describedBy_annotated (defs : Definitions) (i : Nat) (inner : TypeExpr)
    (items : List Metadata) : (annotated i inner items).describedBy defs =
      (FieldSpec.lastText (Metadata.fields items) <|> inner.describedBy defs) := by
  simp only [describedBy, peel, core, List.findSome?_cons, Layer.ofItems_eq,
    Layer.description_described]
  cases FieldSpec.lastText (Metadata.fields items) <;> rfl

/-- A field and a key of one annotation have one description exactly if the merged one is the last
that is not empty, or that one is found under the annotation. -/
theorem describedBy_merged_iff {spec : FieldSpec}
    (h : ModelField.content (.annotated i inner items) .nothing = (spec, inner)) (k : Nat) :
    (field k spec inner).describedBy defs = (annotated i inner items).describedBy defs ↔
      spec.description? = FieldSpec.lastText (Metadata.fields items) ∨
        inner.describedBy defs = FieldSpec.lastText (Metadata.fields items) := by
  rw [ModelField.content_annotated] at h
  have hspec : spec.description? = (FieldSpec.merged (Metadata.fields items)).description? := by
    rw [← (Prod.mk.inj h).1]
    rfl
  rw [describedBy_field, describedBy_annotated]
  rcases FieldSpec.merged_description (Metadata.fields items) with hnone | hlast
  · rw [hspec, hnone]
    cases FieldSpec.lastText (Metadata.fields items) <;> simp [eq_comm]
  · rw [hspec, hlast]
    simp

/-- A field gets its default where the key gets it. -/
theorem defaultSource_of_merged {spec : FieldSpec}
    (h : ModelField.content (.annotated i inner items) .nothing = (spec, inner))
    (hone : spec.OneDefault) (k : Nat) :
    (field k spec inner).defaultSource? = (annotated i inner items).defaultSource? := by
  rw [ModelField.content_annotated] at h
  obtain ⟨rfl, -⟩ := Prod.mk.inj h
  simp only [defaultSource?, peel, List.findSome?_cons, Layer.ofField_eq, Layer.ofItems_eq,
    Layer.source?_described, ← FieldSpec.merged_source (Metadata.fields items) hone]
  rfl

/-- A field may be left out exactly if the key may. -/
theorem allowsAbsence_of_merged {spec : FieldSpec}
    (h : ModelField.content (.annotated i inner items) .nothing = (spec, inner))
    (hone : spec.OneDefault) (k : Nat) :
    (field k spec inner).allowsAbsence = (annotated i inner items).allowsAbsence := by
  rw [ModelField.content_annotated] at h
  obtain ⟨rfl, -⟩ := Prod.mk.inj h
  simp only [allowsAbsence, peel, List.any_cons, Layer.ofField_eq, Layer.ofItems_eq,
    Layer.allowsAbsence_described,
    ← FieldSpec.merged_source (Metadata.fields items) hone]
  rfl

/-- Where the description is one, a field and a key of one annotation say the same. -/
theorem saysSame_of_merged {spec : FieldSpec}
    (h : ModelField.content (.annotated i inner items) .nothing = (spec, inner))
    (hone : spec.OneDefault) (k : Nat)
    (htext : (field k spec inner).describedBy defs = (annotated i inner items).describedBy defs) :
    SaysSame defs (field k spec inner) (annotated i inner items) := by
  have habsence := allowsAbsence_of_merged h hone k
  have hsource := defaultSource_of_merged h hone k
  rw [ModelField.content_annotated] at h
  obtain ⟨rfl, -⟩ := Prod.mk.inj h
  exact {
    absence := habsence
    null := by
      simp only [allowsNull, peel, List.any_cons, Layer.ofField_eq, Layer.ofItems_eq,
        Layer.allowsNull_described]
    source := hsource
    text := htext
    constraints := by
      simp only [layerConstraints, peel, List.flatMap_cons, Layer.ofField_eq, Layer.ofItems_eq,
        Layer.constraints_described]
    core := rfl }

end TypeExpr

/-! ## Descriptors -/

section

variable {s s' : Session} {a p q : Address} {c : ObjectClass}

/-- A record of a base has the base's own description. -/
theorem Stands.lookup_description {r : Record} (h : Stands defs s t a r) :
    r.lookup "description"
      = (nonEmpty? (t.core.base defs).description).map fun d => .data (.text d) := by
  cases h with
  | object hb _ _ => rw [lookup_objectRecord_description, hb, Base.description]
  | value hb _ hr _ =>
    rw [Base.recordOf_lookup (.inl rfl) hr, TypeExpr.base_description_of_value hb]
    rfl

/-- Layers put the description that counts over the base's own. -/
theorem TypeExpr.lookup_finish_description {d : Option DefaultOutcome} {r : Record}
    (hmay : t.MayFind d) (hbase : r.lookup "description"
      = (nonEmpty? (t.core.base defs).description).map fun d => .data (.text d)) :
    ((t.analysisWith defs d).finish r).lookup "description"
      = (t.describedBy defs).map fun d => .data (.text d) := by
  rw [Analysis.finish]
  split
  · rw [Analysis.lookup_decorate_description, hbase, TypeExpr.analysisWith_eq, TypeExpr.describedBy]
    cases t.peel.1.findSome? Layer.description <;> simp
  · rename_i hadds
    -- Layers that add nothing describe as their base does.
    have hdata : r.data? "description"
        = (nonEmpty? (t.core.base defs).description).map .text := by
      rw [Record.data?, hbase]
      cases nonEmpty? (t.core.base defs).description <;> rfl
    rw [TypeExpr.adds_eq hmay hdata] at hadds
    have htext : t.describedBy defs = nonEmpty? (t.core.base defs).description := by
      by_contra hne
      simp [TypeExpr.enlarges, hne] at hadds
    rw [hbase, htext]

/-- The descriptor of an expression has the description that counts for the expression. -/
theorem Shows.lookup_description (h : Shows defs s t a) :
    (s.graph.record a).lookup "description"
      = (t.describedBy defs).map fun d => .data (.text d) := by
  obtain ⟨a₀, r, hs, hf⟩ := h.stands
  obtain ⟨d, hmay, hrec⟩ := hf.finish hs.record
  rw [hrec, TypeExpr.lookup_finish_description hmay hs.lookup_description]

/-- What unfolds to the same has the same description. -/
theorem Shows.describedBy_eq (h : Shows defs s t p) (h' : Shows defs s' u q)
    (hsame : s.graph.unfold 1 p = s'.graph.unfold 1 q) :
    t.describedBy defs = u.describedBy defs := by
  simp only [Graph.unfold, Record.written, Schema.keywords.injEq] at hsame
  have hlookup := congrArg (List.lookup "description") hsame
  rw [Entries.lookup_map, Entries.lookup_map, h.lookup_description, h'.lookup_description]
    at hlookup
  cases ht : t.describedBy defs <;> cases hu : u.describedBy defs <;>
    simp_all [Graph.partOf]

end

/-! ## Fields and keys -/

/-- The descriptor at `a` is that of an object class, and `p` is its property under a key, which is
required or not. -/
def Session.Offers (s : Session) (c : ObjectClass) (a : Address) (key : String) (p : Address)
    (required : Bool) : Prop :=
  ∃ b x, s.graph.records[a]? = some (objectRecord c b) ∧ s.graph.bodies[b]? = some x ∧
    x.properties.lookup key = some p ∧ (key ∈ x.required ↔ required = true)

section

variable {U : TypeExpr → Prop} {s s' : Session} {a p q : Address} {c : ObjectClass}
  {name key : String} {calls : List Call} {observable : Bool}

/-- A field whose key no other field has is the property under that key. -/
theorem Complete.offers (hcomplete : Complete defs s name c)
    (ha : s.cached? (.declared name) = some a) (hnodup : (c.fields.map (·.1)).Nodup)
    (hmem : (key, t) ∈ c.fields) :
    ∃ p, s.Offers c a key p (!t.allowsAbsence) ∧ Shows defs s t p := by
  obtain ⟨b, x, ⟨a', ha', hr⟩, hx, hw⟩ := hcomplete
  obtain rfl : a = a' := Option.some.inj (ha.symm.trans ha')
  have hprops := hw.properties
  rw [Entries.ofList_of_nodup _ hnodup] at hprops
  obtain ⟨⟨k, p⟩, hp, rfl, hshows⟩ := exists_of_mem_left hprops hmem
  have hkeys : x.properties.keys.Nodup := by
    rw [hw.keys, Entries.ofList_of_nodup _ hnodup]
    exact hnodup
  refine ⟨p, ⟨b, x, hr, hx, Entries.lookup_of_mem hkeys hp, ?_⟩, hshows⟩
  rw [← hw.required]
  simp only [List.mem_map, List.mem_filter]
  constructor
  · rintro ⟨f, ⟨hf, hrequired⟩, hkey⟩
    -- The field of that key is the given one.
    cases List.inj_on_of_nodup_map hnodup hf hmem hkey
    exact hrequired
  · exact fun hrequired => ⟨_, ⟨hmem, hrequired⟩, rfl⟩

/-- Compiling a class after calls of which none failed gives it all its fields. -/
theorem compile_complete (hU : Universe defs U) (hcalls : ∀ c ∈ calls, U c.type)
    (hok : ∀ r ∈ (Session.after defs (.fresh observable) calls).1, ∃ a, r = .ok a)
    (hfind : defs.find? name = some (.object c)) (hname : U (.declared name))
    (h : (Session.after defs (.fresh observable) calls).2.run
      (describeParameters defs (.declared name)) = (.ok a, s)) :
    AllComplete defs s ∧ s.cached? (.declared name) = some a := by
  obtain ⟨-, -, hinv⟩ := Session.after_preserves hU hcalls (.fresh observable)
  have hp := Call.preserves hU (c := .compile (.declared name)) hname hinv h
  have hobj : ((TypeExpr.declared name).base defs).isObject = true :=
    congrArg Base.isObject (TypeExpr.base_declared hfind)
  refine ⟨(Session.after_allComplete hU hcalls (.fresh observable) (.fresh observable) hok).settled
    hp.growth hp.classes (hp.settled a rfl), ?_⟩
  cases (hp.result a rfl : ShowsParameters _ _ _ _) with
  | object _ hshows => exact hshows.cached_of_object hobj
  | empty hb _ _ =>
    rw [hobj] at hb
    cases hb

/-- What says the same unfolds to the same. -/
theorem Shows.unfold_eq_of_saysSame (hall : AllComplete defs s) (hall' : AllComplete defs s')
    (h : Shows defs s t p) (h' : Shows defs s' u q) (hsame : t.SaysSame defs u)
    (hsteady : ∀ v, t.Meets defs v ∨ u.Meets defs v → v.Steady) (depth : Nat) :
    s.graph.unfold depth p = s'.graph.unfold depth q := by
  have hone := h.outline_eq hall depth fun v hv => hsteady v (.inl hv)
  have htwo := h'.outline_eq hall' depth fun v hv => hsteady v (.inr hv)
  exact Except.ok.inj (hone.symm.trans (hsame.outline_eq.trans htwo))

end

/-- A model has a field and a dictionary a key of one annotation, perhaps written twice. If the
merged field information does not have both a default and a factory, then both get their default
from one place, and they are required both or neither. If defaults are found the same each time,
their descriptors unfold to the same exactly if the merged description is the last of the annotation
that is not empty, or that one is found under the annotation as well. -/
theorem merged_unfolds_iff (source : Source) {model dictionary : String} {cm cd : ObjectClass}
    (hmodel : source.definitions.find? model = some (.object cm))
    (hdictionary : source.definitions.find? dictionary = some (.object cd))
    (hm : source.Expression (.declared model)) (hd : source.Expression (.declared dictionary))
    (hmkeys : (cm.fields.map (·.1)).Nodup) (hdkeys : (cd.fields.map (·.1)).Nodup)
    {key name : String} {i k : Nat} {inner : TypeExpr} {items : List Metadata} {spec : FieldSpec}
    {u : TypeExpr}
    (hmerged : ModelField.content (.annotated i inner items) .nothing = (spec, inner))
    (hone : spec.OneDefault) (hsame : (TypeExpr.annotated i inner items).unnumbered = u.unnumbered)
    (hfield : (key, .field k spec inner) ∈ cm.fields) (hkey : (name, u) ∈ cd.fields)
    (hsteady : ∀ v, (TypeExpr.field k spec inner).Meets source.definitions v ∨
      u.Meets source.definitions v → v.Steady)
    {observable : Bool} {calls calls' : List Call}
    (hcalls : ∀ c ∈ calls, source.Expression c.type)
    (hcalls' : ∀ c ∈ calls', source.Expression c.type)
    (hok : ∀ r ∈ (Session.after source.definitions (.fresh observable) calls).1, ∃ a, r = .ok a)
    (hok' : ∀ r ∈ (Session.after source.definitions (.fresh observable) calls').1, ∃ a, r = .ok a)
    {a a' : Address} {s s' : Session}
    (h : (Session.after source.definitions (.fresh observable) calls).2.run
      (describeParameters source.definitions (.declared model)) = (.ok a, s))
    (h' : (Session.after source.definitions (.fresh observable) calls').2.run
      (describeParameters source.definitions (.declared dictionary)) = (.ok a', s')) :
    (TypeExpr.field k spec inner).defaultSource? = u.defaultSource? ∧
    ∃ p q required, s.Offers cm a key p required ∧ s'.Offers cd a' name q required ∧
      ((∀ depth, s.graph.unfold depth p = s'.graph.unfold depth q) ↔
        spec.description? = FieldSpec.lastText (Metadata.fields items) ∨
          inner.describedBy source.definitions = FieldSpec.lastText (Metadata.fields items)) := by
  obtain ⟨U, hU, hexpr⟩ := source.universe
  obtain ⟨hall, ha⟩ := compile_complete hU (fun c hc => hexpr _ (hcalls c hc)) hok hmodel
    (hexpr _ hm) h
  obtain ⟨hall', ha'⟩ := compile_complete hU (fun c hc => hexpr _ (hcalls' c hc)) hok' hdictionary
    (hexpr _ hd) h'
  obtain ⟨p, hoffers, hp⟩ := Complete.offers (hall model cm hmodel (by simp [ha])) ha hmkeys hfield
  obtain ⟨q, hoffers', hq⟩ := Complete.offers (hall' dictionary cd hdictionary (by simp [ha'])) ha'
    hdkeys hkey
  have hnumbers := TypeExpr.SaysSame.of_unnumbered source.definitions hsame
  have habsence := (TypeExpr.allowsAbsence_of_merged hmerged hone k).trans hnumbers.absence
  have hsource := (TypeExpr.defaultSource_of_merged hmerged hone k).trans hnumbers.source
  refine ⟨hsource, p, q, _, hoffers, habsence ▸ hoffers', ?_⟩
  rw [← TypeExpr.describedBy_merged_iff hmerged k, hnumbers.text]
  constructor
  · exact fun hunfold => hp.describedBy_eq hq (hunfold 1)
  · intro htext
    have hlayers := TypeExpr.saysSame_of_merged hmerged hone k (htext.trans hnumbers.text.symm)
    exact hp.unfold_eq_of_saysSame hall hall' hq (hlayers.trans hnumbers) hsteady

/-- A model and a dictionary with one annotation of texts. -/
def twinSource (items : List Metadata) : Source where
  declarations := [
    .shorthand "Text" (.annotated (.atom (.builtin .text)) items),
    .model "Model" [] none [("x", .reference "Text", .nothing)],
    .keyed "Dictionary" [] none true [("x", .reference "Text")]]
  written := [.reference "Model", .reference "Dictionary"]

/-- A description that an empty one is given after. -/
def silencedItems : List Metadata :=
  [.field 0 { FieldSpec.empty with description := some "a" },
    .field 1 { FieldSpec.empty with description := some "" }]

/-- The session in which a class of the source has been compiled. -/
def twinSession (items : List Metadata) (name : String) : Session :=
  ((Session.fresh false).run
    (describeParameters (twinSource items).definitions (.declared name))).2

/-- The key keeps the description that the field has lost. -/
theorem silenced_described_by_key_only :
    let s := twinSession silencedItems "Model"
    let s' := twinSession silencedItems "Dictionary"
    ∃ cm cd p q, (twinSource silencedItems).definitions.find? "Model" = some (.object cm) ∧
      (twinSource silencedItems).definitions.find? "Dictionary" = some (.object cd) ∧
      s.Offers cm 0 "x" p true ∧ s'.Offers cd 0 "x" q true ∧
      s.graph.unfold 1 p = .keywords [("type", .data (.text "string"))] ∧
      s'.graph.unfold 1 q
        = .keywords [("type", .data (.text "string")), ("description", .data (.text "a"))] ∧
      s.graph.unfold 1 p ≠ s'.graph.unfold 1 q := by
  refine ⟨_, _, 1, 2, rfl, rfl, ⟨0, ⟨[("x", 1)], ["x"]⟩, rfl, rfl, rfl, by simp⟩,
    ⟨0, ⟨[("x", 2)], ["x"]⟩, rfl, rfl, rfl, by simp⟩, rfl, rfl, fun h => ?_⟩
  cases h

/-- A description, a bound and a default, each given by an item of its own. -/
def boundedItems : List Metadata :=
  [.field 0 { FieldSpec.empty with description := some "a" }, .constraint (.minLength (.int 2)),
    .field 1 { FieldSpec.empty with default := some (.text "bb") }]

/-- The field information that the items give together. -/
def boundedSpec : FieldSpec :=
  { FieldSpec.empty with
    default := some (.text "bb"), description := some "a", constraints := [.minLength (.int 2)] }

/-- Nothing is met below a base that is no class and has no part. -/
theorem TypeExpr.Meets.eq_of_simple {v : TypeExpr} (h : t.Meets defs v)
    (hobj : (t.core.base defs).isObject = false) (hpart : (t.core.base defs).part? = none) :
    v = t := by
  cases h with
  | here => rfl
  | part hp _ =>
    rw [hpart] at hp
    cases hp
  | field hb _ _ _ =>
    rw [hb] at hobj
    cases hobj

theorem merged_unfolds_iff_bounded :
    let s := twinSession boundedItems "Model"
    let s' := twinSession boundedItems "Dictionary"
    ∃ cm cd p q required, s.Offers cm 0 "x" p required ∧ s'.Offers cd 0 "x" q required ∧
      ∀ depth, s.graph.unfold depth p = s'.graph.unfold depth q := by
  intro s s'
  let source := twinSource boundedItems
  let text : TypeExpr := .atom (.builtin .text)
  have hnodes : source.nodes = [.declared "Model", .declared "Dictionary"] := rfl
  have hmodel : source.definitions.find? "Model"
      = some (.object ⟨none, [("x", .field 3 boundedSpec text)], none⟩) := rfl
  have hdictionary : source.definitions.find? "Dictionary"
      = some (.object ⟨none, [("x", .annotated 2 text boundedItems)], none⟩) := rfl
  have hmerged : ModelField.content (.annotated 2 text boundedItems) .nothing
      = (boundedSpec, text) := rfl
  have hsteady (v) (hv : (TypeExpr.field 3 boundedSpec text).Meets source.definitions v ∨
      (TypeExpr.annotated 2 text boundedItems).Meets source.definitions v) : v.Steady := by
    rcases hv with hv | hv
    · rw [hv.eq_of_simple rfl rfl]
      exact fun _ _ => rfl
    · rw [hv.eq_of_simple rfl rfl]
      exact fun _ _ => rfl
  have hcalls : ∀ c ∈ ([] : List Call), source.Expression c.type := by simp
  have hok : ∀ r ∈ (Session.after source.definitions (.fresh false) []).1, ∃ a, r = .ok a := by
    simp [Session.after]
  have hs : (Session.after source.definitions (.fresh false) []).2.run
      (describeParameters source.definitions (.declared "Model")) = (.ok 0, s) := rfl
  have hs' : (Session.after source.definitions (.fresh false) []).2.run
      (describeParameters source.definitions (.declared "Dictionary")) = (.ok 0, s') := rfl
  obtain ⟨-, p, q, required, hp, hq, hiff⟩ := merged_unfolds_iff source hmodel hdictionary
    (.node (by simp [hnodes])) (.node (by simp [hnodes])) (by simp) (by simp) hmerged (.inr rfl)
    rfl (.head _) (.head _) hsteady hcalls hcalls hok hok hs hs'
  exact ⟨_, _, p, q, required, hp, hq, hiff.mpr (.inl rfl)⟩

end ToolCatalog
