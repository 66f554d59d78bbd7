import ToolCatalog.Proofs.Fields
import ToolCatalog.Proofs.Plain

/-!
The properties of an object class, and what it requires.

The properties of a class stand under the keys of its fields, and what it requires are the keys of
the properties that are not marked optional. Both hold exactly if no two fields have one key and the
fields were walked to the end. Where two fields do have one key, the later takes the place of the
earlier among the properties, while each of them is required or not on its own.
-/
namespace ToolCatalog

/-- Whether a descriptor is marked optional. -/
def Graph.marksOptional (g : Graph) (a : Address) : Bool :=
  match (g.record a).data? "optional" with
  | some (.bool b) => b
  | _ => false

/-- The properties stand under these keys in this order; what is required are, once each and in
order, the keys of the properties that are not marked optional. -/
structure Body.Agrees (g : Graph) (keys : List String) (x : Body) : Prop where
  keys : x.properties.keys = keys
  nodup : x.required.Nodup
  required : x.required = (x.properties.filter fun e => !g.marksOptional e.2).map (·.1)

/-! ## The mark -/

theorem objectRecord_optional (c : ObjectClass) (b : Address) :
    (objectRecord c b).lookup "optional" = none := by
  unfold objectRecord
  cases nonEmpty? c.doc <;> rfl

theorem Analysis.decorate_optional (an : Analysis) (r : Record) :
    (an.decorate r).lookup "optional"
      = if an.optional then some (.data (.bool true)) else r.lookup "optional" := by
  unfold Analysis.decorate
  cases an.description <;> cases an.default? <;> cases an.nullable <;> cases an.optional <;>
    simp [Entries.lookup_put_self, Entries.lookup_put_ne]

section

variable {defs : Definitions} {s : Session} {t : TypeExpr} {a : Address}
  {fs : List (String × TypeExpr)} {x : Body}

/-- The descriptor of an expression is marked optional exactly if the expression may be absent. -/
theorem Shows.marksOptional (h : Shows defs s t a) : s.graph.marksOptional a = t.allowsAbsence := by
  obtain ⟨a₀, r, hs, hf⟩ := h.stands
  obtain ⟨d, -, hrec⟩ := hf.finish hs.record
  have hbase : r.lookup "optional" = none := by
    cases hs with
    | object _ _ _ => exact objectRecord_optional _ _
    | value _ _ hr _ => exact Base.recordOf_lookup (.inr (.inr rfl)) hr
  have hmark : (s.graph.record a).lookup "optional"
      = if t.allowsAbsence then some (.data (.bool true)) else none := by
    rw [hrec, Analysis.finish]
    split
    · rw [Analysis.decorate_optional, hbase]
      rfl
    -- What may be absent always adds to its base.
    · rename_i hadds
      have habs : t.allowsAbsence = false := by
        simp only [TypeExpr.analysisWith_eq, Analysis.adds] at hadds
        simp_all
      rw [hbase, habs]
      rfl
  rw [Graph.marksOptional, Record.data?, hmark]
  cases t.allowsAbsence <;> rfl

/-! ## Walks -/

theorem Entries.ofList_of_nodup {α : Type} (xs : List (String × α)) (h : (xs.map (·.1)).Nodup) :
    Entries.ofList xs = xs := by
  induction xs using List.reverseRecOn with
  | nil => rfl
  | append_singleton xs x ih =>
    obtain ⟨k, v⟩ := x
    rw [List.map_append, List.nodup_append] at h
    have hk : k ∉ xs.map (·.1) := fun hm => h.2.2 k hm k (by simp) rfl
    have hput := Entries.put_append_of_notMem (v := v) (m := []) hk
    rw [List.append_nil] at hput
    rw [Entries.ofList_append, ih h.1, hput]
    rfl

theorem Entries.length_ofList_le {α : Type} (xs : List (String × α)) :
    (Entries.ofList xs).keys.length ≤ xs.length := by
  induction xs using List.reverseRecOn with
  | nil => simp [Entries.ofList, Entries.keys]
  | append_singleton xs x ih =>
    obtain ⟨k, v⟩ := x
    rw [Entries.ofList_append, Entries.keys_put]
    split <;> simp <;> omega

theorem Walked.keys (h : Walked defs s fs x) : x.properties.keys = (Entries.ofList fs).keys :=
  (map_eq_of_forall₂ (h.properties.imp fun _ _ he => he.1)).symm

/-- Of fields and the descriptors that show them, those that may not be absent have the same
keys as those that are not marked optional. -/
theorem required_of_shows {ps : List (String × Address)}
    (h : List.Forall₂ (fun f e => f.1 = e.1 ∧ Shows defs s f.2 e.2) fs ps) :
    (fs.filter fun f => !f.2.allowsAbsence).map (·.1)
      = (ps.filter fun e => !s.graph.marksOptional e.2).map (·.1) := by
  induction h with
  | nil => rfl
  | @cons f e _ _ he _ ih =>
    rw [List.filter_cons, List.filter_cons, he.2.marksOptional]
    cases f.2.allowsAbsence <;> simp [he.1, ih]

/-- Where no two fields have one key, properties and what is required agree. -/
theorem Walked.agrees (h : Walked defs s fs x) (hnodup : (fs.map (·.1)).Nodup) :
    x.Agrees s.graph (fs.map (·.1)) := by
  have hlist := Entries.ofList_of_nodup fs hnodup
  have hprops := h.properties
  rw [hlist] at hprops
  refine ⟨by rw [h.keys, hlist]; rfl, ?_, h.required.symm.trans (required_of_shows hprops)⟩
  rw [← h.required]
  exact (List.Sublist.map _ List.filter_sublist).nodup hnodup

/-- A body that was walked over a beginning of the fields agrees with all of them only if they are
all, and no two have one key. -/
theorem Walked.agrees_iff (h : Walked defs s fs x) (rest : List (String × TypeExpr)) :
    x.Agrees s.graph ((fs ++ rest).map (·.1)) ↔
      rest = [] ∧ ((fs ++ rest).map (·.1)).Nodup := by
  constructor
  · intro hagrees
    have hkeys := h.keys.symm.trans hagrees.keys
    have hle := Entries.length_ofList_le fs
    rw [hkeys, List.length_map, List.length_append] at hle
    refine ⟨List.eq_nil_of_length_eq_zero (by omega), ?_⟩
    rw [← hkeys]
    exact Entries.nodup_ofList fs
  · rintro ⟨rfl, hnodup⟩
    rw [List.append_nil] at hnodup ⊢
    exact h.agrees hnodup

end

/-- Compiling an object class after any calls, failed ones included, gives its descriptor, with a
body walked over a beginning of the fields that the class is declared with; over all of them, if no
call failed. The properties agree with the fields and with what is required exactly if all fields
were walked and no two of them have one key. -/
theorem compile_agrees_iff (source : Source) (observable : Bool) (calls : List Call)
    (hcalls : ∀ c ∈ calls, source.Expression c.type) {name : String} {c : ObjectClass}
    (hfind : source.definitions.find? name = some (.object c))
    (hname : source.Expression (.declared name)) {a : Address} {s : Session}
    (h : (Session.after source.definitions (.fresh observable) calls).2.run
      (describeParameters source.definitions (.declared name)) = (.ok a, s)) :
    (∃ d ∈ source.reading.drafts, d.names.Nodup ∧ d.Lists name c) ∧
      ∃ b x done rest, s.graph.records[a]? = some (objectRecord c b) ∧
        s.graph.bodies[b]? = some x ∧ c.fields = done ++ rest ∧
        Walked source.definitions s done x ∧
        ((∀ r ∈ (Session.after source.definitions (.fresh observable) calls).1,
          ∃ a, r = .ok a) → rest = []) ∧
        (x.Agrees s.graph (c.fields.map (·.1)) ↔
          rest = [] ∧ (c.fields.map (·.1)).Nodup) := by
  refine ⟨source.lists hfind, ?_⟩
  obtain ⟨U, hU, hexpr⟩ := source.universe
  have hall : ∀ c ∈ calls, U c.type := fun c hc => hexpr _ (hcalls c hc)
  obtain ⟨-, -, hinv⟩ := Session.after_preserves hU hall (.fresh observable)
  have hp := Call.preserves hU (c := .compile (.declared name)) (hexpr _ hname) hinv h
  have hcached : s.cached? (.declared name) = some a := by
    cases (hp.result a rfl : ShowsParameters _ _ _ _) with
    | object _ hshows =>
      obtain ⟨r, hstands⟩ := hshows.bare rfl
      exact hstands.cached_of_declared name c rfl hfind
    | empty hb _ _ =>
      rw [TypeExpr.base_declared hfind] at hb
      cases hb
  by_cases hok : ∀ r ∈ (Session.after source.definitions (.fresh observable) calls).1,
      ∃ a, r = .ok a
  · have hcomplete : AllComplete source.definitions s :=
      (Session.after_allComplete hU hall (.fresh observable) (.fresh observable) hok).settled
        hp.growth hp.classes (hp.settled a rfl)
    obtain ⟨b, x, ⟨a', ha', hr⟩, hx, hw⟩ := hcomplete name c hfind (by simp [hcached])
    obtain rfl : a = a' := Option.some.inj (hcached.symm.trans ha')
    have hagrees := hw.agrees_iff []
    rw [List.append_nil] at hagrees
    exact ⟨b, x, c.fields, [], hr, hx, (List.append_nil _).symm, hw, fun _ => rfl, hagrees⟩
  · obtain ⟨b, x, fs, rest, hr, hx, hfields, hw⟩ := hp.inv.walked hfind hcached
    exact ⟨b, x, fs, rest, hr, hx, hfields, hw, fun h => absurd h hok, hfields ▸ hw.agrees_iff rest⟩

/-- A model with two fields under one alias. -/
def pairSource : Source where
  declarations := [.model "Pair" [] none
    [("a", .atom (.builtin .integer), .spec { FieldSpec.empty with wireName := some "x" }),
      ("b", .atom (.builtin .text), .spec { FieldSpec.empty with wireName := some "x" })]]
  written := [.reference "Pair"]

/-- The class as it is finished. -/
def pairClass : ObjectClass where
  doc := none
  fields :=
    [("x", .field 0 { FieldSpec.empty with wireName := some "x" } (.atom (.builtin .integer))),
      ("x", .field 1 { FieldSpec.empty with wireName := some "x" } (.atom (.builtin .text)))]
  unknownName := none

theorem pairSource_find : pairSource.definitions.find? "Pair" = some (.object pairClass) :=
  rfl

theorem pairSource_nodes : pairSource.nodes = [.declared "Pair"] :=
  rfl

/-- The session in which the model has been compiled. -/
def pairSession : Session :=
  ((Session.fresh false).run (describeParameters pairSource.definitions (.declared "Pair"))).2

/-- The second field takes the place of the first, and its key is required twice. -/
theorem compile_pair_disagrees :
    (Session.fresh false).run (describeParameters pairSource.definitions (.declared "Pair"))
        = (.ok 0, pairSession) ∧
      pairSession.graph.record 0 = objectRecord pairClass 0 ∧
      pairSession.graph.body 0 = ⟨[("x", 2)], ["x", "x"]⟩ ∧
      ¬(pairSession.graph.body 0).Agrees pairSession.graph (pairClass.fields.map (·.1)) := by
  have hbody : pairSession.graph.body 0 = ⟨[("x", 2)], ["x", "x"]⟩ := rfl
  refine ⟨rfl, rfl, hbody, fun h => ?_⟩
  have hnodup := h.nodup
  rw [hbody] at hnodup
  simp at hnodup

theorem compile_agrees_iff_pair :
    (∃ d ∈ pairSource.reading.drafts, d.names.Nodup ∧ d.Lists "Pair" pairClass) ∧
      ∃ b x done rest, pairSession.graph.records[0]? = some (objectRecord pairClass b) ∧
        pairSession.graph.bodies[b]? = some x ∧ pairClass.fields = done ++ rest ∧
        Walked pairSource.definitions pairSession done x ∧
        ((∀ r ∈ (Session.after pairSource.definitions (.fresh false) []).1,
          ∃ a, r = .ok a) → rest = []) ∧
        (x.Agrees pairSession.graph (pairClass.fields.map (·.1)) ↔
          rest = [] ∧ (pairClass.fields.map (·.1)).Nodup) :=
  compile_agrees_iff pairSource false [] (by simp) pairSource_find
    (.node (by rw [pairSource_nodes]; exact List.mem_singleton.mpr rfl)) rfl

end ToolCatalog
