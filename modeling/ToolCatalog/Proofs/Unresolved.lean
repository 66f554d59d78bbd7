import ToolCatalog.Proofs.Qualifiers

/-!
What an unknown name does to the other keys of a dictionary.

The names in the types of all keys are looked up together. If one of them is unknown, every key
keeps its type as it is read, and a forward name in it is described as any value. So the unknown
name of one key is felt in each key that has a forward name, also where that name is known: its
property is another one, and it is required even if the name stands for a type that is not. A key
without forward names is spared.
-/
namespace ToolCatalog

/-! ## Types of keys as they are read -/

theorem TypeExpr.asType_asType (t : TypeExpr) : t.asType.asType = t.asType := by
  cases t with
  | atom a => cases a <;> rfl
  | constant id v => cases v <;> rfl
  | _ => rfl

/-- The type of a key is read as a type. -/
theorem Source.Lineage.asType_eq {source : Source} {k : Keyed} {statements : List KeyStatement}
    (h : source.Lineage k statements) : ∀ e ∈ statements, e.type.asType = e.type := by
  induction h with
  | @intro before name bases doc total keys k lines _ _ _ ih =>
    intro e he
    rcases List.mem_append.mp he with he | he
    · obtain ⟨b, hb, he⟩ := List.mem_flatMap.mp he
      exact ih b hb e he
    · obtain ⟨f, hf, rfl⟩ := List.mem_map.mp he
      have hown := Yields.mapM
        (f := fun (e : String × Written) => do
          return (e.1, (← e.2.make (Reading.after before).1.scope).asType))
        (R := fun _ f => f.2.asType = f.2)
        (fun e => (Yields.any _).bind fun t _ => .pure t.asType_asType) keys
        (Reading.after before).2
      obtain ⟨-, -, htype⟩ := exists_of_mem_right hown (Entries.mem_ofList hf)
      exact htype

/-- A type without forward names resolves to itself, but for the numbers of objects. -/
theorem Scope.turns_of_nameless (scope : Scope) {t : TypeExpr} (ht : t.asType = t)
    (hnames : t.names = []) : ∃ u, scope.Turns t u ∧ u.unnumbered = t.unnumbered := by
  have hknown : scope.unknown t = [] := by
    rw [Scope.unknown, Scope.unknownWithin, ht, hnames, List.flatMap_nil]
  have hanswers := TypeExpr.resolve_answers scope t .empty
  rw [hknown] at hanswers
  obtain ⟨u, -, hu, hremade⟩ := hanswers
  rw [ht] at hremade
  exact ⟨u, hu, (hremade hnames).unnumbered⟩

/-! ## Properties of keys -/

/-- The fields that a key with a type can have: the type itself if all statements about the key are
firm, else the type or an equal one with a "not required" layer. -/
def TypeExpr.Layered (firm : Prop) (t g : TypeExpr) : Prop :=
  (firm → g = t) ∧ (¬firm → ∃ i x v, g = .notRequired i x ∧ v.unnumbered = t.unnumbered ∧
    (g = v ∨ x.equal v = true))

/-- The property `p` with the field `f` is described as a key with the type `t` should be, and
required as such a key should be. -/
structure Session.Follows (s : Session) (defs : Definitions) (firm : Prop) (f t : TypeExpr)
    (p : Address) (required : Bool) : Prop where
  required_iff : required = true ↔ t.allowsAbsence = false ∧ firm
  described (h : ∀ v, f.Meets defs v → v.Steady) :
    ∃ g, t.Layered firm g ∧ ∀ depth, g.outline defs depth = .ok (s.graph.unfold depth p)

section

variable {s : Session} {defs : Definitions} {firm : Prop} {f t u : TypeExpr} {p : Address}
  {required : Bool}

/-- A key without a layer is described as its type says. -/
theorem Session.Follows.outline_eq (h : s.Follows defs firm f t p required) (hfirm : firm)
    (hsteady : ∀ v, f.Meets defs v → v.Steady) (depth : Nat) :
    t.outline defs depth = .ok (s.graph.unfold depth p) := by
  obtain ⟨g, hg, hshown⟩ := h.described hsteady
  obtain rfl := hg.1 hfirm
  exact hshown depth

/-- A forward name in the place of a type is described as any value, and required. -/
theorem Session.Follows.anything {i : Nat} {name : String}
    (h : s.Follows defs firm f (.forward i name) p required) (hfirm : firm)
    (hsteady : ∀ v, f.Meets defs v → v.Steady) (depth : Nat) :
    required = true ∧
      s.graph.unfold (depth + 1) p = .keywords [("type", .data (.text "any"))] := by
  have hshown := h.outline_eq hfirm hsteady (depth + 1)
  exact ⟨h.required_iff.mpr ⟨rfl, hfirm⟩, (Except.ok.inj hshown).symm⟩

/-- The numbers of objects in the type do not matter. -/
theorem Session.Follows.renumber (h : s.Follows defs firm f t p required)
    (hu : u.unnumbered = t.unnumbered) : s.Follows defs firm f u p required := by
  have hsame := TypeExpr.SaysSame.of_unnumbered defs hu
  refine ⟨by rw [h.required_iff, hsame.absence], fun hsteady => ?_⟩
  by_cases hfirm : firm
  · refine ⟨u, ⟨fun _ => rfl, fun hno => absurd hfirm hno⟩, fun depth => ?_⟩
    rw [hsame.outline_eq, h.outline_eq hfirm hsteady]
  · obtain ⟨g, hg, hshown⟩ := h.described hsteady
    obtain ⟨i, x, v, hgx, hv, hgv⟩ := hg.2 hfirm
    exact ⟨g, ⟨fun hyes => absurd hyes hfirm, fun _ => ⟨i, x, v, hgx, hv.trans hu.symm, hgv⟩⟩,
      hshown⟩

/-- What is offered for a key of a finished dictionary is what its settled type says. -/
theorem Source.Lineage.follows {source : Source} {k : Keyed} {statements : List KeyStatement}
    {n : String} (h : source.Lineage k statements) (hf : k.Layers n t f) (hall : AllComplete defs s)
    (hshows : Shows defs s f p) :
    s.Follows defs (KeyStatement.Firm n statements) f t p (!f.allowsAbsence) := by
  refine ⟨by rw [Bool.not_eq_true', h.strict_iff hf], fun hsteady =>
    ⟨f, ?_, fun depth => hshows.outline_eq hall depth hsteady⟩⟩
  rw [← h.not_optional_iff]
  unfold Keyed.Layers at hf
  cases hopt : k.optionalKeys.contains n with
  | true =>
    rw [hopt, if_pos rfl] at hf
    obtain ⟨i, x, hfx, hx⟩ := hf
    exact ⟨nofun, fun _ => ⟨i, x, t, hfx, rfl, hx⟩⟩
  | false =>
    rw [hopt] at hf
    exact ⟨fun _ => hf, fun hno => absurd rfl hno⟩

end

/-- A dictionary compiled after calls of which none failed. The unknown name is the first one that
is met when the names in the types of its keys are looked up. If there is none, every key is
described and required as the type that its own type resolves to; so is a key without forward names
in any case. Else a key is described and required as its type is read, with no name looked up. -/
theorem compile_spares (source : Source) (observable : Bool) (calls : List Call)
    {name : String} {c : ObjectClass} (hfind : source.definitions.find? name = some (.object c))
    (hdictionary : source.reading.model? name = none)
    (hname : source.Expression (.declared name))
    (hcalls : ∀ c ∈ calls, source.Expression c.type)
    (hok : ∀ r ∈ (Session.after source.definitions (.fresh observable) calls).1, ∃ a, r = .ok a)
    {a : Address} {s : Session}
    (h : (Session.after source.definitions (.fresh observable) calls).2.run
      (describeParameters source.definitions (.declared name)) = (.ok a, s)) :
    ∃ k statements, .keyed k ∈ source.reading.drafts ∧ k.name = name ∧
      source.Lineage k statements ∧
      c.unknownName = (k.keys.flatMap fun e => source.reading.scope.unknown e.2).head? ∧
      ∀ n f, (n, f) ∈ c.fields → ∃ e p required, KeyStatement.latest? n statements = some e ∧
        s.Offers c a n p required ∧
        (c.unknownName = none ∨ e.type.names = [] → ∃ u, source.reading.scope.Turns e.type u ∧
          s.Follows source.definitions (KeyStatement.Firm n statements) f u p required) ∧
        (c.unknownName ≠ none →
          s.Follows source.definitions (KeyStatement.Firm n statements) f e.type p required) := by
  obtain ⟨hall, k, statements, hk, hkname, hlineage, hunknown, hkeys⟩ :=
    compile_keys hfind hdictionary hname hcalls hok h
  refine ⟨k, statements, hk, hkname, hlineage, hunknown, fun n f hf => ?_⟩
  obtain ⟨e, u, p, he, hu, hlayer, hoffers, hshows⟩ := hkeys n f hf
  have hfollows := hlineage.follows hlayer hall hshows
  refine ⟨e, p, _, he, hoffers, ?_⟩
  by_cases hknown : c.unknownName = none
  · rw [if_pos hknown] at hu
    exact ⟨fun _ => ⟨u, hu, hfollows⟩, fun hno => absurd hknown hno⟩
  · rw [if_neg hknown] at hu
    subst hu
    refine ⟨fun hspared => ?_, fun _ => hfollows⟩
    have htyped := hlineage.asType_eq e (KeyStatement.mem_of_latest? he).1
    obtain ⟨w, hw, hsame⟩ := source.reading.scope.turns_of_nameless htyped
      (hspared.resolve_left hknown)
    exact ⟨w, hw, hfollows.renumber hsame⟩

/-- A dictionary with a count and a note that need not be there, both under names for their types,
with a size, and with an owner. -/
def jobSource (owner : Written) : Source where
  declarations := [
    .shorthand "Count" (.atom (.builtin .integer)),
    .shorthand "Maybe" (.notRequired (.atom (.builtin .text))),
    .keyed "Job" [] none true [("count", .forward "Count"), ("note", .forward "Maybe"),
      ("size", .atom (.builtin .integer)), ("owner", owner)]]
  written := [.reference "Job"]

/-- The class as it is finished if the owner's name is unknown. -/
def jobClass : ObjectClass where
  doc := none
  fields := [("count", .forward 1 "Count"), ("note", .forward 2 "Maybe"),
    ("size", .atom (.builtin .integer)), ("owner", .forward 3 "Missing")]
  unknownName := some "Missing"

/-- The session in which the dictionary has been compiled. -/
def jobSession (owner : Written) : Session :=
  ((Session.fresh false).run
    (describeParameters (jobSource owner).definitions (.declared "Job"))).2

/-- The schema of the dictionary with these schemas of its count and note. -/
def jobSchema (count note owner : List (String × SchemaPart)) (required : List String) : Schema :=
  .keywords [("type", .data (.text "object")),
    ("properties", .properties [("count", .keywords count), ("note", .keywords note),
      ("size", .keywords [("type", .data (.text "integer"))]), ("owner", .keywords owner)]),
    ("required", .data (.list (required.map .text)))]

theorem jobSource_find :
    (jobSource (.forward "Missing")).definitions.find? "Job" = some (.object jobClass) :=
  rfl

theorem jobSource_nodes : (jobSource (.forward "Missing")).nodes = [.declared "Job"] :=
  rfl

theorem jobSource_run :
    (Session.fresh false).run
      (describeParameters (jobSource (.forward "Missing")).definitions (.declared "Job"))
        = (.ok 0, jobSession (.forward "Missing")) :=
  Prod.ext rfl rfl

/-- Only the owner's name is unknown, but the count is described as any value, and so is the note,
which is required besides. With a known owner the count is a number and the note may be absent. -/
theorem compile_job_degrades :
    (jobSource (.forward "Missing")).reading.scope.unknown (.forward 1 "Count") = [] ∧
      (jobSource (.forward "Missing")).reading.scope.unknown (.forward 2 "Maybe") = [] ∧
      (jobSource (.forward "Missing")).reading.scope.unknown (.forward 3 "Missing")
        = ["Missing"] ∧
      (Session.fresh false).run
        (describeParameters (jobSource (.forward "Missing")).definitions (.declared "Job"))
          = (.ok 0, jobSession (.forward "Missing")) ∧
      (jobSession (.forward "Missing")).graph.unfold 2 0
        = jobSchema [("type", .data (.text "any"))] [("type", .data (.text "any"))]
          [("type", .data (.text "any"))] ["count", "note", "size", "owner"] ∧
      (Session.fresh false).run
        (describeParameters (jobSource (.atom (.builtin .text))).definitions (.declared "Job"))
          = (.ok 0, jobSession (.atom (.builtin .text))) ∧
      (jobSession (.atom (.builtin .text))).graph.unfold 2 0
        = jobSchema [("type", .data (.text "integer"))]
          [("type", .data (.text "string")), ("optional", .data (.bool true))]
          [("type", .data (.text "string"))] ["count", "size", "owner"] :=
  ⟨rfl, rfl, rfl, jobSource_run, rfl, Prod.ext rfl rfl, rfl⟩

theorem compile_spares_job :
    ∃ k statements, .keyed k ∈ (jobSource (.forward "Missing")).reading.drafts ∧ k.name = "Job" ∧
      (jobSource (.forward "Missing")).Lineage k statements ∧
      jobClass.unknownName = (k.keys.flatMap fun e =>
        (jobSource (.forward "Missing")).reading.scope.unknown e.2).head? ∧
      ∀ n f, (n, f) ∈ jobClass.fields → ∃ e p required,
        KeyStatement.latest? n statements = some e ∧
        (jobSession (.forward "Missing")).Offers jobClass 0 n p required ∧
        (jobClass.unknownName = none ∨ e.type.names = [] →
          ∃ u, (jobSource (.forward "Missing")).reading.scope.Turns e.type u ∧
            (jobSession (.forward "Missing")).Follows (jobSource (.forward "Missing")).definitions
              (KeyStatement.Firm n statements) f u p required) ∧
        (jobClass.unknownName ≠ none →
          (jobSession (.forward "Missing")).Follows (jobSource (.forward "Missing")).definitions
            (KeyStatement.Firm n statements) f e.type p required) :=
  compile_spares (jobSource (.forward "Missing")) false [] jobSource_find rfl
    (.node (by rw [jobSource_nodes]; exact List.mem_singleton.mpr rfl)) (by simp)
    (by simp [Session.after]) jobSource_run

end ToolCatalog
