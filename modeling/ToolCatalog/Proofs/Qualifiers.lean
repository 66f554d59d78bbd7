import ToolCatalog.Proofs.Inheritance
import ToolCatalog.Proofs.Resolving

/-!
Which keys of a dictionary are required.

A key's type with its names looked up may be qualified as required or not required, and a key
without a qualifier goes by whether the class is total. The finished class instead marks every key
that some statement leaves optional as it is written, before names are looked up. The two disagree
where the last statement about a key demands it and an optional statement stands against that: a
base that leaves the key optional, or the same statement, if its qualifier hides behind a name.
-/
namespace ToolCatalog

/-- Whether a statement demands its key, with the type that its own resolves to. -/
def KeyStatement.demands (e : KeyStatement) (u : TypeExpr) : Bool :=
  (Reading.writtenRequired? u).getD e.total

/-! ## Qualifiers -/

namespace TypeExpr

variable {t u : TypeExpr} {b : Bool}

/-- A type that is qualified as required or not. -/
def qualified (b : Bool) (i : Nat) (inner : TypeExpr) : TypeExpr :=
  if b then .required i inner else .notRequired i inner

/-- A qualifier that is seen is the outermost layer or stands right under an annotation. -/
theorem exists_qualified (h : Reading.writtenRequired? t = some b) : ∃ i inner,
    t = qualified b i inner ∨ ∃ j items, t = .annotated j (qualified b i inner) items := by
  unfold Reading.writtenRequired? at h
  split at h
  case h_1 j i inner items =>
    cases h
    exact ⟨i, inner, .inr ⟨j, items, rfl⟩⟩
  case h_2 i inner =>
    cases h
    exact ⟨i, inner, .inl rfl⟩
  case h_3 j i inner items =>
    cases h
    exact ⟨i, inner, .inr ⟨j, items, rfl⟩⟩
  case h_4 i inner =>
    cases h
    exact ⟨i, inner, .inl rfl⟩
  case h_5 => cases h

theorem writtenRequired_qualified (b : Bool) (i : Nat) (inner : TypeExpr) :
    Reading.writtenRequired? (qualified b i inner) = some b := by
  cases b <;> rfl

theorem writtenRequired_annotated (b : Bool) (j i : Nat) (inner : TypeExpr)
    (items : List Metadata) :
    Reading.writtenRequired? (.annotated j (qualified b i inner) items) = some b := by
  cases b <;> rfl

theorem asType_qualified (b : Bool) (i : Nat) (inner : TypeExpr) :
    (qualified b i inner).asType = qualified b i inner := by
  cases b <;> rfl

/-- What is qualified as not required may be absent. -/
theorem allowsAbsence_of_notRequired (h : Reading.writtenRequired? t = some false) :
    t.allowsAbsence = true := by
  obtain ⟨i, inner, rfl | ⟨j, items, rfl⟩⟩ := exists_qualified h
  · rfl
  · simp [qualified, allowsAbsence, peel, Layer.allowsAbsence]

/-- Without layers of null or a default, only a "not required" layer lets a value be absent. -/
theorem allowsAbsence_iff (h : ∀ l ∈ t.peel.1, l.allowsNull = false ∧ l.source? = none) :
    t.allowsAbsence = true ↔ Layer.optional ∈ t.peel.1 := by
  rw [allowsAbsence, List.any_eq_true]
  constructor
  · rintro ⟨l, hl, habs⟩
    obtain ⟨hnull, hsource⟩ := h l hl
    cases l with
    | optional => exact hl
    | nullable => cases hnull
    | remarks r => cases habs
    | default r source => cases hsource
  · exact fun hl => ⟨_, hl, rfl⟩

section

variable {lookup : TypeExpr → String → Resolving TypeExpr}

theorem resolveWith_qualified_eq (b : Bool) (i : Nat) (inner : TypeExpr) :
    resolveWith lookup (qualified b i inner) = (do
      let made ← resolveWith lookup inner
      if made.equal inner then return qualified b i inner
      else return qualified b (← fresh) made) := by
  cases b <;> simp only [qualified, if_true, if_false, Bool.false_eq_true, resolveWith]

theorem resolveWith_qualified (b : Bool) (i : Nat) (inner : TypeExpr) :
    Yields (resolveWith lookup (qualified b i inner)).run fun r =>
      ∀ u, r = .ok u → ∃ j made, u = qualified b j made := by
  rw [resolveWith_qualified_eq]
  refine Yields.bind_ok (P := fun _ => True) (fun _ _ _ => trivial) fun made _ => ?_
  split
  · exact .pure fun u hu => by cases hu; exact ⟨i, inner, rfl⟩
  · exact Yields.bind_ok (P := fun _ => True) (fun _ _ _ => trivial) fun j _ =>
      .pure fun u hu => by cases hu; exact ⟨j, made, rfl⟩

/-- Looking up names under a qualifier leaves the qualifier. -/
theorem resolveWith_writtenRequired (h : Reading.writtenRequired? t = some b) :
    Yields (resolveWith lookup t).run fun r =>
      ∀ u, r = .ok u → Reading.writtenRequired? u = some b := by
  obtain ⟨i, inner, rfl | ⟨j, items, rfl⟩⟩ := exists_qualified h
  · intro s u hu
    obtain ⟨j, made, rfl⟩ := resolveWith_qualified b i inner s u hu
    exact writtenRequired_qualified b j made
  · rw [resolveWith]
    refine Yields.bind_ok (resolveWith_qualified b i inner) fun made hmade => ?_
    obtain ⟨j', made, rfl⟩ := hmade
    split
    · exact .pure fun u hu => by cases hu; exact h
    · have hannotate : annotate (qualified b j' made) items
          = (do return .annotated (← fresh) (qualified b j' made) items) := by
        cases b <;> rfl
      rw [hannotate]
      exact fun s u hu => by cases hu; exact writtenRequired_annotated b _ j' made items

end

end TypeExpr

/-- What a type resolves to is qualified as the type is. -/
theorem Scope.Turns.writtenRequired {scope : Scope} {t u : TypeExpr} {b : Bool}
    (h : scope.Turns t u) (ht : Reading.writtenRequired? t = some b) :
    Reading.writtenRequired? u = some b := by
  obtain ⟨s, hu⟩ := h
  have htype : t.asType = t := by
    obtain ⟨i, inner, rfl | ⟨j, items, rfl⟩⟩ := TypeExpr.exists_qualified ht
    · exact TypeExpr.asType_qualified b i inner
    · rfl
  rw [TypeExpr.resolve, htype] at hu
  exact TypeExpr.resolveWith_writtenRequired ht s u hu

/-- A key that is not demanded may be absent by its resolved type, or is left optional by the
statement as it is written. -/
theorem KeyStatement.lenient_of_not_demands {scope : Scope} {e : KeyStatement} {u : TypeExpr}
    (h : scope.Turns e.type u) (hd : e.demands u = false) :
    u.allowsAbsence = true ∨ e.optional = true := by
  cases hu : Reading.writtenRequired? u with
  | some b =>
    obtain rfl : b = false := by simpa [demands, hu] using hd
    exact .inl (TypeExpr.allowsAbsence_of_notRequired hu)
  | none =>
    have htotal : e.total = false := by simpa [demands, hu] using hd
    -- A qualifier of the written type would be one of the resolved type.
    have he : Reading.writtenRequired? e.type = none :=
      Option.eq_none_iff_forall_ne_some.mpr fun b he => by
        rw [h.writtenRequired he] at hu
        cases hu
    exact .inr (by simp [optional, he, htotal])

/-! ## Finished keys -/

section

variable {H : Ledger}

theorem Makes.and_yields {α : Type} {m : Making α} {P : Ledger → α → Prop} {Q : α → Prop}
    (h : Makes H m P) (hq : Yields m Q) : Makes H m fun H' a => P H' a ∧ Q a := by
  intro s hs
  obtain ⟨H', hsame, hle, hfit, hp⟩ := h s hs
  exact ⟨H', hsame, hle, hfit, hp, hq s⟩

theorem Makes.forall₂ {α β : Type} {f : α → Making β} {R : α → β → Prop} {l : List α}
    (h : ∀ a ∈ l, ∀ H', H.Below H' → Makes H' (f a) fun _ => R a) :
    Makes H (l.mapM f) fun _ => List.Forall₂ R l := by
  induction l generalizing H with
  | nil => exact pure .nil
  | cons a rest ih =>
    rw [List.mapM_cons]
    refine bind (h a (by simp) H (.refl H)) fun H₁ b hb₁ hr => ?_
    refine bind (ih fun x hx H' hb => h x (by simp [hx]) H' (hb₁.trans hb)) fun H₂ bs _ hrs => ?_
    exact pure (.cons hr hrs)

/-- What a finished dictionary has for a key with a type: the type itself, or for a key that counts
as optional a "not required" layer, perhaps an earlier one that is around an equal type. -/
def Keyed.Layers (k : Keyed) (n : String) (t f : TypeExpr) : Prop :=
  if k.optionalKeys.contains n then ∃ i x, f = .notRequired i x ∧ (f = t ∨ x.equal t = true)
  else f = t

/-- A finished dictionary has for a key what its type resolves to, or the type as it is if some name
is unknown, in either case with a layer where the key counts as optional. -/
def Keyed.Settles (k : Keyed) (scope : Scope) (unknownName : Option String)
    (e f : String × TypeExpr) : Prop :=
  e.1 = f.1 ∧ ∃ u, (if unknownName = none then scope.Turns e.2 u else u = e.2) ∧ k.Layers e.1 u f.2

/-- A dictionary is finished with the first unknown name among its keys, and with all its keys. -/
def Keyed.Finishes (k : Keyed) (scope : Scope) (c : ObjectClass) : Prop :=
  c.unknownName = (k.keys.flatMap fun e => scope.unknown e.2).head? ∧
    List.Forall₂ (k.Settles scope c.unknownName) k.keys c.fields

theorem Keyed.layer_makes (k : Keyed) {e : String × TypeExpr} (h : Owned H e.2) :
    Makes H (k.layer e) fun _ f => e.1 = f.1 ∧ k.Layers e.1 e.2 f.2 := by
  unfold Keyed.layer Keyed.Layers
  split
  · rename_i i inner ht
    refine .pure ⟨rfl, ?_⟩
    split
    · exact ⟨i, inner, ht, .inl rfl⟩
    · rfl
  · split
    · exact (TypeExpr.sharedNotRequired_makes h).bind fun _ _ _ hf => .pure <| by
        obtain ⟨-, i, x, rfl, hx⟩ := hf
        exact ⟨rfl, i, x, rfl, .inr hx⟩
    · exact .pure ⟨rfl, rfl⟩

theorem Keyed.settle_relates (k : Keyed) {types : List (String × TypeExpr)}
    (ht : ∀ f ∈ types, Owned H f.2) (unknownName : Option String) :
    Makes H (k.settle types unknownName) fun _ c => c.unknownName = unknownName ∧
      List.Forall₂ (fun e f => e.1 = f.1 ∧ k.Layers e.1 e.2 f.2) types c.fields :=
  (Makes.forall₂ fun e he _ hb => k.layer_makes ((ht e he).mono hb)).bind fun _ _ _ hf =>
    .pure ⟨rfl, hf⟩

theorem Keyed.finish_settles {scope : Scope} (hs : scope.Listed H) {k : Keyed}
    (hk : ∀ f ∈ k.keys, Owned H f.2) : Makes H (k.finish scope) fun _ c => k.Finishes scope c := by
  rw [k.finish_eq]
  refine Makes.bind ((resolveKeys_resolves hs hk).and_yields (resolveKeys_answers scope k.keys))
    fun H₁ r hb hr => ?_
  obtain ⟨hown, hr⟩ := hr
  unfold Keyed.Finishes
  cases hx : (k.keys.flatMap fun e => scope.unknown e.2).head? with
  | none =>
    rw [hx] at hr
    obtain ⟨types, rfl, htypes⟩ := hr
    refine (k.settle_relates (hown types rfl) none).imp fun _ c hc => ⟨hc.1, ?_⟩
    rw [hc.1]
    refine (forall₂_comp htypes hc.2).imp fun e f hef => ?_
    obtain ⟨⟨n, u⟩, ⟨hn, hu⟩, hf, hlayer⟩ := hef
    obtain rfl : e.1 = n := hn
    exact ⟨hf, u, hu, hlayer⟩
  | some name =>
    rw [hx] at hr
    obtain rfl : r = .error name := hr
    refine (k.settle_relates (fun f hf => (hk f hf).mono hb) (some name)).imp fun _ c hc =>
      ⟨hc.1, ?_⟩
    rw [hc.1]
    exact hc.2.imp fun e f hef => ⟨hef.1, e.2, rfl, hef.2⟩

theorem Draft.finish_settles {scope : Scope} (hs : scope.Listed H) {d : Draft} (hd : d.Listed H) :
    Makes H (d.finish scope) fun _ e => ∀ k c, d = .keyed k → e.2 = .object c →
      k.Finishes scope c := by
  cases d with
  | keyed k =>
    refine (Keyed.finish_settles hs hd).bind fun _ c _ hc => .pure fun k' c' hk hc' => ?_
    cases hk
    cases hc'
    exact hc
  | _ => exact (Draft.finish_makes hs hd).imp fun _ _ _ k c hk => by cases hk

end

theorem Reading.not_mem_of_model? {r : Reading} {m : Model} (h : r.model? m.name = none) :
    .model m ∉ r.drafts := by
  intro hm
  have hnone := List.findSome?_eq_none_iff.mp h _ hm
  simp at hnone

/-- Every dictionary of a source is what a draft is finished as. -/
theorem Source.settled (source : Source) {name : String} {c : ObjectClass}
    (hfind : source.definitions.find? name = some (.object c))
    (hdictionary : source.reading.model? name = none) :
    ∃ k, .keyed k ∈ source.reading.drafts ∧ k.name = name ∧
      c.fields.map (·.1) = k.keys.map (·.1) ∧ k.Finishes source.reading.scope c := by
  have hsettles : List.Forall₂ (fun d (e : String × ClassBody) => ∀ k c, d = .keyed k →
      e.2 = .object c → k.Finishes source.reading.scope c)
      source.reading.drafts source.definitions.classes.reverse := by
    have hstart : Reading.Listed (fun _ => none) ⟨[], []⟩ := ⟨nofun, nofun⟩
    obtain ⟨H, -, -, hfit, hr⟩ :=
      Reading.foldlM_makes hstart source.declarations _ Supply.empty_fits
    have hread : source.reading.Listed H := hr
    have hmap : Makes H (source.reading.drafts.mapM (Draft.finish source.reading.scope)) _ :=
      Makes.forall₂ fun d hd H' hb =>
        Draft.finish_settles (hread.scope.mono hb) ((hread.drafts d hd).mono hb)
    obtain ⟨-, -, -, -, hsettled⟩ := hmap _ hfit
    rw [source.classes_reverse]
    exact hsettled
  have hmem := List.mem_reverse.mpr (Definitions.mem_of_find? hfind)
  obtain ⟨d, hd, hlists, hsettled⟩ :=
    exists_of_mem_right (forall₂_and source.classes_lists hsettles) hmem
  have hlists := hlists c rfl fun n => (source.reading_distinct d hd).2 n c
  cases d with
  | model m =>
    obtain rfl : m.name = name := hlists.1
    exact absurd hd (Reading.not_mem_of_model? hdictionary)
  | keyed k => exact ⟨k, hd, hlists.1, hlists.2, hsettled k c rfl rfl⟩
  | finished n body => exact hlists.elim

section

variable {source : Source} {k : Keyed} {statements : List KeyStatement} {n : String}
  {e : KeyStatement} {u f : TypeExpr}

/-- A settled key may not be absent exactly if its resolved type may not and all statements about it
are firm. -/
theorem Source.Lineage.strict_iff (h : source.Lineage k statements) (hf : k.Layers n u f) :
    f.allowsAbsence = false ↔ u.allowsAbsence = false ∧ KeyStatement.Firm n statements := by
  rw [← h.not_optional_iff]
  unfold Keyed.Layers at hf
  cases hopt : k.optionalKeys.contains n with
  | true =>
    rw [hopt, if_pos rfl] at hf
    obtain ⟨i, inner, rfl, -⟩ := hf
    have habsent : (TypeExpr.notRequired i inner).allowsAbsence = true := rfl
    simp [habsent]
  | false =>
    rw [hopt] at hf
    obtain rfl : f = u := hf
    simp

/-- What is required is what the last statement demands exactly if a key that it demands has no "not
required" layer and all statements about the key are firm. -/
theorem KeyStatement.demands_iff {scope : Scope} {required : Bool} (hu : scope.Turns e.type u)
    (he : latest? n statements = some e)
    (hrequired : required = true ↔ u.allowsAbsence = false ∧ Firm n statements)
    (hlayers : ∀ l ∈ u.peel.1, l.allowsNull = false ∧ l.source? = none) :
    required = e.demands u ↔
      (e.demands u = true → Layer.optional ∉ u.peel.1 ∧ Firm n statements) := by
  cases hd : e.demands u with
  | true =>
    rw [hrequired, ← Bool.not_eq_true, TypeExpr.allowsAbsence_iff hlayers]
    simp
  | false =>
    obtain ⟨hmem, hkey⟩ := mem_of_latest? he
    have hfree : required = false := by
      refine Bool.eq_false_of_not_eq_true fun hreq => ?_
      obtain ⟨hstrict, hfirm⟩ := hrequired.mp hreq
      rcases lenient_of_not_demands hu hd with hlenient | hlenient
      · rw [hstrict] at hlenient
        cases hlenient
      · rw [hfirm e hmem hkey] at hlenient
        cases hlenient
    simp [hfree]

end

/-- What a dictionary offers for its keys, compiled after calls of which none failed: each has the
type of the last statement about it, settled. -/
theorem compile_keys {source : Source} {observable : Bool} {calls : List Call} {name : String}
    {c : ObjectClass} (hfind : source.definitions.find? name = some (.object c))
    (hdictionary : source.reading.model? name = none)
    (hname : source.Expression (.declared name))
    (hcalls : ∀ c ∈ calls, source.Expression c.type)
    (hok : ∀ r ∈ (Session.after source.definitions (.fresh observable) calls).1, ∃ a, r = .ok a)
    {a : Address} {s : Session}
    (h : (Session.after source.definitions (.fresh observable) calls).2.run
      (describeParameters source.definitions (.declared name)) = (.ok a, s)) :
    AllComplete source.definitions s ∧ ∃ k statements, .keyed k ∈ source.reading.drafts ∧
      k.name = name ∧ source.Lineage k statements ∧
      c.unknownName = (k.keys.flatMap fun e => source.reading.scope.unknown e.2).head? ∧
      ∀ n f, (n, f) ∈ c.fields → ∃ e u p, KeyStatement.latest? n statements = some e ∧
        (if c.unknownName = none then source.reading.scope.Turns e.type u else u = e.type) ∧
        k.Layers n u f ∧ s.Offers c a n p (!f.allowsAbsence) ∧
        Shows source.definitions s f p := by
  obtain ⟨k, hk, hkname, hnames, hunknown, hsettles⟩ := source.settled hfind hdictionary
  obtain ⟨statements, hlineage⟩ := Source.Lineage.of_mem List.prefix_rfl hk
  obtain ⟨hnodup, hlookup⟩ := hlineage.lookup_keys
  obtain ⟨U, hU, hexpr⟩ := source.universe
  obtain ⟨hall, ha⟩ := compile_complete hU (fun c hc => hexpr _ (hcalls c hc)) hok hfind
    (hexpr _ hname) h
  refine ⟨hall, k, statements, hk, hkname, hlineage, hunknown, fun n f hf => ?_⟩
  obtain ⟨⟨m, t⟩, ht, hm, u, hu, hlayer⟩ := exists_of_mem_right hsettles hf
  obtain rfl : m = n := hm
  have htype := hlookup m
  rw [Entries.lookup_of_mem hnodup ht] at htype
  obtain ⟨e, he, rfl⟩ := Option.map_eq_some_iff.mp htype.symm
  obtain ⟨p, hoffers, hshows⟩ := Complete.offers (hall name c hfind (by simp [ha])) ha
    (hnames ▸ hnodup) hf
  exact ⟨e, u, p, he, hu, hlayer, hoffers, hshows⟩

/-- A dictionary all of whose names are known, compiled after calls of which none failed. A key is
required exactly if the resolved type of the last statement about it may not be absent and no
statement leaves it optional as it is written; then it has that very type. Where no layer allows
null or brings a default, this is what the qualifier of that type or else the totality of its class
demands, except for a key that they demand although it has a "not required" layer inside or is left
optional by some statement. -/
theorem compile_requires_iff (source : Source) (observable : Bool) (calls : List Call)
    {name : String} {c : ObjectClass} (hfind : source.definitions.find? name = some (.object c))
    (hdictionary : source.reading.model? name = none) (hknown : c.unknownName = none)
    (hname : source.Expression (.declared name))
    (hcalls : ∀ c ∈ calls, source.Expression c.type)
    (hok : ∀ r ∈ (Session.after source.definitions (.fresh observable) calls).1, ∃ a, r = .ok a)
    {a : Address} {s : Session}
    (h : (Session.after source.definitions (.fresh observable) calls).2.run
      (describeParameters source.definitions (.declared name)) = (.ok a, s)) :
    ∃ k statements, .keyed k ∈ source.reading.drafts ∧ k.name = name ∧
      source.Lineage k statements ∧ ∀ n ∈ c.fields.map (·.1), ∃ e u p required,
        KeyStatement.latest? n statements = some e ∧ source.reading.scope.Turns e.type u ∧
        (KeyStatement.Firm n statements → (n, u) ∈ c.fields) ∧ s.Offers c a n p required ∧
        (required = true ↔ u.allowsAbsence = false ∧ KeyStatement.Firm n statements) ∧
        ((∀ l ∈ u.peel.1, l.allowsNull = false ∧ l.source? = none) →
          (required = e.demands u ↔ (e.demands u = true →
            Layer.optional ∉ u.peel.1 ∧ KeyStatement.Firm n statements))) := by
  obtain ⟨-, k, statements, hk, hkname, hlineage, -, hkeys⟩ :=
    compile_keys hfind hdictionary hname hcalls hok h
  refine ⟨k, statements, hk, hkname, hlineage, fun n hn => ?_⟩
  obtain ⟨⟨n, f⟩, hf, rfl⟩ := List.mem_map.mp hn
  obtain ⟨e, u, p, he, hu, hlayer, hoffers, -⟩ := hkeys n f hf
  rw [if_pos hknown] at hu
  have hfield (hfirm : KeyStatement.Firm n statements) : (n, u) ∈ c.fields := by
    rw [Keyed.Layers, (hlineage.not_optional_iff n).mpr hfirm] at hlayer
    obtain rfl : f = u := hlayer
    exact hf
  have hrequired : (!f.allowsAbsence) = true ↔
      u.allowsAbsence = false ∧ KeyStatement.Firm n statements := by
    rw [Bool.not_eq_true', hlineage.strict_iff hlayer]
  exact ⟨e, u, p, _, he, hu, hfield, hoffers, hrequired,
    KeyStatement.demands_iff hu he hrequired⟩

/-- A dictionary that is not total, with a key whose type is required by a name for it. -/
def partialSource : Source where
  declarations := [
    .shorthand "Must" (.required (.atom (.builtin .integer))),
    .keyed "Partial" [] none false [("id", .forward "Must")]]
  written := [.reference "Partial"]

/-- The class as it is finished. -/
def partialClass : ObjectClass where
  doc := none
  fields := [("id", .notRequired 2 (.required 0 (.atom (.builtin .integer))))]
  unknownName := none

/-- The class as it is read. -/
def partialKeyed : Keyed where
  name := "Partial"
  doc := none
  keys := [("id", .forward 1 "Must")]
  optionalKeys := ["id"]

/-- The session in which the dictionary has been compiled. -/
def partialSession : Session :=
  ((Session.fresh false).run
    (describeParameters partialSource.definitions (.declared "Partial"))).2

theorem partialSource_find :
    partialSource.definitions.find? "Partial" = some (.object partialClass) :=
  rfl

theorem partialSource_nodes : partialSource.nodes = [.declared "Partial"] :=
  rfl

/-- The only statement about the key demands it, once the name is looked up, and yet the key is not
required. -/
theorem compile_partial_leaves_out :
    (Session.fresh false).run (describeParameters partialSource.definitions (.declared "Partial"))
        = (.ok 0, partialSession) ∧
      .keyed partialKeyed ∈ partialSource.reading.drafts ∧
      partialSource.Lineage partialKeyed [⟨"id", .forward 1 "Must", false⟩] ∧
      partialSource.reading.scope.Turns (.forward 1 "Must")
        (.required 0 (.atom (.builtin .integer))) ∧
      KeyStatement.demands ⟨"id", .forward 1 "Must", false⟩
        (.required 0 (.atom (.builtin .integer))) = true ∧
      partialSession.graph.record 0 = objectRecord partialClass 0 ∧
      (partialSession.graph.body 0).properties.keys = ["id"] ∧
      (partialSession.graph.body 0).required = [] := by
  have hlineage := @Source.Lineage.intro partialSource
    [.shorthand "Must" (.required (.atom (.builtin .integer)))] "Partial" [] none false
    [("id", .forward "Must")] partialKeyed (fun _ => []) List.prefix_rfl rfl nofun
  exact ⟨rfl, List.mem_singleton.mpr rfl, hlineage, ⟨.empty, rfl⟩, rfl, rfl, rfl, rfl⟩

theorem compile_requires_iff_partial :
    ∃ k statements, .keyed k ∈ partialSource.reading.drafts ∧ k.name = "Partial" ∧
      partialSource.Lineage k statements ∧ ∀ n ∈ partialClass.fields.map (·.1),
        ∃ e u p required,
          KeyStatement.latest? n statements = some e ∧
          partialSource.reading.scope.Turns e.type u ∧
          (KeyStatement.Firm n statements → (n, u) ∈ partialClass.fields) ∧
          partialSession.Offers partialClass 0 n p required ∧
          (required = true ↔ u.allowsAbsence = false ∧ KeyStatement.Firm n statements) ∧
          ((∀ l ∈ u.peel.1, l.allowsNull = false ∧ l.source? = none) →
            (required = e.demands u ↔ (e.demands u = true →
              Layer.optional ∉ u.peel.1 ∧ KeyStatement.Firm n statements))) :=
  compile_requires_iff partialSource false [] partialSource_find rfl rfl
    (.node (by rw [partialSource_nodes]; exact List.mem_singleton.mpr rfl)) (by simp)
    (by simp [Session.after]) rfl

end ToolCatalog
