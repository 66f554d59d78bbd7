import ToolCatalog.Declarations
import ToolCatalog.Proofs.Faults
import ToolCatalog.Proofs.Identity
import ToolCatalog.Proofs.Records

/-!
The expressions of a program read from declarations.

All expressions that a program holds, and all that are written after it, stand in one ledger under
their numbers. Together they form a universe in which the memo of a session can be trusted.
-/
namespace ToolCatalog

variable {H : Ledger}

/-- The type of a field stands in the ledger, as it was stated and as it is now. -/
structure ModelField.Listed (H : Ledger) (f : ModelField) : Prop where
  type : Owned H f.type
  stated : Owned H f.stated

/-- All types of a class stand in the ledger. -/
def ClassBody.Listed (H : Ledger) : ClassBody → Prop
  | .object c => ∀ f ∈ c.fields, Owned H f.2
  | _ => True

/-- All types of a class that is being read stand in the ledger. -/
def Draft.Listed (H : Ledger) : Draft → Prop
  | .model m => ∀ f ∈ m.fields, f.2.Listed H
  | .keyed k => ∀ f ∈ k.keys, Owned H f.2
  | .finished _ body => body.Listed H

/-- All types read so far stand in the ledger. -/
structure Reading.Listed (H : Ledger) (r : Reading) : Prop where
  scope : r.scope.Listed H
  drafts : ∀ d ∈ r.drafts, d.Listed H

theorem ModelField.Listed.mono {H' : Ledger} (hb : H.Below H') {f : ModelField} (h : f.Listed H) :
    f.Listed H' :=
  ⟨h.type.mono hb, h.stated.mono hb⟩

theorem ClassBody.Listed.mono {H' : Ledger} (hb : H.Below H') {body : ClassBody}
    (h : body.Listed H) : body.Listed H' := by
  cases body with
  | object c => exact fun f hf => (h f hf).mono hb
  | _ => trivial

theorem Draft.Listed.mono {H' : Ledger} (hb : H.Below H') {d : Draft} (h : d.Listed H) :
    d.Listed H' := by
  cases d with
  | model m => exact fun f hf => (h f hf).mono hb
  | keyed k => exact fun f hf => (h f hf).mono hb
  | finished name body => exact ClassBody.Listed.mono hb h

theorem Reading.Listed.mono {H' : Ledger} (hb : H.Below H') {r : Reading} (h : r.Listed H) :
    r.Listed H' :=
  ⟨h.scope.mono hb, fun d hd => (h.drafts d hd).mono hb⟩

theorem Scope.Listed.declare {scope : Scope} (h : scope.Listed H) (name : String) :
    Scope.Listed H ((name, .declared) :: scope) := by
  intro n t ht
  rcases List.mem_cons.mp ht with heq | ht
  · cases heq
  · exact h n t ht

/-! ## Reading -/

theorem ModelField.content_type (t : TypeExpr) (assignment : Assignment) :
    (content t assignment).2 = (match t with
      | .annotated _ inner _ => inner
      | t => t) := by
  unfold content
  cases t <;> cases assignment <;> rfl

theorem ModelField.content_owned {t : TypeExpr} (h : Owned H t) (assignment : Assignment) :
    Owned H (content t assignment).2 := by
  rw [content_type]
  cases h with
  | annotated _ hi => exact hi
  | _ => constructor <;> assumption

theorem ModelField.make_makes {scope : Scope} (hs : scope.Listed H) {stated : TypeExpr}
    (ht : Owned H stated) (assignment : Assignment) :
    Makes H (ModelField.make scope stated assignment) ModelField.Listed := by
  unfold ModelField.make
  refine Makes.bind (TypeExpr.resolve_resolves hs ht) fun H₁ r hb hr => ?_
  cases r with
  | ok t => exact .pure ⟨ModelField.content_owned (hr t rfl) assignment, ht.mono hb⟩
  | error name =>
    exact .pure ⟨ModelField.content_owned (TypeExpr.asType_owned (ht.mono hb)) assignment,
      ht.mono hb⟩

namespace Reading

theorem model_listed {r : Reading} (h : r.Listed H) {name : String} {m : Model}
    (hm : r.model? name = some m) : ∀ f ∈ m.fields, f.2.Listed H := by
  obtain ⟨d, hd, hfind⟩ := List.exists_of_findSome?_eq_some hm
  have hl := h.drafts d hd
  cases d with
  | model m' =>
    simp only at hfind
    split at hfind
    · cases hfind
      exact hl
    · cases hfind
  | _ => cases hfind

/-- The dictionary under a name is one of those read. -/
theorem mem_of_keyed? {r : Reading} {name : String} {k : Keyed} (hk : r.keyed? name = some k) :
    .keyed k ∈ r.drafts := by
  obtain ⟨d, hd, hfind⟩ := List.exists_of_findSome?_eq_some hk
  cases d with
  | keyed k' =>
    simp only at hfind
    split at hfind
    · cases hfind
      exact hd
    · cases hfind
  | _ => cases hfind

theorem keyed_listed {r : Reading} (h : r.Listed H) {name : String} {k : Keyed}
    (hk : r.keyed? name = some k) : ∀ f ∈ k.keys, Owned H f.2 :=
  h.drafts _ (mem_of_keyed? hk)

theorem inherited_listed {r : Reading} (h : r.Listed H) {bases : List String} {name : String}
    {f : ModelField} (hf : r.inherited? bases name = some f) : f.Listed H := by
  obtain ⟨b, -, hb⟩ := List.exists_of_findSome?_eq_some hf
  obtain ⟨m, hm, hlook⟩ := Option.bind_eq_some_iff.mp hb
  obtain ⟨l₁, l₂, hmem, -⟩ := List.lookup_eq_some_iff.mp hlook
  exact model_listed h hm (name, f) (by simp [hmem])

theorem listed_append {scope : Scope} {ds : List Draft} {d : Draft} (hs : scope.Listed H)
    (hds : ∀ d ∈ ds, d.Listed H) (hd : d.Listed H) : Listed H ⟨scope, ds ++ [d]⟩ := by
  refine ⟨hs, fun d' hd' => ?_⟩
  rcases List.mem_append.mp hd' with hd' | hd'
  · exact hds d' hd'
  · rw [List.mem_singleton.mp hd']
    exact hd

theorem readModel_makes {r : Reading} (h : r.Listed H) (name : String) (bases : List String)
    (doc : Option String) (fields : List (String × Written × Assignment)) :
    Makes H (r.readModel name bases doc fields) Reading.Listed := by
  have hmake (scope : Scope) {H₁ : Ledger} (hs : scope.Listed H₁) (n : String) {t : TypeExpr}
      (ht : Owned H₁ t) (assignment : Assignment) :
      Makes H₁ (do return (n, ← ModelField.make scope t assignment))
        fun H (f : String × ModelField) => f.2.Listed H :=
    (ModelField.make_makes hs ht assignment).bind fun _ _ _ hf => .pure hf
  unfold readModel
  refine Makes.bind (Makes.mapM (Q := fun H (f : String × ModelField) => f.2.Listed H)
    (fun _ _ _ hb hf => hf.mono hb) fun e _ H₁ hb => ?_) fun H₂ own hb hown => ?_
  · obtain ⟨n, w, assignment⟩ := e
    refine (Written.make_makes w (h.scope.mono hb)).bind fun H₂ stated hb₂ hstated => ?_
    have hs := (h.scope.mono (hb.trans hb₂)).declare name
    cases assignment with
    | spec s =>
      exact (s.numbered_quiet.makes H₂).bind fun H₃ s' hb₃ _ =>
        hmake _ (hs.mono hb₃) n (hstated.mono hb₃) (.spec s')
    | nothing => exact hmake _ hs n hstated .nothing
    | default v => exact hmake _ hs n hstated (.default v)
  · refine .pure (listed_append ((h.scope.mono hb).declare name)
      (fun d hd => (h.drafts d hd).mono hb) fun f hf => ?_)
    obtain ⟨n, -, hn⟩ := List.mem_filterMap.mp hf
    obtain ⟨f', hf', rfl⟩ := Option.map_eq_some_iff.mp hn
    cases hlook : (Entries.ofList own).lookup n with
    | some f'' =>
      simp only [hlook, Option.orElse_eq_orElse, Option.orElse_some, Option.some.injEq] at hf'
      subst hf'
      obtain ⟨l₁, l₂, hmem, -⟩ := List.lookup_eq_some_iff.mp hlook
      exact hown (n, f'') (Entries.mem_ofList (by simp [hmem]))
    | none =>
      simp only [hlook, Option.orElse_eq_orElse, Option.orElse_none] at hf'
      exact (inherited_listed h hf').mono hb

theorem readKeyed_makes {r : Reading} (h : r.Listed H) (name : String) (bases : List String)
    (doc : Option String) (total : Bool) (keys : List (String × Written)) :
    Makes H (r.readKeyed name bases doc total keys) Reading.Listed := by
  unfold readKeyed
  refine Makes.bind (Makes.mapM (Q := fun H (f : String × TypeExpr) => Owned H f.2)
    (fun _ _ _ hb hf => hf.mono hb) fun e _ H₁ hb => ?_) fun H₂ own hb hown => ?_
  · exact (Written.make_makes e.2 (h.scope.mono hb)).bind fun H₂ t _ ht =>
      .pure (TypeExpr.asType_owned ht)
  · refine .pure (listed_append ((h.scope.mono hb).declare name)
      (fun d hd => (h.drafts d hd).mono hb) fun f hf => ?_)
    rcases List.mem_append.mp (Entries.mem_ofList hf) with hbase | hf
    · obtain ⟨k, hk, hfk⟩ := List.mem_flatMap.mp hbase
      obtain ⟨b, -, hb'⟩ := List.mem_filterMap.mp hk
      exact (keyed_listed h hb' f hfk).mono hb
    · exact hown f (Entries.mem_ofList hf)

theorem read_makes {r : Reading} (h : r.Listed H) (d : Declaration) :
    Makes H (r.read d) Reading.Listed := by
  cases d with
  | model name bases doc fields => exact readModel_makes h name bases doc fields
  | keyed name bases doc total keys => exact readKeyed_makes h name bases doc total keys
  | enumeration e => exact .pure (listed_append (h.scope.declare e.name) h.drafts trivial)
  | derived name base => exact .pure (listed_append (h.scope.declare name) h.drafts trivial)
  | shorthand name w =>
    refine (Written.make_makes w h.scope).bind fun H₁ t hb ht => .pure ⟨?_, (h.mono hb).drafts⟩
    intro n u hu
    rcases List.mem_cons.mp hu with heq | hu
    · cases heq
      exact ht
    · exact (h.scope.mono hb) n u hu

theorem foldlM_makes {r : Reading} (h : r.Listed H) (ds : List Declaration) :
    Makes H (ds.foldlM Reading.read r) Reading.Listed := by
  induction ds generalizing H r with
  | nil => exact .pure h
  | cons d rest ih =>
    rw [List.foldlM_cons]
    exact (read_makes h d).bind fun H₁ r' _ hr => ih hr

end Reading

/-! ## Finishing -/

theorem Model.finish_makes {scope : Scope} (hs : scope.Listed H) {m : Model}
    (hm : ∀ f ∈ m.fields, f.2.Listed H) :
    Makes H (m.finish scope) fun H c => ClassBody.Listed H (.object c) := by
  unfold Model.finish
  refine Makes.bind (Makes.mapM (Q := fun H (f : String × ModelField) => f.2.Listed H)
    (fun _ _ _ hb hf => hf.mono hb) fun e he H₁ hb => ?_) fun H₂ retried hb hretried => ?_
  · obtain ⟨n, f⟩ := e
    have hf : f.Listed H := hm (n, f) he
    dsimp only
    split
    · exact .pure (hf.mono hb)
    · exact (ModelField.make_makes (hs.mono hb) (hf.stated.mono hb) _).bind
        fun H₂ f _ hf => .pure hf
  · have hfields : ∀ f ∈ (if retried.all (·.2.resolved) then retried else m.fields),
        f.2.Listed H₂ := by
      intro f hf
      split at hf
      · exact hretried f hf
      · exact (hm f hf).mono hb
    refine Makes.bind (Makes.mapM (Q := fun H (f : String × TypeExpr) => Owned H f.2)
      (fun _ _ _ hb hf => hf.mono hb) fun e he H₃ hb₃ => ?_) fun H₃ fields _ hf => .pure hf
    obtain ⟨n, f⟩ := e
    exact .new _ (fun id => .field id f.spec f.type) fun H₄ id hb₄ hid =>
      .field hid (((hfields (n, f) he).type.mono hb₃).mono hb₄)

theorem resolveKeys_resolves {scope : Scope} (hs : scope.Listed H)
    {keys : List (String × TypeExpr)} (hk : ∀ f ∈ keys, Owned H f.2) :
    Resolves H (keys.mapM fun (n, t) => do return (n, ← TypeExpr.resolve scope t))
      fun H' ts => ∀ f ∈ ts, Owned H' f.2 :=
  Resolves.mapM (Q := fun H (f : String × TypeExpr) => Owned H f.2)
    (fun _ _ _ hb hf => hf.mono hb) fun e he _ hb =>
      (TypeExpr.resolve_resolves (hs.mono hb) ((hk e he).mono hb)).bind fun _ _ _ ht => .pure ht

/-- A key of a finished dictionary, from what its type resolves to. -/
def Keyed.layer (k : Keyed) (e : String × TypeExpr) : Making (String × TypeExpr) := do
  match e.2 with
  | .notRequired _ _ => return (e.1, e.2)
  | t =>
    if k.optionalKeys.contains e.1 then return (e.1, ← TypeExpr.sharedNotRequired t)
    else return (e.1, t)

/-- The finished dictionary, from what the types of its keys resolve to. -/
def Keyed.settle (k : Keyed) (types : List (String × TypeExpr)) (unknownName : Option String) :
    Making ObjectClass := do
  return { doc := cleanedDoc k.doc, fields := ← types.mapM k.layer, unknownName }

theorem Keyed.finish_eq (scope : Scope) (k : Keyed) : k.finish scope = (do
    let resolving : Resolving (List (String × TypeExpr)) :=
      k.keys.mapM fun (n, t) => do return (n, ← TypeExpr.resolve scope t)
    match ← resolving.run with
    | .ok types => k.settle types none
    | .error name => k.settle k.keys (some name)) := by
  unfold Keyed.finish
  refine bind_congr fun r => ?_
  cases r <;> rfl

theorem Keyed.settle_makes (k : Keyed) {types : List (String × TypeExpr)}
    (ht : ∀ f ∈ types, Owned H f.2) (unknownName : Option String) :
    Makes H (k.settle types unknownName) fun H c => ClassBody.Listed H (.object c) := by
  refine Makes.bind (Makes.mapM (Q := fun H (f : String × TypeExpr) => Owned H f.2)
    (fun _ _ _ hb hf => hf.mono hb) fun e he H₁ hb => ?_) fun H₂ fields _ hf => .pure hf
  have hown : Owned H₁ e.2 := (ht e he).mono hb
  unfold Keyed.layer
  split
  · exact .pure hown
  · split
    · exact (TypeExpr.sharedNotRequired_makes hown).bind fun _ _ _ ht => .pure ht.1
    · exact .pure hown

theorem Keyed.finish_makes {scope : Scope} (hs : scope.Listed H) {k : Keyed}
    (hk : ∀ f ∈ k.keys, Owned H f.2) :
    Makes H (k.finish scope) fun H c => ClassBody.Listed H (.object c) := by
  rw [k.finish_eq]
  refine Makes.bind (resolveKeys_resolves hs hk) fun H₁ r hb hr => ?_
  cases r with
  | ok types => exact k.settle_makes (hr types rfl) none
  | error name => exact k.settle_makes (fun f hf => (hk f hf).mono hb) (some name)

theorem Draft.finish_makes {scope : Scope} (hs : scope.Listed H) {d : Draft} (hd : d.Listed H) :
    Makes H (d.finish scope) fun H e => e.2.Listed H := by
  cases d with
  | model m => exact (Model.finish_makes hs hd).bind fun _ _ _ hc => .pure hc
  | keyed k => exact (Keyed.finish_makes hs hd).bind fun _ _ _ hc => .pure hc
  | finished name body => exact .pure hd

/-- The types of a program, and those that its names stand for, are in the ledger. -/
structure Program.Listed (H : Ledger) (p : Program) : Prop where
  classes : ∀ e ∈ p.definitions.classes, e.2.Listed H
  scope : p.scope.Listed H

theorem Program.ofDeclarations_makes (declarations : List Declaration) :
    Makes H (Program.ofDeclarations declarations) Program.Listed := by
  unfold Program.ofDeclarations
  have hstart : Reading.Listed H ⟨[], []⟩ := ⟨nofun, nofun⟩
  refine (Reading.foldlM_makes hstart declarations).bind fun H₁ r _ hr => ?_
  refine Makes.bind (Makes.mapM (Q := fun H (e : String × ClassBody) => e.2.Listed H)
    (fun _ _ _ hb he => he.mono hb) fun d hd H₂ hb =>
      Draft.finish_makes (hr.scope.mono hb) ((hr.drafts d hd).mono hb)) fun H₂ classes hb hc => ?_
  have hforget : Makes H₂ (modify Supply.withoutCallables) fun _ _ => True := by
    intro s hs
    exact ⟨H₂, fun _ _ => rfl, Nat.le_refl _, ⟨hs.fresh,
      fun e he => hs.shared e (List.mem_filter.mp he).1,
      fun e he => hs.layers e (List.mem_filter.mp he).1⟩, trivial⟩
  refine hforget.bind fun H₃ _ hb₃ _ => .pure ⟨fun e he => ?_, (hr.scope.mono hb).mono hb₃⟩
  exact (hc e (List.mem_reverse.mp he)).mono hb₃

/-! ## Sources -/

/-- Declarations, and the expressions that are written after them. -/
structure Source where
  declarations : List Declaration
  written : List Written

/-- The definitions of a source and its expressions. -/
def Source.make (source : Source) : Making (Definitions × List TypeExpr) := do
  let p ← Program.ofDeclarations source.declarations
  let nodes ← source.written.mapM (Written.make p.scope)
  return (p.definitions, nodes)

/-- The definitions of a source. -/
def Source.definitions (source : Source) : Definitions :=
  (source.make.run .empty).1.1

/-- The expressions that are written after the declarations. -/
def Source.nodes (source : Source) : List TypeExpr :=
  (source.make.run .empty).1.2

theorem Supply.empty_fits : Supply.empty.Fits fun _ => none :=
  ⟨fun _ _ => rfl, nofun, nofun⟩

/-- The expressions of a source: those written after the declarations, the types of all fields, and
what stands under their layers and inside them. -/
inductive Source.Expression (source : Source) : TypeExpr → Prop
  | node {t} (h : t ∈ source.nodes) : Expression source t
  | field {c name t} (hc : c ∈ source.definitions.objects) (h : (name, t) ∈ c.fields) :
      Expression source t
  | core {t} (h : Expression source t) : Expression source t.core
  | part {t e} (h : Expression source t)
      (hp : (t.core.base source.definitions).part? = some e) : Expression source e

/-- The expressions of a source belong to a universe. -/
theorem Source.universe (source : Source) :
    ∃ U, Universe source.definitions U ∧ ∀ t, source.Expression t → U t := by
  have hmake : Makes (fun _ => none) source.make fun H r =>
      (∀ e ∈ r.1.classes, e.2.Listed H) ∧ ∀ t ∈ r.2, Owned H t := by
    unfold Source.make
    refine (Program.ofDeclarations_makes source.declarations).bind fun H₁ p hb hp => ?_
    refine Makes.bind (Makes.mapM (Q := Owned) (fun _ _ _ hb ht => ht.mono hb) fun w _ H₂ hb =>
      Written.make_makes w (hp.scope.mono hb)) fun H₂ nodes hb hn => ?_
    exact .pure ⟨fun e he => (hp.classes e he).mono hb, hn⟩
  obtain ⟨H, -, -, -, hclasses, hnodes⟩ := hmake _ Supply.empty_fits
  refine ⟨Owned H, ⟨Owned.core, Owned.part, ?_, Owned.same⟩, fun t ht => ?_⟩
  · intro t c name v _ hb hv
    obtain ⟨n, -, hf⟩ := TypeExpr.base_object hb
    exact hclasses _ (Definitions.mem_of_find? hf) (name, v) hv
  · induction ht with
    | node h => exact hnodes _ h
    | @field c name t hc h =>
      obtain ⟨⟨n, body⟩, he, hbody⟩ := List.mem_filterMap.mp hc
      have hl := hclasses _ he
      cases body with
      | object c' =>
        cases hbody
        exact hl (name, t) h
      | _ => cases hbody
    | core _ ih => exact ih.core
    | part _ hp ih => exact ih.part hp

end ToolCatalog
