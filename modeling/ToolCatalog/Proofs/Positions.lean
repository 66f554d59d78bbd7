import ToolCatalog.Proofs.Frozen
import ToolCatalog.Proofs.Lockstep
import ToolCatalog.Proofs.Nesting

/-!
Which expression is described at a position of a schema.

A position is named by a path: the keywords and the names of properties that lead to it. The same
path leads through an expression, from a base to its part and from an object class to a field. What
stands at a position of a descriptor's schema is written of the descriptor of the expression there,
even where it is cut; so the default that it shows is what the default of that expression comes to.
-/
namespace ToolCatalog

/-- The schema to which a path leads from another one. -/
inductive Schema.At : Schema → List String → Schema → Prop
  | here (S) : At S [] S
  | inner {S k T path u} (hk : (k, .schema T) ∈ S.parts) (h : At T path u) : At S (k :: path) u
  | property {S k ps name T path u} (hk : (k, .properties ps) ∈ S.parts) (hT : (name, T) ∈ ps)
      (h : At T path u) : At S (k :: name :: path) u

/-- The expression to which a path leads from another one: under the layers, to the part of a base,
or to a field of an object class. -/
inductive TypeExpr.At (defs : Definitions) : TypeExpr → List String → TypeExpr → Prop
  | here (t) : At defs t [] t
  | part {t e k path u} (hk : Nests k) (hp : (t.core.base defs).part? = some e)
      (h : At defs e path u) : At defs t (k :: path) u
  | field {t c name e path u} (hb : t.core.base defs = .object c) (hf : (name, e) ∈ c.fields)
      (h : At defs e path u) : At defs t ("properties" :: name :: path) u

/-- At every position, the schema shows as its default what the default of the expression described
there comes to, and nothing if there is none or it is no data. -/
def Schema.Tells (defs : Definitions) (v : Variation) (S : Schema) (t : TypeExpr) : Prop :=
  ∀ path u, S.At path u → ∃ e, t.At defs path e ∧ (e.varied v).MayShow (u.data? "default")

/-- The schema of what a call gives shows the defaults of the expression that was described. Where
parameters were asked for and there is no object, nothing was described and no default is shown. -/
def Call.Tells (defs : Definitions) (v : Variation) (S : Schema) : Call → Prop
  | .describe t => S.Tells defs v t
  | .compile t =>
    if (t.base defs).isObject then S.Tells defs v t
    else ∀ path u, S.At path u → u.data? "default" = none

section

variable {defs : Definitions} {U : TypeExpr → Prop} {s : Session} {t : TypeExpr} {a : Address}
  {r : Record} {g : Graph} {form : ExportForm} {child : Address → Schema} {x : Option Value}
  {b : Address} {v : Variation} {f : Identity → Identity} {S u : Schema} {path : List String}

/-! ## Defaults of records -/

theorem Analysis.data?_finish (an : Analysis) (hr : r.lookup "default" = none) :
    (an.finish r).data? "default" = an.default.bind DefaultOutcome.data? := by
  unfold finish
  split
  · exact an.data?_decorate hr
  · rename_i hadds
    have hnone : an.default = none := by
      simp only [adds, Bool.or_eq_true, not_or] at hadds
      simpa using hadds.1.2
    rw [Record.data?, hr, hnone]
    rfl

/-- The descriptor of an expression shows what its default comes to. -/
theorem Shows.mayShow (h : Shows defs s t a) :
    t.MayShow ((s.graph.record a).data? "default") := by
  obtain ⟨a₀, r, hs, hf⟩ := h.stands
  obtain ⟨d, hd, heq⟩ := hf.finish hs.record
  exact ⟨d, hd, by rw [heq, Analysis.data?_finish _ hs.lookup_default]; rfl⟩

/-- A default that is shown is JSON, so that a copy of it is the same. -/
theorem TypeExpr.MayShow.map_renamed (h : t.MayShow x) : x.map (Value.renamed f) = x := by
  obtain ⟨o, ho, rfl⟩ := h
  cases hx : o.bind DefaultOutcome.data? with
  | none => rfl
  | some w =>
    have hwire : w.isWire = true := by
      refine ho.isWire .empty w ?_
      rw [Analysis.default?_eq]
      exact hx
    rw [Option.map_some, Value.renamed_eq_self (Value.not_holdsIdentity_of_isWire hwire)]

/-! ## Slots -/

/-- What leads on in the descriptor of an expression leads to that of its part, or to those of
fields of its class. -/
theorem Shows.leads (hi : Invariant defs U s) (h : Shows defs s t a) {k : String} {slot : Slot}
    (hk : (k, slot) ∈ s.graph.record a) (hslot : slot.holds = true) :
    (∃ c e, slot = .schema c ∧ (t.core.base defs).part? = some e ∧ Shows defs s e c) ∨
      ∃ b o, slot = .properties b ∧ t.core.base defs = .object o ∧
        ∀ name c, (name, c) ∈ (s.graph.body b).properties →
          ∃ e, (name, e) ∈ o.fields ∧ Shows defs s e c := by
  obtain ⟨a₀, r, hs, hf⟩ := h.stands
  obtain ⟨below, hr⟩ := hs.profile
  obtain ⟨d, hd, heq⟩ := hf.finish hs.record
  -- The layers add data, so the slot is one of the record under them.
  rw [heq] at hk
  rcases Analysis.mem_finish (hd.isWire defs) hr.layered hk with hk | ⟨w, hw, -⟩
  · cases hs with
    | @object o b hb hc hrec =>
      cases slot with
      | data _ | required _ => cases hslot
      | schema c =>
        unfold objectRecord at hk
        cases hdoc : nonEmpty? o.doc <;> simp [hdoc, Record.ofType] at hk
      | properties b' =>
        obtain rfl : b' = b := objectRecord_body hk rfl
        exact .inr ⟨b', o, rfl, hb, fun name c hname => hi.field_shown hb hc hrec hname⟩
    | @value p _ hb hp hrecord hrec =>
      cases slot with
      | data _ | required _ => cases hslot
      | properties b => cases Base.recordOf_body hrecord _ hk
      | schema c =>
        have hbelow : s.graph.Below r c := ⟨_, hk, rfl⟩
        obtain ⟨hpart, rfl⟩ := ((Record.Profile.recordOf hb hrecord).below c).mp hbelow
        obtain ⟨e, he⟩ := Option.isSome_iff_exists.mp hpart
        exact .inl ⟨p, e, rfl, he, hp e he⟩
  · rw [show slot = .data w from hw] at hslot
    cases hslot

/-! ## Schemas -/

theorem Entries.lookup_filter {α : Type} {p : String → Prop} [DecidablePred p] {k : String}
    (hk : p k) (m : Entries α) : (m.filter fun e => p e.1).lookup k = m.lookup k := by
  induction m with
  | nil => rfl
  | cons e rest ih =>
    rw [List.filter_cons, lookup_cons, ← ih]
    split
    · rw [lookup_cons]
    · rename_i he
      have hne : k ≠ e.1 := by
        rintro rfl
        exact he (decide_eq_true hk)
      rw [if_neg hne]

theorem Record.data?_default_remainder (r : Record) :
    r.remainder.data? "default" = r.data? "default" := by
  have hfilter := Entries.lookup_filter (p := (· ∉ recursiveKeywords)) (k := "default")
    (by decide) r
  have hobject : List.lookup "default"
      (if (r.lookup "type").isSome then [] else Record.ofType "object") = none := by
    split <;> rfl
  rw [data?, data?, remainder, List.lookup_append, hfilter, hobject, Option.or_none]

/-- The default of a record is written in either form. -/
theorem Graph.data?_default_renderedSlots (hr : r.Formed) :
    (Schema.keywords (g.renderedSlots form child r)).data? "default" = r.data? "default" := by
  rw [data?_renderedSlots hr.distinct, Record.data?]
  cases hl : r.lookup "default" with
  | none => rfl
  | some slot =>
    have hfits := hr.fits _ (Entries.mem_of_lookup hl)
    have hholds := hfits.not_holds (by simp [recursiveKeywords])
    cases slot with
    | data v => cases form <;> simp [slotData?, ExportForm.keeps]
    | required b => simp [Slot.Fits] at hfits
    | schema _ | properties _ => cases hholds

/-- What a path leads to in what the descriptor of an expression is written as, however much is
being written around it, shows what the default of the expression there comes to. -/
theorem Shows.default_at (hi : Invariant defs U s) (hg : s.graph.All Record.Kinded)
    {room : Nat} {active : List Address} (hroom : s.graph.Room room active)
    (hactive : ∀ p ∈ active, Relation.TransGen s.graph.Edge p a) (h : Shows defs s t a)
    (hu : (s.graph.rendered form room active a).At path u) :
    ∃ e, t.At defs path e ∧ e.MayShow (u.data? "default") := by
  induction room generalizing active a t path u with
  | zero => exact absurd hroom.pos (Nat.lt_irrefl 0)
  | succ room ih =>
    have hformed := Graph.record_formed hg.formed a
    rw [Graph.rendered] at hu
    split at hu
    · rename_i hmem
      have hcycle := hactive a (List.contains_iff_mem.mp hmem)
      have hinside := Graph.renderedInside_eq (g := s.graph) hformed
        (Graph.KeepsCycles.of_kinded hg form a a .refl hcycle) fun _ => .keywords []
      -- Nothing but data is written of a descriptor inside itself.
      cases hu with
      | here =>
        refine ⟨t, .here t, ?_⟩
        rw [hinside, Graph.data?_default_renderedSlots hformed.remainder,
          Record.data?_default_remainder]
        exact h.mayShow
      | inner hk _ =>
        obtain ⟨w, hw⟩ := Graph.mem_renderedInside hk
        cases hw
      | property hk _ _ =>
        obtain ⟨w, hw⟩ := Graph.mem_renderedInside hk
        cases hw
    · rename_i hmem
      have hnot : a ∉ active := fun hin => hmem (List.contains_iff_mem.mpr hin)
      have hnext {c : Address} {e : TypeExpr} {path : List String} {u : Schema}
          (hedge : s.graph.Edge a c) (he : Shows defs s e c)
          (hu : (s.graph.rendered form room (a :: active) c).At path u) :
          ∃ w, e.At defs path w ∧ w.MayShow (u.data? "default") := by
        exact ih (hroom.enter hnot hedge.lt_records) (Graph.leads_cons hactive hedge) he hu
      cases hu with
      | here =>
        refine ⟨t, .here t, ?_⟩
        rw [Graph.data?_default_renderedSlots hformed]
        exact h.mayShow
      | inner hk hu =>
        obtain ⟨c, hslot, rfl⟩ := Graph.schema_mem_renderedSlots hk
        rcases h.leads hi hslot rfl with ⟨_, e, heq, hp, he⟩ | ⟨b, o, heq, -⟩ <;> cases heq
        obtain ⟨w, hw, hshow⟩ := hnext ⟨_, hslot, rfl⟩ he hu
        exact ⟨w, .part (hformed.fits _ hslot) hp hw, hshow⟩
      | property hk hT hu =>
        obtain ⟨b, hslot, rfl⟩ := Graph.properties_mem_renderedSlots hk
        obtain ⟨⟨name, c⟩, hname, heq⟩ := List.mem_map.mp hT
        cases heq
        rcases h.leads hi hslot rfl with ⟨c', e, heq, -⟩ | ⟨_, o, heq, hb, hfields⟩ <;> cases heq
        obtain ⟨e, hmem, he⟩ := hfields name c hname
        obtain ⟨w, hw, hshow⟩ := hnext ⟨_, hslot, name, hname⟩ he hu
        obtain rfl := hformed.fits _ hslot
        exact ⟨w, .field hb hmem hw, hshow⟩

/-- The empty object that stands for parameters of another kind shows no default. -/
theorem Graph.rendered_empty_at (hr : g.record a = emptyObjectRecord b)
    (hb : (g.body b).properties = []) {room : Nat}
    (hu : (g.rendered form (room + 1) [] a).At path u) : u.data? "default" = none := by
  have hformed : (emptyObjectRecord b).Formed := (Record.Kinded.emptyObjectRecord b).toFormed
  rw [rendered, if_neg (by simp), hr] at hu
  cases hu with
  | here =>
    rw [data?_default_renderedSlots hformed]
    rfl
  | inner hk _ =>
    obtain ⟨c, hslot, -⟩ := schema_mem_renderedSlots hk
    simp [emptyObjectRecord, Record.ofType] at hslot
  | property hk hT _ =>
    obtain ⟨b', hslot, rfl⟩ := properties_mem_renderedSlots hk
    have hbody : b' = b := by
      simp [emptyObjectRecord, Record.ofType] at hslot
      exact hslot.2
    rw [hbody, hb] at hT
    cases hT

/-! ## Variations -/

/-- The expressions at the end of a path differ in the defaults. -/
theorem TypeExpr.At.of_varied {e : TypeExpr} (h : (t.varied v).At (defs.varied v) path e) :
    ∃ w : TypeExpr, t.At defs path w ∧ e = w.varied v := by
  have hbase (t : TypeExpr) :
      (t.varied v).core.base (defs.varied v) = (t.core.base defs).varied v := by
    rw [core_varied, base_varied]
  generalize hu : t.varied v = u at h
  induction h generalizing t with
  | here => exact ⟨t, .here t, hu.symm⟩
  | part hk hp _ ih =>
    subst hu
    rw [hbase, Base.part?_varied] at hp
    obtain ⟨w, hw, rfl⟩ := Option.map_eq_some_iff.mp hp
    obtain ⟨x, hx, rfl⟩ := ih rfl
    exact ⟨x, .part hk hw hx, rfl⟩
  | field hb hf _ ih =>
    subst hu
    rw [hbase] at hb
    cases ho : t.core.base defs with
    | object o =>
      rw [ho] at hb
      cases hb
      obtain ⟨⟨name, w⟩, hw, heq⟩ := List.mem_map.mp hf
      cases heq
      obtain ⟨x, hx, rfl⟩ := ih rfl
      exact ⟨x, .field ho hw hx, rfl⟩
    | _ =>
      rw [ho] at hb
      cases hb

/-- A path leads in a copy to a copy. -/
theorem Schema.At.of_renamed (h : (S.renamed f).At path u) :
    ∃ w, S.At path w ∧ u = w.renamed f := by
  generalize hT : S.renamed f = T at h
  induction h generalizing S with
  | here => exact ⟨S, .here S, hT.symm⟩
  | inner hk _ ih =>
    subst hT
    rw [parts_renamed] at hk
    obtain ⟨⟨k, part⟩, hpart, heq⟩ := List.mem_map.mp hk
    cases part with
    | data _ | properties _ => cases heq
    | schema X =>
      cases heq
      obtain ⟨w, hw, rfl⟩ := ih rfl
      exact ⟨w, .inner hpart hw, rfl⟩
  | property hk hT' _ ih =>
    subst hT
    rw [parts_renamed] at hk
    obtain ⟨⟨k, part⟩, hpart, heq⟩ := List.mem_map.mp hk
    cases part with
    | data _ | schema _ => cases heq
    | properties ps =>
      cases heq
      rw [renamedProperties_eq] at hT'
      obtain ⟨⟨name, X⟩, hX, heq⟩ := List.mem_map.mp hT'
      cases heq
      obtain ⟨w, hw, rfl⟩ := ih rfl
      exact ⟨w, .property hpart hX hw, rfl⟩

theorem Schema.Tells.renamed (h : S.Tells defs v t) : (S.renamed f).Tells defs v t := by
  intro path u hu
  obtain ⟨w, hw, rfl⟩ := hu.of_renamed
  obtain ⟨e, he, hshow⟩ := h path w hw
  exact ⟨e, he, by rwa [data?_renamed, hshow.map_renamed]⟩

/-! ## Calls -/

/-- What is written of the descriptor of an expression shows its defaults. -/
theorem Shows.tells (hi : Invariant (defs.varied v) U s) (hg : s.graph.All Record.Kinded)
    (h : Shows (defs.varied v) s (t.varied v) a) (form : ExportForm) :
    (s.graph.rendered form (s.graph.records.size + 1) [] a).Tells defs v t := by
  intro path u hu
  obtain ⟨e, he, hshow⟩ := h.default_at hi hg (.start _) (by simp) hu
  obtain ⟨w, hw, rfl⟩ := he.of_varied
  exact ⟨w, hw, hshow⟩

/-- What was given for a call is written as a schema that shows the defaults of its expression. -/
theorem Call.Answered.tells {c : Call} (hi : Invariant (defs.varied v) U s)
    (hg : s.graph.All Record.Kinded) (h : (c.varied v).Answered (defs.varied v) s a)
    (form : ExportForm) :
    ∃ S, s.graph.render form a = .ok S ∧ c.Tells defs v S := by
  refine ⟨_, Graph.render_eq hg.formed.proper form a, ?_⟩
  cases c with
  | describe t => exact (Shows.tells hi hg h form).renamed
  | compile t =>
    have hobject : ((t.varied v).base (defs.varied v)).isObject = (t.base defs).isObject := by
      rw [TypeExpr.base_varied, Base.isObject_varied]
    cases h with
    | object hb h =>
      rw [Tells, if_pos (hobject.symm.trans hb)]
      exact (Shows.tells hi hg h form).renamed
    | empty hb hr hbody =>
      rw [Tells, if_neg (by simp [← hobject, hb])]
      intro path u hu
      obtain ⟨w, hw, rfl⟩ := hu.of_renamed
      rw [Schema.data?_renamed, Graph.rendered_empty_at (Graph.record_of_getElem? hr)
        (by rw [Graph.body, hbody]; rfl) hw]
      rfl

end

end ToolCatalog
