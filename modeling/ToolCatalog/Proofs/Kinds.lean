import ToolCatalog.Proofs.Cutting
import ToolCatalog.Proofs.Nullable
import ToolCatalog.Proofs.Sharing

/-!
What the descriptors of the compiler say they are.

A type keyword holds the name of a type, or several names once each. One of them can be that of
anything; but a descriptor that holds other descriptors is an array or an object, perhaps with null,
so that no descriptor on a cycle allows anything.
-/
namespace ToolCatalog

/-- The types that a JSON schema knows. -/
def typeNames : List String :=
  ["string", "integer", "number", "boolean", "array", "object", "null"]

/-- What a type keyword may hold, given the names of types: one of them, or some of them once
each. -/
inductive Value.NamesOf (names : List String) : Value → Prop
  | one {n} (h : n ∈ names) : NamesOf names (.text n)
  | several (ns) (hne : ns ≠ []) (hd : ns.Nodup) (h : ns ⊆ names) : NamesOf names (.texts ns)

/-- A record as the compiler makes it: the type is one of those that are known or that of anything,
and known where there are descriptors below. -/
structure Record.Kinded (r : Record) : Prop extends r.Formed where
  typed : ∀ v, r.data? "type" = some v → v.NamesOf ("any" :: typeNames)
  above : ∀ e ∈ r, e.2.holds = true → ∃ v, r.data? "type" = some v ∧ v.NamesOf typeNames

/-! ## Names of types -/

theorem JsonType.name_mem (t : JsonType) : t.name ∈ typeNames := by
  cases t <;> decide

theorem Value.text_memberOf {n : String} {ns : List String} :
    (Value.text n).memberOf (ns.map .text) = true ↔ n ∈ ns := by
  simp [memberOf]

namespace Value.NamesOf

variable {names : List String} {v : Value}

theorem isWire (h : v.NamesOf names) : v.isWire = true := by
  cases h with
  | one _ => rfl
  | several ns _ _ _ => exact texts_isWire ns

theorem not_allowsAnything (h : v.NamesOf names) (hany : "any" ∉ names) :
    allowsAnything v = false := by
  cases h with
  | @one n h =>
    have hne : n ≠ "any" := fun heq => hany (heq ▸ h)
    simp [allowsAnything, hne.symm]
  | several ns hne hd h =>
    rw [Value.texts, allowsAnything, Bool.eq_false_iff, ne_eq, Value.text_memberOf]
    exact fun hmem => hany (h hmem)

theorem of_not_allowsAnything (h : v.NamesOf ("any" :: names)) (hv : allowsAnything v = false) :
    v.NamesOf names := by
  cases h with
  | @one n h =>
    rcases List.mem_cons.mp h with rfl | h
    · simp [allowsAnything] at hv
    · exact .one h
  | several ns hne hd h =>
    rw [Value.texts, allowsAnything, Bool.eq_false_iff, ne_eq, Value.text_memberOf] at hv
    refine .several ns hne hd fun n hn => ?_
    rcases List.mem_cons.mp (h hn) with rfl | hmem
    · exact absurd hn hv
    · exact hmem

/-- Allowing null adds its name, if it is not there. -/
theorem withNull {type : Option Value} (h : ∀ v, type = some v → v.NamesOf names)
    (hnull : "null" ∈ names) : (typeWithNull type).NamesOf names := by
  cases type with
  | none => exact .several ["null"] (by simp) (by simp) (by simpa using hnull)
  | some v =>
    cases h v rfl with
    | @one n hn =>
      rw [typeWithNull_text]
      split
      · exact .one hn
      · rename_i hne
        exact .several [n, "null"] (by simp) (by simpa using hne) (by simp [hn, hnull])
    | several ns hne hd hsub =>
      simp only [Value.texts, typeWithNull, Value.text_memberOf]
      split
      · exact .several ns hne hd hsub
      · rename_i hnot
        have hnew : Value.NamesOf names (.texts (ns ++ ["null"])) := by
          refine .several _ (by simp) (hd.append (by simp) ?_) (List.append_subset.mpr ⟨hsub, ?_⟩)
          · simpa using hnot
          · simpa using hnull
        simpa [Value.texts] using hnew

end Value.NamesOf

/-! ## Records -/

theorem not_nests {k : String} (h : k ∉ recursiveKeywords) : ¬Nests k := by
  rintro (rfl | rfl) <;> exact h (by decide)

theorem Slot.Fits.putAll {r : Record} (h : ∀ e ∈ r, e.2.Fits e.1) {xs : List (String × Value)}
    (hx : ∀ e ∈ xs, e.1 ∉ recursiveKeywords) : ∀ e ∈ r.putAll xs, e.2.Fits e.1 := by
  intro e he
  rcases Record.mem_putAll he with he | ⟨x, hmem, rfl⟩
  · exact h e he
  · exact fun hnests => absurd hnests (not_nests (hx x hmem))

/-- Layers write a type only to allow null. -/
theorem Analysis.decorate_data?_type (an : Analysis) (r : Record) : (an.decorate r).data? "type"
    = if an.nullable then some (typeWithNull (r.data? "type")) else r.data? "type" := by
  split
  · rename_i hn
    exact an.decorate_type r hn
  · rename_i hn
    rw [an.decorate_eq, Record.data?, Record.lookup_putAll_of_notMem, ← Record.data?]
    intro e he
    rcases Analysis.mem_additions he with ⟨d, -, rfl⟩ | ⟨v, -, rfl⟩ | ⟨hn', -⟩ | ⟨-, rfl⟩
    · simp
    · simp
    · exact absurd hn' hn
    · simp

namespace Record.Kinded

variable {r : Record}

theorem putAll (h : r.Kinded) {xs : List (String × Value)}
    (hx : ∀ e ∈ xs, e.1 ∉ recursiveKeywords ∧ e.1 ≠ "type") : (r.putAll xs).Kinded := by
  have htype : Record.data? (r.putAll xs) "type" = r.data? "type" := by
    rw [Record.data?, Record.lookup_putAll_of_notMem fun e he => (hx e he).2, ← Record.data?]
  have hproper : (r.putAll xs).Proper :=
    h.toProper.putAll fun e he heq => (hx e he).1 (heq ▸ by decide)
  refine ⟨⟨hproper, Slot.Fits.putAll h.fits fun e he => (hx e he).1⟩, ?_, ?_⟩
  · rw [htype]
    exact h.typed
  · intro e he hholds
    rw [htype]
    rcases Record.mem_putAll he with he | ⟨x, -, rfl⟩
    · exact h.above e he hholds
    · cases hholds

theorem constrain (h : r.Kinded) {family : List (Attribute × String)}
    (hf : ∀ e ∈ family, e.2 ∉ recursiveKeywords ∧ e.2 ≠ "type") (cs : List Constraint) :
    (r.constrain family cs).Kinded := by
  refine h.putAll fun e he => ?_
  obtain ⟨x, hx, hkey⟩ := Constraint.mem_keywords he
  exact hkey ▸ hf x hx

theorem decorate (h : r.Kinded) (an : Analysis) : (an.decorate r).Kinded := by
  have hfits : ∀ e ∈ an.decorate r, e.2.Fits e.1 := by
    rw [an.decorate_eq]
    refine Slot.Fits.putAll h.fits fun e he => ?_
    rcases Analysis.mem_additions he with ⟨d, -, rfl⟩ | ⟨v, -, rfl⟩ | ⟨-, rfl⟩ | ⟨-, rfl⟩ <;>
      simp [recursiveKeywords]
  refine ⟨⟨h.toProper.decorate an, hfits⟩, fun v hv => ?_, fun e he hholds => ?_⟩
  · rw [an.decorate_data?_type] at hv
    split at hv
    · cases hv
      exact .withNull h.typed (by decide)
    · exact h.typed v hv
  · rw [an.decorate_eq] at he
    rcases Record.mem_putAll he with he | ⟨x, -, rfl⟩
    · obtain ⟨v, hv, hnames⟩ := h.above e he hholds
      rw [an.decorate_data?_type, hv]
      split
      · refine ⟨_, rfl, .withNull ?_ (by decide)⟩
        rintro _ ⟨⟩
        exact hnames
      · exact ⟨v, rfl, hnames⟩
    · cases hholds

/-- A record of which the type comes first. -/
theorem ofType {n : String} (rest : Record) (hproper : (Record.ofType n ++ rest).Proper)
    (hfits : ∀ e ∈ rest, e.2.Fits e.1) (hn : n ∈ "any" :: typeNames)
    (hrest : (∃ e ∈ rest, e.2.holds = true) → n ∈ typeNames) :
    Record.Kinded (Record.ofType n ++ rest) where
  toProper := hproper
  fits e he := by
    rcases List.mem_cons.mp he with rfl | he
    · simp [Slot.Fits]
    · exact hfits e he
  typed v hv := by
    cases hv
    exact .one hn
  above e he hholds := by
    rcases List.mem_cons.mp he with rfl | he
    · cases hholds
    · exact ⟨_, rfl, .one (hrest ⟨e, he, hholds⟩)⟩

theorem onlyType {n : String} (hn : n ∈ "any" :: typeNames) : (Record.ofType n).Kinded :=
  ofType [] (by constructor <;> simp [Record.ofType]) (by simp) hn (by simp)

theorem objectRecord (c : ObjectClass) (b : Address) : (objectRecord c b).Kinded := by
  have hproper := Record.Proper.objectRecord c b
  unfold ToolCatalog.objectRecord at hproper ⊢
  generalize nonEmpty? c.doc = doc at hproper ⊢
  cases doc with
  | none =>
    exact ofType [("properties", .properties b), ("required", .required b)] hproper
      (by simp [Slot.Fits]) (by decide) fun _ => by decide
  | some d =>
    exact ofType [("description", .data (.text d)), ("properties", .properties b),
      ("required", .required b)] hproper (by simp [Slot.Fits]) (by decide) fun _ => by decide

theorem emptyObjectRecord (b : Address) : (emptyObjectRecord b).Kinded :=
  ofType _ (Record.Proper.emptyObjectRecord b) (by simp [Slot.Fits]) (by decide) fun _ => by decide

/-- A record that holds no descriptors and has at most one type. -/
theorem ofData {type? : Option JsonType} {r : Record} (hproper : r.Proper)
    (hdata : ∀ e ∈ r, e.2.Fits e.1 ∧ e.2.holds = false)
    (htype : r.data? "type" = type?.map JsonType.keyword) : r.Kinded where
  toProper := hproper
  fits e he := (hdata e he).1
  typed v hv := by
    rw [htype] at hv
    obtain ⟨t, -, rfl⟩ := Option.map_eq_some_iff.mp hv
    exact .one (List.mem_cons_of_mem _ t.name_mem)
  above e he hholds := by
    rw [(hdata e he).2] at hholds
    cases hholds

theorem recordOf {b : Base} {cs : List Constraint} {p : Address} (h : b.recordOf cs p = .ok r) :
    r.Kinded := by
  have hproper := Record.Proper.recordOf h
  have htexts : ∀ e ∈ textKeywords, e.2 ∉ recursiveKeywords ∧ e.2 ≠ "type" := by decide
  cases b with
  | string f =>
    cases f with
    | none =>
      cases h
      exact constrain (onlyType (by decide)) htexts cs
    | some f =>
      cases h
      exact constrain (ofType _ (by constructor <;> simp [Record.ofType]) (by simp [Slot.Fits])
        (by decide) (by simp [Slot.holds])) htexts cs
  | number i =>
    cases h
    refine constrain (onlyType ?_) (by decide) cs
    cases i <;> decide
  | boolean =>
    cases h
    exact onlyType (by decide)
  | array e =>
    cases h
    exact constrain (ofType _ (by constructor <;> simp [Record.ofType])
      (by simp [Slot.Fits, Nests]) (by decide) fun _ => by decide) (by decide) cs
  | enumeration ms =>
    obtain ⟨data, -, rfl⟩ := Base.recordOf_enumeration h
    refine ofData hproper ?_ (Record.States.enumerationRecord data).data?_type
    unfold enumerationRecord
    cases commonType? (data.map Value.jsonType?) <;>
      simp [Record.ofType, Slot.Fits, Slot.holds]
  | literal m =>
    obtain ⟨v, -, rfl⟩ := Base.recordOf_literal h
    refine ofData hproper ?_ (Record.States.constantRecord v).data?_type
    unfold constantRecord
    cases v.jsonType? <;> simp [Record.ofType, Slot.Fits, Slot.holds]
  | record e =>
    cases h
    exact ofType _ hproper (by simp [Slot.Fits, Nests]) (by decide) fun _ => by decide
  | object c =>
    cases h
    exact onlyType (by decide)
  | unknown =>
    cases h
    exact onlyType (by decide)

theorem remainder (h : r.Kinded) : r.remainder.Kinded where
  toFormed := h.toFormed.remainder
  typed v hv := by
    rw [Record.data?, Record.lookup_remainder_type] at hv
    cases htype : r.lookup "type" with
    | none =>
      rw [htype] at hv
      cases hv
      exact .one (by decide)
    | some slot =>
      obtain ⟨w, rfl, hw⟩ := h.toFormed.data?_type htype
      rw [htype] at hv
      cases hv
      exact h.typed _ hw
  above e he hholds := by
    rcases Record.mem_remainder he with ⟨he, hk⟩ | rfl
    · rw [(h.fits e he).not_holds hk] at hholds
      cases hholds
    · cases hholds

theorem lasting : Record.Lasting Record.Kinded where
  empty := ⟨⟨⟨List.nodup_nil, by simp⟩, by simp⟩, nofun, by simp⟩
  object := objectRecord
  emptyObject := emptyObjectRecord
  base := recordOf
  decorate an _ h := h.decorate an

end Record.Kinded

/-! ## Sessions -/

/-- Whatever calls were made, every descriptor of the session is of a kind. -/
theorem Session.after_kinded (defs : Definitions) (observable : Bool) (calls : List Call) :
    ((Session.fresh observable).after defs calls).2.graph.All Record.Kinded :=
  Session.after_all Record.Kinded.lasting calls (.fresh observable)

namespace Graph

variable {g : Graph}

theorem All.formed (h : g.All Record.Kinded) : g.Formed :=
  fun a r hr => (h a r hr).toFormed

/-- A descriptor that leads back to itself allows no more than some types. -/
theorem All.cycle_typed (h : g.All Record.Kinded) {u : Address}
    (hu : Relation.TransGen g.Edge u u) :
    ∃ v, (g.record u).data? "type" = some v ∧ v.NamesOf typeNames := by
  obtain ⟨c, ⟨e, he, hc⟩, -⟩ := Relation.TransGen.head'_iff.mp hu
  refine (h.record Record.Kinded.lasting u).above e he ?_
  cases hs : e.2 with
  | schema a => rfl
  | properties b => rfl
  | data v =>
    rw [hs] at hc
    exact hc.elim
  | required b =>
    rw [hs] at hc
    exact hc.elim

end Graph

end ToolCatalog
