import ToolCatalog.Proofs.Json
import ToolCatalog.Proofs.Records
import ToolCatalog.Proofs.Rendering

/-!
Which JSON values a schema accepts as such.

Three keywords speak about a value as a whole: `type` names the types it may have, `enum` lists what
it may be, and `const` says what it is. The strict form of a descriptor keeps them all but types
that allow anything, and these accept every value, there or not.
-/
namespace ToolCatalog

/-- Whether a name in a type keyword covers this type. Integers are numbers. -/
def JsonType.namedBy (type : JsonType) (name : Value) : Bool :=
  name.textual? == some type.name || type == .integer && name.textual? == some JsonType.number.name

/-- Whether a type keyword, if there is one, accepts a value. -/
def typeAccepts (type : Option Value) (v : Value) : Bool :=
  match type with
  | none => true
  | some type => allowsAnything type || v.jsonType?.any fun t =>
    match type with
    | .list names => names.any t.namedBy
    | name => t.namedBy name

/-- What a schema says about a value as such. -/
structure Limits where
  type : Option Value
  enum : Option Value
  const : Option Value

namespace Limits

/-- Whether a value is among those that are listed, if any are. -/
def listed (l : Limits) (v : Value) : Bool :=
  (l.enum.all fun
    | .list members => members.any v.sameJson
    | _ => false) && l.const.all v.sameJson

/-- Whether a value is accepted. -/
def accepts (l : Limits) (v : Value) : Bool :=
  typeAccepts l.type v && l.listed v

end Limits

/-- The data that a keyword of a schema holds. -/
def Schema.data? (s : Schema) (key : String) : Option Value :=
  match s.parts.lookup key with
  | some (.data v) => some v
  | _ => none

/-- What a schema says about a value as such. -/
def Schema.limits (s : Schema) : Limits :=
  ⟨s.data? "type", s.data? "enum", s.data? "const"⟩

/-- What a record says about a value as such. -/
def Graph.limits (g : Graph) (r : Record) : Limits :=
  ⟨(r.lookup "type").bind g.slotData?, (r.lookup "enum").bind g.slotData?,
    (r.lookup "const").bind g.slotData?⟩

namespace Graph

variable {g : Graph} {form : ExportForm} {child : Address → Schema} {r : Record} {k : String}

theorem lookup_renderedSlots_of_notMem (h : k ∉ r.map (·.1)) :
    (g.renderedSlots form child r).lookup k = none := by
  rw [List.lookup_eq_none_iff]
  intro p hp
  obtain ⟨e, he, hpart⟩ := List.mem_filterMap.mp hp
  obtain ⟨part, -, rfl⟩ := Option.map_eq_some_iff.mp hpart
  have hne : k ≠ e.1 := fun hk => h (hk ▸ List.mem_map_of_mem he)
  simpa using hne

theorem lookup_renderedSlots (h : (r.map (·.1)).Nodup) :
    (g.renderedSlots form child r).lookup k
      = (r.lookup k).bind (g.renderedSlot form child k) := by
  induction r with
  | nil => rfl
  | cons e rest ih =>
    obtain ⟨hnot, hrest⟩ := List.nodup_cons.mp h
    have hsplit : g.renderedSlots form child (e :: rest)
        = ((g.renderedSlot form child e.1 e.2).map fun p => (e.1, p)).toList
          ++ g.renderedSlots form child rest := by
      simp only [renderedSlots, List.filterMap_cons]
      cases g.renderedSlot form child e.1 e.2 <;> rfl
    rw [hsplit, Entries.lookup_cons]
    by_cases hk : k = e.1
    · subst hk
      have hnone : (g.renderedSlots form child rest).lookup e.1 = none :=
        lookup_renderedSlots_of_notMem hnot
      rw [if_pos rfl, Option.bind_some]
      cases g.renderedSlot form child e.1 e.2 with
      | none => exact hnone
      | some p => simp
    · rw [if_neg hk, ← ih hrest]
      cases g.renderedSlot form child e.1 e.2 with
      | none => rfl
      | some p => simp [Entries.lookup_cons, hk]

/-- What is written under a keyword is the data of the record, if it is kept. -/
theorem data?_renderedSlots (h : (r.map (·.1)).Nodup) :
    (Schema.keywords (g.renderedSlots form child r)).data? k
      = ((r.lookup k).bind g.slotData?).filter (form.keeps k) := by
  simp only [Schema.data?, Schema.parts, lookup_renderedSlots h]
  cases r.lookup k with
  | none => rfl
  | some slot =>
    cases slot with
    | schema a => rfl
    | properties b => rfl
    | data v =>
      simp only [Option.bind_some, renderedSlot]
      cases (g.slotData? (.data v)).filter (form.keeps k) <;> rfl
    | required b =>
      simp only [Option.bind_some, renderedSlot]
      cases (g.slotData? (.required b)).filter (form.keeps k) <;> rfl

end Graph

theorem Schema.data?_renamed (f : Identity → Identity) (s : Schema) (k : String) :
    (s.renamed f).data? k = (s.data? k).map (Value.renamed f) := by
  rw [data?, data?, parts_renamed, Entries.lookup_map]
  cases s.parts.lookup k with
  | none => rfl
  | some p => cases p <;> rfl

theorem typeAccepts_renamed (f : Identity → Identity) (type : Option Value) (v : Value) :
    typeAccepts (type.map (Value.renamed f)) v = typeAccepts type v := by
  have hnamed (t : JsonType) (w : Value) : t.namedBy (w.renamed f) = t.namedBy w := by
    rw [JsonType.namedBy, JsonType.namedBy, Value.textual?_renamed]
  cases type with
  | none => rfl
  | some type =>
    simp only [Option.map_some, typeAccepts, allowsAnything_renamed]
    cases type with
    | list names =>
      simp only [Value.renamed, Value.renamedItems_eq, List.any_map, Function.comp_def, hnamed]
    | tuple _ | set _ | frozenSet _ | dict _ | foreign _ =>
      simp only [Value.renamed, JsonType.namedBy, Value.textual?]
    | _ => rfl

/-- A copy of a schema accepts the same values. -/
theorem Schema.accepts_copied (s : Schema) (form : ExportForm) (v : Value) :
    (s.copied form).limits.accepts v = s.limits.accepts v := by
  have hlisted : (s.copied form).limits.listed v = s.limits.listed v := by
    simp only [copied, Limits.listed, limits, data?_renamed, Option.all_map]
    congr 1
    · congr 1
      funext w
      cases w with
      | list ws =>
        simp only [Value.renamed, Value.renamedItems_eq, List.any_map, Function.comp_def,
          Value.sameJson_renamed]
      | _ => rfl
    · congr 1
      funext w
      exact Value.sameJson_renamed v w
  rw [Limits.accepts, Limits.accepts, hlisted]
  simp only [copied, limits, data?_renamed, typeAccepts_renamed]

/-- A type that allows anything accepts the same values when it is left out. -/
theorem typeAccepts_filter (type : Option Value) (v : Value) :
    typeAccepts (type.filter (ExportForm.strict.keeps "type")) v = typeAccepts type v := by
  cases type with
  | none => rfl
  | some type =>
    have hkeep : ExportForm.strict.keeps "type" type = !allowsAnything type := by
      simp [ExportForm.keeps]
    rw [Option.filter_some, hkeep]
    cases h : allowsAnything type with
    | false => rfl
    | true => simp [typeAccepts, h]

/-- The strict form of a descriptor accepts what its record says. -/
theorem Graph.accepts_rendered {g : Graph} (hg : g.Proper) (room : Nat) (a : Address) (v : Value) :
    (g.rendered .strict (room + 1) [] a).limits.accepts v = (g.limits (g.record a)).accepts v := by
  have hkeep (k : String) (hk : k ≠ "optional") (hk' : k ≠ "type") (x : Option Value) :
      x.filter (ExportForm.strict.keeps k) = x := by
    cases x <;> simp [ExportForm.keeps, hk, hk']
  have hdata (k : String) : (Schema.keywords (g.renderedSlots .strict
      (g.rendered .strict room [a]) (g.record a))).data? k
        = (((g.record a).lookup k).bind g.slotData?).filter (ExportForm.strict.keeps k) :=
    data?_renderedSlots (record_proper hg a).distinct
  simp only [rendered, List.contains_nil, Bool.false_eq_true, if_false, Schema.limits, hdata,
    Limits.accepts, Limits.listed, typeAccepts_filter, hkeep "enum" (by decide) (by decide),
    hkeep "const" (by decide) (by decide), Graph.limits]

end ToolCatalog
