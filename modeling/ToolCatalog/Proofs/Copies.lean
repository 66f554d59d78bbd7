import ToolCatalog.Proofs.Json

/-!
Schemas and their copies.

A copy differs from what it was made of in nothing but the opaque objects, and these have neither a
type nor a text nor anything else that is looked at. So a copy of a schema has the same shape and
says the same about values. It is equal to the schema if nothing in that has only its identity to be
told apart by.
-/
namespace ToolCatalog

namespace Value

variable {f : Identity → Identity}

mutual

/-- Whether something stands in a value that has only its identity to be told apart by: an opaque
object, or a list that contains itself. Such a value cannot be equal to a copy, and any other is. -/
def holdsIdentity : Value → Bool
  | .list items | .tuple items | .set items | .frozenSet items => itemsHoldIdentity items
  | .dict entries => entriesHoldIdentity entries
  | .foreign _ | .endless => true
  | _ => false

def itemsHoldIdentity : List Value → Bool
  | [] => false
  | v :: rest => v.holdsIdentity || itemsHoldIdentity rest

def entriesHoldIdentity : List (Value × Value) → Bool
  | [] => false
  | (k, v) :: rest => k.holdsIdentity || v.holdsIdentity || entriesHoldIdentity rest

end

mutual

/-- Where nothing has only its identity, there is nothing to rename. -/
theorem renamed_eq_self : ∀ {v : Value}, v.holdsIdentity = false → v.renamed f = v
  | .list _, h => congrArg Value.list (renamedItems_eq_self h)
  | .tuple _, h => congrArg Value.tuple (renamedItems_eq_self h)
  | .set _, h => congrArg Value.set (renamedItems_eq_self h)
  | .frozenSet _, h => congrArg Value.frozenSet (renamedItems_eq_self h)
  | .dict _, h => congrArg Value.dict (renamedEntries_eq_self h)
  | .null, _ | .bool _, _ | .int _, _ | .float _, _ | .text _, _ | .bytes _, _ | .decimal _, _
  | .date _, _ | .dateTime _, _ | .time _, _ | .uuid _, _ | .pattern _, _ | .member .., _ => rfl

theorem renamedItems_eq_self : ∀ {vs : List Value}, itemsHoldIdentity vs = false →
    renamedItems f vs = vs
  | [], _ => rfl
  | v :: rest, h => by
    rw [itemsHoldIdentity, Bool.or_eq_false_iff] at h
    rw [renamedItems, renamed_eq_self h.1, renamedItems_eq_self h.2]

theorem renamedEntries_eq_self : ∀ {es : List (Value × Value)}, entriesHoldIdentity es = false →
    renamedEntries f es = es
  | [], _ => rfl
  | (k, v) :: rest, h => by
    rw [entriesHoldIdentity, Bool.or_eq_false_iff, Bool.or_eq_false_iff] at h
    rw [renamedEntries, renamed_eq_self h.1.1, renamed_eq_self h.1.2, renamedEntries_eq_self h.2]

end

/-- An opaque object equals itself, and no copy of it. -/
theorem foreign_equal_copy (i : Identity) (purpose : String) :
    (foreign i).equal (.foreign i) = true ∧
      (foreign i).equal ((foreign i).copy purpose) = false := by
  have hne : i ≠ .copied purpose i := fun h => by
    have hsize := congrArg sizeOf h
    simp only [Identity.copied.sizeOf_spec] at hsize
    omega
  simp [equal, copy, renamed, hne]

theorem renamedItems_eq (vs : List Value) : renamedItems f vs = vs.map (renamed f) := by
  induction vs with
  | nil => rfl
  | cons v rest ih => rw [renamedItems, ih, List.map_cons]

theorem renamedEntries_eq (es : List (Value × Value)) :
    renamedEntries f es = es.map fun e => (e.1.renamed f, e.2.renamed f) := by
  induction es with
  | nil => rfl
  | cons e rest ih => rw [renamedEntries, ih, List.map_cons]

/-! ## What is seen of a copy -/

mutual

@[simp] theorem holdsIdentity_renamed : ∀ v : Value, (v.renamed f).holdsIdentity = v.holdsIdentity
  | .list vs | .tuple vs | .set vs | .frozenSet vs => itemsHoldIdentity_renamed vs
  | .dict es => entriesHoldIdentity_renamed es
  | .null | .bool _ | .int _ | .float _ | .text _ | .bytes _ | .decimal _ | .date _ | .dateTime _
  | .time _ | .uuid _ | .pattern _ | .member .. | .foreign _ | .endless => rfl

theorem itemsHoldIdentity_renamed : ∀ vs : List Value,
    itemsHoldIdentity (renamedItems f vs) = itemsHoldIdentity vs
  | [] => rfl
  | v :: rest => by
    rw [renamedItems, itemsHoldIdentity, itemsHoldIdentity, holdsIdentity_renamed v,
      itemsHoldIdentity_renamed rest]

theorem entriesHoldIdentity_renamed : ∀ es : List (Value × Value),
    entriesHoldIdentity (renamedEntries f es) = entriesHoldIdentity es
  | [] => rfl
  | (k, v) :: rest => by
    rw [renamedEntries, entriesHoldIdentity, entriesHoldIdentity, holdsIdentity_renamed k,
      holdsIdentity_renamed v, entriesHoldIdentity_renamed rest]

end

@[simp] theorem isNull_renamed (v : Value) : (v.renamed f).isNull = v.isNull := by
  cases v <;> rfl

@[simp] theorem textual?_renamed (v : Value) : (v.renamed f).textual? = v.textual? := by
  cases v <;> rfl

@[simp] theorem jsonNumber?_renamed (v : Value) : (v.renamed f).jsonNumber? = v.jsonNumber? := by
  cases v <;> rfl

theorem sameScalar_renamed (v w : Value) : v.sameScalar (w.renamed f) = v.sameScalar w := by
  rw [sameScalar, sameScalar, textual?_renamed, jsonNumber?_renamed]

mutual

@[simp] theorem isWire_renamed : ∀ v : Value, (v.renamed f).isWire = v.isWire
  | .list vs => areWire_renamed vs
  | .dict es => entriesAreWire_renamed es
  | .null | .bool _ | .int _ | .float _ | .text _ | .bytes _ | .tuple _ | .set _ | .frozenSet _
  | .decimal _ | .date _ | .dateTime _ | .time _ | .uuid _ | .pattern _ | .member .. | .foreign _
  | .endless => rfl

theorem areWire_renamed : ∀ vs : List Value, areWire (renamedItems f vs) = areWire vs
  | [] => rfl
  | v :: rest => by rw [renamedItems, areWire, areWire, isWire_renamed v, areWire_renamed rest]

theorem entriesAreWire_renamed : ∀ es : List (Value × Value),
    entriesAreWire (renamedEntries f es) = entriesAreWire es
  | [] => rfl
  | (k, v) :: rest => by
    rw [renamedEntries, entriesAreWire, entriesAreWire, textual?_renamed, isWire_renamed v,
      entriesAreWire_renamed rest]

end

mutual

/-- Nothing in JSON has only its identity. -/
theorem not_holdsIdentity_of_isWire : ∀ {v : Value}, v.isWire = true → v.holdsIdentity = false
  | .list _, h => items_not_holdIdentity_of_areWire h
  | .dict _, h => entries_not_holdIdentity_of_areWire h
  | .null, _ | .bool _, _ | .int _, _ | .float _, _ | .text _, _ | .member .., _ => rfl

theorem items_not_holdIdentity_of_areWire : ∀ {vs : List Value}, areWire vs = true →
    itemsHoldIdentity vs = false
  | [], _ => rfl
  | v :: rest, h => by
    rw [areWire, Bool.and_eq_true] at h
    rw [itemsHoldIdentity, not_holdsIdentity_of_isWire h.1, items_not_holdIdentity_of_areWire h.2]
    rfl

theorem entries_not_holdIdentity_of_areWire : ∀ {es : List (Value × Value)},
    entriesAreWire es = true → entriesHoldIdentity es = false
  | [], _ => rfl
  | (k, v) :: rest, h => by
    rw [entriesAreWire, Bool.and_eq_true, Bool.and_eq_true] at h
    rw [entriesHoldIdentity, not_holdsIdentity_of_isWire (isWire_of_textual? h.1.1),
      not_holdsIdentity_of_isWire h.1.2, entries_not_holdIdentity_of_areWire h.2]
    rfl

end

mutual

/-- A value is the same JSON as a copy exactly if it is the same as what was copied. -/
@[simp] theorem sameJson_renamed : ∀ v w : Value, v.sameJson (w.renamed f) = v.sameJson w
  | .null, w => by rw [null_sameJson, null_sameJson, isNull_renamed]
  | .bool b, w => by
    cases w <;> simp [sameJson, renamed, sameScalar, textual?, jsonNumber?]
  | .list xs, w => by
    cases w with
    | list ys => simpa only [sameJson, renamed] using sameItems_renamed xs ys
    | _ => simp [sameJson, renamed, sameScalar, textual?, jsonNumber?]
  | .dict xs, w => by
    cases w with
    | dict ys =>
      simp only [sameJson, renamed, sameEntries_renamed xs ys]
      rw [renamedEntries_eq, List.length_map]
    | _ => simp [sameJson, renamed, sameScalar, textual?, jsonNumber?]
  | .int _, w | .float _, w | .text _, w | .bytes _, w | .tuple _, w | .set _, w
  | .frozenSet _, w | .decimal _, w | .date _, w | .dateTime _, w | .time _, w | .uuid _, w
  | .pattern _, w | .member .., w | .foreign _, w | .endless, w => by
    simpa only [sameJson] using sameScalar_renamed _ w

theorem sameItems_renamed : ∀ vs ws : List Value,
    sameItems vs (renamedItems f ws) = sameItems vs ws
  | [], [] | [], _ :: _ | _ :: _, [] => rfl
  | v :: vs, w :: ws => by
    rw [renamedItems, sameItems, sameItems, sameJson_renamed v w, sameItems_renamed vs ws]

theorem sameEntries_renamed : ∀ xs ys : List (Value × Value),
    sameEntries xs (renamedEntries f ys) = sameEntries xs ys
  | [], _ => rfl
  | (k, v) :: xs, ys => by
    have hany : (ys.map fun e => (e.1.renamed f, e.2.renamed f)).any
        (fun e => sameScalar k e.1 && v.sameJson e.2)
        = ys.any fun e => sameScalar k e.1 && v.sameJson e.2 := by
      rw [List.any_map]
      congr 1
      funext e
      simp only [Function.comp_apply, sameScalar_renamed, sameJson_renamed v e.2]
    rw [sameEntries, sameEntries, sameEntries_renamed xs ys, renamedEntries_eq]
    exact congrArg (· && _) hany

end

end Value

@[simp] theorem allowsAnything_renamed (f : Identity → Identity) (v : Value) :
    allowsAnything (v.renamed f) = allowsAnything v := by
  have hany (w : Value) : (Value.text "any").equal (w.renamed f) = (Value.text "any").equal w := by
    simp only [Value.equal, Value.textual?_renamed]
  cases v with
  | list vs =>
    simp only [Value.renamed, allowsAnything, Value.memberOf, Value.renamedItems_eq, List.any_map]
    congr 1
    funext w
    exact hany w
  | _ => simp [Value.renamed, allowsAnything, Value.equal]

namespace Schema

variable {f : Identity → Identity}

mutual

/-- A schema with other opaque objects in its data. -/
def renamed (f : Identity → Identity) : Schema → Schema
  | .keywords ps => .keywords (renamedParts f ps)

/-- A part of a schema with other opaque objects in its data. -/
def renamedPart (f : Identity → Identity) : SchemaPart → SchemaPart
  | .data v => .data (v.renamed f)
  | .schema s => .schema (s.renamed f)
  | .properties ps => .properties (renamedProperties f ps)

def renamedParts (f : Identity → Identity) :
    List (String × SchemaPart) → List (String × SchemaPart)
  | [] => []
  | (k, p) :: rest => (k, renamedPart f p) :: renamedParts f rest

def renamedProperties (f : Identity → Identity) : List (String × Schema) → List (String × Schema)
  | [] => []
  | (name, s) :: rest => (name, s.renamed f) :: renamedProperties f rest

end

/-- The copy of a schema that is written in a form. -/
def copied (form : ExportForm) (s : Schema) : Schema :=
  s.renamed (.copied form.name)

theorem renamedParts_eq (ps : List (String × SchemaPart)) :
    renamedParts f ps = ps.map fun e => (e.1, renamedPart f e.2) := by
  induction ps with
  | nil => rfl
  | cons e rest ih => rw [renamedParts, ih, List.map_cons]

theorem renamedProperties_eq (ps : List (String × Schema)) :
    renamedProperties f ps = ps.map fun e => (e.1, e.2.renamed f) := by
  induction ps with
  | nil => rfl
  | cons e rest ih => rw [renamedProperties, ih, List.map_cons]

@[simp] theorem parts_renamed (s : Schema) :
    (s.renamed f).parts = s.parts.map fun e => (e.1, renamedPart f e.2) := by
  cases s
  exact renamedParts_eq _

mutual

/-- A schema is renamed as the dictionary that it is. -/
theorem toValue_renamed : ∀ s : Schema, (s.renamed f).toValue = s.toValue.renamed f
  | .keywords ps => congrArg Value.dict (partEntries_renamed ps)

theorem partValue_renamed : ∀ p : SchemaPart,
    partValue (renamedPart f p) = (partValue p).renamed f
  | .data _ => rfl
  | .schema s => toValue_renamed s
  | .properties ps => congrArg Value.dict (propertyEntries_renamed ps)

theorem partEntries_renamed : ∀ ps : List (String × SchemaPart),
    partEntries (renamedParts f ps) = Value.renamedEntries f (partEntries ps)
  | [] => rfl
  | (k, p) :: rest => by
    rw [renamedParts, partEntries, partEntries, Value.renamedEntries, partValue_renamed p,
      partEntries_renamed rest]
    rfl

theorem propertyEntries_renamed : ∀ ps : List (String × Schema),
    propertyEntries (renamedProperties f ps) = Value.renamedEntries f (propertyEntries ps)
  | [] => rfl
  | (name, s) :: rest => by
    rw [renamedProperties, propertyEntries, propertyEntries, Value.renamedEntries,
      toValue_renamed s, propertyEntries_renamed rest]
    rfl

end

mutual

theorem renamed_eq_self : ∀ {s : Schema}, s.toValue.holdsIdentity = false → s.renamed f = s
  | .keywords _, h => congrArg Schema.keywords (renamedParts_eq_self h)

theorem renamedPart_eq_self : ∀ {p : SchemaPart}, (partValue p).holdsIdentity = false →
    renamedPart f p = p
  | .data _, h => congrArg SchemaPart.data (Value.renamed_eq_self h)
  | .schema _, h => congrArg SchemaPart.schema (renamed_eq_self h)
  | .properties _, h => congrArg SchemaPart.properties (renamedProperties_eq_self h)

theorem renamedParts_eq_self : ∀ {ps : List (String × SchemaPart)},
    Value.entriesHoldIdentity (partEntries ps) = false → renamedParts f ps = ps
  | [], _ => rfl
  | (k, p) :: rest, h => by
    rw [partEntries, Value.entriesHoldIdentity, Bool.or_eq_false_iff, Bool.or_eq_false_iff] at h
    rw [renamedParts, renamedPart_eq_self h.1.2, renamedParts_eq_self h.2]

theorem renamedProperties_eq_self : ∀ {ps : List (String × Schema)},
    Value.entriesHoldIdentity (propertyEntries ps) = false → renamedProperties f ps = ps
  | [], _ => rfl
  | (name, s) :: rest, h => by
    rw [propertyEntries, Value.entriesHoldIdentity, Bool.or_eq_false_iff,
      Bool.or_eq_false_iff] at h
    rw [renamedProperties, renamed_eq_self h.1.2, renamedProperties_eq_self h.2]

end

/-- A schema in whose data nothing has only its identity is equal to its copies. -/
theorem copied_eq_self {s : Schema} (h : s.toValue.holdsIdentity = false) (form : ExportForm) :
    s.copied form = s :=
  renamed_eq_self h

theorem holdsIdentity_copied (s : Schema) (form : ExportForm) :
    (s.copied form).toValue.holdsIdentity = s.toValue.holdsIdentity := by
  rw [copied, toValue_renamed, Value.holdsIdentity_renamed]

theorem isWire_copied (s : Schema) (form : ExportForm) :
    (s.copied form).toValue.isWire = s.toValue.isWire := by
  rw [copied, toValue_renamed, Value.isWire_renamed]

mutual

theorem depth_renamed : ∀ s : Schema, (s.renamed f).depth = s.depth
  | .keywords ps => congrArg (· + 1) (partsDepth_renamed ps)

theorem partsDepth_renamed : ∀ ps : List (String × SchemaPart),
    partsDepth (renamedParts f ps) = partsDepth ps
  | [] => rfl
  | (_, .data _) :: rest => partsDepth_renamed rest
  | (_, .schema s) :: rest => by
    rw [renamedParts, renamedPart, partsDepth, partsDepth, depth_renamed s, partsDepth_renamed rest]
  | (_, .properties ps) :: rest => by
    rw [renamedParts, renamedPart, partsDepth, partsDepth, propertiesDepth_renamed ps,
      partsDepth_renamed rest]

theorem propertiesDepth_renamed : ∀ ps : List (String × Schema),
    propertiesDepth (renamedProperties f ps) = propertiesDepth ps
  | [] => rfl
  | (_, s) :: rest => by
    rw [renamedProperties, propertiesDepth, propertiesDepth, depth_renamed s,
      propertiesDepth_renamed rest]

end

end Schema

end ToolCatalog
