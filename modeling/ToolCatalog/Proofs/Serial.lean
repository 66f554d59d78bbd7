import Mathlib.Data.List.Induction
import ToolCatalog.Proofs.Exported
import ToolCatalog.Proofs.Outline
import ToolCatalog.Proofs.Reachable

/-!
Which descriptors hold JSON data only.

What layers add is JSON whatever they are: defaults are converted, and one that cannot be is left
out. What a base adds is JSON but for two things that are copied as they are: the bounds of its
constraints, and its members if one of them lies outside every data format.
-/
namespace ToolCatalog

/-- The keywords that layers write. -/
def layerKeywords : List String := ["description", "default", "type", "optional"]

/-- The keywords that constraints give a base of this family. -/
def Base.family : Base → List (Attribute × String)
  | .string _ => textKeywords
  | .number _ => numberKeywords
  | .array _ => arrayKeywords
  | _ => []

/-- The bounds that count, and the members as they are written, are JSON. -/
structure Base.Serial (b : Base) (cs : List Constraint) : Prop where
  bounds : ∀ e ∈ Entries.ofList (cs.flatMap (Constraint.keywords b.family)), e.2.isWire = true
  members : ∀ ms data, b.members? = some ms → membersData ms = .ok data →
    ∀ v ∈ data, v.isWire = true

/-- The data of a record is JSON. -/
def Record.Wire (r : Record) : Prop :=
  ∀ k v, (k, Slot.data v) ∈ r → v.isWire = true

/-- A record holds nothing but JSON data under the keywords of layers. -/
def Record.Layered (r : Record) : Prop :=
  ∀ k x, (k, x) ∈ r → k ∈ layerKeywords → ∃ v, x = .data v ∧ v.isWire = true

/-- The record of these keywords. -/
def Record.ofData (xs : List (String × Value)) : Record :=
  xs.map fun e => (e.1, .data e.2)

theorem typeWithNull_isWire {type : Option Value} (h : ∀ v, type = some v → v.isWire = true) :
    (typeWithNull type).isWire = true := by
  have hlist (types : List Value) (ht : ∀ t ∈ types, t.isWire = true) :
      (Value.list types).isWire = true := by
    rwa [Value.isWire, Value.areWire_iff]
  unfold typeWithNull
  split
  · rfl
  · rfl
  · rename_i types
    have ht := h _ rfl
    rw [Value.isWire, Value.areWire_iff] at ht
    dsimp only
    split
    · exact hlist _ ht
    · refine hlist _ fun t hm => ?_
      rcases List.mem_append.mp hm with hm | hm
      · exact ht t hm
      · rw [List.mem_singleton.mp hm]
        rfl
  · rename_i t _ _
    dsimp only
    split
    · exact h t rfl
    · refine hlist _ fun u hm => ?_
      rcases List.mem_pair.mp hm with rfl | rfl
      · exact h u rfl
      · rfl

namespace Record

variable {r : Record} {xs : List (String × Value)} {e : String × Slot}

theorem mem_putAll (h : e ∈ r.putAll xs) : e ∈ r ∨ ∃ x ∈ xs, e = (x.1, .data x.2) := by
  induction xs generalizing r with
  | nil => exact .inl h
  | cons x rest ih =>
    rcases ih (r := r.put x.1 (.data x.2)) h with h | ⟨y, hy, rfl⟩
    · rcases Entries.mem_put h with rfl | h
      · exact .inr ⟨x, by simp, rfl⟩
      · exact .inl h
    · exact .inr ⟨y, by simp [hy], rfl⟩

theorem mem_putAll_of_mem (h : e ∈ r) (hx : ∀ x ∈ xs, x.1 ≠ e.1) : e ∈ r.putAll xs := by
  induction xs generalizing r with
  | nil => exact h
  | cons x rest ih =>
    exact ih (Entries.mem_put_of_mem h (Ne.symm (hx x (by simp)))) fun y hy => hx y (by simp [hy])

/-- Keywords that a record does not have go to its end. -/
theorem putAll_eq (h : ∀ x ∈ xs, x.1 ∉ r.map (·.1)) :
    r.putAll xs = r ++ ofData (Entries.ofList xs) := by
  -- The last keyword either takes the place of an earlier one in the new part, or ends it.
  induction xs using List.reverseRecOn with
  | nil => simp [putAll, Entries.ofList, ofData]
  | append_singleton xs x ih =>
    have ih := ih fun y hy => h y (by simp [hy])
    calc r.putAll (xs ++ [x])
        = (r.putAll xs).put x.1 (.data x.2) := r.putAll_append xs [x]
      _ = r ++ Entries.put x.1 (.data x.2) (ofData (Entries.ofList xs)) := by
        rw [ih, Entries.put_append_of_notMem (h x (by simp))]
      _ = r ++ ofData (Entries.ofList (xs ++ [x])) := by
        rw [ofData, ofData, Entries.ofList_append, Entries.put_map]

theorem Wire.wireIn {form : ExportForm} (h : r.Wire) : r.WireIn form :=
  fun k v hk _ => h k v hk

/-- The form in which a record is written does not matter: what it leaves out is JSON. -/
theorem Layered.wireIn_iff (hr : r.Layered) {form : ExportForm} : r.WireIn form ↔ r.Wire := by
  constructor
  · intro h k v hk
    by_cases hlayer : k ∈ layerKeywords
    · obtain ⟨w, hw, hwire⟩ := hr k _ hk hlayer
      cases hw
      exact hwire
    · refine h k v hk ?_
      cases form with
      | canonical => rfl
      | strict =>
        simp only [layerKeywords, List.mem_cons, not_or] at hlayer
        simp [ExportForm.keeps, hlayer]
  · exact Wire.wireIn

end Record

/-! ## What layers add -/

section

variable {r : Record} {an : Analysis} {g : Graph} {e : String × Slot}

theorem Analysis.additions_key {type : Option Value} {x : String × Value}
    (hx : x ∈ an.additions type) : x.1 ∈ layerKeywords := by
  rcases Analysis.mem_additions hx with ⟨d, -, rfl⟩ | ⟨v, -, rfl⟩ | ⟨-, rfl⟩ | ⟨-, rfl⟩ <;>
    simp [layerKeywords]

theorem Analysis.additions_isWire (hd : ∀ v, an.default? = some v → v.isWire = true)
    (hr : r.Layered) : ∀ x ∈ an.additions (r.data? "type"), x.2.isWire = true := by
  intro x hx
  rcases Analysis.mem_additions hx with ⟨d, -, rfl⟩ | ⟨v, hv, rfl⟩ | ⟨-, rfl⟩ | ⟨-, rfl⟩
  · rfl
  · exact hd v hv
  · refine typeWithNull_isWire fun v hv => ?_
    obtain ⟨w, hw, hwire⟩ := hr "type" _ (Record.mem_of_data? hv) (by simp [layerKeywords])
    cases hw
    exact hwire
  · rfl

theorem Analysis.mem_finish (hd : ∀ v, an.default? = some v → v.isWire = true) (hr : r.Layered)
    (h : e ∈ an.finish r) :
    e ∈ r ∨ ∃ v, e.2 = .data v ∧ v.isWire = true := by
  unfold Analysis.finish at h
  split at h
  · rw [an.decorate_eq] at h
    rcases Record.mem_putAll h with h | ⟨x, hx, rfl⟩
    · exact .inl h
    · exact .inr ⟨x.2, rfl, an.additions_isWire hd hr x hx⟩
  · exact .inl h

theorem Analysis.mem_finish_of_mem (h : e ∈ r) (hk : e.1 ∉ layerKeywords) : e ∈ an.finish r := by
  unfold Analysis.finish
  split
  · rw [an.decorate_eq]
    exact Record.mem_putAll_of_mem h fun x hx he => hk (he ▸ Analysis.additions_key hx)
  · exact h

theorem Record.Layered.finish (hr : r.Layered)
    (hd : ∀ v, an.default? = some v → v.isWire = true) : (an.finish r).Layered := by
  intro k x hx hk
  rcases Analysis.mem_finish hd hr hx with hx | h
  · exact hr k x hx hk
  · exact h

/-- Layers neither bring in data that is no JSON nor remove any. -/
theorem Record.Layered.finish_wire (hr : r.Layered)
    (hd : ∀ v, an.default? = some v → v.isWire = true) : (an.finish r).Wire ↔ r.Wire := by
  constructor
  · intro h k v hk
    by_cases hlayer : k ∈ layerKeywords
    · obtain ⟨w, hw, hwire⟩ := hr k _ hk hlayer
      cases hw
      exact hwire
    · exact h k v (Analysis.mem_finish_of_mem hk hlayer)
  · intro h k v hk
    rcases Analysis.mem_finish hd hr hk with hk | ⟨w, hw, hwire⟩
    · exact h k v hk
    · cases hw
      exact hwire

/-- A copy with the additions of layers leads where the record leads. -/
theorem Record.Layered.finish_below (hr : r.Layered)
    (hd : ∀ v, an.default? = some v → v.isWire = true) {c : Address} :
    g.Below (an.finish r) c ↔ g.Below r c := by
  constructor
  · rintro ⟨e, he, hc⟩
    rcases Analysis.mem_finish hd hr he with he | ⟨v, hv, -⟩
    · exact ⟨e, he, hc⟩
    · rw [hv] at hc
      exact hc.elim
  · rintro ⟨e, he, hc⟩
    refine ⟨e, Analysis.mem_finish_of_mem he fun hk => ?_, hc⟩
    obtain ⟨v, hv, -⟩ := hr e.1 e.2 he hk
    rw [hv] at hc
    exact hc

end

/-! ## What bases hold -/

section

variable {g : Graph} {r r' : Record} {k : String} {x : Slot} {c : Address}

@[simp] theorem Record.layered_nil : Record.Layered [] := by
  simp [Layered]

@[simp] theorem Record.layered_cons : Record.Layered ((k, x) :: r) ↔
    (k ∈ layerKeywords → ∃ v, x = .data v ∧ v.isWire = true) ∧ Layered r := by
  constructor
  · intro h
    exact ⟨h k x (by simp), fun l y hy => h l y (by simp [hy])⟩
  · rintro ⟨hx, hr⟩ l y hy
    rcases List.mem_cons.mp hy with heq | hy
    · cases heq
      exact hx
    · exact hr l y hy

@[simp] theorem Record.layered_append :
    Record.Layered (r ++ r') ↔ Layered r ∧ Layered r' := by
  constructor
  · intro h
    exact ⟨fun l y hy => h l y (by simp [hy]), fun l y hy => h l y (by simp [hy])⟩
  · rintro ⟨hr, hr'⟩ l y hy
    rcases List.mem_append.mp hy with hy | hy
    · exact hr l y hy
    · exact hr' l y hy

@[simp] theorem Record.wire_nil : Record.Wire [] := by
  simp [Wire]

@[simp] theorem Record.wire_cons : Record.Wire ((k, x) :: r) ↔
    (∀ v, x = .data v → v.isWire = true) ∧ Wire r := by
  constructor
  · intro h
    exact ⟨fun v hv => h k v (by simp [hv]), fun l v hv => h l v (by simp [hv])⟩
  · rintro ⟨hx, hr⟩ l v hv
    rcases List.mem_cons.mp hv with heq | hv
    · cases heq
      exact hx v rfl
    · exact hr l v hv

@[simp] theorem Record.wire_append : Record.Wire (r ++ r') ↔ Wire r ∧ Wire r' := by
  constructor
  · intro h
    exact ⟨fun l v hv => h l v (by simp [hv]), fun l v hv => h l v (by simp [hv])⟩
  · rintro ⟨hr, hr'⟩ l v hv
    rcases List.mem_append.mp hv with hv | hv
    · exact hr l v hv
    · exact hr' l v hv

theorem Record.ofData_wire {xs : List (String × Value)} :
    (ofData xs).Wire ↔ ∀ e ∈ xs, e.2.isWire = true := by
  simp [Wire, ofData]

theorem Record.ofData_layered {xs : List (String × Value)}
    (h : ∀ e ∈ xs, e.1 ∉ layerKeywords) : (ofData xs).Layered := by
  intro k x hx hk
  obtain ⟨e, he, heq⟩ := List.mem_map.mp hx
  cases heq
  exact absurd hk (h e he)

@[simp] theorem Graph.below_nil : ¬g.Below [] c := by
  simp [Below]

@[simp] theorem Graph.below_cons : g.Below ((k, x) :: r) c ↔ x.Leads g c ∨ g.Below r c := by
  simp [Below]

@[simp] theorem Graph.below_append : g.Below (r ++ r') c ↔ g.Below r c ∨ g.Below r' c := by
  simp [Below, or_and_right, exists_or]

theorem Graph.not_below_ofData {xs : List (String × Value)} :
    ¬g.Below (Record.ofData xs) c := by
  rintro ⟨e, he, hc⟩
  obtain ⟨x, -, rfl⟩ := List.mem_map.mp he
  exact hc

end

/-- What there is to know of a record: when its data is JSON, and what it holds. -/
structure Record.Profile (g : Graph) (r : Record) (serial : Prop) (below : Address → Prop) :
    Prop where
  layered : r.Layered
  wire : r.Wire ↔ serial
  below : ∀ c, g.Below r c ↔ below c

namespace Record.Profile

variable {g : Graph} {r : Record} {serial : Prop} {below : Address → Prop}

theorem finish (h : Profile g r serial below) {an : Analysis}
    (hd : ∀ v, an.default? = some v → v.isWire = true) :
    Profile g (an.finish r) serial below where
  layered := h.layered.finish hd
  wire := (h.layered.finish_wire hd).trans h.wire
  below c := (h.layered.finish_below hd).trans (h.below c)

theorem constrain (h : Profile g r serial below) {family : List (Attribute × String)}
    (hf : ∀ e ∈ family, e.2 ∉ r.map (·.1) ∧ e.2 ∉ layerKeywords) (cs : List Constraint) :
    Profile g (r.constrain family cs)
      (serial ∧ ∀ e ∈ Entries.ofList (cs.flatMap (Constraint.keywords family)),
        e.2.isWire = true) below := by
  have hkey (e) (he : e ∈ cs.flatMap (Constraint.keywords family)) :
      e.1 ∉ r.map (·.1) ∧ e.1 ∉ layerKeywords := by
    obtain ⟨x, hx, hxe⟩ := Constraint.mem_keywords he
    exact hxe ▸ hf x hx
  rw [Record.constrain, Record.putAll_eq fun e he => (hkey e he).1]
  constructor
  case layered =>
    refine Record.layered_append.mpr ⟨h.layered, Record.ofData_layered fun e he => ?_⟩
    exact (hkey e (Entries.mem_ofList he)).2
  case wire => rw [Record.wire_append, h.wire, Record.ofData_wire]
  case below =>
    intro c
    rw [Graph.below_append, h.below, or_iff_left Graph.not_below_ofData]

theorem congr {serial' : Prop} {below' : Address → Prop} (h : Profile g r serial below)
    (hs : serial ↔ serial') (hb : ∀ c, below c ↔ below' c) : Profile g r serial' below' :=
  ⟨h.layered, h.wire.trans hs, fun c => (h.below c).trans (hb c)⟩

theorem objectRecord (o : ObjectClass) (b : Address) :
    Profile g (objectRecord o b) True fun c => ∃ name, (name, c) ∈ (g.body b).properties := by
  unfold ToolCatalog.objectRecord
  cases nonEmpty? o.doc <;> constructor <;>
    simp [Record.ofType, layerKeywords, Slot.Leads, Value.isWire]

theorem emptyObjectRecord (b : Address) : Profile g (emptyObjectRecord b) True
    fun c => ∃ name, (name, c) ∈ (g.body b).properties := by
  unfold ToolCatalog.emptyObjectRecord
  constructor <;> simp [Record.ofType, layerKeywords, Slot.Leads, Value.isWire]

theorem enumerationRecord (data : List Value) : Profile g (enumerationRecord data)
    (∀ v ∈ data, v.isWire = true) fun _ => False := by
  unfold ToolCatalog.enumerationRecord
  cases commonType? (data.map Value.jsonType?) <;> constructor <;>
    simp [Record.ofType, layerKeywords, Slot.Leads, Value.isWire, Value.areWire_iff]

theorem constantRecord (v : Value) : Profile g (constantRecord v)
    (v.isWire = true) fun _ => False := by
  unfold ToolCatalog.constantRecord
  cases v.jsonType? <;> constructor <;>
    simp [Record.ofType, layerKeywords, Slot.Leads, Value.isWire]

end Record.Profile

theorem Constraint.flatMap_keywords_nil (cs : List Constraint) :
    cs.flatMap (Constraint.keywords []) = [] := by
  simp only [List.flatMap_eq_nil_iff]
  intro c _
  rfl

theorem Base.serial_of_free {b : Base} {cs : List Constraint} (h : b.members? = none) :
    b.Serial cs ↔
      ∀ e ∈ Entries.ofList (cs.flatMap (Constraint.keywords b.family)), e.2.isWire = true := by
  constructor
  · exact Serial.bounds
  · intro hb
    refine ⟨hb, fun ms data hm => ?_⟩
    rw [h] at hm
    cases hm

theorem Base.serial_of_members {b : Base} {cs : List Constraint} {ms data : List Value}
    (hm : b.members? = some ms) (hd : membersData ms = .ok data) :
    b.Serial cs ↔ ∀ v ∈ data, v.isWire = true := by
  constructor
  · intro h
    exact h.members ms data hm hd
  · intro h
    constructor
    case bounds =>
      -- A base with members has no constraints of its own.
      have hf : b.family = [] := by cases b <;> first | rfl | cases hm
      simp [hf, Constraint.flatMap_keywords_nil, Entries.ofList]
    case members =>
      intro ms' data' hm' hd'
      obtain rfl : ms = ms' := by simpa [hm] using hm'
      obtain rfl : data = data' := by simpa [hd] using hd'
      exact h

theorem Base.serial_of_plain {b : Base} {cs : List Constraint} (h : b.members? = none)
    (hf : b.family = []) : b.Serial cs := by
  simp [serial_of_free h, hf, Constraint.flatMap_keywords_nil, Entries.ofList]

/-- Constraints of its family are all that can keep the record of a base without members from being
JSON. -/
theorem Record.Profile.constrained {g : Graph} {r : Record} {below : Address → Prop}
    (h : Record.Profile g r True below) {b : Base} (hm : b.members? = none)
    (hf : ∀ e ∈ b.family, e.2 ∉ r.map (·.1) ∧ e.2 ∉ layerKeywords) (cs : List Constraint) :
    Record.Profile g (r.constrain b.family cs) (b.Serial cs) below :=
  (h.constrain hf cs).congr ((iff_of_eq (true_and _)).trans (Base.serial_of_free hm).symm)
    fun _ => Iff.rfl

/-- The record of a base is JSON where the base is serial, and holds the part of the base. -/
theorem Record.Profile.recordOf {g : Graph} {b : Base} {cs : List Constraint} {p : Address}
    {r : Record} (hb : b.isObject = false) (h : b.recordOf cs p = .ok r) :
    Record.Profile g r (b.Serial cs) fun c => b.part?.isSome = true ∧ p = c := by
  have htype (name : String) {e : Base} (he : e.part? = none) :
      Record.Profile g (Record.ofType name) True fun c => e.part?.isSome = true ∧ p = c := by
    constructor <;> simp [Record.ofType, Slot.Leads, Value.isWire, he]
  cases b with
  | string f =>
    cases f with
    | none =>
      cases h
      exact (htype _ rfl).constrained (b := .string none) rfl
        (by simp [Base.family, textKeywords, Record.ofType, layerKeywords]) cs
    | some f =>
      cases h
      have hstart : Record.Profile g (Record.ofType "string" ++ [("format", .data (.text f.name))])
          True fun c => (Base.string (some f)).part?.isSome = true ∧ p = c := by
        constructor <;> simp [Record.ofType, layerKeywords, Slot.Leads, Value.isWire, Base.part?]
      exact hstart.constrained (b := .string (some f)) rfl
        (by simp [Base.family, textKeywords, Record.ofType, layerKeywords]) cs
  | number i =>
    cases h
    exact (htype _ rfl).constrained (b := .number i) rfl
      (by simp [Base.family, numberKeywords, Record.ofType, layerKeywords]) cs
  | array e =>
    cases h
    have hstart : Record.Profile g (Record.ofType "array" ++ [("items", .schema p)])
        True fun c => (Base.array e).part?.isSome = true ∧ p = c := by
      constructor <;> simp [Record.ofType, layerKeywords, Slot.Leads, Value.isWire, Base.part?]
    exact hstart.constrained (b := .array e) rfl
      (by simp [Base.family, arrayKeywords, Record.ofType, layerKeywords]) cs
  | enumeration ms =>
    obtain ⟨data, hd, rfl⟩ := Base.recordOf_enumeration h
    exact (enumerationRecord data).congr (Base.serial_of_members rfl hd).symm (by simp [Base.part?])
  | literal m =>
    obtain ⟨v, hd, rfl⟩ := Base.recordOf_literal h
    refine (constantRecord v).congr ?_ (by simp [Base.part?])
    rw [Base.serial_of_members rfl hd]
    simp
  | object c => cases hb
  | record e =>
    cases h
    constructor <;> simp [Record.ofType, layerKeywords, Slot.Leads, Value.isWire, Base.part?,
      Base.serial_of_plain (b := .record e) rfl rfl]
  | _ =>
    cases h
    exact (htype _ rfl).congr (iff_of_true trivial (Base.serial_of_plain rfl rfl)) fun _ => Iff.rfl

end ToolCatalog
