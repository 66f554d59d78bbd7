import ToolCatalog.Proofs.Nullable

/-!
What is listed for an enumeration or a literal, and which type is found for it.

The members are converted together, in a list, which takes one more level than converting each of
them alone: members that have data alone are listed as that data, in order, or they are too deep
for a list. The type that is found is the least one that covers the data, where numbers include
integers; none is found exactly if there is no such type or no data.
-/
namespace ToolCatalog

/-! ## Types of JSON data -/

/-- A JSON value is of a type. An integer is a number too, a truth value is none. -/
inductive Value.HasType : Value → JsonType → Prop
  | null : HasType .null .null
  | bool (b : Bool) : HasType (.bool b) .boolean
  | text (s : String) : HasType (.text s) .string
  | int (i : Int) : HasType (.int i) .integer
  | whole (i : Int) : HasType (.int i) .number
  | float (x : Double) : HasType (.float x) .number
  | list (vs : List Value) : HasType (.list vs) .array
  | dict (es : List (Value × Value)) : HasType (.dict es) .object

namespace JsonType

/-- Every value of the type `t` is of the type `T` too. -/
def Includes (T t : JsonType) : Prop :=
  t = T ∨ t = .integer ∧ T = .number

instance (T t : JsonType) : Decidable (T.Includes t) :=
  inferInstanceAs (Decidable (t = T ∨ t = .integer ∧ T = .number))

/-- All these values are of one type. -/
def Covers (T : JsonType) (data : List Value) : Prop :=
  ∀ d ∈ data, d.HasType T

theorem Includes.refl (T : JsonType) : T.Includes T := .inl rfl

end JsonType

namespace Value

/-- Data that is made of something converted has the type that it is made as. -/
theorem hasType_of_made {α : Type} {x : Except DataFault α} {make : α → Value} {d : Value}
    (hmake : ∀ a, ∃ T, (make a).HasType T) (h : (do return make (← x)) = .ok d) :
    ∃ T, d.HasType T := by
  cases x with
  | error f => cases h
  | ok a =>
    cases h
    exact hmake a

/-- Data is of some type. -/
theorem hasType_of_toDataWithin {room : Nat} {v d : Value} (h : toDataWithin room v = .ok d) :
    ∃ T, d.HasType T := by
  induction room generalizing v with
  | zero =>
    rw [toDataWithin] at h
    cases h
  | succ room ih =>
    rw [toDataWithin.eq_def] at h
    dsimp only at h
    cases v with
    | null =>
      cases h
      exact ⟨_, .null⟩
    | bool b =>
      cases h
      exact ⟨_, .bool b⟩
    | int i =>
      cases h
      exact ⟨_, .int i⟩
    | float x =>
      cases h
      exact ⟨_, .float x⟩
    | bytes bs => exact hasType_of_made (fun s => ⟨_, .text s⟩) h
    | list items | tuple items | set items | frozenSet items =>
      exact hasType_of_made (fun vs => ⟨_, .list vs⟩) h
    | dict entries => exact hasType_of_made (fun es => ⟨_, .dict es⟩) h
    | member e n kind v => exact ih h
    | foreign _ | endless => cases h
    | _ =>
      cases h
      exact ⟨_, .text _⟩

variable {d : Value} {T : JsonType}

theorem HasType.of_includes {t : JsonType} (h : d.HasType t) (hT : T.Includes t) :
    d.HasType T := by
  rcases hT with rfl | ⟨rfl, rfl⟩
  · exact h
  · cases h
    exact .whole _

/-- A value has the type that it has as it stands, and the others include it. -/
theorem HasType.own (h : d.HasType T) :
    ∃ t, d.jsonType? = some t ∧ d.HasType t ∧ T.Includes t := by
  cases h with
  | null => exact ⟨_, rfl, .null, .refl _⟩
  | bool b => exact ⟨_, rfl, .bool b, .refl _⟩
  | text s => exact ⟨_, rfl, .text s, .refl _⟩
  | int i => exact ⟨_, rfl, .int i, .refl _⟩
  | whole i => exact ⟨_, rfl, .int i, .inr ⟨rfl, rfl⟩⟩
  | float x => exact ⟨_, rfl, .float x, .refl _⟩
  | list vs => exact ⟨_, rfl, .list vs, .refl _⟩
  | dict es => exact ⟨_, rfl, .dict es, .refl _⟩

/-- The types of data are found without looking further than `jsonType?`. -/
theorem exists_types {data : List Value} (h : ∀ d ∈ data, ∃ T, d.HasType T) :
    ∃ types : List JsonType, data.map jsonType? = types.map some ∧
      ∀ T : JsonType, T.Covers data ↔ ∀ t ∈ types, T.Includes t := by
  induction data with
  | nil => exact ⟨[], rfl, fun T => by simp [JsonType.Covers]⟩
  | cons d rest ih =>
    obtain ⟨⟨_, hd⟩, hrest⟩ := List.forall_mem_cons.mp h
    obtain ⟨t, hown, ht, -⟩ := hd.own
    obtain ⟨types, htypes, hcovers⟩ := ih hrest
    refine ⟨t :: types, by simp [hown, htypes], fun T => ?_⟩
    rw [JsonType.Covers, List.forall_mem_cons, List.forall_mem_cons]
    refine and_congr ⟨fun hT => ?_, ht.of_includes⟩ (hcovers T)
    obtain ⟨t', hown', -, hinc⟩ := hT.own
    rw [hown, Option.some.injEq] at hown'
    exact hown' ▸ hinc

end Value

/-! ## The common type -/

section

variable {types : List JsonType} {T : JsonType}

theorem JsonType.includes_number {t : JsonType} :
    JsonType.number.Includes t ↔ t = .integer ∨ t = .number := by
  simp [Includes, or_comm]

theorem JsonType.Includes.eq_of_ne {t : JsonType} (h : T.Includes t) (hT : T ≠ .number) :
    t = T := by
  rcases h with h | ⟨-, h⟩
  · exact h
  · exact absurd h hT

theorem commonType?_cons (first : JsonType) (rest : List JsonType) :
    commonType? ((first :: rest).map some)
      = if ∀ t ∈ first :: rest, JsonType.number.Includes t then
          if .number ∈ first :: rest then some .number else some .integer
        else if ∀ t ∈ rest, t = first then some first else none := by
  have hnumeric : (some first :: rest.map some).all
      (fun t => t == some JsonType.integer || t == some .number) = true
        ↔ ∀ t ∈ first :: rest, JsonType.number.Includes t := by
    simp [JsonType.includes_number]
  have hnumber : (some first :: rest.map some).contains (some JsonType.number) = true
      ↔ .number ∈ first :: rest := by
    simp
  have hsame : (rest.map some).all (· == some first) = true ↔ ∀ t ∈ rest, t = first := by
    simp
  simp only [commonType?, List.map_cons, List.isEmpty_cons, Bool.false_eq_true, if_false, hnumeric,
    hnumber, hsame]

/-- The type that is found is the least one that includes all types. -/
theorem commonType?_eq_some (h : commonType? (types.map some) = some T) :
    (∀ t ∈ types, T.Includes t) ∧
      ∀ T' : JsonType, (∀ t ∈ types, T'.Includes t) → T'.Includes T := by
  cases types with
  | nil => cases h
  | cons first rest =>
    rw [commonType?_cons] at h
    split at h
    · rename_i hnumeric
      split at h
      · rename_i hnumber
        cases h
        exact ⟨hnumeric, fun T' hT' => hT' _ hnumber⟩
      · rename_i hnumber
        cases h
        have hinteger : ∀ t ∈ first :: rest, t = .integer := fun t ht =>
          (JsonType.includes_number.mp (hnumeric t ht)).resolve_right fun hn => hnumber (hn ▸ ht)
        refine ⟨fun t ht => hinteger t ht ▸ .refl _, fun T' hT' => ?_⟩
        exact hinteger first List.mem_cons_self ▸ hT' _ List.mem_cons_self
    · split at h
      · rename_i hsame
        cases h
        refine ⟨?_, fun T' hT' => hT' _ List.mem_cons_self⟩
        exact List.forall_mem_cons.mpr ⟨.refl _, fun t ht => hsame t ht ▸ .refl _⟩
      · cases h

/-- Where none is found, no type includes them all, or there are none. -/
theorem commonType?_eq_none (h : commonType? (types.map some) = none) :
    types = [] ∨ ¬∃ T : JsonType, ∀ t ∈ types, T.Includes t := by
  cases types with
  | nil => exact .inl rfl
  | cons first rest =>
    refine .inr fun ⟨T, hT⟩ => ?_
    rw [commonType?_cons] at h
    split at h
    · split at h <;> cases h
    · rename_i hnumeric
      have hne : T ≠ .number := fun hn => hnumeric (hn ▸ hT)
      have hall : ∀ t ∈ first :: rest, t = T := fun t ht => (hT t ht).eq_of_ne hne
      obtain ⟨rfl, hrest⟩ := List.forall_mem_cons.mp hall
      rw [if_pos hrest] at h
      cases h

end

/-! ## Conversion one by one and together -/

/-- A conversion that comes to the same, or gives up because a value is too deep. -/
def OrTooDeep {α : Type} (x y : Except DataFault α) : Prop :=
  x = y ∨ x = .error .tooDeep

namespace OrTooDeep

variable {α β : Type} {x y : Except DataFault α}

theorem refl (x : Except DataFault α) : OrTooDeep x x := .inl rfl

theorem bind {f g : α → Except DataFault β} (h : OrTooDeep x y) (hf : ∀ a, OrTooDeep (f a) (g a)) :
    OrTooDeep (x >>= f) (y >>= g) := by
  rcases h with rfl | rfl
  · cases x with
    | error e => exact .refl _
    | ok a => exact hf a
  · exact .inr rfl

end OrTooDeep

namespace Value

mutual

/-- With less room a value is converted as before, or is too deep. -/
theorem toDataWithin_orTooDeep {less room : Nat} (hle : less ≤ room) (v : Value) :
    OrTooDeep (toDataWithin less v) (toDataWithin room v) := by
  cases less with
  | zero => exact .inr (by rw [toDataWithin])
  | succ less =>
    obtain ⟨room, rfl⟩ : ∃ n, room = n + 1 := ⟨room - 1, by omega⟩
    have hle : less ≤ room := by omega
    cases v with
    | list items | tuple items | set items | frozenSet items =>
      simp only [toDataWithin]
      exact (itemsToData_orTooDeep hle items).bind fun _ => .refl _
    | dict entries =>
      simp only [toDataWithin]
      exact (entriesToData_orTooDeep hle entries []).bind fun _ => .refl _
    | member e n kind v =>
      simp only [toDataWithin]
      exact toDataWithin_orTooDeep hle v
    | _ =>
      simp only [toDataWithin]
      exact .refl _

theorem itemsToData_orTooDeep {less room : Nat} (hle : less ≤ room) (vs : List Value) :
    OrTooDeep (itemsToData less vs) (itemsToData room vs) := by
  cases vs with
  | nil =>
    simp only [itemsToData]
    exact .refl _
  | cons v rest =>
    simp only [itemsToData]
    refine (toDataWithin_orTooDeep hle v).bind fun d => ?_
    exact (itemsToData_orTooDeep hle rest).bind fun _ => .refl _

theorem entriesToData_orTooDeep {less room : Nat} (hle : less ≤ room)
    (es written : List (Value × Value)) :
    OrTooDeep (entriesToData less es written) (entriesToData room es written) := by
  cases es with
  | nil =>
    simp only [entriesToData]
    exact .refl _
  | cons e rest =>
    obtain ⟨k, v⟩ := e
    simp only [entriesToData]
    refine (OrTooDeep.refl (keyText k)).bind fun key => ?_
    exact (toDataWithin_orTooDeep hle v).bind fun d => entriesToData_orTooDeep hle rest _

end

/-- Items that have data one by one have it together. -/
theorem itemsToData_eq {room : Nat} {vs ds : List Value}
    (h : List.Forall₂ (fun v d => toDataWithin room v = .ok d) vs ds) :
    itemsToData room vs = .ok ds := by
  induction h with
  | nil => rw [itemsToData]
  | cons hv _ ih =>
    rw [itemsToData, hv, ih]
    rfl

/-- Values that have data alone have it in a list, or are too deep for one. -/
theorem toData_list {vs ds : List Value} (h : List.Forall₂ (fun v d => v.toData = .ok d) vs ds) :
    (Value.list vs).toData = .ok (.list ds) ∨ (Value.list vs).toData = .error .tooDeep := by
  have hitems : OrTooDeep (itemsToData 254 vs) (itemsToData depthLimit vs) :=
    itemsToData_orTooDeep (by decide) vs
  rw [itemsToData_eq h] at hitems
  rw [toData, depthLimit, toDataWithin]
  rcases hitems with hitems | hitems <;> rw [hitems]
  · exact .inl rfl
  · exact .inr rfl

end Value

/-! ## The members of an enumeration -/

namespace Enumeration

variable (e : Enumeration) (name : String) (kind : EnumKind)

/-- A definition adds a member at the end, or none. -/
theorem define_members (d : String × Value) :
    (e.define d.1 d.2).kind = e.kind ∧ ((e.define d.1 d.2).members = e.members ∨
      (e.define d.1 d.2).members = e.members ++ [⟨d.1, e.kind.convert d.2⟩]) := by
  unfold define
  split
  · exact ⟨rfl, .inl rfl⟩
  · split
    · exact ⟨rfl, .inl rfl⟩
    · simp only
      split
      · exact ⟨rfl, .inl rfl⟩
      · exact ⟨rfl, .inr rfl⟩

theorem foldl_define_members (definitions : List (String × Value)) :
    ∃ kept : List (String × Value), kept.Sublist definitions ∧
      (definitions.foldl (fun e d => e.define d.1 d.2) e).members
        = e.members ++ kept.map fun d => ⟨d.1, e.kind.convert d.2⟩ := by
  induction definitions generalizing e with
  | nil => exact ⟨[], .slnil, by simp⟩
  | cons d rest ih =>
    obtain ⟨hkind, hmembers⟩ := e.define_members d
    obtain ⟨kept, hkept, hall⟩ := ih (e.define d.1 d.2)
    rw [hkind] at hall
    rcases hmembers with hm | hm
    · exact ⟨kept, hkept.cons d, by rw [List.foldl_cons, hall, hm]⟩
    · refine ⟨d :: kept, hkept.cons_cons d, ?_⟩
      rw [List.foldl_cons, hall, hm, List.map_cons, List.append_assoc, List.singleton_append]

/-- Iteration meets members in the order of their definitions, each once. -/
theorem canonical_ofDefinitions (definitions : List (String × Value)) :
    ∃ kept : List (String × Value), kept.Sublist definitions ∧
      (ofDefinitions name kind definitions).canonical
        = kept.map fun d => ⟨d.1, kind.convert d.2⟩ := by
  obtain ⟨kept, hkept, hmembers⟩ := foldl_define_members ⟨name, kind, [], [], []⟩ definitions
  have hall : (ofDefinitions name kind definitions).members
      = kept.map fun d => ⟨d.1, kind.convert d.2⟩ := hmembers
  refine ⟨kept.filter fun d => (ofDefinitions name kind definitions).kind.iterates
    (kind.convert d.2), List.filter_sublist.trans hkept, ?_⟩
  rw [canonical, hall, List.filter_map]
  rfl

end Enumeration

/-! ## Descriptors that list members -/

/-- A descriptor that lists data. Its type is the least that the data has in common, and it is left
out only where there is no such type or no data. -/
structure Record.Enumerates (r : Record) (data : List Value) : Prop where
  listed : r.lookup "enum" = some (.data (.list data)) ∧ r.lookup "const" = none ∨
    ∃ d, data = [d] ∧ r.lookup "const" = some (.data d) ∧ r.lookup "enum" = none
  typed : ∀ slot, r.lookup "type" = some slot → ∃ T : JsonType, slot = .data (.text T.name) ∧
    T.Covers data ∧ ∀ T' : JsonType, T'.Covers data → T'.Includes T
  untyped : r.lookup "type" = none → data = [] ∨ ¬∃ T : JsonType, T.Covers data

namespace Record.Enumerates

variable {data : List Value}

/-- The least common type makes up the type keyword of a record. -/
theorem of_commonType? {r : Record} (hdata : ∀ d ∈ data, ∃ T, d.HasType T)
    (hlisted : r.lookup "enum" = some (.data (.list data)) ∧ r.lookup "const" = none ∨
      ∃ d, data = [d] ∧ r.lookup "const" = some (.data d) ∧ r.lookup "enum" = none)
    (htype : r.lookup "type"
      = (commonType? (data.map Value.jsonType?)).map fun T => .data (.text T.name)) :
    r.Enumerates data := by
  obtain ⟨types, htypes, hcovers⟩ := Value.exists_types hdata
  rw [htypes] at htype
  refine ⟨hlisted, fun slot hslot => ?_, fun hnone => ?_⟩
  · rw [hslot] at htype
    obtain ⟨T, hT, rfl⟩ := Option.map_eq_some_iff.mp htype.symm
    obtain ⟨hall, hleast⟩ := commonType?_eq_some hT
    exact ⟨T, rfl, (hcovers T).mpr hall, fun T' hT' => hleast T' ((hcovers T').mp hT')⟩
  · rw [hnone] at htype
    rcases commonType?_eq_none (Option.map_eq_none_iff.mp htype.symm) with rfl | hno
    · exact .inl (by simpa using htypes)
    · exact .inr fun ⟨T, hT⟩ => hno ⟨T, (hcovers T).mp hT⟩

theorem enumerationRecord (hdata : ∀ d ∈ data, ∃ T, d.HasType T) :
    (enumerationRecord data).Enumerates data := by
  refine of_commonType? hdata (.inl ?_) ?_ <;> unfold ToolCatalog.enumerationRecord <;>
    cases commonType? (data.map Value.jsonType?) <;> first | exact ⟨rfl, rfl⟩ | rfl

theorem constantRecord {d : Value} (hdata : ∃ T, d.HasType T) :
    (constantRecord d).Enumerates [d] := by
  refine of_commonType? (by simpa using hdata) (.inr ⟨d, rfl, ?_⟩) ?_
  · unfold ToolCatalog.constantRecord
    cases d.jsonType? <;> exact ⟨rfl, rfl⟩
  · rw [List.map_singleton, commonType?_singleton]
    unfold ToolCatalog.constantRecord
    cases d.jsonType? <;> rfl

end Record.Enumerates

/-! ## Enumerations and literals -/

/-- An enumeration or a literal and the values of its members, in order: those that iteration over
the enumeration meets, or those that the literal names. -/
inductive TypeExpr.Lists (defs : Definitions) : TypeExpr → List Value → Prop
  | enumeration {name e} (hf : defs.find? name = some (.enumeration e)) :
      Lists defs (.declared name) e.values
  | memberless {name b} (hf : defs.find? name = some (.derived b))
      (hb : b = .enumeration ∨ b = .integerEnumeration) : Lists defs (.declared name) []
  | builtin {b} (hb : b = .enumeration ∨ b = .integerEnumeration) :
      Lists defs (.atom (.builtin b)) []
  | literal (id : Nat) (values : List Value) :
      Lists defs (.literal id values) (values.map Value.bare)

section

variable {defs : Definitions} {t : TypeExpr} {ms data : List Value}

namespace TypeExpr.Lists

theorem base (h : t.Lists defs ms) : t.peel = ([], t) ∧
    (t.base defs = .enumeration ms ∨ ∃ m, ms = [m] ∧ t.base defs = .literal m) := by
  cases h with
  | enumeration hf => exact ⟨rfl, .inl (by simp [TypeExpr.base, hf, ClassBody.base])⟩
  | memberless hf hb =>
    refine ⟨rfl, .inl ?_⟩
    rcases hb with rfl | rfl <;> simp [TypeExpr.base, hf, ClassBody.base, Builtin.derivedBase]
  | builtin hb =>
    refine ⟨rfl, .inl ?_⟩
    rcases hb with rfl | rfl <;> rfl
  | literal id values =>
    refine ⟨rfl, ?_⟩
    simp only [TypeExpr.base, literalBase]
    split
    · rename_i m hm
      exact .inr ⟨m, hm, rfl⟩
    · exact .inl rfl

theorem members? (h : t.Lists defs ms) : (t.core.base defs).members? = some ms := by
  obtain ⟨hpeel, hbase⟩ := h.base
  rw [core, hpeel]
  rcases hbase with hb | ⟨m, rfl, hb⟩ <;> rw [hb] <;> rfl

/-- Below an enumeration or a literal nothing else is met. -/
theorem eq_of_leads {s : Session} {u : TypeExpr} (h : t.Lists defs ms) (hl : Leads defs s t u) :
    u = t := by
  have hmembers := h.members?
  cases hl with
  | here => rfl
  | part hp _ =>
    cases hb : t.core.base defs <;> rw [hb] at hmembers hp <;> cases hmembers <;> cases hp
  | field hb _ _ _ =>
    rw [hb] at hmembers
    cases hmembers

/-- The members are defined in the order in which they are listed. -/
theorem order {n name : String} {kind : EnumKind} {definitions : List (String × Value)}
    (h : (declared n).Lists defs ms)
    (hf : defs.find? n = some (.enumeration (.ofDefinitions name kind definitions))) :
    ∃ kept : List (String × Value), kept.Sublist definitions ∧
      ms = kept.map fun d => kind.convert d.2 := by
  cases h with
  | memberless hf' _ =>
    rw [hf'] at hf
    cases hf
  | @enumeration _ e hf' =>
    obtain rfl : e = .ofDefinitions name kind definitions := by simpa [hf'] using hf
    obtain ⟨kept, hkept, hcanonical⟩ := Enumeration.canonical_ofDefinitions name kind definitions
    refine ⟨kept, hkept, ?_⟩
    rw [Enumeration.values, hcanonical, List.map_map]
    rfl

end TypeExpr.Lists

/-- The record of an enumeration or a literal lists the data of the members. -/
theorem Base.enumerates {b : Base} {cs : List Constraint} {p : Address} {r : Record}
    (hm : b.members? = some ms) (hd : List.Forall₂ (fun m d => m.toData = .ok d) ms data)
    (h : b.recordOf cs p = .ok r) : r.Enumerates data := by
  have htypes : ∀ d ∈ data, ∃ T, d.HasType T := by
    intro d hmem
    obtain ⟨m, -, hmd⟩ := exists_of_mem_right hd hmem
    exact Value.hasType_of_toDataWithin hmd
  have hdata {data' : List Value} (h' : membersData ms = .ok data') : data' = data := by
    rcases Value.toData_list hd with hok | herr
    · simpa [membersData, hok] using h'.symm
    · simp [membersData, herr] at h'
  cases b with
  | enumeration members =>
    cases hm
    obtain ⟨data', h', rfl⟩ := recordOf_enumeration h
    obtain rfl := hdata h'
    exact .enumerationRecord htypes
  | literal member =>
    cases hm
    obtain ⟨v, h', rfl⟩ := recordOf_literal h
    obtain rfl := hdata h'
    exact .constantRecord (htypes v List.mem_cons_self)
  | _ => cases hm

end

/-- After any calls, the descriptor of an enumeration or a literal whose members have data lists
that data in the order in which the members are defined, one for each, and has the least type that
they have in common; there is no descriptor only where they are too deep for a list. -/
theorem describe_enumerates (source : Source) (observable : Bool) (calls : List Call)
    (hcalls : ∀ c ∈ calls, source.Expression c.type) {t : TypeExpr} (ht : source.Expression t)
    {ms data : List Value} (hl : t.Lists source.definitions ms)
    (hd : List.Forall₂ (fun m d => m.toData = .ok d) ms data) :
    let s := (Session.after source.definitions (.fresh observable) calls).2
    ((∃ a s', s.run (describe source.definitions t) = (.ok a, s') ∧
        (s'.graph.record a).Enumerates data) ∨
      (Value.list ms).toData = .error .tooDeep ∧
        (s.run (describe source.definitions t)).1 = .error (.data .tooDeep)) ∧
    ∀ n name kind definitions, t = .declared n → source.definitions.find? n
        = some (.enumeration (.ofDefinitions name kind definitions)) →
      ∃ kept : List (String × Value), kept.Sublist definitions ∧
        ms = kept.map fun d => kind.convert d.2 := by
  intro s
  constructor
  · obtain ⟨U, hU, hexpr⟩ := source.universe
    obtain ⟨-, -, hinv⟩ := Session.after_preserves hU (fun c hc => hexpr _ (hcalls c hc))
      (.fresh observable)
    rcases hr : s.run (describe source.definitions t) with ⟨r, s'⟩
    cases r with
    | ok a =>
      have hshows : Shows source.definitions s' t a :=
        (Call.preserves hU (c := .describe t) (hexpr _ ht) hinv hr).result a rfl
      refine .inl ⟨a, s', rfl, ?_⟩
      obtain ⟨r, hstands⟩ := hshows.bare hl.base.1
      rw [Graph.record_of_getElem? hstands.record]
      cases hstands with
      | object hb _ _ =>
        have hmembers := hl.members?
        rw [hb] at hmembers
        cases hmembers
      | value _ _ hrec _ => exact Base.enumerates hl.members? hd hrec
    | error e =>
      obtain ⟨u, f, hleads, ⟨ms', hms', hf, -⟩, rfl⟩ := describe_explained hr
      obtain rfl := hl.eq_of_leads hleads
      obtain rfl : ms = ms' := Option.some.inj (hl.members?.symm.trans hms')
      rcases Value.toData_list hd with hok | herr
      · rw [hok] at hf
        cases hf
      · obtain rfl : f = .tooDeep := Except.error.inj (hf.symm.trans herr)
        exact .inr ⟨herr, rfl⟩
  · rintro n name kind definitions rfl hf
    exact hl.order hf

/-- An enumeration of a list and a tuple. -/
def axes : Enumeration :=
  .ofDefinitions "Axis" .plain [("X", .list [.int 1]), ("Y", .tuple [.int 2, .int 3])]

def axisSource : Source where
  declarations := [.enumeration axes]
  written := [.reference "Axis"]

theorem axisSource_nodes : axisSource.nodes = [.declared "Axis"] :=
  rfl

theorem describe_enumerates_axes :
    (TypeExpr.declared "Axis").Lists axisSource.definitions axes.values ∧
      ∃ a s', (Session.fresh false).run (describe axisSource.definitions (.declared "Axis"))
        = (.ok a, s') ∧
          (s'.graph.record a).Enumerates [.list [.int 1], .list [.int 2, .int 3]] := by
  have hlists : (TypeExpr.declared "Axis").Lists axisSource.definitions axes.values :=
    .enumeration rfl
  have hvalues : axes.values = [.list [.int 1], .tuple [.int 2, .int 3]] := rfl
  have hdata : List.Forall₂ (fun m d => Value.toData m = .ok d) axes.values
      [.list [.int 1], .list [.int 2, .int 3]] := hvalues ▸ .cons rfl (.cons rfl .nil)
  have hnode : axisSource.Expression (.declared "Axis") :=
    .node (by rw [axisSource_nodes]; exact List.mem_singleton.mpr rfl)
  refine ⟨hlists, ?_⟩
  rcases (describe_enumerates axisSource false [] (by simp) hnode hlists hdata).1
    with hok | ⟨hdeep, -⟩
  · exact hok
  · have hflat : (Value.list axes.values).toData
        = .ok (.list [.list [.int 1], .list [.int 2, .int 3]]) := rfl
    rw [hflat] at hdeep
    cases hdeep

end ToolCatalog
