import ToolCatalog.Proofs.Acceptance
import ToolCatalog.Proofs.Exported
import ToolCatalog.Proofs.Programs

/-!
What a layer that allows null does to the values that are accepted.

Null is added to the types and to nothing else. So the layer widens what is accepted wherever a base
lists no members. A base that lists members rejects null after as before unless it is one of them,
and if the members have no common type, null is the only type that is left.
-/
namespace ToolCatalog

/-- The name of a type as what a type keyword holds. -/
def JsonType.keyword (t : JsonType) : Value :=
  .text t.name

/-- What the descriptor of a base says about a value as such. -/
def Base.limits : Base → Except CompileFault Limits
  | .string _ => .ok ⟨some JsonType.string.keyword, none, none⟩
  | .number integer =>
    .ok ⟨some (if integer then JsonType.integer else .number).keyword, none, none⟩
  | .boolean => .ok ⟨some JsonType.boolean.keyword, none, none⟩
  | .array _ => .ok ⟨some JsonType.array.keyword, none, none⟩
  | .record _ | .object _ => .ok ⟨some JsonType.object.keyword, none, none⟩
  | .unknown => .ok ⟨some (.text "any"), none, none⟩
  | .enumeration members => (membersData members).map fun data =>
    ⟨(commonType? (data.map Value.jsonType?)).map JsonType.keyword, some (.list data), none⟩
  | .literal member => (membersData [member]).map fun data =>
    let v := data.head?.getD member
    ⟨v.jsonType?.map JsonType.keyword, none, some v⟩

namespace Limits

/-- The limits with null among the types. -/
def orNull (l : Limits) : Limits :=
  { l with type := some (typeWithNull l.type) }

/-- Null is accepted, and so is every JSON value that was accepted before. -/
structure WidenedBy (l l' : Limits) : Prop where
  null : l'.accepts .null = true
  kept : ∀ v : Value, v.isWire = true → l.accepts v = true → l'.accepts v = true

end Limits

/-- Null is the only JSON value among these members. -/
structure OnlyNull (members : List Value) : Prop where
  null : ∃ m ∈ members, m.isNull = true
  only : ∀ m ∈ members, ∀ v : Value, v.isWire = true → v.sameJson m = true → v.isNull = true

/-- If a base lists members, null is the only JSON value among them. -/
def Base.NullSafe (b : Base) : Prop :=
  ∀ ms data, b.members? = some ms → membersData ms = .ok data → OnlyNull data

theorem Base.nullSafe_iff {b : Base} {ms data : List Value} (hm : b.members? = some ms)
    (hd : membersData ms = .ok data) : b.NullSafe ↔ OnlyNull data := by
  constructor
  · intro h
    exact h ms data hm hd
  · intro h ms' data' hm' hd'
    obtain rfl : ms = ms' := by simpa [hm] using hm'
    obtain rfl : data = data' := by simpa [hd] using hd'
    exact h

/-! ## Types -/

theorem typeWithNull_text (n : String) :
    typeWithNull (some (.text n))
      = if n = "null" then .text n else .list [.text n, .text "null"] := by
  by_cases h : n = "null"
  · simp [typeWithNull, h]
  · simp [typeWithNull, h, Ne.symm h]

theorem typeAccepts_list {names : List Value} {v : Value} :
    typeAccepts (some (.list names)) v = true ↔
      (Value.text "any").memberOf names = true ∨
        ∃ t, v.jsonType? = some t ∧ names.any t.namedBy = true := by
  cases h : v.jsonType? <;> simp [typeAccepts, allowsAnything, h]

theorem typeAccepts_text {n : String} {v : Value} :
    typeAccepts (some (.text n)) v = true ↔
      n = "any" ∨ ∃ t, v.jsonType? = some t ∧ t.namedBy (.text n) = true := by
  rw [eq_comm (a := n)]
  cases h : v.jsonType? <;> simp [typeAccepts, allowsAnything, h]

theorem isNull_of_jsonType? {v : Value} (h : v.jsonType? = some .null) : v.isNull = true := by
  cases v with
  | null => rfl
  | member e n kind v => cases kind <;> cases h
  | _ => cases h

theorem namedBy_null {t : JsonType} (h : t.namedBy (.text "null") = true) : t = .null := by
  cases t <;> simp_all [JsonType.namedBy, Value.textual?, JsonType.name]

/-- Null is accepted where it has been added. -/
theorem typeAccepts_withNull_null {type : Option Value}
    (h : type = none ∨ ∃ n, type = some (.text n)) :
    typeAccepts (some (typeWithNull type)) .null = true := by
  have hnull : JsonType.namedBy .null (.text "null") = true := rfl
  rcases h with rfl | ⟨n, rfl⟩
  · exact typeAccepts_list.mpr (.inr ⟨.null, rfl, by simp [hnull]⟩)
  · rw [typeWithNull_text]
    split
    · rename_i hn
      exact typeAccepts_text.mpr (.inr ⟨.null, rfl, hn ▸ hnull⟩)
    · exact typeAccepts_list.mpr (.inr ⟨.null, rfl, by simp [hnull]⟩)

/-- Where there is a type, adding null to it takes nothing away. -/
theorem typeAccepts_withNull {n : String} {v : Value} (h : typeAccepts (some (.text n)) v = true) :
    typeAccepts (some (typeWithNull (some (.text n)))) v = true := by
  rw [typeWithNull_text]
  split
  · exact h
  · rcases typeAccepts_text.mp h with rfl | ⟨t, ht, hn⟩
    · exact typeAccepts_list.mpr (.inl (by simp [Value.memberOf]))
    · exact typeAccepts_list.mpr (.inr ⟨t, ht, by simp [hn]⟩)

/-- Where there is none, it leaves nothing but null. -/
theorem isNull_of_typeAccepts {v : Value}
    (h : typeAccepts (some (typeWithNull none)) v = true) : v.isNull = true := by
  rcases typeAccepts_list.mp h with hany | ⟨t, ht, hn⟩
  · simp [Value.memberOf] at hany
  · rw [List.any_cons, List.any_nil, Bool.or_false] at hn
    exact isNull_of_jsonType? (namedBy_null hn ▸ ht)

/-- Only null has the type that null and others have in common. -/
theorem commonType?_null {types : List (Option JsonType)} {t : JsonType}
    (h : commonType? types = some t) (hn : some .null ∈ types) :
    ∀ u ∈ types, u = some .null := by
  cases types with
  | nil => cases hn
  | cons first rest =>
    simp only [commonType?, List.isEmpty_cons, Bool.false_eq_true, if_false] at h
    split at h
    · rename_i hall
      simpa using List.all_eq_true.mp hall _ hn
    · split at h
      · rename_i hsame
        have hrest : ∀ u ∈ rest, u = first := by simpa using hsame
        have hfirst : first = some .null := by
          rcases List.mem_cons.mp hn with hf | hr
          · exact hf.symm
          · exact (hrest _ hr).symm
        intro u hu
        rcases List.mem_cons.mp hu with rfl | hu
        · exact hfirst
        · rw [hrest u hu, hfirst]
      · cases h

theorem commonType?_singleton (t : Option JsonType) : commonType? [t] = t := by
  rcases t with _ | t
  · rfl
  · cases t <;> rfl

/-! ## Limits -/

namespace Limits

variable {l : Limits} {n : String} {data : List Value}

theorem WidenedBy.congr {l l' m m' : Limits} (h : ∀ v, l.accepts v = m.accepts v)
    (h' : ∀ v, l'.accepts v = m'.accepts v) : l.WidenedBy l' ↔ m.WidenedBy m' := by
  constructor
  · rintro ⟨hnull, hkept⟩
    exact ⟨(h' _).symm.trans hnull, fun v hv ha => (h' v).symm.trans (hkept v hv ((h v).trans ha))⟩
  · rintro ⟨hnull, hkept⟩
    exact ⟨(h' _).trans hnull, fun v hv ha => (h' v).trans (hkept v hv ((h v).symm.trans ha))⟩

/-- Where there is a type and no members are listed, null widens what is accepted. -/
theorem widenedBy_of_free (ht : l.type = some (.text n)) (hl : ∀ v, l.listed v = true) :
    l.WidenedBy l.orNull := by
  have hlisted (v : Value) : l.orNull.listed v = true := hl v
  constructor
  case null =>
    rw [accepts, hlisted, Bool.and_true]
    exact typeAccepts_withNull_null (.inr ⟨n, ht⟩)
  case kept =>
    intro v _ hv
    rw [accepts, hlisted, Bool.and_true]
    rw [accepts, hl, Bool.and_true, ht] at hv
    rw [orNull, ht]
    exact typeAccepts_withNull hv

/-- Where members are listed, null widens what is accepted only if it alone was accepted before. -/
theorem widenedBy_iff (ht : l.type = (commonType? (data.map Value.jsonType?)).map JsonType.keyword)
    (hl : ∀ v, l.listed v = data.any v.sameJson) : l.WidenedBy l.orNull ↔ OnlyNull data := by
  have hlisted (v : Value) : l.orNull.listed v = data.any v.sameJson := hl v
  have hnull : l.orNull.accepts .null = true ↔ ∃ m ∈ data, m.isNull = true := by
    have htype : typeAccepts l.orNull.type .null = true := by
      refine typeAccepts_withNull_null ?_
      rw [ht]
      cases commonType? (data.map Value.jsonType?) with
      | none => exact .inl rfl
      | some t => exact .inr ⟨t.name, rfl⟩
    rw [accepts, htype, Bool.true_and, hlisted]
    simp [Value.null_sameJson]
  constructor
  · rintro ⟨haccepted, hkept⟩
    obtain ⟨m₀, hm₀, hn₀⟩ := hnull.mp haccepted
    refine ⟨⟨m₀, hm₀, hn₀⟩, fun m hm v hv hsame => ?_⟩
    -- Members of several types leave no type, and then null becomes the only one. Members of one
    -- type are all of the type of null, which is among them.
    cases hcommon : commonType? (data.map Value.jsonType?) with
    | none =>
      rw [hcommon, Option.map_none] at ht
      have hbefore : l.accepts v = true := by
        rw [accepts, ht, hl]
        simpa [typeAccepts] using ⟨m, hm, hsame⟩
      have hafter := hkept v hv hbefore
      rw [accepts, orNull, ht, Bool.and_eq_true] at hafter
      exact isNull_of_typeAccepts hafter.1
    | some t =>
      have hmem : some JsonType.null ∈ data.map Value.jsonType? := by
        rw [Value.isNull_iff.mp hn₀] at hm₀
        exact List.mem_map_of_mem hm₀
      have hmnull : m.isNull = true :=
        isNull_of_jsonType? (commonType?_null hcommon hmem _ (List.mem_map_of_mem hm))
      rwa [Value.isNull_iff.mp hmnull, Value.sameJson_null] at hsame
  · rintro ⟨hex, honly⟩
    refine ⟨hnull.mpr hex, fun v hv hbefore => ?_⟩
    rw [accepts, Bool.and_eq_true, hl] at hbefore
    obtain ⟨m, hm, hsame⟩ := List.any_eq_true.mp hbefore.2
    rw [Value.isNull_iff.mp (honly m hm v hv hsame)]
    exact hnull.mpr hex

end Limits

/-- A layer that allows null widens what a base accepts exactly if null is the only JSON value that
the base lists, if it lists any. -/
theorem Base.widenedBy_orNull {b : Base} {l : Limits} (h : b.limits = .ok l) :
    l.WidenedBy l.orNull ↔ b.NullSafe := by
  have hfree {n : String} (hm : b.members? = none) (hl : l = ⟨some (.text n), none, none⟩) :
      l.WidenedBy l.orNull ↔ b.NullSafe := by
    subst hl
    refine iff_of_true (Limits.widenedBy_of_free rfl fun v => rfl) fun ms data hms => ?_
    rw [hm] at hms
    cases hms
  cases b with
  | enumeration ms =>
    cases hd : membersData ms with
    | error e =>
      rw [Base.limits, hd] at h
      cases h
    | ok data =>
      rw [Base.limits, hd] at h
      cases h
      exact (Limits.widenedBy_iff rfl fun v => by simp [Limits.listed]).trans
        (nullSafe_iff rfl hd).symm
  | literal m =>
    cases hd : membersData [m] with
    | error e =>
      rw [Base.limits, hd] at h
      cases h
    | ok data =>
      obtain ⟨v, rfl⟩ := membersData_singleton hd
      rw [Base.limits, hd] at h
      cases h
      refine Iff.trans ?_ (nullSafe_iff rfl hd).symm
      exact Limits.widenedBy_iff (by simp [commonType?_singleton]) fun w => by simp [Limits.listed]
  | _ =>
    cases h
    exact hfree rfl rfl

/-! ## Records -/

/-- What a record holds under the keywords that speak about a value as such. -/
structure Record.States (r : Record) (l : Limits) : Prop where
  type : r.lookup "type" = l.type.map .data
  enum : r.lookup "enum" = l.enum.map .data
  const : r.lookup "const" = l.const.map .data

namespace Record.States

variable {r : Record} {l : Limits}

theorem limits (h : r.States l) (g : Graph) : g.limits r = l := by
  have hdata (x : Option Value) : (x.map Slot.data).bind g.slotData? = x := by
    cases x <;> rfl
  rw [Graph.limits, h.type, h.enum, h.const, hdata, hdata, hdata]

theorem data?_type (h : r.States l) : r.data? "type" = l.type := by
  rw [Record.data?, h.type]
  cases l.type <;> rfl

/-- Constraints say nothing about a value as such. -/
theorem constrain (h : r.States l) {family : List (Attribute × String)} (cs : List Constraint)
    (hf : ∀ e ∈ family, e.2 ≠ "type" ∧ e.2 ≠ "enum" ∧ e.2 ≠ "const") :
    (r.constrain family cs).States l := by
  constructor
  · exact (Record.lookup_constrain_of_notMem cs fun e he => (hf e he).1).trans h.type
  · exact (Record.lookup_constrain_of_notMem cs fun e he => (hf e he).2.1).trans h.enum
  · exact (Record.lookup_constrain_of_notMem cs fun e he => (hf e he).2.2).trans h.const

theorem enumerationRecord (data : List Value) : Record.States (enumerationRecord data)
    ⟨(commonType? (data.map Value.jsonType?)).map JsonType.keyword, some (.list data), none⟩ := by
  unfold ToolCatalog.enumerationRecord
  cases commonType? (data.map Value.jsonType?) <;> constructor <;> rfl

theorem constantRecord (v : Value) : Record.States (constantRecord v)
    ⟨v.jsonType?.map JsonType.keyword, none, some v⟩ := by
  unfold ToolCatalog.constantRecord
  cases v.jsonType? <;> constructor <;> rfl

theorem objectRecord (c : ObjectClass) (b : Address) :
    Record.States (objectRecord c b) ⟨some JsonType.object.keyword, none, none⟩ := by
  unfold ToolCatalog.objectRecord
  cases nonEmpty? c.doc <;> constructor <;> rfl

/-- The descriptor of a base says what its kind and its members say. -/
theorem recordOf {b : Base} {cs : List Constraint} {p : Address} (hb : b.isObject = false)
    (h : b.recordOf cs p = .ok r) : ∃ l, b.limits = .ok l ∧ r.States l := by
  cases b with
  | string f =>
    refine ⟨_, rfl, ?_⟩
    cases f with
    | none =>
      cases h
      exact constrain ⟨rfl, rfl, rfl⟩ cs (by simp [textKeywords])
    | some f =>
      cases h
      exact constrain ⟨rfl, rfl, rfl⟩ cs (by simp [textKeywords])
  | number i =>
    cases h
    refine ⟨_, rfl, constrain ?_ cs (by simp [numberKeywords])⟩
    cases i <;> exact ⟨rfl, rfl, rfl⟩
  | array e =>
    cases h
    exact ⟨_, rfl, constrain ⟨rfl, rfl, rfl⟩ cs (by simp [arrayKeywords])⟩
  | enumeration ms =>
    obtain ⟨data, hd, rfl⟩ := Base.recordOf_enumeration h
    exact ⟨_, by rw [Base.limits, hd]; rfl, .enumerationRecord data⟩
  | literal m =>
    obtain ⟨v, hd, rfl⟩ := Base.recordOf_literal h
    exact ⟨_, by rw [Base.limits, hd]; rfl, .constantRecord v⟩
  | object c => cases hb
  | _ =>
    cases h
    exact ⟨_, rfl, ⟨rfl, rfl, rfl⟩⟩

/-- A layer that allows null adds it to the types and to nothing else. -/
theorem decorate (h : r.States l) {an : Analysis} (hn : an.nullable = true) :
    (an.decorate r).States l.orNull := by
  have hsame {key : String} (hk : key ∉ ["description", "default", "type", "optional"]) :
      (an.decorate r).lookup key = r.lookup key := by
    rw [an.decorate_eq]
    refine Record.lookup_putAll_of_notMem fun e he he' => hk ?_
    rcases Analysis.mem_additions he with ⟨d, -, rfl⟩ | ⟨v, -, rfl⟩ | ⟨-, rfl⟩ | ⟨-, rfl⟩ <;>
      simp [← he']
  -- Of the three keywords, layers write the type only.
  refine ⟨?_, (hsame (by decide)).trans h.enum, (hsame (by decide)).trans h.const⟩
  have htype : (an.decorate r).lookup "type" = some (.data (typeWithNull (r.data? "type"))) := by
    unfold Analysis.decorate
    cases an.description <;> cases an.default? <;> cases an.optional <;>
      simp [hn, Entries.lookup_put_self, Entries.lookup_put_ne, Record.data?]
  rw [htype, h.data?_type]
  rfl

end Record.States

section

variable {defs : Definitions} {s : Session} {t : TypeExpr} {a b : Address} {r : Record}

theorem Stands.states (h : Stands defs s t a r) :
    ∃ l, (t.core.base defs).limits = .ok l ∧ r.States l := by
  cases h with
  | object hb hc hr => exact ⟨_, by rw [hb]; rfl, .objectRecord _ _⟩
  | value hb hp hrec hr => exact Record.States.recordOf hb hrec

/-- The descriptor of an expression that allows null, beside that of what is under its layers. -/
theorem Shows.widened_iff (hp : s.Proper) (h : Shows defs s t a) (hn : t.allowsNull = true)
    (hb : Stands defs s t b r) (room : Nat) :
    (s.graph.rendered .strict (room + 1) [] b).limits.WidenedBy
        (s.graph.rendered .strict (room + 1) [] a).limits ↔ (t.core.base defs).NullSafe := by
  obtain ⟨l, hl, hr⟩ := hb.states
  obtain ⟨a₀, r₀, hs₀, d, -, hf⟩ := h.stands
  obtain ⟨l₀, hl₀, hr₀⟩ := hs₀.states
  obtain rfl : l = l₀ := by simpa [hl] using hl₀
  have hnull : (t.analysisWith defs d).nullable = true := hn
  rw [if_pos (by simp [Analysis.adds, hnull])] at hf
  rw [← Base.widenedBy_orNull hl]
  refine Limits.WidenedBy.congr (fun v => ?_) fun v => ?_
  · rw [Graph.accepts_rendered hp, Graph.record_of_getElem? hb.record, hr.limits]
  · rw [Graph.accepts_rendered hp, Graph.record_of_getElem? hf, (hr₀.decorate hnull).limits]

end

/-- After any calls, what the strict form of the descriptor of an expression that allows null
accepts is what that of its base under the same constraints accepts, and null, exactly if null is
the only JSON value that the base lists, if it lists any. -/
theorem describe_widened_iff (source : Source) (observable : Bool) (calls : List Call)
    (hcalls : ∀ c ∈ calls, source.Expression c.type) {t : TypeExpr} (ht : source.Expression t)
    (hnull : t.allowsNull = true) {a : Address} {s : Session}
    (h : (Session.after source.definitions (.fresh observable) calls).2.run
      (describe source.definitions t) = (.ok a, s)) :
    (∃ b r, Stands source.definitions s t b r) ∧
      ∀ b r, Stands source.definitions s t b r → ∃ N B, s.graph.render .strict a = .ok N ∧
        s.graph.render .strict b = .ok B ∧
          (B.limits.WidenedBy N.limits ↔ (t.core.base source.definitions).NullSafe) := by
  obtain ⟨U, hU, hexpr⟩ := source.universe
  obtain ⟨-, -, hinv⟩ := Session.after_preserves hU (fun c hc => hexpr _ (hcalls c hc))
    (.fresh observable)
  have hshows : Shows source.definitions s t a :=
    (Call.preserves hU (c := .describe t) (hexpr _ ht) hinv h).result a rfl
  have hproper : s.Proper :=
    Call.proper (c := .describe t) (Session.after_proper calls (Session.fresh_proper observable)) h
  obtain ⟨b₀, r₀, hs₀, -⟩ := hshows.stands
  refine ⟨⟨b₀, r₀, hs₀⟩, fun b r hb => ?_⟩
  refine ⟨_, _, Graph.render_eq hproper _ a, Graph.render_eq hproper _ b, ?_⟩
  rw [← hshows.widened_iff hproper hnull hb s.graph.records.size]
  exact Limits.WidenedBy.congr (fun v => Schema.accepts_copied _ _ v)
    fun v => Schema.accepts_copied _ _ v

/-- An optional constant. -/
def letterSource : Source where
  declarations := []
  written := [.union [.literal [.text "a"], .atom .null]]

/-- The constant or null, as it is read. -/
def letterType : TypeExpr :=
  .nullable 1 .form [.literal 0 [.text "a"], .atom (.builtin .nothing)] (.literal 0 [.text "a"])

theorem letterSource_nodes : letterSource.nodes = [letterType] :=
  rfl

/-- The session in which the constant or null has been described. -/
def letterSession : Session :=
  ((Session.fresh false).run (describe letterSource.definitions letterType)).2

/-- Null does not pass for the constant, although the type allows it. -/
theorem describe_letter_rejects_null :
    letterSource.nodes = [letterType] ∧ letterType.allowsNull = true ∧
      (Session.fresh false).run (describe letterSource.definitions letterType)
        = (.ok 1, letterSession) ∧
      ∃ N, letterSession.graph.render .strict 1 = .ok N ∧ N.limits.accepts .null = false := by
  have hrun : (Session.fresh false).run (describe letterSource.definitions letterType)
      = (.ok 1, letterSession) := rfl
  have hproper : letterSession.Proper :=
    Call.proper (c := .describe letterType) (Session.fresh_proper false) hrun
  refine ⟨letterSource_nodes, rfl, hrun, _, Graph.render_eq hproper _ 1, ?_⟩
  have hlimits : letterSession.graph.limits (letterSession.graph.record 1)
      = ⟨some (typeWithNull (some (.text "string"))), none, some (.text "a")⟩ := rfl
  rw [Schema.accepts_copied, Graph.accepts_rendered hproper, hlimits]
  cbv

theorem describe_widened_iff_letter :
    (∃ b r, Stands letterSource.definitions letterSession letterType b r) ∧
      ∀ b r, Stands letterSource.definitions letterSession letterType b r →
        ∃ N B, letterSession.graph.render .strict 1 = .ok N ∧
          letterSession.graph.render .strict b = .ok B ∧
            (B.limits.WidenedBy N.limits ↔
              (letterType.core.base letterSource.definitions).NullSafe) :=
  describe_widened_iff letterSource false [] (by simp)
    (.node (by rw [letterSource_nodes]; exact List.mem_singleton.mpr rfl)) rfl rfl

end ToolCatalog
