import Mathlib.Algebra.Order.BigOperators.Group.List
import Mathlib.Algebra.Order.Ring.Nat
import Mathlib.Data.List.Basic
import ToolCatalog.Proofs.Growth
import ToolCatalog.Proofs.Layers

/-!
When descriptors cannot be made.

The room that is given to a description suffices: on the way down every object class is walked at
most once, and between two classes each descent goes to a part. So the only fault is that of a
member of an enumeration or a constant that has no JSON data, and the expression with that member is
reached through classes that have no descriptor yet.
-/
namespace ToolCatalog

/-! ## Members without data -/

/-- The members that a base lists, if it is one that lists members. -/
def Base.members? : Base → Option (List Value)
  | .enumeration members => some members
  | .literal member => some [member]
  | _ => none

/-- A base with members that have no JSON data, for a reason other than that one of them lies
outside every data format. -/
def Base.Refuses (b : Base) (f : DataFault) : Prop :=
  ∃ ms, b.members? = some ms ∧ (Value.list ms).toData = .error f ∧ f ≠ .unserializable

theorem membersData_error {ms : List Value} {e : CompileFault} :
    membersData ms = .error e ↔
      ∃ f, (Value.list ms).toData = .error f ∧ f ≠ .unserializable ∧ e = .data f := by
  unfold membersData
  split
  · rename_i d h
    simp [h]
  · rename_i d h
    simp [h]
  · rename_i h
    simp [h]
  · rename_i f hne h
    simp only [h, Except.error.injEq]
    constructor
    · rintro rfl
      exact ⟨f, rfl, hne, rfl⟩
    · rintro ⟨g, rfl, -, rfl⟩
      rfl

theorem membersData_singleton {m : Value} {data : List Value} (h : membersData [m] = .ok data) :
    ∃ v, data = [v] := by
  unfold membersData Value.toData at h
  rw [Value.depthLimit, Value.toDataWithin, Value.itemsToData] at h
  cases hm : Value.toDataWithin 254 m with
  | error f =>
    rw [hm] at h
    cases f <;> cases h
    exact ⟨m, rfl⟩
  | ok v =>
    rw [hm, Value.itemsToData] at h
    cases h
    exact ⟨v, rfl⟩

/-- The record of an enumeration is made of its written members. -/
theorem Base.recordOf_enumeration {ms : List Value} {cs : List Constraint} {p : Address}
    {r : Record} (h : (Base.enumeration ms).recordOf cs p = .ok r) :
    ∃ data, membersData ms = .ok data ∧ r = enumerationRecord data := by
  rw [recordOf] at h
  cases hd : membersData ms with
  | error e =>
    rw [hd] at h
    cases h
  | ok data =>
    rw [hd] at h
    cases h
    exact ⟨data, rfl, rfl⟩

/-- The record of a literal is made of its written member. -/
theorem Base.recordOf_literal {m : Value} {cs : List Constraint} {p : Address} {r : Record}
    (h : (Base.literal m).recordOf cs p = .ok r) :
    ∃ v, membersData [m] = .ok [v] ∧ r = constantRecord v := by
  rw [recordOf] at h
  cases hd : membersData [m] with
  | error e =>
    rw [hd] at h
    cases h
  | ok data =>
    obtain ⟨v, rfl⟩ := membersData_singleton hd
    rw [hd] at h
    cases h
    exact ⟨v, rfl, rfl⟩

theorem Base.recordOf_error {b : Base} {cs : List Constraint} {p : Address} {e : CompileFault} :
    b.recordOf cs p = .error e ↔ ∃ f, b.Refuses f ∧ e = .data f := by
  have hm (ms : List Value) : (∃ f, ((Value.list ms).toData = .error f ∧ f ≠ .unserializable) ∧
      e = .data f) ↔ membersData ms = .error e := by
    simp only [membersData_error, and_assoc]
  cases b with
  | enumeration ms =>
    simp only [Refuses, members?, Option.some.injEq, exists_eq_left', hm, recordOf]
    cases membersData ms <;> simp [Except.map]
  | literal m =>
    simp only [Refuses, members?, Option.some.injEq, exists_eq_left', hm, recordOf]
    cases membersData [m] <;> simp [Except.map]
  | string f => cases f <;> simp [recordOf, Refuses, members?]
  | _ => simp [recordOf, Refuses, members?]

/-! ## Ways through expressions -/

/-- The expressions that are met when `t` is described in a state: the parts of arrays and records,
and the fields of object classes that have no descriptor yet. -/
inductive Leads (defs : Definitions) (s : Session) : TypeExpr → TypeExpr → Prop
  | here (t : TypeExpr) : Leads defs s t t
  | part {t e u : TypeExpr} (hp : (t.core.base defs).part? = some e) (h : Leads defs s e u) :
      Leads defs s t u
  | field {t v u : TypeExpr} {c : ObjectClass} {name : String}
      (hb : t.core.base defs = .object c) (hc : s.cached? t.core = none)
      (hf : (name, v) ∈ c.fields) (h : Leads defs s v u) : Leads defs s t u

/-- The more is remembered, the less is met. -/
theorem Leads.of_cached {defs : Definitions} {s s' : Session}
    (hs : ∀ t, (s.cached? t).isSome → (s'.cached? t).isSome) {t u : TypeExpr}
    (h : Leads defs s' t u) : Leads defs s t u := by
  induction h with
  | here t => exact .here t
  | part hp _ ih => exact .part hp ih
  | @field t v u c name hb hc hf _ ih =>
    refine .field hb ?_ hf ih
    cases hn : s.cached? t.core with
    | none => rfl
    | some a =>
      have := hs t.core (by simp [hn])
      simp [hc] at this

theorem Leads.mono {defs : Definitions} {s s' : Session} {free : Option Address}
    (hs : s.Extends free s') {t u : TypeExpr} (h : Leads defs s' t u) : Leads defs s t u :=
  h.of_cached hs.cached

theorem Leads.trans {defs : Definitions} {s : Session} {t u w : TypeExpr}
    (h : Leads defs s t u) (h' : Leads defs s u w) : Leads defs s t w := by
  induction h with
  | here t => exact h'
  | part hp _ ih => exact .part hp (ih h')
  | field hb hc hf _ ih => exact .field hb hc hf (ih h')

/-- The fault of making a descriptor of `t` is that of a member met on the way. -/
def Explained (defs : Definitions) (s : Session) (t : TypeExpr) (e : CompileFault) : Prop :=
  ∃ u f, Leads defs s t u ∧ (u.core.base defs).Refuses f ∧ e = .data f

theorem Explained.mono {defs : Definitions} {s s' : Session} {free : Option Address}
    (hs : s.Extends free s') {t : TypeExpr} {e : CompileFault} (h : Explained defs s' t e) :
    Explained defs s t e := by
  obtain ⟨u, f, hl, hr, he⟩ := h
  exact ⟨u, f, hl.mono hs, hr, he⟩

/-- The layers of an expression do not matter for what is met below them. -/
theorem Explained.of_core {defs : Definitions} {s : Session} {t : TypeExpr} {e : CompileFault}
    (h : Explained defs s t.core e) : Explained defs s t e := by
  have hcc : t.core.core = t.core := by rw [TypeExpr.core, t.core_core]
  obtain ⟨u, f, hl, hr, he⟩ := h
  cases hl with
  | here =>
    rw [hcc] at hr
    exact ⟨t, f, .here t, hr, he⟩
  | part hp hl =>
    rw [hcc] at hp
    exact ⟨u, f, .part hp hl, hr, he⟩
  | field hb hc hf hl =>
    rw [hcc] at hb hc
    exact ⟨u, f, .field hb hc hf hl, hr, he⟩

/-! ## Room -/

/-- The descents that the fields of an object class may take together. -/
def ObjectClass.weight (c : ObjectClass) : Nat :=
  (c.fields.map fun f => 2 * f.2.size).sum

/-- The descents that the fields of a class may take together. -/
def ClassBody.weight : ClassBody → Nat
  | .object c => c.weight
  | _ => 0

/-- The descents that the classes without a descriptor may take together. -/
def Definitions.unseen (defs : Definitions) (s : Session) : Nat :=
  ((defs.classes.filter fun e => (s.cached? (.declared e.1)).isNone).map (·.2.weight)).sum

/-- The descents to parts that an expression may take. -/
def TypeExpr.need : TypeExpr → Nat
  | .atom (.builtin .anything) => 1
  | t => 2 * t.size

theorem TypeExpr.need_pos (t : TypeExpr) : 0 < t.need := by
  have := t.size_pos
  unfold TypeExpr.need
  split <;> omega

theorem TypeExpr.need_le (t : TypeExpr) : t.need ≤ 2 * t.size := by
  have := t.size_pos
  unfold TypeExpr.need
  split <;> omega

theorem TypeExpr.need_part {defs : Definitions} {t e : TypeExpr}
    (h : (t.core.base defs).part? = some e) : e.need + 1 ≤ t.need := by
  have ht : t.need = 2 * t.size := by
    unfold TypeExpr.need
    split
    · simp [TypeExpr.core, TypeExpr.peel, TypeExpr.base, Builtin.base, Base.part?] at h
    · rfl
  have hc := t.core_size_le
  have hp := t.core.size_pos
  rcases TypeExpr.base_part_size h with rfl | hlt
  · have hn : TypeExpr.anything.need = 1 := rfl
    omega
  · have := e.need_le
    omega

theorem sum_filter_le {α : Type} (l : List α) (w : α → Nat) {p q : α → Bool}
    (h : ∀ x, q x = true → p x = true) :
    ((l.filter q).map w).sum ≤ ((l.filter p).map w).sum :=
  ((List.monotone_filter_right l h).map w).sum_le_sum (by simp)

theorem sum_filter_lt {α : Type} (l : List α) (w : α → Nat) {p q : α → Bool}
    (h : ∀ x, q x = true → p x = true) {x : α} (hx : x ∈ l) (hp : p x = true) (hq : q x = false) :
    ((l.filter q).map w).sum + w x ≤ ((l.filter p).map w).sum := by
  induction l with
  | nil => simp at hx
  | cons y rest ih =>
    rcases List.mem_cons.mp hx with rfl | hx
    · have := sum_filter_le rest w h
      simp [hp, hq]
      omega
    · have := ih hx
      by_cases hqy : q y = true
      · simp [hqy, h y hqy]
        omega
      · by_cases hpy : p y = true
        · simp [hqy, hpy]
          omega
        · simp [hqy, hpy]
          exact this

theorem Definitions.unseen_le {defs : Definitions} {s s' : Session} {free : Option Address}
    (h : s.Extends free s') : defs.unseen s' ≤ defs.unseen s := by
  refine sum_filter_le _ _ fun e he => ?_
  cases hn : s.cached? (.declared e.1) with
  | none => rfl
  | some a =>
    have := h.cached _ (by rw [hn]; rfl)
    simp [Option.isNone_iff_eq_none.mp he] at this

theorem Definitions.mem_of_find? {defs : Definitions} {name : String} {body : ClassBody}
    (h : defs.find? name = some body) : (name, body) ∈ defs.classes := by
  obtain ⟨l₁, l₂, hl, -⟩ := List.lookup_eq_some_iff.mp h
  simp [hl]

/-- A class that gets a descriptor takes its fields' descents out of the count. -/
theorem Definitions.unseen_lt {defs : Definitions} {s s' : Session} {free : Option Address}
    {name : String} {c : ObjectClass} (h : s.Extends free s')
    (hf : defs.find? name = some (.object c)) (hn : s.cached? (.declared name) = none)
    (hs : (s'.cached? (.declared name)).isSome) : defs.unseen s' + c.weight ≤ defs.unseen s := by
  refine sum_filter_lt _ (fun e : String × ClassBody => e.2.weight) ?_ (mem_of_find? hf)
    (by simp [hn]) (by simpa using hs)
  intro e he
  cases hn : s.cached? (.declared e.1) with
  | none => rfl
  | some a =>
    have := h.cached _ (by rw [hn]; rfl)
    simp [Option.isNone_iff_eq_none.mp he] at this

theorem ObjectClass.size_le_weight {c : ObjectClass} {name : String} {t : TypeExpr}
    (h : (name, t) ∈ c.fields) : 2 * t.size ≤ c.weight := by
  unfold ObjectClass.weight
  exact List.single_le_sum (by simp) _ (List.mem_map.mpr ⟨(name, t), h, rfl⟩)

theorem Definitions.weights_le (defs : Definitions) :
    (defs.classes.map (·.2.weight)).sum
      = ((defs.objects.flatMap (·.fields)).map fun f => 2 * f.2.size).sum := by
  unfold Definitions.objects
  induction defs.classes with
  | nil => rfl
  | cons e rest ih =>
    obtain ⟨name, body⟩ := e
    cases body <;> simp_all [ClassBody.weight, ObjectClass.weight]

theorem Definitions.need_le_room (defs : Definitions) (t : TypeExpr) (s : Session) :
    t.need + defs.unseen s ≤ defs.room t := by
  have hu : defs.unseen s ≤ (defs.classes.map (·.2.weight)).sum := by
    have h := sum_filter_le defs.classes (·.2.weight)
      (p := fun _ => true) (q := fun e => (s.cached? (.declared e.1)).isNone) (fun _ _ => rfl)
    rw [List.filter_true] at h
    exact h
  have hn := t.need_le
  rw [defs.weights_le] at hu
  simp only [Definitions.room, ← List.sum_eq_foldr]
  omega

/-! ## Every fault is explained -/

/-- Every fault of a description by `D` is explained, if the description needs no more than so much
room. -/
def Describe.Explains (defs : Definitions) (room : Nat) (D : Describe) : Prop :=
  ∀ {s s' : Session} {t known e}, (∀ an ∈ known, t.Analysed defs an) →
    t.need + defs.unseen s ≤ room → s.run (D t known) = (.error e, s') → Explained defs s t e

section Explains

variable {defs : Definitions} {D : Describe} {room : Nat} {s s' : Session} {t : TypeExpr}
  {e : CompileFault}

theorem walkFields_explained (hD : D.Explains defs room) (hg : D.Grows) (b : Address)
    {fields : List (String × TypeExpr)} {s : Session}
    (hroom : ∀ f ∈ fields, 2 * f.2.size + defs.unseen s ≤ room)
    (h : s.run (walkFields defs D b fields) = (.error e, s')) :
    ∃ f ∈ fields, Explained defs s f.2 e := by
  induction fields generalizing s with
  | nil => cases h
  | cons f rest ih =>
    obtain ⟨name, t⟩ := f
    generalize hr : s.run (walkFields defs D b ((name, t) :: rest)) = r at h
    have hcase := walkFields_run defs D s b name t rest
    rw [hr] at hcase
    cases hcase with
    | @failed an s₁ e' s₂ ha hd =>
      cases h
      have hx : s.Extends none s₁ := .of_sameWork ha.sameWork
      have hn : 2 * t.size + defs.unseen s ≤ room := hroom (name, t) (by simp)
      have := t.need_le
      have := defs.unseen_le hx
      exact ⟨(name, t), by simp, (hD ha.analysed_known (by omega) hd).mono hx⟩
    | @entered an s₁ a s₂ ha hd =>
      have hx₁ : s.Extends (some b) s₁ := .of_sameWork ha.sameWork
      have hx := (hx₁.trans (hg.of_run hd).loosen).trans
        (.withBodyChanged _ b (·.enter name a an.optional))
      have hle := defs.unseen_le hx
      obtain ⟨f, hf, hex⟩ := ih (fun f hf => by
        have := hroom f (by simp [hf])
        omega) h
      exact ⟨f, by simp [hf], hex.mono hx⟩

theorem describeObject_explained (hD : D.Explains defs room) (hg : D.Grows) {name : String}
    {c : ObjectClass} (hf : defs.find? name = some (.object c)) (hroom : defs.unseen s ≤ room)
    (h : s.run (describeObject defs D (.declared name) c) = (.error e, s')) :
    Explained defs s (.declared name) e := by
  generalize hr : s.run (describeObject defs D (.declared name) c) = r at h
  have hcase := describeObject_run defs D s (.declared name) c
  rw [hr] at hcase
  cases hcase with
  | kept _ => cases h
  | walked _ _ => cases h
  | failed hn hw =>
    cases h
    have hx := Session.Extends.withObject s (.declared name) c
    have hlt := defs.unseen_lt hx hf hn (Session.withObject_cached s rfl c)
    obtain ⟨⟨n, v⟩, hmem, u, g, hl, hrf, he⟩ := walkFields_explained hD hg _ (fun f hf' => by
      have : 2 * f.2.size ≤ c.weight := ObjectClass.size_le_weight hf'
      omega) hw
    refine ⟨u, g, .field ?_ hn hmem (hl.mono hx), hrf, he⟩
    exact TypeExpr.base_declared hf

theorem describeInner_explained (hD : D.Explains defs room) (hg : D.Grows) {an : Analysis}
    (ha : t.Analysed defs an) (hroom : t.need + defs.unseen s ≤ room + 1)
    (h : s.run (describeInner defs D an) = (.error e, s')) : Explained defs s t e := by
  obtain ⟨d, -, rfl⟩ := ha
  rw [TypeExpr.analysisWith_eq] at h
  generalize hr : s.run (describeInner defs D _) = r at h
  have hcase := describeInner_run defs D s
    ⟨t.core, t.core.base defs, t.allowsAbsence, t.allowsNull, d, t.describedBy defs,
      t.layerConstraints⟩
  rw [hr] at hcase
  have := t.need_pos
  cases hcase with
  | object hb =>
    obtain ⟨name, hname, hf⟩ := TypeExpr.base_object hb
    simp only [hname] at h
    refine .of_core ?_
    rw [hname]
    exact describeObject_explained hD hg hf (by omega) h
  | kept _ _ _ => cases h
  | made _ _ _ _ => cases h
  | failed _ _ hp =>
    cases h
    cases hp with
    | part hpart hd =>
      have := TypeExpr.need_part hpart
      obtain ⟨u, f, hl, hrf, he⟩ := hD (by simp) (by omega) hd
      exact ⟨u, f, .part hpart hl, hrf, he⟩
  | refused _ _ _ hrec =>
    cases h
    obtain ⟨f, hf, he⟩ := Base.recordOf_error.mp hrec
    exact ⟨t, f, .here t, hf, he⟩

theorem describeStep_explained (hD : D.Explains defs room) (hg : D.Grows) :
    Describe.Explains defs (room + 1) (describeStep defs D) := by
  intro s s' t known e hk hroom h
  generalize hr : s.run (describeStep defs D t known) = r at h
  have hcase := describeStep_run defs D s t known
  rw [hr] at hcase
  cases hcase with
  | kept _ => cases h
  | bare _ _ _ _ => cases h
  | decorated _ _ _ _ _ => cases h
  | failed _ ha hi =>
    cases h
    have hx : s.Extends none _ := .of_sameWork ha.sameWork
    have := defs.unseen_le hx
    exact (describeInner_explained hD hg (ha.analysed hk) (by omega) hi).mono hx

theorem describeWithin_explained (defs : Definitions) (room : Nat) :
    Describe.Explains defs room (describeWithin defs room) := by
  induction room with
  | zero =>
    intro s s' t known e hk hroom h
    have := t.need_pos
    omega
  | succ room ih => exact describeStep_explained ih (describeWithin_extends defs room)

end Explains

/-- A field's type that cannot be described leads to a member without data. -/
theorem describe_explained {defs : Definitions} {s s' : Session} {t : TypeExpr} {e : CompileFault}
    (h : s.run (describe defs t) = (.error e, s')) : Explained defs s t e :=
  describeWithin_explained defs _ (by simp) (defs.need_le_room t s) h

/-- Parameters that cannot be described lead to a member without data. -/
theorem describeParameters_explained {defs : Definitions} {s s' : Session} {t : TypeExpr}
    {e : CompileFault} (h : s.run (describeParameters defs t) = (.error e, s')) :
    Explained defs s t e := by
  generalize hr : s.run (describeParameters defs t) = r at h
  have hcase := describeParameters_run defs s t
  rw [hr] at hcase
  cases hcase with
  | empty _ _ => cases h
  | object hb =>
    obtain ⟨name, rfl, hf⟩ := TypeExpr.base_object hb
    have := defs.need_le_room (.declared name) s
    exact describeObject_explained (describeWithin_explained defs _)
      (describeWithin_extends defs _) hf (by omega) h

end ToolCatalog
