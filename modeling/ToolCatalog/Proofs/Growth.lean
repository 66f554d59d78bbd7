import ToolCatalog.Proofs.Runs

/-!
What a session holds is never taken back.

Records stay as they are, expressions stay remembered, and a body changes only while the fields of
its own class are walked. `Session.Extends` says so for two sessions, and every run of the compiler
ends in a session that extends the one it started from, whether it succeeds or not.
-/
namespace ToolCatalog

theorem Memo.get?_insert_self {σ α : Type} [DecidableEq σ] (m : Memo σ α) (o : Occupant σ) (v : α) :
    (m.insert o v).get? o = some v := by
  have hn : (m.entries.filter (·.slot ≠ o.slot)).find? (·.slot = o.slot) = none := by
    simp [List.find?_eq_none]
  simp only [Memo.get?, Memo.insert, List.find?_append, hn]
  simp

theorem Memo.get?_insert_ne {σ α : Type} [DecidableEq σ] (m : Memo σ α) {o p : Occupant σ} (v : α)
    (h : o.slot ≠ p.slot) : (m.insert o v).get? p = m.get? p := by
  have hf : (m.entries.filter (·.slot ≠ o.slot)).find? (·.slot = p.slot)
      = m.entries.find? (·.slot = p.slot) := by
    rw [List.find?_filter]
    congr 1
    funext e
    by_cases he : e.slot = p.slot
    · simp [he, Ne.symm h]
    · simp [he]
  simp only [Memo.get?, Memo.insert, List.find?_append, hf]
  simp [h]

namespace Session

variable {s s' s₁ s₂ : Session} {t u : TypeExpr} {a : Address}

theorem cached?_remember_self (s : Session) (a : Address) (h : t.watchable = true) :
    (s.remember t a).cached? t = some a := by
  simp [cached?, remember, h, Memo.get?_insert_self]

theorem cached?_remember_ne (s : Session) (a : Address) (h : t.key ≠ u.key) :
    (s.remember t a).cached? u = s.cached? u := by
  unfold cached? remember
  split
  · cases t.watchable with
    | true => exact Memo.get?_insert_ne _ _ h
    | false => rfl
  · rfl

theorem cached?_congr (s : Session) (ht : t.watchable = u.watchable) (h : t.key = u.key) :
    s.cached? t = s.cached? u := by
  simp [cached?, occupant, ht, h]

/-- What a look-up finds after something has been remembered: that, or what it found before. -/
theorem cached?_remember (s : Session) (t u : TypeExpr) (a : Address) :
    (t.key = u.key ∧ t.watchable = true ∧ u.watchable = true ∧
        (s.remember t a).cached? u = some a) ∨
      (s.remember t a).cached? u = s.cached? u := by
  by_cases hu : u.watchable = true
  · by_cases hk : t.key = u.key
    · by_cases ht : t.watchable = true
      · refine .inl ⟨hk, ht, hu, ?_⟩
        rw [← cached?_congr _ (ht.trans hu.symm) hk]
        exact cached?_remember_self s a ht
      · exact .inr (by simp [remember, ht])
    · exact .inr (cached?_remember_ne s a hk)
  · exact .inr (by simp [cached?, hu])

@[simp] theorem remember_graph (s : Session) (t : TypeExpr) (a : Address) :
    (s.remember t a).graph = s.graph := by
  unfold remember
  split <;> rfl

theorem withObject_cached (s : Session) (h : t.watchable = true) (c : ObjectClass) :
    ((s.withObject t c).cached? t).isSome := by
  have hr := cached?_remember_self (s.withBody.withRecord (objectRecord c s.graph.bodies.size))
    s.graph.records.size h
  unfold withObject
  cases c.unknownName with
  | none => simp [hr]
  | some name => simp [(SameWork.report _ _).cached?, hr]

/-- All records, all bodies but one that is free to change, and all remembering is kept. -/
structure Extends (free : Option Address) (s s' : Session) : Prop where
  record : ∀ (a : Address) (r : Record), s.graph.records[a]? = some r →
    s'.graph.records[a]? = some r
  body : ∀ (b : Address) (x : Body), s.graph.bodies[b]? = some x → free ≠ some b →
    s'.graph.bodies[b]? = some x
  cached : ∀ t : TypeExpr, (s.cached? t).isSome → (s'.cached? t).isSome

namespace Extends

theorem refl (free : Option Address) (s : Session) : Extends free s s :=
  ⟨fun _ _ h => h, fun _ _ h _ => h, fun _ h => h⟩

theorem trans {free : Option Address} (h : Extends free s s₁) (h' : Extends free s₁ s') :
    Extends free s s' :=
  ⟨fun a r hr => h'.record a r (h.record a r hr),
    fun b x hx hf => h'.body b x (h.body b x hx hf) hf,
    fun t ht => h'.cached t (h.cached t ht)⟩

theorem loosen {free : Option Address} (h : Extends none s s') : Extends free s s' :=
  ⟨h.record, fun b x hx _ => h.body b x hx (by simp), h.cached⟩

/-- A body that is not there yet need not be excepted. -/
theorem tighten {b : Address} (h : Extends (some b) s s') (hb : s.graph.bodies[b]? = none) :
    Extends none s s' := by
  refine ⟨h.record, fun b' x hx _ => h.body b' x hx ?_, h.cached⟩
  intro he
  cases he
  rw [hb] at hx
  cases hx

theorem of_sameWork {free : Option Address} (h : s.SameWork s') : Extends free s s' := by
  refine ⟨fun a r hr => ?_, fun b x hx _ => ?_, fun t ht => ?_⟩
  · rw [h.graph]
    exact hr
  · rw [h.graph]
    exact hx
  · rw [h.cached?]
    exact ht

theorem withRecord (s : Session) (r : Record) : Extends none s (s.withRecord r) := by
  refine ⟨fun a x hx => ?_, fun b x hx _ => hx, fun t ht => ht⟩
  have ha : a < s.graph.records.size := (Array.getElem?_eq_some_iff.mp hx).1
  simpa [Session.withRecord, Graph.addRecord, Array.getElem?_push, Nat.ne_of_lt ha] using hx

theorem withBody (s : Session) : Extends none s s.withBody := by
  refine ⟨fun a x hx => hx, fun b x hx _ => ?_, fun t ht => ht⟩
  have hb : b < s.graph.bodies.size := (Array.getElem?_eq_some_iff.mp hx).1
  simpa [Session.withBody, Graph.addBody, Array.getElem?_push, Nat.ne_of_lt hb] using hx

theorem withBodyChanged (s : Session) (b : Address) (f : Body → Body) :
    Extends (some b) s (s.withBodyChanged b f) := by
  refine ⟨fun a x hx => hx, fun b' x hx hf => ?_, fun t ht => ht⟩
  have hne : b ≠ b' := fun h => hf (by rw [h])
  simpa [Session.withBodyChanged, Graph.modifyBody, Array.getElem?_modify, hne] using hx

theorem remember (s : Session) (t : TypeExpr) (a : Address) : Extends none s (s.remember t a) := by
  refine ⟨fun a' x hx => by simpa using hx, fun b x hx _ => by simpa using hx, fun u hu => ?_⟩
  rcases s.cached?_remember t u a with ⟨-, -, -, h⟩ | h
  · simp [h]
  · rwa [h]

theorem withObject (s : Session) (t : TypeExpr) (c : ObjectClass) :
    Extends none s (s.withObject t c) := by
  have h : Extends none s ((s.withBody.withRecord (objectRecord c s.graph.bodies.size)).remember t
      s.graph.records.size) :=
    ((withBody s).trans (withRecord _ _)).trans (remember _ _ _)
  unfold Session.withObject
  cases c.unknownName with
  | none => exact h
  | some name => exact h.trans (of_sameWork (.report _ _))

end Extends

end Session

/-! ## Runs of the compiler -/

/-- Every description by `D` extends the session it starts from. -/
def Describe.Grows (D : Describe) : Prop :=
  ∀ (s : Session) t known, s.Extends none (s.run (D t known)).2

theorem Describe.Grows.of_run {D : Describe} (hD : D.Grows) {s s' : Session} {t known r}
    (h : s.run (D t known) = (r, s')) : s.Extends none s' := by
  have hs := hD s t known
  rwa [h] at hs

section Grows

variable {defs : Definitions} {D : Describe}

theorem walkFields_extends (hD : D.Grows) (b : Address) (fields : List (String × TypeExpr))
    (s : Session) : s.Extends (some b) (s.run (walkFields defs D b fields)).2 := by
  induction fields generalizing s with
  | nil => exact .refl _ s
  | cons f rest ih =>
    obtain ⟨name, t⟩ := f
    generalize hr : s.run (walkFields defs D b ((name, t) :: rest)) = r
    have h := walkFields_run defs D s b name t rest
    rw [hr] at h
    cases h with
    | failed ha hd =>
      exact (Session.Extends.of_sameWork ha.sameWork).trans (hD.of_run hd).loosen
    | entered ha hd =>
      exact (((Session.Extends.of_sameWork ha.sameWork).trans (hD.of_run hd).loosen).trans
        (.withBodyChanged _ b _)).trans (ih _)

theorem describeObject_extends (hD : D.Grows) (t : TypeExpr) (c : ObjectClass) (s : Session) :
    s.Extends none (s.run (describeObject defs D t c)).2 := by
  have hw : (s.withObject t c).Extends (some s.graph.bodies.size) ((s.withObject t c).run
      (walkFields defs D s.graph.bodies.size c.fields)).2 := walkFields_extends hD _ _ _
  have hall : s.Extends none ((s.withObject t c).run
      (walkFields defs D s.graph.bodies.size c.fields)).2 :=
    ((Session.Extends.withObject s t c).loosen.trans hw).tighten (by simp)
  generalize hr : s.run (describeObject defs D t c) = r
  have h := describeObject_run defs D s t c
  rw [hr] at h
  cases h with
  | kept _ => exact .refl _ s
  | failed _ hf =>
    rw [hf] at hall
    exact hall
  | walked _ hf =>
    rw [hf] at hall
    exact hall

theorem PartRun.extends {s s' : Session} {base : Base} {r : Except CompileFault Address}
    (h : PartRun D s base r s') (hD : D.Grows) : s.Extends none s' := by
  cases h with
  | part hp hd => exact hD.of_run hd
  | simple _ hs => exact .of_sameWork hs

theorem describeInner_extends (hD : D.Grows) (an : Analysis) (s : Session) :
    s.Extends none (s.run (describeInner defs D an)).2 := by
  generalize hr : s.run (describeInner defs D an) = r
  have h := describeInner_run defs D s an
  rw [hr] at h
  cases h with
  | object hb => exact describeObject_extends hD _ _ s
  | kept _ _ _ => exact .refl _ s
  | failed _ _ hp => exact hp.extends hD
  | refused _ _ hp _ => exact hp.extends hD
  | @made p r s' _ _ hp _ =>
    have hs := (hp.extends hD).trans (.withRecord s' r)
    split
    · exact hs.trans (.remember _ _ _)
    · exact hs

theorem describeInner_extends_of_run (hD : D.Grows) {an : Analysis} {s s' : Session} {r}
    (h : s.run (describeInner defs D an) = (r, s')) : s.Extends none s' := by
  have hs : s.Extends none (s.run (describeInner defs D an)).2 := describeInner_extends hD an s
  rwa [h] at hs

theorem describeStep_extends (hD : D.Grows) : Describe.Grows (describeStep defs D) := by
  intro s t known
  generalize hr : s.run (describeStep defs D t known) = r
  have h := describeStep_run defs D s t known
  rw [hr] at h
  cases h with
  | kept _ => exact .refl _ s
  | failed _ ha hi =>
    have hs := describeInner_extends_of_run hD hi
    exact (Session.Extends.of_sameWork ha.sameWork).trans hs
  | bare _ ha hi _ =>
    have hs := describeInner_extends_of_run hD hi
    exact ((Session.Extends.of_sameWork ha.sameWork).trans hs).trans (.remember _ _ _)
  | decorated _ ha hi _ hw =>
    have hs := describeInner_extends_of_run hD hi
    exact ((((Session.Extends.of_sameWork ha.sameWork).trans hs).trans (.of_sameWork hw)).trans
      (.withRecord _ _)).trans (.remember _ _ _)

theorem describeWithin_extends (defs : Definitions) (room : Nat) :
    Describe.Grows (describeWithin defs room) := by
  induction room with
  | zero => exact fun s _ _ => .refl _ s
  | succ room ih => exact describeStep_extends ih

theorem describeParameters_extends (defs : Definitions) (t : TypeExpr) (s : Session) :
    s.Extends none (s.run (describeParameters defs t)).2 := by
  generalize hr : s.run (describeParameters defs t) = r
  have h := describeParameters_run defs s t
  rw [hr] at h
  cases h with
  | object _ => exact describeObject_extends (describeWithin_extends defs _) _ _ s
  | empty _ hs =>
    exact ((Session.Extends.of_sameWork hs).trans (.withBody _)).trans (.withRecord _ _)

end Grows

end ToolCatalog
