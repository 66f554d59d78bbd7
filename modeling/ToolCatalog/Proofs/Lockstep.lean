import ToolCatalog.Proofs.Jobs
import ToolCatalog.Proofs.Sharing
import ToolCatalog.Proofs.Varying

/-!
Two runs that differ in the defaults.

The same calls are made with the same definitions under two variations. At every step the two
sessions remember the same addresses and have the same bodies, and their records differ in the
default keyword at most; so both runs look up, enter and give up at the same places.
-/
namespace ToolCatalog

/-- Expressions closed under the parts and fields that are described for them. -/
structure Closed (defs : Definitions) (W : TypeExpr → Prop) : Prop where
  part : ∀ {t e}, W t → (t.core.base defs).part? = some e → W e
  field : ∀ {t c name u}, W t → t.core.base defs = .object c → (name, u) ∈ c.fields → W u

/-- The JSON data that was found. -/
def DefaultOutcome.data? : DefaultOutcome → Option Value
  | .ok x => some x
  | .error _ => none

/-- What a descriptor of an expression can show as the default: what its outermost default comes to
in some session, if that is data. -/
def TypeExpr.MayShow (t : TypeExpr) (x : Option Value) : Prop :=
  ∃ o, t.MayFind o ∧ x = o.bind DefaultOutcome.data?

/-- What two descriptors show as the default: each what its own variation of one expression comes
to; or both show nothing. Which expression it is at a position of a schema, `Schema.Tells` says. -/
def Shown (W : TypeExpr → Prop) (v v' : Variation) (x x' : Option Value) : Prop :=
  x = none ∧ x' = none ∨ ∃ t : TypeExpr, W t ∧ (t.varied v).MayShow x ∧ (t.varied v').MayShow x'

/-- Two analyses of one expression under two variations. -/
def Analysis.Varies (defs : Definitions) (W : TypeExpr → Prop) (v v' : Variation)
    (an an' : Analysis) : Prop :=
  ∃ t : TypeExpr, W t ∧ (t.varied v).Analysed (defs.varied v) an ∧
    (t.varied v').Analysed (defs.varied v') an'

/-- Two records that differ at most in the default, of which each shows its own. -/
structure Record.Varies (W : TypeExpr → Prop) (v v' : Variation) (r r' : Record) : Prop where
  rest : Entries.remove "default" r = Entries.remove "default" r'
  shown : Shown W v v' (r.data? "default") (r'.data? "default")

/-- Two sessions that differ at most in defaults. -/
structure Session.Varies (W : TypeExpr → Prop) (v v' : Variation) (s s' : Session) : Prop where
  memo : s'.memo = s.memo
  bodies : s'.graph.bodies = s.graph.bodies
  records : List.Forall₂ (Record.Varies W v v') s.graph.records.toList s'.graph.records.toList

/-- One field under two variations. -/
def FieldVaries (W : TypeExpr → Prop) (v v' : Variation) (f f' : String × TypeExpr) : Prop :=
  f.1 = f'.1 ∧ ∃ t : TypeExpr, W t ∧ f.2 = t.varied v ∧ f'.2 = t.varied v'

/-- A call with other defaults. -/
def Call.varied (v : Variation) : Call → Call
  | .describe t => .describe (t.varied v)
  | .compile t => .compile (t.varied v)

/-- One task under two variations. -/
inductive Task.Varies (defs : Definitions) (W : TypeExpr → Prop) (v v' : Variation) :
    Task → Task → Prop
  | field {t} (ht : W t) {known known'}
      (h : Option.Rel (Analysis.Varies defs W v v') known known') :
      Varies defs W v v' (.field (t.varied v) known) (.field (t.varied v') known')
  | inner {an an'} (h : an.Varies defs W v v' an') : Varies defs W v v' (.inner an) (.inner an')
  | object (name : String) {c : ObjectClass} (hc : ∀ f ∈ c.fields, W f.2) :
      Varies defs W v v' (.object name (c.varied v)) (.object name (c.varied v'))
  | walk (body : Address) {fields fields'}
      (h : List.Forall₂ (FieldVaries W v v') fields fields') :
      Varies defs W v v' (.walk body fields) (.walk body fields')

variable {v v' : Variation} {defs : Definitions} {W : TypeExpr → Prop} {s s' : Session}
  {t : TypeExpr} {an an' : Analysis} {r r' : Record} {a b : Address}

/-! ## Expressions -/

/-- The expressions that are met from some expressions are closed. -/
theorem Closed.meets (defs : Definitions) (ts : List TypeExpr) :
    Closed defs fun u => ∃ t ∈ ts, t.Meets defs u := by
  have hstep {t u w : TypeExpr} (h : t.Meets defs u) (hw : u.Meets defs w) : t.Meets defs w := by
    induction h with
    | here => exact hw
    | part hp _ ih => exact .part hp (ih hw)
    | field hb hc hf _ ih => exact .field hb hc hf (ih hw)
  constructor
  · rintro u e ⟨t, ht, hu⟩ hp
    exact ⟨t, ht, hstep hu (.part hp (.here e))⟩
  · rintro u c name w ⟨t, ht, hu⟩ hb hf
    exact ⟨t, ht, hstep hu (.field hb (Session.cached?_fresh false _) hf (.here w))⟩

/-- Two variations leave a default in the same places. -/
theorem TypeExpr.MayFind.isSome_eq {x x' : Option DefaultOutcome} (h : (t.varied v).MayFind x)
    (h' : (t.varied v').MayFind x') : x.isSome = x'.isSome := by
  obtain ⟨s, rfl⟩ := h
  obtain ⟨s', rfl⟩ := h'
  unfold findDefault
  rcases t.defaultSource_varied v v' with ⟨h, h'⟩ | ⟨i, d, h, h'⟩ <;> rw [h, h'] <;> rfl

/-! ## Records -/

namespace Entries

variable {α : Type}

theorem remove_cons (k l : String) (x : α) (m : Entries α) :
    remove k ((l, x) :: m) = if l = k then remove k m else (l, x) :: remove k m := by
  unfold remove
  by_cases h : l = k <;> simp [h]

theorem remove_put_self (k : String) (x : α) (m : Entries α) :
    remove k (put k x m) = remove k m := by
  induction m with
  | nil => simp [put, remove]
  | cons e rest ih =>
    obtain ⟨l, y⟩ := e
    rw [put, remove_cons]
    by_cases h : l = k
    · rw [if_pos h, if_pos h, remove_cons, if_pos h]
    · rw [if_neg h, if_neg h, remove_cons, if_neg h, ih]

theorem remove_put_ne {k l : String} (x : α) (m : Entries α) (h : l ≠ k) :
    remove k (put l x m) = put l x (remove k m) := by
  induction m with
  | nil => simp [put, remove, h]
  | cons e rest ih =>
    obtain ⟨i, y⟩ := e
    rw [put, remove_cons]
    by_cases hl : i = l
    · have hk : i ≠ k := hl ▸ h
      rw [if_pos hl, if_neg hk, remove_cons, if_neg hk, put, if_pos hl]
    · rw [if_neg hl, remove_cons, ih]
      by_cases hk : i = k
      · rw [if_pos hk, if_pos hk]
      · rw [if_neg hk, if_neg hk, put, if_neg hl]

/-- Removing a key that there is not changes nothing. -/
theorem remove_of_lookup {k : String} {m : Entries α} (h : m.lookup k = none) :
    remove k m = m := by
  refine List.filter_eq_self.mpr fun e he => decide_eq_true fun hk => ?_
  have hne := List.lookup_eq_none_iff.mp h e he
  simp [hk] at hne

end Entries

/-- Writing keywords and removing one come to the same in either order. -/
theorem Record.remove_putAll (k : String) (r : Record) (xs : List (String × Value)) :
    Entries.remove k (r.putAll xs) = Record.putAll (Entries.remove k r) (Entries.remove k xs) := by
  induction xs generalizing r with
  | nil => rfl
  | cons x rest ih =>
    obtain ⟨l, w⟩ := x
    rw [Entries.remove_cons]
    calc Entries.remove k (r.putAll ((l, w) :: rest))
        = Entries.remove k (Record.putAll (r.put l (.data w)) rest) := rfl
      _ = Record.putAll (Entries.remove k (r.put l (.data w))) (Entries.remove k rest) := ih _
      _ = _ := by
        by_cases h : l = k
        · rw [if_pos h, h, Entries.remove_put_self]
        · rw [if_neg h, Entries.remove_put_ne _ _ h]
          rfl

namespace Record.Varies

/-- A record without a default. -/
theorem of_none (h : r.lookup "default" = none) : Record.Varies W v v' r r := by
  have hdata : r.data? "default" = none := by rw [Record.data?, h]
  exact ⟨rfl, .inl ⟨hdata, hdata⟩⟩

/-- Two records without a default are one. -/
theorem eq_of_none (h : Record.Varies W v v' r r') (hr : r.lookup "default" = none)
    (hr' : r'.lookup "default" = none) : r' = r := by
  have hrest := h.rest
  rw [Entries.remove_of_lookup hr, Entries.remove_of_lookup hr'] at hrest
  exact hrest.symm

end Record.Varies

namespace Analysis

theorem default?_eq (an : Analysis) : an.default? = an.default.bind DefaultOutcome.data? := by
  unfold default?
  rcases an.default with _ | _ | _ <;> rfl

/-- The layers write the default that was found, if it is data. -/
theorem data?_decorate (an : Analysis) (hr : r.lookup "default" = none) :
    Record.data? (an.decorate r) "default" = an.default.bind DefaultOutcome.data? := by
  rw [Record.data?, ← default?_eq]
  unfold decorate
  cases an.description <;> cases an.default? <;> cases an.nullable <;> cases an.optional <;>
    simp [Entries.lookup_put_self, Entries.lookup_put_ne, hr]

end Analysis

namespace Analysis.Varies

theorem optional_eq (h : an.Varies defs W v v' an') : an.optional = an'.optional := by
  obtain ⟨t, -, ⟨d, -, rfl⟩, d', -, rfl⟩ := h
  exact t.allowsAbsence_varied v v'

theorem nullable_eq (h : an.Varies defs W v v' an') : an.nullable = an'.nullable := by
  obtain ⟨t, -, ⟨d, -, rfl⟩, d', -, rfl⟩ := h
  exact t.allowsNull_varied v v'

theorem description_eq (h : an.Varies defs W v v' an') : an.description = an'.description := by
  obtain ⟨t, -, ⟨d, -, rfl⟩, d', -, rfl⟩ := h
  exact t.describedBy_varied v v' defs

theorem constraints_eq (h : an.Varies defs W v v' an') : an.constraints = an'.constraints := by
  obtain ⟨t, -, ⟨d, -, rfl⟩, d', -, rfl⟩ := h
  exact t.layerConstraints_varied v v'

/-- What stands under the layers. -/
theorem core (h : an.Varies defs W v v' an') :
    ∃ t : TypeExpr, W t ∧ an.inner = t.core.varied v ∧ an'.inner = t.core.varied v' ∧
      an.base = (t.core.base defs).varied v ∧ an'.base = (t.core.base defs).varied v' := by
  obtain ⟨t, ht, ⟨d, -, rfl⟩, d', -, rfl⟩ := h
  have hbase (v : Variation) :
      (t.varied v).core.base (defs.varied v) = (t.core.base defs).varied v := by
    rw [TypeExpr.core_varied, TypeExpr.base_varied]
  exact ⟨t, ht, t.core_varied v, t.core_varied v', hbase v, hbase v'⟩

/-- The layers add something with either defaults, or with neither. -/
theorem adds_eq (h : an.Varies defs W v v' an') (r : Record) : an.adds r = an'.adds r := by
  have hdefault : an.default.isSome = an'.default.isSome := by
    obtain ⟨t, -, ⟨d, hd, rfl⟩, d', hd', rfl⟩ := h
    exact hd.isSome_eq hd'
  rw [adds, adds, h.optional_eq, h.nullable_eq, hdefault, h.description_eq]

/-- What the layers add to a record differs in the default. -/
theorem decorate (h : an.Varies defs W v v' an') (hr : r.lookup "default" = none) :
    Record.Varies W v v' (an.decorate r) (an'.decorate r) where
  rest := by
    have hadditions (an : Analysis) (ty : Option Value) :
        Entries.remove "default" (an.additions ty)
          = { an with default := none }.additions ty := by
      unfold additions
      cases an.description <;> cases an.default? <;> cases an.nullable <;> cases an.optional <;>
        simp [Entries.remove, default?]
    rw [decorate_eq, decorate_eq, Record.remove_putAll, Record.remove_putAll, hadditions,
      hadditions]
    simp only [additions, h.description_eq, h.nullable_eq, h.optional_eq, default?]
  shown := by
    rw [data?_decorate _ hr, data?_decorate _ hr]
    obtain ⟨t, ht, ⟨d, hd, rfl⟩, d', hd', rfl⟩ := h
    exact .inr ⟨t, ht, ⟨d, hd, rfl⟩, d', hd', rfl⟩

end Analysis.Varies

/-- What stands under layers has no default. -/
theorem Stands.lookup_default {a : Address} (h : Stands defs s t a r) :
    r.lookup "default" = none := by
  cases h with
  | @object c b _ _ _ =>
    unfold objectRecord
    cases nonEmpty? c.doc <;> rfl
  | value _ _ hrec _ => exact Base.recordOf_lookup (.inr (.inl rfl)) hrec

/-! ## Sessions -/

namespace Session.Varies

theorem cached?_eq (h : s.Varies W v v' s') (t : TypeExpr) :
    s'.cached? (t.varied v') = s.cached? (t.varied v) := by
  unfold cached? occupant
  rw [h.memo, TypeExpr.watchable_varied, TypeExpr.watchable_varied, TypeExpr.key_varied,
    TypeExpr.key_varied]

theorem records_size (h : s.Varies W v v' s') :
    s'.graph.records.size = s.graph.records.size :=
  h.records.length_eq.symm

/-- The records at one address. -/
theorem record (h : s.Varies W v v' s') (a : Address) :
    Record.Varies W v v' (s.graph.record a) (s'.graph.record a) := by
  by_cases ha : a < s.graph.records.size
  · have ha' : a < s'.graph.records.size := h.records_size ▸ ha
    have hget := h.records.get ha ha'
    simpa [Graph.record, ha, ha'] using hget
  · have ha' : ¬a < s'.graph.records.size := h.records_size ▸ ha
    rw [Graph.record_of_not_lt ha, Graph.record_of_not_lt ha']
    exact .of_none rfl

theorem fresh (observable observable' : Bool) :
    Session.Varies W v v' (.fresh observable) (.fresh observable') := by
  cases observable <;> cases observable' <;> exact ⟨rfl, rfl, .nil⟩

theorem of_sameWork {s₁ s₁' : Session} (h : s.Varies W v v' s') (hs : s.SameWork s₁)
    (hs' : s'.SameWork s₁') : s₁.Varies W v v' s₁' where
  memo := by rw [hs.memo, hs'.memo, h.memo]
  bodies := by rw [hs.graph, hs'.graph, h.bodies]
  records := by
    rw [hs.graph, hs'.graph]
    exact h.records

theorem withRecord (h : s.Varies W v v' s') (hr : r.Varies W v v' r') :
    (s.withRecord r).Varies W v v' (s'.withRecord r') where
  memo := h.memo
  bodies := h.bodies
  records := by
    show List.Forall₂ _ (s.graph.records.push r).toList (s'.graph.records.push r').toList
    rw [Array.toList_push, Array.toList_push]
    exact List.rel_append h.records (.cons hr .nil)

theorem withBody (h : s.Varies W v v' s') : s.withBody.Varies W v v' s'.withBody where
  memo := h.memo
  bodies := congrArg (·.push ⟨[], []⟩) h.bodies
  records := h.records

theorem withBodyChanged (h : s.Varies W v v' s') (b : Address) (f : Body → Body) :
    (s.withBodyChanged b f).Varies W v v' (s'.withBodyChanged b f) where
  memo := h.memo
  bodies := congrArg (·.modify b f) h.bodies
  records := h.records

theorem remember (h : s.Varies W v v' s') (t : TypeExpr) (a : Address) :
    (s.remember (t.varied v) a).Varies W v v' (s'.remember (t.varied v') a) := by
  unfold Session.remember occupant
  rw [TypeExpr.watchable_varied, TypeExpr.watchable_varied, TypeExpr.key_varied,
    TypeExpr.key_varied, h.memo]
  split
  · exact ⟨rfl, h.bodies, h.records⟩
  · exact h

theorem withObject (h : s.Varies W v v' s') (name : String) (c : ObjectClass) :
    (s.withObject (.declared name) (c.varied v)).Varies W v v'
      (s'.withObject (.declared name) (c.varied v')) := by
  have hrecord (b : Address) : objectRecord (c.varied v) b = objectRecord (c.varied v') b := rfl
  have hentered : ((s.withBody.withRecord (objectRecord (c.varied v) s.graph.bodies.size)).remember
      (.declared name) s.graph.records.size).Varies W v v'
        ((s'.withBody.withRecord (objectRecord (c.varied v') s'.graph.bodies.size)).remember
          (.declared name) s'.graph.records.size) := by
    rw [h.bodies, h.records_size, hrecord]
    refine (h.withBody.withRecord (.of_none ?_)).remember (.declared name) _
    unfold objectRecord
    cases nonEmpty? (c.varied v').doc <;> rfl
  refine hentered.of_sameWork ?_ ?_
  all_goals
    unfold Session.withObject ObjectClass.varied
    cases c.unknownName with
    | none => exact .refl _
    | some unknown => exact .report _ _

end Session.Varies

/-! ## Steps -/

namespace Analysis.Varies

theorem recordOf_eq (h : an.Varies defs W v v' an') (p : Address) :
    an'.base.recordOf an'.constraints p = an.base.recordOf an.constraints p := by
  obtain ⟨t, -, -, -, hb, hb'⟩ := h.core
  rw [hb, hb', h.constraints_eq, Base.recordOf_varied, Base.recordOf_varied]

theorem part?_eq (hW : Closed defs W) (h : an.Varies defs W v v' an') {e : TypeExpr}
    (hp : an.base.part? = some e) :
    ∃ t : TypeExpr, W t ∧ e = t.varied v ∧ an'.base.part? = some (t.varied v') := by
  obtain ⟨u, hu, -, -, hb, hb'⟩ := h.core
  rw [hb, Base.part?_varied] at hp
  obtain ⟨t, ht, rfl⟩ := Option.map_eq_some_iff.mp hp
  exact ⟨t, hW.part hu ht, rfl, by rw [hb', Base.part?_varied, ht]; rfl⟩

theorem part?_none (h : an.Varies defs W v v' an') (hp : an.base.part? = none) :
    an'.base.part? = none := by
  obtain ⟨t, -, -, -, hb, hb'⟩ := h.core
  rw [hb, Base.part?_varied, Option.map_eq_none_iff] at hp
  rw [hb', Base.part?_varied, hp]
  rfl

theorem isObject_eq (h : an.Varies defs W v v' an') : an'.base.isObject = an.base.isObject := by
  obtain ⟨t, -, -, -, hb, hb'⟩ := h.core
  rw [hb, hb', Base.isObject_varied, Base.isObject_varied]

theorem cached?_eq (h : an.Varies defs W v v' an') (hs : s.Varies W v v' s') :
    s'.cached? an'.inner = s.cached? an.inner := by
  obtain ⟨t, -, ht, ht', -⟩ := h.core
  rw [ht, ht', hs.cached?_eq]

/-- What stands under the layers is one class. -/
theorem object (hW : Closed defs W) {name : String} {c : ObjectClass}
    (h : an.Varies defs W v v' an') (hi : an.inner = .declared name) (hb : an.base = .object c) :
    an'.inner = .declared name ∧ ∃ o : ObjectClass, (∀ f ∈ o.fields, W f.2) ∧
      c = o.varied v ∧ an'.base = .object (o.varied v') := by
  obtain ⟨t, ht, hinner, hinner', hbase, hbase'⟩ := h.core
  constructor
  · rw [hi] at hinner
    cases hcore : t.core <;> rw [hcore] at hinner hinner' <;> cases hinner
    exact hinner'
  · rw [hb] at hbase
    cases ho : t.core.base defs <;> rw [ho] at hbase hbase' <;> cases hbase
    exact ⟨_, fun f hf => hW.field ht ho hf, rfl, hbase'⟩

end Analysis.Varies

section Steps

variable {known known' : Option Analysis} {s₁ : Session}

/-- Both runs analyse an expression. -/
theorem AnalysisRun.varies (ht : W t)
    (h : AnalysisRun (defs.varied v) s (t.varied v) known an s₁) (hs : s.Varies W v v' s')
    (hk : Option.Rel (Analysis.Varies defs W v v') known known') :
    ∃ an' s₁', AnalysisRun (defs.varied v') s' (t.varied v') known' an' s₁' ∧
      an.Varies defs W v v' an' ∧ s₁.Varies W v v' s₁' := by
  cases h with
  | known =>
    cases hk with
    | some han => exact ⟨_, _, .known _, han, hs⟩
  | made =>
    cases hk
    exact ⟨_, _, .made, ⟨t, ht, ⟨_, ⟨s, rfl⟩, rfl⟩, _, ⟨s', rfl⟩, rfl⟩,
      hs.of_sameWork ((t.varied v).findDefault_sameWork s)
        ((t.varied v').findDefault_sameWork s')⟩

/-- Both runs enter the record of a base with its part, which has no default. -/
theorem enterBase_varies (hs : s.Varies W v v' s') (h : an.Varies defs W v v' an')
    (r : Except CompileFault Address) :
    ∃ s₁', s'.run (enterBase an' (r.bind (an'.base.recordOf an'.constraints ·)))
        = ((s.run (enterBase an (r.bind (an.base.recordOf an.constraints ·)))).1, s₁') ∧
      (s.run (enterBase an (r.bind (an.base.recordOf an.constraints ·)))).2.Varies W v v' s₁' := by
  simp only [h.recordOf_eq]
  cases hr : r.bind (an.base.recordOf an.constraints ·) with
  | error e => exact ⟨s', rfl, hs⟩
  | ok record =>
    have hnone : record.lookup "default" = none := by
      cases r with
      | error e => cases hr
      | ok p => exact Base.recordOf_lookup (.inr (.inl rfl)) hr
    have hadded := hs.withRecord (.of_none hnone)
    obtain ⟨t, -, ht, ht', -⟩ := h.core
    rw [run_enterBase_ok, run_enterBase_ok, hs.records_size, ← h.constraints_eq, ht, ht']
    refine ⟨_, rfl, ?_⟩
    split
    · exact hadded.remember t.core _
    · exact hadded

/-- Both runs add layers, or find nothing to add. -/
theorem addLayers_varies (hs : s.Varies W v v' s') (h : an.Varies defs W v v' an')
    (hr : (s.graph.record a).lookup "default" = none)
    (hr' : (s'.graph.record a).lookup "default" = none) :
    ∃ s₁', s'.run (addLayers (t.varied v') an' a)
        = ((s.run (addLayers (t.varied v) an a)).1, s₁') ∧
      (s.run (addLayers (t.varied v) an a)).2.Varies W v v' s₁' := by
  have hrun := addLayers_run s (t.varied v) an a
  have hrun' := addLayers_run s' (t.varied v') an' a
  have hrecord := (hs.record a).eq_of_none hr hr'
  rw [hrecord] at hr'
  generalize s.run (addLayers (t.varied v) an a) = res,
    s'.run (addLayers (t.varied v') an' a) = res' at hrun hrun' ⊢
  cases hrun with
  | bare hadd =>
    cases hrun' with
    | bare _ => exact ⟨_, rfl, hs.remember t a⟩
    | decorated hadd' _ =>
      rw [hrecord, ← h.adds_eq, hadd] at hadd'
      cases hadd'
  | decorated hadd hsame =>
    cases hrun' with
    | bare hadd' =>
      rw [hrecord, ← h.adds_eq, hadd] at hadd'
      cases hadd'
    | decorated _ hsame' =>
      have hs₁ := hs.of_sameWork hsame hsame'
      rw [hs₁.records_size, hrecord]
      exact ⟨_, rfl, (hs₁.withRecord (h.decorate hr)).remember t _⟩

end Steps

/-! ## Runs -/

/-- What stands under the layers of an expression has no default. -/
theorem Evaluates.inner_without_default {U : TypeExpr → Prop} (hU : Universe defs U)
    {names : List String} (h : Evaluates defs s (.inner an) (.ok a, s') names)
    (hr : Job.Ready defs U ⟨s, .inner an⟩) :
    (s'.graph.record a).lookup "default" = none := by
  obtain ⟨t, ht, hanalysed⟩ := hr.task
  obtain ⟨r, hstands⟩ := (h.inner_preserves hU hr.inv ht hanalysed).result a rfl
  rw [Graph.record_of_getElem? hstands.record]
  exact hstands.lookup_default

/-- The fields of a class are the same but for defaults. -/
theorem ObjectClass.fields_varied (v v' : Variation) {c : ObjectClass}
    (h : ∀ f ∈ c.fields, W f.2) :
    List.Forall₂ (FieldVaries W v v') (c.varied v).fields (c.varied v').fields :=
  List.forall₂_map_left_iff.mpr (List.forall₂_map_right_iff.mpr
    (List.forall₂_same.mpr fun f hf => ⟨rfl, f.2, h f hf, rfl, rfl⟩))

/-- Wherever a second run begins with the task in another variation, it comes to the same, at the
same addresses, and walks the same classes. -/
def Task.Matched (defs : Definitions) (W : TypeExpr → Prop) (v v' : Variation)
    (U U' : TypeExpr → Prop) (s : Session) (task : Task)
    (res : Except CompileFault Address × Session) (names : List String) : Prop :=
  ∀ s' task', s.Varies W v v' s' → task.Varies defs W v v' task' →
    Job.Ready (defs.varied v) U ⟨s, task⟩ → Job.Ready (defs.varied v') U' ⟨s', task'⟩ →
      ∃ s₁', Evaluates (defs.varied v') s' task' (res.1, s₁') names ∧ res.2.Varies W v v' s₁'

namespace Task.Matched

variable {U U' : TypeExpr → Prop} {s₁ s₂ : Session} {earlier : Option Analysis}
  {names names' : List String} {name : String} {c : ObjectClass} {e : CompileFault}
  {res : Except CompileFault Address × Session} {rest : List (String × TypeExpr)} {body : Address}

theorem kept (h : s.cached? t = some a) :
    Matched defs W v v' U U' s (.field t earlier) (.ok a, s) [] := by
  intro s' task' hs ht _ _
  cases ht with
  | field _ _ => exact ⟨s', .kept (by rw [hs.cached?_eq, h]), hs⟩

theorem barred (hU : Universe (defs.varied v) U) (hU' : Universe (defs.varied v') U')
    (h : s.cached? t = none) (ha : AnalysisRun (defs.varied v) s t earlier an s₁)
    (ih : Matched defs W v v' U U' s₁ (.inner an) (.error e, s₂) names) :
    Matched defs W v v' U U' s (.field t earlier) (.error e, s₂) names := by
  intro s' task' hs ht hr hr'
  cases ht with
  | @field t ht _ _ hk =>
    obtain ⟨an', s₁', ha', han, hs₁⟩ := ha.varies ht hs hk
    have h' := (hs.cached?_eq t).trans h
    obtain ⟨s₂', hi', hs₂⟩ := ih _ _ hs₁ (.inner han) ((HandsOn.inner h ha).ready hU hr)
      ((HandsOn.inner h' ha').ready hU' hr')
    exact ⟨s₂', .barred h' ha' hi', hs₂⟩

theorem layered (hU : Universe (defs.varied v) U) (hU' : Universe (defs.varied v') U')
    (h : s.cached? t = none) (ha : AnalysisRun (defs.varied v) s t earlier an s₁)
    (hi : Evaluates (defs.varied v) s₁ (.inner an) (.ok a, s₂) names)
    (ih : Matched defs W v v' U U' s₁ (.inner an) (.ok a, s₂) names) :
    Matched defs W v v' U U' s (.field t earlier) (s₂.run (addLayers t an a)) names := by
  intro s' task' hs ht hr hr'
  cases ht with
  | @field t ht _ _ hk =>
    obtain ⟨an', s₁', ha', han, hs₁⟩ := ha.varies ht hs hk
    have h' := (hs.cached?_eq t).trans h
    have hready := (HandsOn.inner h ha).ready hU hr
    have hready' := (HandsOn.inner h' ha').ready hU' hr'
    obtain ⟨s₂', hi', hs₂⟩ := ih _ _ hs₁ (.inner han) hready hready'
    obtain ⟨s₃', hrun, hs₃⟩ := addLayers_varies (t := t) hs₂ han
      (hi.inner_without_default hU hready) (hi'.inner_without_default hU' hready')
    exact ⟨s₃', hrun ▸ .layered h' ha' hi', hs₃⟩

theorem object (hW : Closed defs W) (hU : Universe (defs.varied v) U)
    (hU' : Universe (defs.varied v') U') (hi : an.inner = .declared name)
    (hb : an.base = .object c) (ih : Matched defs W v v' U U' s (.object name c) res names) :
    Matched defs W v v' U U' s (.inner an) res names := by
  intro s' task' hs ht hr hr'
  cases ht with
  | inner han =>
    obtain ⟨hi', o, hfields, rfl, hb'⟩ := han.object hW hi hb
    obtain ⟨s₁', ho', hs₁⟩ := ih _ _ hs (.object _ hfields) ((HandsOn.object hi hb).ready hU hr)
      ((HandsOn.object hi' hb').ready hU' hr')
    exact ⟨s₁', .object hi' hb' ho', hs₁⟩

theorem shared (hb : an.base.isObject = false) (hf : an.constraints = [])
    (hc : s.cached? an.inner = some a) :
    Matched defs W v v' U U' s (.inner an) (.ok a, s) [] := by
  intro s' task' hs ht _ _
  cases ht with
  | inner han =>
    exact ⟨s', .shared (han.isObject_eq.trans hb) (han.constraints_eq ▸ hf)
      ((han.cached?_eq hs).trans hc), hs⟩

theorem simple (hb : an.base.isObject = false)
    (hc : an.constraints = [] → s.cached? an.inner = none) (hp : an.base.part? = none) :
    Matched defs W v v' U U' s (.inner an) ((an.base.noted an.inner.label s).run
      (enterBase an (an.base.recordOf an.constraints 0))) [] := by
  intro s' task' hs ht _ _
  cases ht with
  | @inner _ an' han =>
    have hs₁ := hs.of_sameWork (an.base.noted_sameWork an.inner.label s)
      (an'.base.noted_sameWork an'.inner.label s')
    obtain ⟨s₁', hrun, hs₁⟩ := enterBase_varies hs₁ han (.ok 0)
    have hsimple : Evaluates (defs.varied v') s' (.inner an') _ [] :=
      .simple (han.isObject_eq.trans hb)
        (fun hf => (han.cached?_eq hs).trans (hc (han.constraints_eq ▸ hf))) (han.part?_none hp)
    exact ⟨s₁', hrun ▸ hsimple, hs₁⟩

theorem part (hW : Closed defs W) (hU : Universe (defs.varied v) U)
    (hU' : Universe (defs.varied v') U') (hb : an.base.isObject = false)
    (hc : an.constraints = [] → s.cached? an.inner = none) (hp : an.base.part? = some t)
    {r : Except CompileFault Address}
    (ih : Matched defs W v v' U U' s (.field t none) (r, s₁) names) :
    Matched defs W v v' U U' s (.inner an)
      (s₁.run (enterBase an (r.bind (an.base.recordOf an.constraints ·)))) names := by
  intro s' task' hs ht hr hr'
  cases ht with
  | inner han =>
    obtain ⟨t, ht, rfl, hp'⟩ := han.part?_eq hW hp
    have hb' := han.isObject_eq.trans hb
    have hc' hf := (han.cached?_eq hs).trans (hc (han.constraints_eq ▸ hf))
    obtain ⟨s₁', hd', hs₁⟩ := ih _ _ hs (.field ht .none) ((HandsOn.part hb hc hp).ready hU hr)
      ((HandsOn.part hb' hc' hp').ready hU' hr')
    obtain ⟨s₂', hrun, hs₂⟩ := enterBase_varies hs₁ han _
    exact ⟨s₂', hrun ▸ .part hb' hc' hp' hd', hs₂⟩

theorem known (h : s.cached? (.declared name) = some a) :
    Matched defs W v v' U U' s (.object name c) (.ok a, s) [] := by
  intro s' task' hs ht _ _
  cases ht with
  | object _ _ => exact ⟨s', .known ((hs.cached?_eq (.declared name)).trans h), hs⟩

theorem walked (hU : Universe (defs.varied v) U) (hU' : Universe (defs.varied v') U')
    (h : s.cached? (.declared name) = none) {r : Except CompileFault Address}
    (ih : Matched defs W v v' U U' (s.withObject (.declared name) c)
      (.walk s.graph.bodies.size c.fields) (r, s₁) names) :
    Matched defs W v v' U U' s (.object name c) (r.map fun _ => s.graph.records.size, s₁)
      (name :: names) := by
  intro s' task' hs ht hr hr'
  cases ht with
  | @object _ o ho =>
    have h' := (hs.cached?_eq (.declared name)).trans h
    have hready := (HandsOn.walk (c := o.varied v) h).ready hU hr
    have hready' := (HandsOn.walk (c := o.varied v') h').ready hU' hr'
    rw [hs.bodies] at hready'
    obtain ⟨s₁', hw', hs₁⟩ := ih _ _ (hs.withObject name o) (.walk _ (o.fields_varied v v' ho))
      hready hready'
    rw [← hs.bodies] at hw'
    have hwalked := Evaluates.walked (c := o.varied v') h' hw'
    rw [hs.records_size] at hwalked
    exact ⟨s₁', hwalked, hs₁⟩

theorem done : Matched defs W v v' U U' s (.walk body []) (.ok body, s) [] := by
  intro s' task' hs ht _ _
  cases ht with
  | walk _ h =>
    cases h
    exact ⟨s', .done, hs⟩

theorem stuck (hU : Universe (defs.varied v) U) (hU' : Universe (defs.varied v') U')
    (ha : AnalysisRun (defs.varied v) s t none an s₁)
    (ih : Matched defs W v v' U U' s₁ (.field t (some an)) (.error e, s₂) names) :
    Matched defs W v v' U U' s (.walk body ((name, t) :: rest)) (.error e, s₂) names := by
  intro s' task' hs ht hr hr'
  cases ht with
  | walk _ h =>
    cases h with
    | @cons _ f' _ _ hf hrest =>
      obtain ⟨name, t'⟩ := f'
      obtain ⟨rfl, t, ht, rfl, rfl⟩ := hf
      obtain ⟨an', s₁', ha', han, hs₁⟩ := ha.varies ht hs .none
      obtain ⟨s₂', hd', hs₂⟩ := ih _ _ hs₁ (.field ht (.some han)) ((HandsOn.first ha).ready hU hr)
        ((HandsOn.first ha').ready hU' hr')
      exact ⟨s₂', .stuck ha' hd', hs₂⟩

theorem entered (hU : Universe (defs.varied v) U) (hU' : Universe (defs.varied v') U')
    (ha : AnalysisRun (defs.varied v) s t none an s₁)
    (hd : Evaluates (defs.varied v) s₁ (.field t (some an)) (.ok a, s₂) names)
    (ih : Matched defs W v v' U U' s₁ (.field t (some an)) (.ok a, s₂) names)
    (ihrest : Matched defs W v v' U U' (s₂.withBodyChanged body (·.enter name a an.optional))
      (.walk body rest) res names') :
    Matched defs W v v' U U' s (.walk body ((name, t) :: rest)) res (names ++ names') := by
  intro s' task' hs ht hr hr'
  cases ht with
  | walk _ h =>
    cases h with
    | @cons _ f' _ _ hf hrest =>
      obtain ⟨name, t'⟩ := f'
      obtain ⟨rfl, t, ht, rfl, rfl⟩ := hf
      obtain ⟨an', s₁', ha', han, hs₁⟩ := ha.varies ht hs .none
      obtain ⟨s₂', hd', hs₂⟩ := ih _ _ hs₁ (.field ht (.some han)) ((HandsOn.first ha).ready hU hr)
        ((HandsOn.first ha').ready hU' hr')
      have hready := (HandsOn.rest ha hd).ready hU hr
      have hready' := (HandsOn.rest ha' hd').ready hU' hr'
      -- Both runs require the field or not, by what stands in the layers.
      rw [← han.optional_eq] at hready'
      obtain ⟨s₃', hrest', hs₃⟩ :=
        ihrest _ _ (hs₂.withBodyChanged _ _) (.walk _ hrest) hready hready'
      rw [han.optional_eq] at hrest'
      exact ⟨s₃', .entered ha' hd' hrest', hs₃⟩

end Task.Matched

/-- Two runs of one task come to the same, at the same addresses, and walk the same classes. -/
theorem Evaluates.matched (hW : Closed defs W) {U U' : TypeExpr → Prop}
    (hU : Universe (defs.varied v) U) (hU' : Universe (defs.varied v') U') {task : Task}
    {res : Except CompileFault Address × Session} {names : List String}
    (h : Evaluates (defs.varied v) s task res names) :
    task.Matched defs W v v' U U' s res names := by
  induction h with
  | kept h => exact .kept h
  | barred h ha _ ih => exact .barred hU hU' h ha ih
  | layered h ha hi ih => exact .layered hU hU' h ha hi ih
  | object hi hb _ ih => exact .object hW hU hU' hi hb ih
  | shared hb hf hc => exact .shared hb hf hc
  | simple hb hc hp => exact .simple hb hc hp
  | part hb hc hp _ ih => exact .part hW hU hU' hb hc hp ih
  | known h => exact .known h
  | walked h _ ih => exact .walked hU hU' h ih
  | done => exact .done
  | stuck ha _ ih => exact .stuck hU hU' ha ih
  | entered ha hd _ ih ihrest => exact .entered hU hU' ha hd ih ihrest

/-! ## Calls -/

theorem Call.type_varied (v : Variation) (c : Call) : (c.varied v).type = c.type.varied v := by
  cases c <;> rfl

section Calls

variable {U U' : TypeExpr → Prop}

/-- Both runs give what is no object class an empty descriptor. -/
theorem describeParameters_empty_varies (hs : s.Varies W v v' s')
    (hb : (t.base defs).isObject = false) :
    ∃ s₁', s'.run (describeParameters (defs.varied v') (t.varied v'))
        = ((s.run (describeParameters (defs.varied v) (t.varied v))).1, s₁') ∧
      (s.run (describeParameters (defs.varied v) (t.varied v))).2.Varies W v v' s₁' := by
  have hvaried (v : Variation) : ((t.varied v).base (defs.varied v)).isObject = false := by
    rwa [TypeExpr.base_varied, Base.isObject_varied]
  have hrun := describeParameters_run (defs.varied v) s (t.varied v)
  have hrun' := describeParameters_run (defs.varied v') s' (t.varied v')
  generalize s.run (describeParameters (defs.varied v) (t.varied v)) = res,
    s'.run (describeParameters (defs.varied v') (t.varied v')) = res' at hrun hrun' ⊢
  cases hrun with
  | object ho =>
    have hno := hvaried v
    rw [ho] at hno
    cases hno
  | empty _ hsame =>
    cases hrun' with
    | object ho' =>
      have hno := hvaried v'
      rw [ho'] at hno
      cases hno
    | empty _ hsame' =>
      have hs₁ := hs.of_sameWork hsame hsame'
      rw [hs₁.records_size, hs₁.bodies]
      exact ⟨_, rfl, hs₁.withBody.withRecord (.of_none rfl)⟩

/-- Both runs of a call come to the same. -/
theorem Call.run_varies (hW : Closed defs W) (hU : Universe (defs.varied v) U)
    (hU' : Universe (defs.varied v') U') {c : Call} (hw : W c.type)
    (hc : U (c.varied v).type) (hc' : U' (c.varied v').type)
    (hs : s.Varies W v v' s') (hi : Invariant (defs.varied v) U s)
    (hi' : Invariant (defs.varied v') U' s') :
    ∃ s₁', s'.run ((c.varied v').run (defs.varied v'))
        = ((s.run ((c.varied v).run (defs.varied v))).1, s₁') ∧
      (s.run ((c.varied v).run (defs.varied v))).2.Varies W v v' s₁' := by
  obtain ⟨names, he⟩ := (c.varied v).evaluates (defs.varied v) s
  cases c with
  | describe t =>
    generalize s.run (((Call.describe t).varied v).run (defs.varied v)) = res at he ⊢
    cases he with
    | describe he =>
      obtain ⟨s₁', he', hs₁⟩ := he.matched hW hU hU' _ _ hs (.field hw .none)
        ⟨hi, hc, by simp⟩ ⟨hi', hc', by simp⟩
      exact ⟨s₁', (Call.Evaluates.describe he').result_eq.symm, hs₁⟩
  | compile t =>
    cases hobject : t.base defs with
    | object o =>
      obtain ⟨name, rfl, hfind⟩ := TypeExpr.base_object hobject
      have ho : ∀ f ∈ o.fields, W f.2 := fun f hf => hW.field hw hobject hf
      have hfind' := Definitions.find?_varied_object v' hfind
      generalize s.run (((Call.compile (.declared name)).varied v).run (defs.varied v)) = res
        at he ⊢
      cases he with
      | object hf he =>
        cases (Definitions.find?_varied_object v hfind).symm.trans hf
        obtain ⟨s₁', he', hs₁⟩ := he.matched hW hU hU' _ _ hs (.object name ho) ⟨hi, hc, hf⟩
          ⟨hi', hc', hfind'⟩
        exact ⟨s₁', (Call.Evaluates.object hfind' he').result_eq.symm, hs₁⟩
      | empty hb =>
        have hbase := TypeExpr.base_declared (Definitions.find?_varied_object v hfind)
        cases (congrArg Base.isObject hbase).symm.trans hb
    | _ => exact describeParameters_empty_varies hs (congrArg Base.isObject hobject)

/-- Both runs of any calls come to the same, one by one. -/
theorem Session.after_varies (hW : Closed defs W) (hU : Universe (defs.varied v) U)
    (hU' : Universe (defs.varied v') U') {calls : List Call} (hw : ∀ c ∈ calls, W c.type)
    (hcalls : ∀ c ∈ calls, U (c.varied v).type)
    (hcalls' : ∀ c ∈ calls, U' (c.varied v').type) (hs : s.Varies W v v' s')
    (hi : Invariant (defs.varied v) U s) (hi' : Invariant (defs.varied v') U' s') :
    (s'.after (defs.varied v') (calls.map (Call.varied v'))).1
        = (s.after (defs.varied v) (calls.map (Call.varied v))).1 ∧
      (s.after (defs.varied v) (calls.map (Call.varied v))).2.Varies W v v'
        (s'.after (defs.varied v') (calls.map (Call.varied v'))).2 := by
  induction calls generalizing s s' with
  | nil => exact ⟨rfl, hs⟩
  | cons c rest ih =>
    obtain ⟨s₁', hrun, hs₁⟩ :=
      Call.run_varies hW hU hU' (hw c (by simp)) (hcalls c (by simp)) (hcalls' c (by simp)) hs
        hi hi'
    have hp := Call.preserves hU (hcalls c (by simp)) hi rfl
    have hp' := Call.preserves hU' (hcalls' c (by simp)) hi' hrun
    obtain ⟨hrest, hs₂⟩ := ih (fun d hd => hw d (by simp [hd]))
      (fun d hd => hcalls d (by simp [hd])) (fun d hd => hcalls' d (by simp [hd])) hs₁
      hp.inv hp'.inv
    simp only [List.map_cons, Session.after, hrun, hrest]
    exact ⟨trivial, hs₂⟩

end Calls

end ToolCatalog
