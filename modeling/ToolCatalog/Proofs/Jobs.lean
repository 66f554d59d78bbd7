import Mathlib.Logic.Relation
import ToolCatalog.Proofs.Charting
import ToolCatalog.Proofs.Frozen
import ToolCatalog.Proofs.Termination

/-!
The jobs of a call.

A job is a task together with the session in which it begins. While it is done it hands on others,
each in the session that has been reached by then, so that the first job of a call leads to all of
them. When a job that was handed on comes to an end, little is left to do for the one that handed it
on; so what holds at the end of a job is carried to the end of the call step by step.
-/
namespace ToolCatalog

/-- The body that a task changes. -/
def Task.body? : Task → Option Address
  | .walk body _ => some body
  | _ => none

/-- A task as it is handed on: its expression is one of the universe, and a walk is one of a class
that has come this far. -/
def Task.Ready (defs : Definitions) (U : TypeExpr → Prop) (s : Session) : Task → Prop
  | .field t known => U t ∧ ∀ an ∈ known, t.Analysed defs an
  | .inner an => ∃ t, U t ∧ t.Analysed defs an
  | .object name c => U (.declared name) ∧ defs.find? name = some (.object c)
  | .walk body fields =>
    ∃ name c done, U (.declared name) ∧ Walking defs name c body done fields s

/-! ## Jobs -/

/-- A task and the session in which it begins. -/
structure Job where
  session : Session
  task : Task

/-- While a job is done, another one is handed on. -/
inductive HandsOn (defs : Definitions) : Job → Job → Prop
  | inner {s t known an s₁} (h : s.cached? t = none) (ha : AnalysisRun defs s t known an s₁) :
      HandsOn defs ⟨s, .field t known⟩ ⟨s₁, .inner an⟩
  | object {s an name c} (hi : an.inner = .declared name) (hb : an.base = .object c) :
      HandsOn defs ⟨s, .inner an⟩ ⟨s, .object name c⟩
  | part {s an e} (hb : an.base.isObject = false)
      (hc : an.constraints = [] → s.cached? an.inner = none) (hp : an.base.part? = some e) :
      HandsOn defs ⟨s, .inner an⟩ ⟨s, .field e none⟩
  | walk {s name c} (h : s.cached? (.declared name) = none) :
      HandsOn defs ⟨s, .object name c⟩
        ⟨s.withObject (.declared name) c, .walk s.graph.bodies.size c.fields⟩
  | first {s body name t rest an s₁} (ha : AnalysisRun defs s t none an s₁) :
      HandsOn defs ⟨s, .walk body ((name, t) :: rest)⟩ ⟨s₁, .field t (some an)⟩
  | rest {s body name t rest an s₁ a s₂ names} (ha : AnalysisRun defs s t none an s₁)
      (hd : Evaluates defs s₁ (.field t (some an)) (.ok a, s₂) names) :
      HandsOn defs ⟨s, .walk body ((name, t) :: rest)⟩
        ⟨s₂.withBodyChanged body (·.enter name a an.optional), .walk body rest⟩

/-- What a job comes to when one that it handed on has come to an end. -/
inductive Returns (defs : Definitions) : Job → Job →
    Except CompileFault Address × Session → Except CompileFault Address × Session → Prop
  | failed {m m' e s} : Returns defs m m' (.error e, s) (.error e, s)
  | layers {s t known an s₁ a s₂} (h : s.cached? t = none) (ha : AnalysisRun defs s t known an s₁) :
      Returns defs ⟨s, .field t known⟩ ⟨s₁, .inner an⟩ (.ok a, s₂) (s₂.run (addLayers t an a))
  | object {s an name c res} : Returns defs ⟨s, .inner an⟩ ⟨s, .object name c⟩ res res
  | base {s an e a s₁} (hb : an.base.isObject = false)
      (hc : an.constraints = [] → s.cached? an.inner = none) :
      Returns defs ⟨s, .inner an⟩ ⟨s, .field e none⟩ (.ok a, s₁)
        (s₁.run (enterBase an (an.base.recordOf an.constraints a)))
  | walked {s name c s₁ body a s'} :
      Returns defs ⟨s, .object name c⟩ ⟨s₁, .walk body c.fields⟩ (.ok a, s')
        (.ok s.graph.records.size, s')
  | fields {s body name t rest an s₁ a s₂ res names}
      (hrest : Evaluates defs (s₂.withBodyChanged body (·.enter name a an.optional))
        (.walk body rest) res names) :
      Returns defs ⟨s, .walk body ((name, t) :: rest)⟩ ⟨s₁, .field t (some an)⟩ (.ok a, s₂) res
  | rest {s body f rest s₁ res} :
      Returns defs ⟨s, .walk body (f :: rest)⟩ ⟨s₁, .walk body rest⟩ res res

namespace Job

/-- What the task comes to, and the session when it does. -/
def Comes (defs : Definitions) (m : Job) (res : Except CompileFault Address × Session) : Prop :=
  ∃ names, Evaluates defs m.session m.task res names

/-- A job hands on others, and these others again. -/
abbrev Leads (defs : Definitions) : Job → Job → Prop :=
  Relation.ReflTransGen (HandsOn defs)

/-- The session is sound, and the task is one that can be handed on in it. -/
structure Ready (defs : Definitions) (U : TypeExpr → Prop) (m : Job) : Prop where
  inv : Invariant defs U m.session
  task : m.task.Ready defs U m.session

end Job

variable {defs : Definitions} {U : TypeExpr → Prop} {s s' s₁ : Session} {t : TypeExpr}
  {an : Analysis} {known : Option Analysis} {a : Address} {name : String} {c : ObjectClass}
  {names : List String} {m m' : Job} {res res' : Except CompileFault Address × Session}

theorem AnalysisRun.unique {an' : Analysis} (h : AnalysisRun defs s t known an s₁)
    (h' : AnalysisRun defs s t known an' s') : an' = an ∧ s' = s₁ := by
  cases h <;> cases h' <;> exact ⟨rfl, rfl⟩

/-! ## Tasks in a session -/

/-- A task only adds to the session, except for the body that it walks over. -/
theorem Evaluates.session_extends {task : Task} (h : Evaluates defs s task res names) :
    s.Extends task.body? res.2 := by
  obtain ⟨room, hroom⟩ := Task.Settles.of_evaluates h
  have hrun := hroom room (Nat.le_refl room)
  have hgrows := describeWithin_extends defs room
  rw [← hrun]
  cases task with
  | field t known => exact hgrows s t known
  | inner an => exact describeInner_extends hgrows an s
  | object name c => exact describeObject_extends hgrows (.declared name) c s
  | walk body fields =>
    rw [Task.run_walk]
    exact walkFields_extends hgrows body fields s

theorem Evaluates.field_preserves (hU : Universe defs U) (hi : Invariant defs U s)
    (ht : Task.Ready defs U s (.field t known)) {r : Except CompileFault Address}
    (h : Evaluates defs s (.field t known) (r, s') names) :
    Preserved defs U none s s' r (Shows defs s' t) := by
  obtain ⟨room, hroom⟩ := Task.Settles.of_evaluates h
  exact describeWithin_preserves hU room ht.1 ht.2 hi (hroom room (Nat.le_refl room))

theorem Evaluates.inner_preserves (hU : Universe defs U) (hi : Invariant defs U s) (ht : U t)
    (ha : t.Analysed defs an) {r : Except CompileFault Address}
    (h : Evaluates defs s (.inner an) (r, s') names) :
    Preserved defs U none s s' r fun a => ∃ record, Stands defs s' t a record := by
  obtain ⟨room, hroom⟩ := Task.Settles.of_evaluates h
  exact describeInner_preserves hU (describeWithin_preserves hU room)
    (describeWithin_extends defs room) ht hi ha (hroom room (Nat.le_refl room))

theorem Evaluates.object_preserves (hU : Universe defs U) (hi : Invariant defs U s)
    (ht : Task.Ready defs U s (.object name c)) {r : Except CompileFault Address}
    (h : Evaluates defs s (.object name c) (r, s') names) :
    Preserved defs U none s s' r (Shows defs s' (.declared name)) := by
  obtain ⟨room, hroom⟩ := Task.Settles.of_evaluates h
  exact describeObject_preserves hU (describeWithin_preserves hU room)
    (describeWithin_extends defs room) ht.1 ht.2 hi (hroom room (Nat.le_refl room))

theorem Shows.lt_records (h : Shows defs s t a) : a < s.graph.records.size := by
  obtain ⟨a₀, r, hs, hf⟩ := h.stands
  exact hf.lt_records hs.record

/-! ## Coming to an end -/

theorem Job.Comes.unique (h : m.Comes defs res) (h' : m.Comes defs res') : res' = res := by
  obtain ⟨_, h⟩ := h
  obtain ⟨_, h'⟩ := h'
  exact h'.result_unique h

/-- A job that is handed on comes to an end, and little is left to do then. -/
theorem HandsOn.returns (h : HandsOn defs m m') (he : m.Comes defs res) :
    ∃ res', m'.Comes defs res' ∧ Returns defs m m' res' res := by
  obtain ⟨names, he⟩ := he
  cases h with
  | inner h ha =>
    cases he with
    | kept hc =>
      rw [h] at hc
      cases hc
    | barred _ ha' hi =>
      obtain ⟨rfl, rfl⟩ := ha.unique ha'
      exact ⟨_, ⟨_, hi⟩, .failed⟩
    | layered _ ha' hi =>
      obtain ⟨rfl, rfl⟩ := ha.unique ha'
      exact ⟨_, ⟨_, hi⟩, .layers h ha⟩
  | object hi hb =>
    cases he with
    | object hi' hb' ho =>
      obtain rfl := TypeExpr.declared.inj (hi.symm.trans hi')
      obtain rfl := Base.object.inj (hb.symm.trans hb')
      exact ⟨res, ⟨_, ho⟩, .object⟩
    | shared hb' _ _ | simple hb' _ _ | part hb' _ _ _ =>
      rw [hb] at hb'
      cases hb'
  | part hb hc hp =>
    cases he with
    | object _ hb' _ =>
      rw [hb'] at hb
      cases hb
    | shared _ hf hc' =>
      rw [hc hf] at hc'
      cases hc'
    | simple _ _ hp' =>
      rw [hp] at hp'
      cases hp'
    | @part _ _ _ r _ _ _ _ hp' hd =>
      obtain rfl := Option.some.inj (hp.symm.trans hp')
      refine ⟨_, ⟨_, hd⟩, ?_⟩
      cases r with
      | error e => exact .failed
      | ok a => exact .base hb hc
  | walk h =>
    cases he with
    | known hc =>
      rw [h] at hc
      cases hc
    | @walked _ _ _ r _ _ _ hw =>
      refine ⟨_, ⟨_, hw⟩, ?_⟩
      cases r with
      | error e => exact .failed
      | ok b => exact .walked
  | first ha =>
    cases he with
    | stuck ha' hd =>
      obtain ⟨rfl, rfl⟩ := ha.unique ha'
      exact ⟨_, ⟨_, hd⟩, .failed⟩
    | entered ha' hd hrest =>
      obtain ⟨rfl, rfl⟩ := ha.unique ha'
      exact ⟨_, ⟨_, hd⟩, .fields hrest⟩
  | rest ha hd =>
    cases he with
    | stuck ha' hd' =>
      obtain ⟨rfl, rfl⟩ := ha.unique ha'
      cases hd.result_unique hd'
    | entered ha' hd' hrest =>
      obtain ⟨rfl, rfl⟩ := ha.unique ha'
      cases hd.result_unique hd'
      exact ⟨res, ⟨_, hrest⟩, .rest⟩

namespace Returns

/-- What is left only adds to the session, except for the body that is walked over. -/
theorem session_extends (h : Returns defs m m' res' res) :
    res'.2.Extends m.task.body? res.2 := by
  cases h with
  | failed | object | walked | rest => exact .refl _ _
  | layers _ _ => exact addLayers_extends _ _ _ _
  | base _ _ => exact enterBase_extends _ _ _
  | fields hrest => exact (Session.Extends.withBodyChanged _ _ _).trans hrest.session_extends

/-- A job that succeeds has not handed on one that failed. -/
theorem succeeds (h : Returns defs m m' res' res) (hok : ∃ a, res.1 = .ok a) :
    ∃ a, res'.1 = .ok a := by
  cases h with
  | failed | object | rest => exact hok
  | layers _ _ | base _ _ | walked | fields _ => exact ⟨_, rfl⟩

end Returns

/-! ## Handing on -/

/-- The next field of a walk is ready with its analysis. -/
theorem Task.Ready.nextField {body : Address} {rest : List (String × TypeExpr)}
    (hU : Universe defs U) (h : Task.Ready defs U s (.walk body ((name, t) :: rest)))
    (ha : AnalysisRun defs s t none an s₁) : Task.Ready defs U s₁ (.field t (some an)) := by
  obtain ⟨n, o, done, hn, hwalk⟩ := h
  have hmem : (name, t) ∈ o.fields :=
    hwalk.fields ▸ List.mem_append_right done List.mem_cons_self
  exact ⟨hU.field hn (TypeExpr.base_declared hwalk.found) hmem, ha.analysed_known⟩

/-- A walk that has described its next field enters it and goes on. -/
theorem Walking.past {done rest : List (String × TypeExpr)} {b : Address} {n : String}
    {s₂ : Session} {k : List String} (hU : Universe defs U) (hi : Invariant defs U s)
    (hname : U (.declared name)) (hwalk : Walking defs name c b done ((n, t) :: rest) s)
    (ha : AnalysisRun defs s t none an s₁)
    (hd : Evaluates defs s₁ (.field t (some an)) (.ok a, s₂) k) :
    Invariant defs U (s₂.withBodyChanged b (·.enter n a an.optional)) ∧
      Walking defs name c b (done ++ [(n, t)]) rest
        (s₂.withBodyChanged b (·.enter n a an.optional)) := by
  have htask : Task.Ready defs U s (.walk b ((n, t) :: rest)) := ⟨name, c, done, hname, hwalk⟩
  have hp : Preserved defs U none s s₂ (.ok a) (Shows defs s₂ t) := .of_sameWork ha.sameWork
    (hd.field_preserves hU (hi.of_sameWork ha.sameWork) (htask.nextField hU ha))
  have hwalk₂ := hwalk.mono hp.growth hp.classes
  have hshows : Shows defs s₂ t a := hp.result a rfl
  rw [ha.optional_eq]
  exact ⟨hp.inv.entered hwalk₂ hshows, hwalk₂.enter hshows⟩

namespace HandsOn

/-- What there is when a job begins is there when another one is handed on, except for the body that
it walks over. -/
theorem session_extends (h : HandsOn defs m m') : m.session.Extends m.task.body? m'.session := by
  cases h with
  | inner _ ha => exact .of_sameWork ha.sameWork
  | object _ _ | part _ _ _ => exact .refl _ _
  | walk _ => exact .withObject _ _ _
  | first ha => exact .of_sameWork ha.sameWork
  | @rest s body name t rest an s₁ a s₂ names ha hd =>
    have hfield : s₁.Extends none s₂ := hd.session_extends
    exact ((Session.Extends.of_sameWork ha.sameWork).trans hfield.loosen).trans
      (.withBodyChanged _ _ _)

/-- A walk that is handed on goes on, or is one into a new body. -/
theorem body_new {b : Address} (h : HandsOn defs m m') (hb : m'.task.body? = some b) :
    m.task.body? = some b ∨ m.session.graph.bodies.size ≤ b := by
  cases h with
  | inner _ _ | object _ _ | part _ _ _ | first _ => cases hb
  | walk _ =>
    cases hb
    exact .inr (Nat.le_refl _)
  | rest _ _ => exact .inl hb

/-- Bodies are only added until a job begins. -/
theorem bodies_le (h : HandsOn defs m m') :
    m.session.graph.bodies.size ≤ m'.session.graph.bodies.size := by
  cases h with
  | inner _ ha =>
    rw [ha.sameWork.graph]
  | object _ _ | part _ _ _ => exact Nat.le_refl _
  | walk _ => exact (Session.Extends.withObject _ _ _).bodies_size
  | first ha => rw [ha.sameWork.graph]
  | @rest s body name t rest an s₁ a s₂ names ha hd =>
    have hfield : s₁.Extends none s₂ := hd.session_extends
    have hsize := hfield.bodies_size
    rw [ha.sameWork.graph] at hsize
    simpa [Session.withBodyChanged, Graph.modifyBody] using hsize

/-- A job hands on jobs that are ready. -/
theorem ready (hU : Universe defs U) (h : HandsOn defs m m') (hr : m.Ready defs U) :
    m'.Ready defs U := by
  obtain ⟨hi, htask⟩ := hr
  cases h with
  | inner _ ha => exact ⟨hi.of_sameWork ha.sameWork, _, htask.1, ha.analysed htask.2⟩
  | object hinner hb =>
    obtain ⟨t, ht, d, -, rfl⟩ := htask
    change t.core = _ at hinner
    change t.core.base defs = _ at hb
    obtain ⟨n, hn, hf⟩ := TypeExpr.base_object hb
    obtain rfl := TypeExpr.declared.inj (hinner.symm.trans hn)
    exact ⟨hi, hinner ▸ hU.core ht, hf⟩
  | part _ _ hp =>
    obtain ⟨t, ht, d, -, rfl⟩ := htask
    exact ⟨hi, hU.part ht hp, by simp⟩
  | walk h => exact ⟨hi.withObject htask.2 h, _, _, [], htask.1, .start htask.2 _⟩
  | first ha => exact ⟨hi.of_sameWork ha.sameWork, htask.nextField hU ha⟩
  | rest ha hd =>
    obtain ⟨n, o, done, hn, hwalk⟩ := htask
    obtain ⟨hinv, hnext⟩ := hwalk.past hU hi hn ha hd
    exact ⟨hinv, n, o, _, hn, hnext⟩

end HandsOn

namespace Job.Leads

theorem ready (hU : Universe defs U) (h : m.Leads defs m') (hr : m.Ready defs U) :
    m'.Ready defs U := by
  induction h with
  | refl => exact hr
  | tail _ hlast ih => exact hlast.ready hU ih

theorem bodies_le (h : m.Leads defs m') :
    m.session.graph.bodies.size ≤ m'.session.graph.bodies.size := by
  induction h with
  | refl => exact Nat.le_refl _
  | tail _ hlast ih => exact ih.trans hlast.bodies_le

theorem body_new {b : Address} (h : m.Leads defs m') (hb : m'.task.body? = some b) :
    m.task.body? = some b ∨ m.session.graph.bodies.size ≤ b := by
  induction h with
  | refl => exact .inl hb
  | tail hfirst hlast ih =>
    rcases hlast.body_new hb with hb | hle
    · exact ih hb
    · exact .inr ((bodies_le hfirst).trans hle)

/-- What there is when a job begins is there when any job begins to which it leads, except for the
body that it walks over. -/
theorem session_extends (h : m.Leads defs m') : m.session.Extends m.task.body? m'.session := by
  induction h with
  | refl => exact .refl _ _
  | @tail m₁ m' hfirst hlast ih =>
    have hx := hlast.session_extends
    refine ⟨fun u r hu => hx.record u r (ih.record u r hu), fun b x hb hfree => ?_,
      fun t ht => hx.cached t (ih.cached t ht)⟩
    refine hx.body b x (ih.body b x hb hfree) fun hwalk => ?_
    -- A body that is begun later is not there yet.
    rcases body_new hfirst hwalk with hown | hle
    · exact hfree hown
    · exact Nat.lt_irrefl _ (Nat.lt_of_lt_of_le (Array.getElem?_eq_some_iff.mp hb).1 hle)

/-- Every job that one is led to comes to an end, and succeeds if the first one does. -/
theorem comes (h : m.Leads defs m') (he : m.Comes defs res) :
    ∃ res', m'.Comes defs res' ∧ ((∃ a, res.1 = .ok a) → ∃ a, res'.1 = .ok a) := by
  induction h with
  | refl => exact ⟨res, he, id⟩
  | tail _ hlast ih =>
    obtain ⟨res₁, he₁, hok⟩ := ih
    obtain ⟨res', he', hreturn⟩ := hlast.returns he₁
    exact ⟨res', he', fun h => hreturn.succeeds (hok h)⟩

/-- Descriptors and bodies that are there at the end of a job are the same at the end of the one
that led to it, but for the bodies that were begun before. -/
theorem session_keeps (hU : Universe defs U) (h : m.Leads defs m') (hr : m.Ready defs U)
    (he : m.Comes defs res) (he' : m'.Comes defs res') :
    (∀ (u : Address) r, res'.2.graph.records[u]? = some r → res.2.graph.records[u]? = some r) ∧
      ∀ (b : Address) x, m'.session.graph.bodies.size ≤ b → res'.2.graph.bodies[b]? = some x →
        res.2.graph.bodies[b]? = some x := by
  induction h using Relation.ReflTransGen.head_induction_on generalizing res with
  | refl =>
    obtain rfl := he.unique he'
    exact ⟨fun _ _ => id, fun _ _ _ => id⟩
  | @head m m₁ hfirst hrest ih =>
    obtain ⟨res₁, he₁, hreturn⟩ := hfirst.returns he
    obtain ⟨hrecords, hbodies⟩ := ih (hfirst.ready hU hr) he₁
    have hx := hreturn.session_extends
    refine ⟨fun u r hu => hx.record u r (hrecords u r hu), fun b x hb hxb => ?_⟩
    refine hx.body b x (hbodies b x hb hxb) fun hwalk => ?_
    -- A body that is walked over was there before anything was handed on.
    obtain ⟨body, hbody, hlt⟩ : ∃ body, m.task.body? = some body ∧
        body < m.session.graph.bodies.size := by
      have htask := hr.task
      cases hm : m.task with
      | walk body fields =>
        rw [hm] at htask
        obtain ⟨_, _, _, -, hwalking⟩ := htask
        exact ⟨body, rfl, hwalking.body_lt⟩
      | _ =>
        rw [hm] at hwalk
        cases hwalk
    obtain rfl : body = b := Option.some.inj (hbody.symm.trans hwalk)
    have hle := hfirst.bodies_le.trans (bodies_le hrest)
    exact Nat.lt_irrefl _ (Nat.lt_of_lt_of_le hlt (hle.trans hb))

end Job.Leads

end ToolCatalog
