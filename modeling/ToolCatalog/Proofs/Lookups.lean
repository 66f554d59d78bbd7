import ToolCatalog.Proofs.Jobs
import ToolCatalog.Proofs.Sharing

/-!
How many descriptors an expression gets.

Before a descriptor is made it is looked up under the key of its expression, and what is found is
never forgotten. But only an object class is remembered before its fields are walked. An expression
that is met again while its descriptor is pending is looked up in vain; it gets a second descriptor,
which takes the place of the first one in the memo. Any other expression has exactly one.
-/
namespace ToolCatalog

/-! ## Looking up -/

/-- Before a task makes a descriptor, it looks for one under a key. -/
def Task.LooksUp (k : Key) : Task → Prop
  | .field t _ => t.watchable = true ∧ t.key = k
  | .inner an => an.base.isObject = false ∧ an.constraints = [] ∧ an.inner.watchable = true ∧
      an.inner.key = k
  | .object name _ => .declared name = k
  | .walk _ _ => False

/-- A task looks under a key and remembers a descriptor of its own there only when it is done: that
of a value without constraints, or that of layers which stand over a value or add something. -/
def Task.Pends (defs : Definitions) (k : Key) : Task → Prop
  | .field t _ => k ∈ t.outerKeys ∧
      (t.enlarges defs = true ∨ (t.core.base defs).isObject = false)
  | .inner an => Task.LooksUp k (.inner an)
  | .object _ _ | .walk _ _ => False

namespace Job

/-- A descriptor that there is under a key when a job begins, or to which it comes when it looks
there. -/
inductive Finds (defs : Definitions) (k : Key) (m : Job) : Address → Prop
  | remembered {a} (h : m.session.known? k = some a) : Finds defs k m a
  | described {a s'} (hl : m.task.LooksUp k) (he : m.Comes defs (.ok a, s')) : Finds defs k m a

/-- A job comes to a descriptor under a key, and leads to another one that looks there as well while
the descriptor is pending. -/
structure MeetsAgain (defs : Definitions) (k : Key) (m : Job) : Prop where
  pends : m.task.Pends defs k
  comes : ∃ a s', m.Comes defs (.ok a, s')
  again : ∃ m', Relation.TransGen (HandsOn defs) m m' ∧ m'.task.LooksUp k

end Job

variable {defs : Definitions} {U : TypeExpr → Prop} {s s' s₁ : Session} {t : TypeExpr}
  {an : Analysis} {a b : Address} {k : Key} {name : String} {c : ObjectClass} {task : Task}
  {names : List String} {m m' : Job} {res res' : Except CompileFault Address × Session}

theorem Task.Pends.looksUp (h : task.Pends defs k) : task.LooksUp k := by
  cases task with
  | field t known =>
    obtain ⟨hw, -, hk⟩ := TypeExpr.mem_outerKeys.mp h.1
    exact ⟨hw, hk.symm⟩
  | inner an => exact h
  | object name c => cases h
  | walk body fields => cases h

/-! ## What is remembered -/

/-- Layers enter a descriptor under the key of the expression: the one under them if they add
nothing, otherwise a new one. -/
theorem addLayers_known? (s : Session) (t : TypeExpr) (an : Analysis) (a : Address) :
    ∃ b s', s.run (addLayers t an a) = (.ok b, s') ∧
      (∀ k, s'.known? k = if t.watchable = true ∧ t.key = k then some b else s.known? k) ∧
      (an.adds (s.graph.record a) = false → b = a) ∧
      (an.adds (s.graph.record a) = true → b = s.graph.records.size) := by
  have h := addLayers_run s t an a
  generalize s.run (addLayers t an a) = res at h ⊢
  cases h with
  | bare hadd =>
    refine ⟨a, _, rfl, fun k => s.known?_remember t a k, fun _ => rfl, fun h => ?_⟩
    rw [hadd] at h
    cases h
  | @decorated s' hadd hs =>
    refine ⟨_, _, rfl, fun k => ?_, fun h => ?_, fun _ => by rw [hs.graph]⟩
    · rw [Session.known?_remember, ← hs.known? k]
      rfl
    · rw [hadd] at h
      cases h

/-- A base that is entered gets the next address; without constraints it is remembered. -/
theorem enterBase_ok {record : Except CompileFault Record}
    (h : s.run (enterBase an record) = (.ok a, s')) : a = s.graph.records.size ∧
      ∀ k, s'.known? k = if an.constraints = [] ∧ an.inner.watchable = true ∧ an.inner.key = k
        then some a else s.known? k := by
  cases record with
  | error e => cases h
  | ok r =>
    rw [run_enterBase_ok] at h
    cases h
    refine ⟨rfl, fun k => ?_⟩
    by_cases hf : an.constraints = []
    · simp only [hf, List.isEmpty_nil, if_true, true_and]
      exact Session.known?_remember _ an.inner s.graph.records.size k
    · have hf' : an.constraints.isEmpty = false := by simpa using hf
      simp only [hf, hf', Bool.false_eq_true, if_false, false_and]
      rfl

/-- Entering a base changes at most what is remembered for the base. -/
theorem enterBase_known? (s : Session) (an : Analysis) (record : Except CompileFault Record)
    (hn : ¬(an.constraints = [] ∧ an.inner.watchable = true ∧ an.inner.key = k)) :
    (s.run (enterBase an record)).2.known? k = s.known? k := by
  cases record with
  | error e => rfl
  | ok r =>
    rw [run_enterBase_ok]
    exact ((enterBase_ok (run_enterBase_ok an r s)).2 k).trans (if_neg hn)

/-- What is looked up in vain is not remembered. -/
theorem Session.known?_of_missed (h : s.cached? t = none) (hw : t.watchable = true)
    (hk : t.key = k) : s.known? k = none := by
  rwa [← hk, ← s.cached?_of_watchable hw]

namespace Evaluates

/-- What is remembered when a task begins is remembered when it ends. -/
theorem keeps_known (h : Evaluates defs s task res names) (hk : s.known? k = some a) :
    res.2.known? k = some a := by
  -- Nothing is entered under a key but by a task that looked there in vain when it began.
  have hfound {s : Session} {t : TypeExpr} (hk : s.known? k = some a) (hc : s.cached? t = none)
      (hw : t.watchable = true) : t.key ≠ k := by
    intro hkey
    rw [Session.known?_of_missed hc hw hkey] at hk
    cases hk
  induction h with
  | kept _ | shared _ _ _ | known _ | done => exact hk
  | barred _ ha _ ih | stuck ha _ ih => exact ih (by rwa [ha.sameWork.known?])
  | @layered s t known an s₁ a₁ s₂ names h ha _ ih =>
    have hk₂ : s₂.known? k = some a := ih (by rwa [ha.sameWork.known?])
    obtain ⟨b, s', hrun, hknown, -⟩ := addLayers_known? s₂ t an a₁
    rw [hrun, hknown, if_neg fun hw => hfound hk h hw.1 hw.2, hk₂]
  | object _ _ _ ih => exact ih hk
  | @simple s an _ hc _ =>
    rw [enterBase_known? _ _ _ fun hw => hfound hk (hc hw.1) hw.2.1 hw.2.2,
      (an.base.noted_sameWork _ s).known?, hk]
  | part _ hc _ _ ih =>
    rw [enterBase_known? _ _ _ fun hw => hfound hk (hc hw.1) hw.2.1 hw.2.2]
    exact ih hk
  | walked h _ ih =>
    have hne : Key.declared _ ≠ k := hfound hk h rfl
    exact ih (by rwa [Session.withObject_known?, if_neg hne])
  | entered ha _ _ ihd ihrest => exact ihrest (ihd (by rwa [ha.sameWork.known?]))

/-- What a task comes to is remembered under the key that it looked up. -/
theorem known_of_looksUp (h : Evaluates defs s task (.ok a, s') names) (hl : task.LooksUp k) :
    s'.known? k = some a := by
  generalize hres : (Except.ok a, s') = res at h
  cases h with
  | kept hc =>
    cases hres
    obtain ⟨-, rfl⟩ := hl
    exact Session.known?_of_cached? hc
  | barred => cases hres
  | @layered s t known an s₁ a₁ s₂ names _ _ _ =>
    obtain ⟨b, s₃, hrun, hknown, -⟩ := addLayers_known? s₂ t an a₁
    obtain ⟨hw, hk⟩ := hl
    rw [hrun] at hres
    cases hres
    rw [hknown, if_pos ⟨hw, hk⟩]
  | object _ hb _ =>
    obtain ⟨hv, -⟩ := hl
    rw [hb] at hv
    cases hv
  | shared _ _ hc =>
    cases hres
    obtain ⟨-, -, -, rfl⟩ := hl
    exact Session.known?_of_cached? hc
  | simple | part =>
    rw [(enterBase_ok hres.symm).2 k, if_pos hl.2]
  | known hc =>
    cases hres
    obtain rfl := hl
    exact Session.known?_of_cached? hc
  | @walked _ name c r s₁ names _ hw =>
    cases r with
    | error e => cases hres
    | ok b =>
      cases hres
      obtain rfl := hl
      exact hw.keeps_known (by rw [Session.withObject_known?, if_pos rfl])
  | done => cases hl
  | stuck => cases hres
  | entered => cases hl

/-- What comes to be remembered while a task is done was looked up in vain, by that task or by one
that it leads to. -/
theorem looked_up (h : Evaluates defs s task res names) (hn : s.known? k = none)
    (hk : res.2.known? k = some a) : ∃ m, Job.Leads defs ⟨s, task⟩ m ∧
      m.session.known? k = none ∧ m.task.LooksUp k := by
  induction h generalizing a with
  | kept _ | shared _ _ _ | known _ | done =>
    rw [hn] at hk
    cases hk
  | barred h ha _ ih =>
    obtain ⟨m, hm, hlook⟩ := ih (by rwa [ha.sameWork.known?]) hk
    exact ⟨m, .head (.inner h ha) hm, hlook⟩
  | @layered s t known an s₁ a₁ s₂ names h ha _ ih =>
    obtain ⟨b, s', hrun, hknown, -⟩ := addLayers_known? s₂ t an a₁
    rw [hrun, hknown] at hk
    by_cases hw : t.watchable = true ∧ t.key = k
    · exact ⟨_, .refl, hn, hw⟩
    · rw [if_neg hw] at hk
      obtain ⟨m, hm, hlook⟩ := ih (by rwa [ha.sameWork.known?]) hk
      exact ⟨m, .head (.inner h ha) hm, hlook⟩
  | object hi hb _ ih =>
    obtain ⟨m, hm, hlook⟩ := ih hn hk
    exact ⟨m, .head (.object hi hb) hm, hlook⟩
  | @simple s an hb hc hp =>
    by_cases hw : an.constraints = [] ∧ an.inner.watchable = true ∧ an.inner.key = k
    · exact ⟨_, .refl, hn, hb, hw⟩
    · rw [enterBase_known? _ _ _ hw, (an.base.noted_sameWork _ s).known?, hn] at hk
      cases hk
  | @part s an e r s₁ names hb hc hp _ ih =>
    by_cases hw : an.constraints = [] ∧ an.inner.watchable = true ∧ an.inner.key = k
    · exact ⟨_, .refl, hn, hb, hw⟩
    · rw [enterBase_known? _ _ _ hw] at hk
      obtain ⟨m, hm, hlook⟩ := ih hn hk
      exact ⟨m, .head (.part hb hc hp) hm, hlook⟩
  | @walked s name c r s' names h _ ih =>
    by_cases hw : .declared name = k
    · exact ⟨_, .refl, hn, hw⟩
    · obtain ⟨m, hm, hlook⟩ := ih (by rwa [Session.withObject_known?, if_neg hw]) hk
      exact ⟨m, .head (.walk h) hm, hlook⟩
  | stuck ha _ ih =>
    obtain ⟨m, hm, hlook⟩ := ih (by rwa [ha.sameWork.known?]) hk
    exact ⟨m, .head (.first ha) hm, hlook⟩
  | @entered s body name t rest an s₁ b s₂ res names names' ha hd _ ihd ihrest =>
    cases hs : s₂.known? k with
    | some b =>
      obtain ⟨m, hm, hlook⟩ := ihd (by rwa [ha.sameWork.known?]) hs
      exact ⟨m, .head (.first ha) hm, hlook⟩
    | none =>
      obtain ⟨m, hm, hlook⟩ := ihrest hs hk
      exact ⟨m, .head (.rest ha hd) hm, hlook⟩

end Evaluates

/-! ## What is found -/

/-- Whatever is found when a job begins is remembered when it ends. -/
theorem Job.Finds.known (h : m.Finds defs k a) (he : m.Comes defs res) :
    res.2.known? k = some a := by
  cases h with
  | remembered hk =>
    obtain ⟨_, he⟩ := he
    exact he.keeps_known hk
  | described hl he' =>
    obtain rfl := he.unique he'
    obtain ⟨_, he⟩ := he
    exact he.known_of_looksUp hl

/-- A task under the layers of an expression that is not pending comes to what is remembered for the
expression then, if anything is. -/
theorem Evaluates.inner_shared (hU : Universe defs U) (hi : Invariant defs U s) (ht : U t)
    (ha : t.Analysed defs an) (h : Evaluates defs s (.inner an) (.ok a, s') names)
    (hplain : t.enlarges defs = false)
    (hb : t.peel.1 = [] ∨ (t.core.base defs).isObject = true) (hw : t.watchable = true)
    (hk : s'.known? t.key = some b) : a = b := by
  have hp := h.inner_preserves hU hi ht ha
  obtain ⟨d, -, rfl⟩ := ha
  by_cases hobject : (t.core.base defs).isObject = true
  -- Layers that add nothing are another name for the descriptor of the class.
  · obtain ⟨r, hstands⟩ := hp.result a rfl
    cases hstands with
    | @object c _ hc hcore _ =>
      have hcached : s'.cached? t = some b := by rwa [s'.cached?_of_watchable hw]
      obtain ⟨a₀, hcore', hrefers⟩ := (hp.inv.shows ht hcached).refers hc
      rw [hcore', Option.some.injEq] at hcore
      rw [hrefers.itself hplain, hcore]
    | value hv _ _ _ =>
      rw [hv] at hobject
      cases hobject
  -- Without layers the task is about the expression itself.
  · have hbare : t.peel.1 = [] := hb.resolve_right hobject
    have hcore : t.core = t := TypeExpr.core_of_bare hbare
    have hlook : Task.LooksUp t.key (.inner (t.analysisWith defs d)) := by
      refine ⟨Bool.eq_false_iff.mpr hobject, ?_, ?_, ?_⟩
      · change t.layerConstraints = []
        rw [TypeExpr.layerConstraints, hbare]
        rfl
      · change t.core.watchable = true
        rwa [hcore]
      · change t.core.key = t.key
        rw [hcore]
    rw [h.known_of_looksUp hlook, Option.some.injEq] at hk
    exact hk

/-- What is remembered when a job that was handed on comes to an end is remembered when the one that
handed it on does, unless that one was pending. -/
theorem Returns.keeps_known (hU : Universe defs U) (hr : m.Ready defs U)
    (hfirst : HandsOn defs m m') (he : m.Comes defs res) (he' : m'.Comes defs res')
    (hreturn : Returns defs m m' res' res) (hnot : ¬m.MeetsAgain defs k)
    (hk : res'.2.known? k = some a) : res.2.known? k = some a := by
  obtain ⟨_, he'⟩ := he'
  -- A pending job has led to whoever remembered something in the meantime.
  have hpending (hpends : m.task.Pends defs k) (hnone : m'.session.known? k = none)
      (hok : ∃ b, res.1 = .ok b) : False := by
    obtain ⟨m₁, hleads, -, hlook⟩ := he'.looked_up hnone hk
    obtain ⟨b, hb⟩ := hok
    exact hnot ⟨hpends, ⟨b, res.2, by rwa [← hb]⟩, m₁, .head' hfirst hleads, hlook⟩
  cases hreturn with
  | failed | object | walked | rest => exact hk
  | fields hrest => exact hrest.keeps_known hk
  | @base s an e b s₁ hb hc =>
    by_cases hw : an.constraints = [] ∧ an.inner.watchable = true ∧ an.inner.key = k
    · cases hrec : an.base.recordOf an.constraints b with
      | error f => exact hk
      | ok r =>
        refine (hpending ⟨hb, hw⟩ (Session.known?_of_missed (hc hw.1) hw.2.1 hw.2.2) ?_).elim
        exact ⟨_, by rw [hrec, run_enterBase_ok]⟩
    · rwa [enterBase_known? _ _ _ hw]
  | @layers s t known an s₁ a₀ s₂ h ha =>
    obtain ⟨b, s', hrun, hknown, hbare, -⟩ := addLayers_known? s₂ t an a₀
    rw [hrun, hknown]
    by_cases hw : t.watchable = true ∧ t.key = k
    · rw [if_pos hw]
      obtain ⟨hwatch, rfl⟩ := hw
      obtain ⟨ht, hanalysis⟩ := hr.task
      have hinv : Invariant defs U s₁ := hr.inv.of_sameWork ha.sameWork
      by_cases hlayers : t.peel.1 ≠ [] ∧
          (t.enlarges defs = true ∨ (t.core.base defs).isObject = false)
      · have hmissed : s₁.known? t.key = none := by
          rw [ha.sameWork.known?, Session.known?_of_missed h hwatch rfl]
        have hpends : Task.Pends defs t.key (.field t known) :=
          ⟨TypeExpr.mem_outerKeys.mpr ⟨hwatch, hlayers.1, rfl⟩, hlayers.2⟩
        exact (hpending hpends hmissed ⟨b, by rw [hrun]⟩).elim
      · have hplain : t.enlarges defs = false := by
          by_cases hpeel : t.peel.1 = []
          · exact TypeExpr.enlarges_of_bare hpeel
          · exact Bool.eq_false_iff.mpr fun hadd => hlayers ⟨hpeel, .inl hadd⟩
        have hshared : t.peel.1 = [] ∨ (t.core.base defs).isObject = true := by
          by_cases hpeel : t.peel.1 = []
          · exact .inl hpeel
          · exact .inr (Bool.eq_true_of_not_eq_false fun hv => hlayers ⟨hpeel, .inr hv⟩)
        have hp := he'.inner_preserves hU hinv ht (ha.analysed hanalysis)
        obtain ⟨record, hstands⟩ := hp.result a₀ rfl
        have hsame : a₀ = a :=
          he'.inner_shared hU hinv ht (ha.analysed hanalysis) hplain hshared hwatch hk
        obtain ⟨d, hmay, rfl⟩ := ha.analysed hanalysis
        rw [hbare, hsame]
        rw [Graph.record_of_getElem? hstands.record, hstands.adds_eq hmay, hplain]
    · rwa [if_neg hw]

/-- Whatever is found by a job that one leads to is remembered at the end, unless a job was pending
and led back to the key. -/
theorem Job.Leads.known (hU : Universe defs U) (h : m.Leads defs m') (hr : m.Ready defs U)
    (he : m.Comes defs res) (hnot : ∀ m₁, m.Leads defs m₁ → ¬m₁.MeetsAgain defs k)
    (hf : m'.Finds defs k a) : res.2.known? k = some a := by
  induction h using Relation.ReflTransGen.head_induction_on generalizing res with
  | refl => exact hf.known he
  | @head m m₁ hfirst hrest ih =>
    obtain ⟨res₁, he₁, hreturn⟩ := hfirst.returns he
    have hk : res₁.2.known? k = some a :=
      ih (hfirst.ready hU hr) he₁ fun m₂ h₂ => hnot m₂ (.head hfirst h₂)
    exact hreturn.keeps_known hU hr hfirst he he₁ (hnot m .refl) hk

/-- What is remembered when a job begins is remembered when it hands on another one. -/
theorem HandsOn.keeps_known (h : HandsOn defs m m') (hk : m.session.known? k = some a) :
    m'.session.known? k = some a := by
  cases h with
  | inner _ ha | first ha => rwa [ha.sameWork.known?]
  | object _ _ | part _ _ _ => exact hk
  | @walk s name c h =>
    have hne : Key.declared name ≠ k := by
      intro hkey
      rw [Session.known?_of_missed h rfl hkey] at hk
      cases hk
    rwa [Session.withObject_known?, if_neg hne]
  | rest ha hd => exact hd.keeps_known (by rwa [ha.sameWork.known?])

theorem Job.Leads.keeps_known (h : m.Leads defs m') (hk : m.session.known? k = some a) :
    m'.session.known? k = some a := by
  induction h with
  | refl => exact hk
  | tail _ hlast ih => exact hlast.keeps_known ih

/-- What is remembered when a job begins is all that is found by the jobs to which it leads. -/
theorem Job.Leads.finds_eq (h : m.Leads defs m') (hk : m.session.known? k = some a)
    (hf : m'.Finds defs k b) : b = a := by
  have hk' : m'.session.known? k = some a := Job.Leads.keeps_known h hk
  cases hf with
  | remembered hb => exact Option.some.inj (hb.symm.trans hk')
  | described hl he =>
    have hend : _ = some b := Job.Finds.known (.described hl he) he
    obtain ⟨_, he⟩ := he
    exact Option.some.inj (hend.symm.trans (he.keeps_known hk'))

/-! ## Being met again -/

/-- The descriptor that a job looks up or makes is there when the job comes to an end. -/
theorem Job.Comes.lt_records (hU : Universe defs U) (hr : m.Ready defs U)
    (he : m.Comes defs (.ok a, s')) (hl : m.task.LooksUp k) : a < s'.graph.records.size := by
  obtain ⟨_, he⟩ := he
  obtain ⟨s, task⟩ := m
  obtain ⟨hi, htask⟩ := hr
  cases task with
  | field t known => exact ((he.field_preserves hU hi htask).result a rfl).lt_records
  | inner an =>
    obtain ⟨t, ht, ha⟩ := htask
    obtain ⟨r, hs⟩ := (he.inner_preserves hU hi ht ha).result a rfl
    exact (Array.getElem?_eq_some_iff.mp hs.record).1
  | object name c => exact ((he.object_preserves hU hi htask).result a rfl).lt_records
  | walk body fields => cases hl

/-- What a job comes to that one leads to is there when the first one comes to an end. -/
theorem Job.Leads.lt_records (hU : Universe defs U) (h : m.Leads defs m') (hr : m.Ready defs U)
    (he : m.Comes defs res) (he' : m'.Comes defs (.ok b, s')) (hl : m'.task.LooksUp k) :
    b < res.2.graph.records.size := by
  have hlt := he'.lt_records hU (Job.Leads.ready hU h hr) hl
  have hthere := (Job.Leads.session_keeps hU h hr he he').1 b _ (Array.getElem?_eq_getElem hlt)
  exact (Array.getElem?_eq_some_iff.mp hthere).1

/-- A value gets its descriptor after all that it leads to. -/
theorem HandsOn.lt_inner (hU : Universe defs U) (hr : Job.Ready defs U ⟨s, .inner an⟩)
    (hb : an.base.isObject = false) (hfirst : HandsOn defs ⟨s, .inner an⟩ m)
    (h : m.Leads defs m') (he : Job.Comes defs ⟨s, .inner an⟩ (.ok a, s'))
    (he' : m'.Comes defs (.ok b, s₁)) (hl : m'.task.LooksUp k) : b < a := by
  obtain ⟨res, hcomes, hreturn⟩ := hfirst.returns he
  have hlt := Job.Leads.lt_records hU h (hfirst.ready hU hr) hcomes he' hl
  cases hfirst with
  | object _ hobject =>
    rw [hobject] at hb
    cases hb
  | part _ _ _ =>
    generalize hres : (Except.ok a, s') = res' at hreturn
    cases hreturn with
    | failed => cases hres
    | base _ _ =>
      rw [(enterBase_ok hres.symm).1]
      exact hlt

/-- A pending descriptor is made after all that are found on the way to it. -/
theorem Job.MeetsAgain.lt (hU : Universe defs U) (hr : m.Ready defs U)
    (hp : m.task.Pends defs k) (h : Relation.TransGen (HandsOn defs) m m')
    (he : m.Comes defs (.ok a, s)) (he' : m'.Comes defs (.ok b, s')) (hl : m'.task.LooksUp k) :
    b < a := by
  obtain ⟨m₁, hfirst, hrest⟩ := Relation.TransGen.head'_iff.mp h
  cases hfirst with
  | object _ hobject =>
    obtain ⟨hb, -⟩ := hp
    rw [hobject] at hb
    cases hb
  | part hb hc hpart => exact HandsOn.lt_inner hU hr hb (.part hb hc hpart) hrest he he' hl
  | walk _ | first _ | rest _ _ => cases hp
  | @inner s₀ t known an s₁ hc ha =>
    have hready := (HandsOn.inner hc ha).ready hU hr
    obtain ⟨res, hcomes, hreturn⟩ := (HandsOn.inner hc ha).returns he
    have hlt := Job.Leads.lt_records hU hrest hready hcomes he' hl
    obtain ⟨⟨ht, hanalysis⟩, hkey, hadd⟩ := And.intro hr.task hp
    generalize hres : (Except.ok a, s) = res' at hreturn
    cases hreturn with
    | failed => cases hres
    | @layers _ _ _ _ _ a₀ s₂ _ _ =>
      obtain ⟨c, s₃, hrun, -, hbare, hcopy⟩ := addLayers_known? s₂ t an a₀
      rw [hrun] at hres
      cases hres
      obtain ⟨_, hinner⟩ := hcomes
      obtain ⟨d, hmay, rfl⟩ := ha.analysed hanalysis
      have hinv := hready.inv
      obtain ⟨record, hstands⟩ := (hinner.inner_preserves hU hinv ht ⟨d, hmay, rfl⟩).result a₀ rfl
      rw [Graph.record_of_getElem? hstands.record, hstands.adds_eq hmay] at hbare hcopy
      by_cases henlarge : t.enlarges defs = true
      -- A copy with additions is made last.
      · rw [hcopy henlarge]
        exact hlt
      -- Otherwise it is the value under the layers, which is not what was looked up again.
      · have hvalue : (t.core.base defs).isObject = false := hadd.resolve_left henlarge
        rw [hbare (Bool.eq_false_iff.mpr henlarge)]
        obtain ⟨hw, hlayers, rfl⟩ := TypeExpr.mem_outerKeys.mp hkey
        rcases Relation.ReflTransGen.cases_head hrest with rfl | ⟨m₂, hsecond, hlast⟩
        · obtain ⟨-, hfree, hwatch, hsame⟩ := hl
          exact absurd hsame
            (hU.core_key_ne ht hw hlayers (TypeExpr.sharesCore_of_free hwatch hfree))
        · exact hsecond.lt_inner hU hready hvalue hlast ⟨_, hinner⟩ he' hl

/-- Where a pending key is met again, two different descriptors are found under it. -/
theorem Job.MeetsAgain.finds (hU : Universe defs U) (hr : m.Ready defs U)
    (h : m.MeetsAgain defs k) : ∃ m' a b, m.Leads defs m' ∧ m.Finds defs k a ∧
      m'.Finds defs k b ∧ b ≠ a := by
  obtain ⟨hpends, ⟨a, s, he⟩, m', hagain, hlook⟩ := h
  obtain ⟨⟨r, s'⟩, he', hok⟩ := Job.Leads.comes hagain.to_reflTransGen he
  obtain ⟨b, rfl⟩ := hok ⟨a, rfl⟩
  have hlt := Job.MeetsAgain.lt hU hr hpends hagain he he' hlook
  exact ⟨m', a, b, hagain.to_reflTransGen, .described hpends.looksUp he, .described hlook he',
    Nat.ne_of_lt hlt⟩

/-- No object class is met again while it is pending: it is remembered before it is walked. -/
theorem Job.not_meetsAgain (hr : m.Ready defs U) (hf : defs.find? name = some (.object c)) :
    ¬m.MeetsAgain defs (.declared name) := by
  rintro ⟨hpends, -, -⟩
  obtain ⟨s, task⟩ := m
  obtain ⟨-, htask⟩ := hr
  cases task with
  | field t known =>
    obtain ⟨-, hlayers, hkey⟩ := TypeExpr.mem_outerKeys.mp hpends.1
    obtain rfl := TypeExpr.eq_declared_of_key hkey.symm
    exact hlayers rfl
  | inner an =>
    obtain ⟨t, -, d, -, rfl⟩ := htask
    obtain ⟨hb, -, -, hkey⟩ := hpends
    have hcore : t.core = .declared name := TypeExpr.eq_declared_of_key hkey
    change (t.core.base defs).isObject = false at hb
    rw [hcore, TypeExpr.base_declared hf] at hb
    cases hb
  | object _ _ => cases hpends
  | walk _ _ => cases hpends

end ToolCatalog
