import ToolCatalog.Proofs.Seating

/-!
Every run of the compiler that meets nothing while it is pending keeps the chart of its session.
-/
namespace ToolCatalog

variable {defs : Definitions} {U : TypeExpr → Prop} {P : List Key} {free : Option Address}
  {s s' s₁ s₂ : Session} {L L' L₁ : Chart} {t : TypeExpr} {a b : Address} {q : Seat} {name : String}
  {c : ObjectClass}

/-! ## Object classes -/

theorem Session.withObject_known? (s : Session) (name : String) (c : ObjectClass) (k : Key) :
    (s.withObject (.declared name) c).known? k
      = if .declared name = k then some s.graph.records.size else s.known? k := by
  have h : ((s.withBody.withRecord (objectRecord c s.graph.bodies.size)).remember
      (.declared name) s.graph.records.size).known? k
        = if .declared name = k then some s.graph.records.size else s.known? k := by
    rw [Session.known?_remember]
    simp [TypeExpr.watchable, TypeExpr.key, Session.known?, Session.withRecord, Session.withBody]
  unfold Session.withObject
  cases c.unknownName with
  | none => exact h
  | some unknown => exact ((SameWork.report _ _).known? k).trans h

theorem Session.isSome_known?_withObject {k : Key} (name : String) (c : ObjectClass)
    (h : (s.known? k).isSome) : ((s.withObject (.declared name) c).known? k).isSome := by
  rw [withObject_known?]
  split
  · rfl
  · exact h

theorem Session.withObject_knows (s : Session) (c : ObjectClass) {n : String}
    (h : n = name ∨ s.Knows n) : (s.withObject (.declared name) c).Knows n := by
  rcases h with rfl | h
  · rw [Knows, withObject_known?, if_pos rfl]
    rfl
  · exact isSome_known?_withObject name c h

section

variable {fs rest : List (String × TypeExpr)} {x : Body}

theorem Seated.withObject (hU : Universe defs U) (hname : U (.declared name))
    (hf : defs.find? name = some (.object c)) (hn : s.known? (.declared name) = none)
    (h : Seated defs U P s L) : Seated defs U P (s.withObject (.declared name) c)
      (L.enter s.graph.records.size (.own (.declared name))) := by
  have hx : s.Extends none (s.withBody.withRecord (objectRecord c s.graph.bodies.size)) :=
    (Session.Extends.withBody s).trans (.withRecord _ _)
  have hbase : (TypeExpr.declared name).core.base defs = .object c := TypeExpr.base_declared hf
  have hsits : Sits defs (s.withBody.withRecord (objectRecord c s.graph.bodies.size))
      (L.enter s.graph.records.size (.own (.declared name))) (.own (.declared name))
      (.declared name) s.graph.records.size := by
    refine .mk (s.withBody.withRecord_record _) ?_ ?_ fun e k d he => ?_
    · rw [Chart.enter_self, TypeExpr.home_of_bare rfl rfl]
      rfl
    · rw [objectRecord_description, TypeExpr.describedBy_of_bare rfl, hbase]
      rfl
    · rw [hbase] at he
      cases he
  have hseated := h.settle hU hname hx (fun _ => rfl) (P := P) (q := .own (.declared name))
    (.inr ⟨rfl, h.next_unseated, fun b => h.unused (p := .own (.declared name)) hn
      fun hk => h.values _ hk hf rfl, .inr ⟨rfl, rfl⟩⟩) hsits (List.Subset.refl P)
    fun k hk => .inl hk
  unfold Session.withObject
  cases c.unknownName with
  | none => exact hseated
  | some unknown =>
    exact hseated.of_sameWork (.report _ _)

/-- The walk of a class makes the descriptor of the class and of what is met first there. -/
theorem Seated.walked (hU : Universe defs U) (hname : U (.declared name))
    (hf : defs.find? name = some (.object c)) (hn : s.known? (.declared name) = none)
    (hs : Seated defs U P s L)
    (h : Grown defs U P (·.root.key = .declared name) (some s.graph.bodies.size)
      (s.withObject (.declared name) c) (L.enter s.graph.records.size (.own (.declared name)))
      s' L')
    (hx : s'.graph.bodies[s.graph.bodies.size]? = some x)
    (hseats : x.Seats defs s' L' name c.fields) :
    Grown defs U P (fun _ => False) none s L s' L' ∧
      s'.known? (.declared name) = some s.graph.records.size := by
  have hstart := hs.withObject hU hname hf hn
  have hrecall := s.withObject_known? name c
  have hcached : s'.cached? (.declared name) = some s.graph.records.size :=
    h.keeps hstart hname (s.withObject_self c name)
  have hself : s'.known? (.declared name) = some s.graph.records.size :=
    Session.known?_of_cached? hcached
  have hbodies : s.graph.bodies.size ≤ (s.withObject (.declared name) c).graph.bodies.size :=
    (Session.Extends.withObject s (.declared name) c).bodies_size
  refine ⟨?_, hself⟩
  constructor
  case growth =>
    exact ((Session.Extends.withObject s (.declared name) c).loosen.trans h.growth).tighten
      (by simp)
  case bodies => exact hbodies.trans h.bodies
  case charts => exact (Chart.below_enter hs.next_unseated).trans h.charts
  case seated => exact h.seated
  case kept => exact fun hk => h.kept (Session.isSome_known?_withObject name c hk)
  case waits =>
    intro k hk hnk
    refine h.waits hk ?_
    rw [hrecall, if_neg (hs.values k hk hf).symm, hnk]
  case new =>
    intro b q hb
    have hnew (hk : q.root.key = .declared name) :
        s.known? q.root.key = none ∧ (s'.known? q.root.key).isSome := by
      rw [hk, hself]
      exact ⟨hn, rfl⟩
    rcases h.new hb with hb | hk | ⟨hnq, hlater⟩
    · rcases Chart.eq_of_enter hb with ⟨-, rfl⟩ | hb
      · exact .inr (.inr (hnew rfl))
      · exact .inl hb
    · exact .inr (.inr (hnew hk))
    · refine .inr (.inr ⟨?_, hlater⟩)
      by_contra hk
      have := Session.isSome_known?_withObject name c (Option.isSome_iff_ne_none.mpr hk)
      simp [hnq] at this
  case filled =>
    intro m o hUm hfm hnm hm
    by_cases he : m = name
    · subst he
      rw [hf] at hfm
      cases hfm
      exact ⟨_, x, ⟨_, hcached, h.growth.record _ _ (s.withObject_record _ c)⟩, Nat.le_refl _,
        hx, hseats⟩
    · refine (h.filled hUm hfm ?_ hm).weaken hbodies
      rw [hrecall, if_neg (fun hk => he (by cases hk; rfl)), hnm]

/-- One more field is entered into a body. -/
theorem Body.Seats.enter (hx : x.Seats defs s L name fs)
    (ht : Sits defs s L (.field name fs.length) t a) (n : String) (optional : Bool) :
    (x.enter n a optional).Seats defs s L name (fs ++ [(n, t)]) := by
  rw [Body.Seats, numbered_append, Entries.ofList_append, Body.enter]
  exact Entries.forall₂_put
    (R := fun (f : TypeExpr × Nat) b => Sits defs s L (.field name f.2) f.1 b) hx ht

theorem Body.Seats.mono (hx : s.Extends free s') (hL : L.Below L')
    (h : x.Seats defs s L name fs) : x.Seats defs s' L' name fs :=
  h.imp fun _ _ ⟨hn, hs⟩ => ⟨hn, hs.mono hx hL⟩

/-- No field of a class that has no descriptor has one. -/
theorem Seated.field_unmade (h : Seated defs U P s L) (hf : defs.find? name = some (.object c))
    (hn : s.known? (.declared name) = none) {i : Nat} (hq : q.root = .field name i) :
    L a ≠ some q := by
  refine h.unused (p := q) ?_ ?_
  · rw [hq]
    exact hn
  · rw [hq]
    exact fun hk => h.values _ hk hf rfl

/-- A body and the chart change when one more field is described and entered. -/
theorem Grown.entered {body n : Address} (hx : s.graph.bodies[body]? = some x)
    (h : Grown defs U P (Seat.field name n).Covers none s L s₁ L₁) (f : Body → Body) :
    Grown defs U P (·.root.key = .declared name) (some body) s L (s₁.withBodyChanged body f)
      L₁ := by
  refine (Grown.imp (fun q hq => ?_) h.loosen).trans ?_ (.later (.withBodyChanged s₁ body f)
    (by simp [Session.withBodyChanged, Graph.modifyBody]) (fun _ => rfl) h.seated)
  · rw [hq.root]
    rfl
  · rintro b hb
    cases hb
    exact (Array.getElem?_eq_some_iff.mp hx).1

/-- While a class is walked, only the fields up to the one that is described have descriptors. -/
theorem Grown.fields_lt {n : Nat} (hrec : s.Knows name)
    (h : Grown defs U P (Seat.field name n).Covers none s L s₁ L₁)
    (hlt : ∀ b q i, L b = some q → q.root = .field name i → i < n) (b : Address) (q : Seat)
    (i : Nat) (hb : L₁ b = some q) (hq : q.root = .field name i) : i < n + 1 := by
  rcases h.new hb with hb | hcov | ⟨hn, -⟩
  · exact Nat.lt_succ_of_lt (hlt b q i hb hq)
  · rw [hcov.root] at hq
    cases hq
    exact Nat.lt_succ_self n
  · rw [hq] at hn
    have hnone : s.known? (.declared name) = none := hn
    exact absurd hrec (by simp [Session.Knows, hnone])

end

/-! ## Derivations -/

/-- What doing a task successfully does to any chart of the session, where nothing is met while it
is pending. -/
def Task.Grows (defs : Definitions) (U : TypeExpr → Prop) (s : Session) (a : Address)
    (s' : Session) : Task → Prop
  | .field t known => ∀ P L p, (∀ an ∈ known, t.Analysed defs an) → U t → Seated defs U P s L →
      Clear defs s.Knows P t → p.Vacant P s L →
      ∃ L', Grown defs U P p.Covers none s L s' L' ∧ Sits defs s' L' p t a
  | .inner an => ∀ t P L p, t.Analysed defs an → U t → Seated defs U P s L →
      Clear defs s.Knows P t → p.Vacant P s L → s.cached? t = none →
      ∃ L' r, Grown defs U (t.outerKeys ++ P)
        (fun q => t.sharesCore defs = false ∧ (t.home defs p).below.Covers q) none s L s' L' ∧
        Underlies defs s' L' p t a r
  | .object name c => ∀ P L, defs.find? name = some (.object c) → U (.declared name) →
      Seated defs U P s L →
      (¬s.Knows name → ∀ f ∈ c.fields, Clear defs (fun n => n = name ∨ s.Knows n) P f.2) →
      ∃ L', Grown defs U P (fun _ => False) none s L s' L' ∧
        s'.known? (.declared name) = some a
  | .walk body fields => ∀ P L name c fs x, defs.find? name = some (.object c) →
      U (.declared name) → c.fields = fs ++ fields → s.Knows name →
      s.graph.bodies[body]? = some x → x.Seats defs s L name fs → Seated defs U P s L →
      (∀ f ∈ fields, Clear defs s.Knows P f.2) →
      (∀ b q i, L b = some q → q.root = .field name i → i < fs.length) →
      ∃ L' x', Grown defs U P (·.root.key = .declared name) (some body) s L s' L' ∧
        s'.graph.bodies[body]? = some x' ∧ x'.Seats defs s' L' name c.fields

namespace Task.Grows

variable {an : Analysis} {e : TypeExpr} {fs rest : List (String × TypeExpr)} {body : Address}
  {n : String}

/-- What stands under the layers is an object class. -/
theorem object (hU : Universe defs U) (hi : an.inner = .declared name) (hb : an.base = .object c)
    (h : Task.Grows defs U s a s' (.object name c)) : Task.Grows defs U s a s' (.inner an) := by
  rintro t P L p ⟨d, -, rfl⟩ ht hs hclear - -
  change t.core = .declared name at hi
  change t.core.base defs = .object c at hb
  obtain ⟨m, hm, hf⟩ := TypeExpr.base_object hb
  obtain rfl : name = m := by
    rw [hi] at hm
    cases hm
    rfl
  obtain ⟨L', hgrown, hrec⟩ := h _ L hf (hi ▸ hU.core ht) (hs.outer t) fun hn f hfm =>
    (hclear.field hi hf hn hfm).mono (fun _ h => h) TypeExpr.outerKeys_append_subset
  have hcached : s'.cached? t.core = some a := by
    rw [hi]
    exact hrec
  obtain ⟨r, hu⟩ := hgrown.seated.underlies hU ht
    (TypeExpr.sharesCore_of_object (congrArg Base.isObject hb)) hcached p
  exact ⟨L', r, hgrown.imp fun _ => False.elim, hu⟩

/-- What stands under the layers is remembered. -/
theorem shared (hU : Universe defs U) (hf : an.constraints = [])
    (hc : s.cached? an.inner = some a) : Task.Grows defs U s a s (.inner an) := by
  rintro t P L p ⟨d, -, rfl⟩ ht hs - - -
  have hsh : t.sharesCore defs = true :=
    TypeExpr.sharesCore_of_free (Session.watchable_of_cached? hc) hf
  obtain ⟨r, hu⟩ := (hs.outer t).underlies hU ht hsh hc p
  exact ⟨L, r, .refl (hs.outer t), hu⟩

/-- What stands under the layers has no part. -/
theorem simple (hU : Universe defs U) (hb : an.base.isObject = false)
    (hc : an.constraints = [] → s.cached? an.inner = none) (hp : an.base.part? = none)
    (hrun : (an.base.noted an.inner.label s).run
      (enterBase an (an.base.recordOf an.constraints 0)) = (.ok a, s')) :
    Task.Grows defs U s a s' (.inner an) := by
  rintro t P L p ⟨d, hmay, rfl⟩ ht hs hclear - -
  rw [TypeExpr.analysisWith_eq] at hb hc hp hrun
  have hnoted := (t.core.base defs).noted_sameWork t.core.label s
  exact enterBase_grows hU ht hs hclear ⟨d, hmay, rfl⟩ hb hc
    (.later (.of_sameWork hnoted) (by rw [hnoted.graph]) hnoted.known? (hs.pending t))
    (c := 0) (by simp [hp]) hrun

/-- What stands under the layers has a part, which is described first. -/
theorem part (hU : Universe defs U) (hb : an.base.isObject = false)
    (hc : an.constraints = [] → s.cached? an.inner = none) (hp : an.base.part? = some e)
    (h : Task.Grows defs U s b s₁ (.field e none))
    (hrun : s₁.run (enterBase an (an.base.recordOf an.constraints b)) = (.ok a, s')) :
    Task.Grows defs U s a s' (.inner an) := by
  rintro t P L p ⟨d, hmay, rfl⟩ ht hs hclear hv hn
  rw [TypeExpr.analysisWith_eq] at hb hc hp hrun
  obtain ⟨L₁, hgrown, hsits⟩ := h _ L (t.partSeat defs p) (by simp) (hU.part ht hp)
    (hs.pending t) (hclear.part hp) (hv.part hs hclear hn hb hc)
  refine enterBase_grows hU ht hs hclear ⟨d, hmay, rfl⟩ hb hc hgrown (fun e' he' => ?_) hrun
  rw [hp, Option.some.injEq] at he'
  exact he' ▸ hsits

/-- A class is remembered, and then its fields are walked. -/
theorem walked (hU : Universe defs U) (hn : s.known? (.declared name) = none)
    (h : Task.Grows defs U (s.withObject (.declared name) c) b s'
      (.walk s.graph.bodies.size c.fields)) :
    Task.Grows defs U s s.graph.records.size s' (.object name c) := by
  intro P L hf hname hs hclear
  have hways (f) (hfm : f ∈ c.fields) : Clear defs (s.withObject (.declared name) c).Knows P f.2 :=
    (hclear (by simp [Session.Knows, hn]) f hfm).mono (fun _ => s.withObject_knows c)
      (List.Subset.refl P)
  have hlabels (b q i) (hb : L.enter s.graph.records.size (.own (.declared name)) b = some q)
      (hq : q.root = .field name i) : i < ([] : List (String × TypeExpr)).length := by
    rcases Chart.eq_of_enter hb with ⟨-, rfl⟩ | hb
    · cases hq
    · exact absurd hb (hs.field_unmade hf hn hq)
  obtain ⟨L', x, hgrown, hx, hseats⟩ := h P
    (L.enter s.graph.records.size (.own (.declared name))) name c [] ⟨[], []⟩ hf hname rfl
    (s.withObject_knows c (.inl rfl)) (s.withObject_body _ c) .nil (hs.withObject hU hname hf hn)
    hways hlabels
  exact ⟨L', hs.walked hU hname hf hn hgrown hx hseats⟩

/-- One field of a class is described and entered into the body, and the walk goes on. -/
theorem entered (hU : Universe defs U) (ha : AnalysisRun defs s t none an s₁)
    (h : Task.Grows defs U s₁ b s₂ (.field t (some an)))
    (hrest : Task.Grows defs U (s₂.withBodyChanged body (·.enter n b an.optional)) a s'
      (.walk body rest)) : Task.Grows defs U s a s' (.walk body ((n, t) :: rest)) := by
  intro P L name c fs x hf hname hfs hrec hx hseats hs hclear hlt
  have hsame := ha.sameWork
  have hUt : U t := hU.field hname (TypeExpr.base_declared hf)
    (show (n, t) ∈ c.fields by simp [hfs])
  have hvacant : (Seat.field name fs.length).Vacant P s L :=
    ⟨.inl hrec, fun hb hq => Nat.lt_irrefl _ (hlt _ _ _ hb hq.root)⟩
  obtain ⟨L₁, hgrown, hsits⟩ := h P L (.field name fs.length)
    (by simpa using ha.analysed (by simp)) hUt (hs.of_sameWork hsame)
    ((hclear (n, t) (by simp)).of_sameWork hsame) (hvacant.of_sameWork hsame)
  have hfirst := hgrown.of_sameWork hsame
  have hsecond := hfirst.entered hx (·.enter n b an.optional)
  -- The body is the one from before the field was described.
  have hx₂ : s₂.graph.bodies[body]? = some x := hfirst.growth.body body x hx (by simp)
  have hx₃ : (s₂.withBodyChanged body (·.enter n b an.optional)).graph.bodies[body]?
      = some (x.enter n b an.optional) := by
    simp [Session.withBodyChanged, Graph.modifyBody, Array.getElem?_modify, hx₂]
  have hseats₂ := (hseats.mono hfirst.growth hfirst.charts).enter hsits n an.optional
  obtain ⟨L', x', hlast, hx', hseats'⟩ := hrest P L₁ name c (fs ++ [(n, t)])
    (x.enter n b an.optional) hf hname (by simp [hfs]) (hsecond.kept hrec) hx₃
    (hseats₂.mono (.withBodyChanged s₂ body _) (.refl L₁)) hsecond.seated
    (fun f hfm => (hclear f (by simp [hfm])).later hsecond.growth)
    (by simpa using hfirst.fields_lt hrec hlt)
  refine ⟨L', x', hsecond.trans ?_ hlast, hx', hseats'⟩
  rintro b hb
  cases hb
  exact (Array.getElem?_eq_some_iff.mp hx).1

end Task.Grows

/-- Whatever succeeds keeps the chart. -/
theorem Evaluates.grows (hU : Universe defs U) {task : Task}
    {res : Except CompileFault Address × Session} {names : List String}
    (h : Evaluates defs s task res names) :
    ∀ a s', res = (.ok a, s') → task.Grows defs U s a s' := by
  induction h with
  | kept h =>
    rintro a s' he P L p - ht hs - -
    cases he
    exact ⟨L, .refl hs, (hs.sits ht h).anywhere (Session.watchable_of_cached? h) p⟩
  | barred => nofun
  | @layered s t known an s₁ a₁ s₂ names h ha _ ih =>
    intro a s' he P L p hk ht hs hclear hv
    have hsame := ha.sameWork
    obtain ⟨L₁, r, hgrown, hu⟩ := ih a₁ s₂ rfl t P L p (ha.analysed hk) ht
      (hs.of_sameWork hsame) (hclear.of_sameWork hsame) (hv.of_sameWork hsame)
      (by rwa [hsame.cached?])
    exact addLayers_grows hU ht hs hclear hv h (ha.analysed hk) (hgrown.of_sameWork hsame) hu he
  | object hi hb _ ih => exact fun a s' he => .object hU hi hb (ih a s' he)
  | shared _ hf hc =>
    intro a s' he
    cases he
    exact .shared hU hf hc
  | simple hb hc hp => exact fun a s' he => .simple hU hb hc hp he
  | @part s an e r s₁ names hb hc hp _ ih =>
    intro a s' he
    cases r with
    | error f =>
      rw [Except.bind, run_enterBase_error] at he
      cases he
    | ok b => exact .part hU hb hc hp (ih b s₁ rfl) he
  | known h =>
    rintro a s' he P L - - hs -
    cases he
    exact ⟨L, .refl hs, Session.known?_of_cached? h⟩
  | @walked s name c r s₁ names h _ ih =>
    intro a s' he
    cases r with
    | error e => cases he
    | ok b =>
      cases he
      exact .walked hU h (ih b s₁ rfl)
  | done =>
    rintro a s' he P L name c fs x hf hname hfs hrec hx hseats hs - -
    cases he
    rw [List.append_nil] at hfs
    exact ⟨L, x, .refl hs, hx, hfs ▸ hseats⟩
  | stuck => nofun
  | @entered s body n t rest an s₁ a₁ s₂ res names names' ha _ _ ihd ihrest =>
    exact fun a s' he => .entered hU ha (ihd a₁ s₂ rfl) (ihrest a s' he)

end ToolCatalog
