import ToolCatalog.Proofs.Invariant

/-!
The invariant holds before and after every run of the compiler, whether it succeeds or not.

A run that succeeds gives a descriptor of its expression and leaves every object class that it met
first complete. A class that was being walked when the run started stays as far as it was.
-/
namespace ToolCatalog

namespace Session

variable (s : Session) (t : TypeExpr) (c : ObjectClass)

theorem withObject_graph : (s.withObject t c).graph
    = (s.withBody.withRecord (objectRecord c s.graph.bodies.size)).graph := by
  unfold withObject
  cases c.unknownName <;> simp [report]

theorem withObject_cached? (u : TypeExpr) : (s.withObject t c).cached? u
    = ((s.withBody.withRecord (objectRecord c s.graph.bodies.size)).remember t
        s.graph.records.size).cached? u := by
  unfold withObject
  cases c.unknownName with
  | none => rfl
  | some name => exact (SameWork.report _ _).cached? u

theorem withObject_self (name : String) :
    (s.withObject (.declared name) c).cached? (.declared name) = some s.graph.records.size := by
  rw [withObject_cached?, cached?_remember_self _ _ rfl]

theorem withObject_record : (s.withObject t c).graph.records[s.graph.records.size]?
    = some (objectRecord c s.graph.bodies.size) := by
  simp [withObject_graph, withRecord, withBody, Graph.addRecord, Graph.addBody]

theorem withObject_body : (s.withObject t c).graph.bodies[s.graph.bodies.size]?
    = some ⟨[], []⟩ := by
  simp [withObject_graph, withRecord, withBody, Graph.addRecord, Graph.addBody]

theorem withRecord_record (r : Record) :
    (s.withRecord r).graph.records[s.graph.records.size]? = some r := by
  simp [withRecord, Graph.addRecord]

end Session

section

variable {defs : Definitions} {U : TypeExpr → Prop} {s s' : Session} {t : TypeExpr}
  {a : Address} {name : String} {c : ObjectClass}

theorem Session.KeepsClasses.withObject (hn : s.cached? (.declared name) = none) :
    s.KeepsClasses defs (s.withObject (.declared name) c) := by
  constructor
  intro m c' a hf hc
  have hne : (TypeExpr.declared name).key ≠ (TypeExpr.declared m).key := by
    intro hk
    rw [TypeExpr.eq_declared_of_key hk] at hn
    rw [hc] at hn
    cases hn
  rw [s.withObject_cached?, Session.cached?_remember_ne _ _ hne]
  exact hc

/-! ## Steps -/

/-- More records, bodies and reports leave the invariant as it is. -/
theorem Invariant.later (h : Invariant defs U s) (hx : s.Extends none s')
    (hc : ∀ t, s'.cached? t = s.cached? t) : Invariant defs U s' := by
  have hk : s.KeepsClasses defs s' := ⟨fun _ hs => by rwa [hc]⟩
  constructor
  case shows =>
    intro t a ht hs
    rw [hc] at hs
    exact (h.shows ht hs).mono hx hk
  case walked =>
    intro name c a hf hs
    rw [hc] at hs
    obtain ⟨b, x, fs, rest, hr, hb, hfs, hw⟩ := h.walked hf hs
    exact ⟨b, x, fs, rest, hx.record _ _ hr, hx.body _ _ hb (by simp), hfs, hw.mono hx hk⟩
  case own =>
    intro name c m c' b hf hf' hh hh'
    have hcache {n : String} {c : ObjectClass} (hn : s'.Holds n c b) :
        (s.cached? (.declared n)).isSome := by
      obtain ⟨a, ha, -⟩ := hn
      rw [hc] at ha
      simp [ha]
    exact h.own hf hf' (hh.of_later h hx hk hf (hcache hh)) (hh'.of_later h hx hk hf' (hcache hh'))

theorem Invariant.of_sameWork (h : Invariant defs U s) (hs : s.SameWork s') :
    Invariant defs U s' :=
  h.later (.of_sameWork hs) hs.cached?

theorem Invariant.withRecord (h : Invariant defs U s) (r : Record) :
    Invariant defs U (s.withRecord r) :=
  h.later (.withRecord s r) fun _ => rfl

/-- A descriptor of an expression can be remembered for it. -/
theorem Invariant.remember (h : Invariant defs U s) (hU : Universe defs U) (ht : U t)
    (hs : Shows defs s t a)
    (ho : ∀ name c, t = .declared name → defs.find? name = some (.object c) →
      s.cached? t = some a) : Invariant defs U (s.remember t a) := by
  have hx : s.Extends none (s.remember t a) := .remember s t a
  have hk : s.KeepsClasses defs (s.remember t a) := .remember ho
  have hback {name : String} {c : ObjectClass} {a' : Address}
      (hf : defs.find? name = some (.object c))
      (hc : (s.remember t a).cached? (.declared name) = some a') :
      s.cached? (.declared name) = some a' := by
    rcases s.cached?_remember t (.declared name) a with ⟨hkey, -, -, hr⟩ | hr
    · obtain rfl := TypeExpr.eq_declared_of_key hkey
      rw [ho name c rfl hf, ← hr, hc]
    · rw [← hr, hc]
  constructor
  case shows =>
    intro u a' hu hc
    -- What has the key of `t` is `t`, or both are constants, and those share one descriptor.
    rcases s.cached?_remember t u a with ⟨hkey, hwt, hwu, hr⟩ | hr
    · rw [hr, Option.some.injEq] at hc
      subst hc
      rcases hU.same ht hu hwt hwu hkey with rfl | ⟨i, v, j, w, rfl, rfl⟩
      · exact hs.mono hx hk
      · rw [Shows.constant_iff] at hs ⊢
        exact hx.record _ _ hs
    · rw [hr] at hc
      exact (h.shows hu hc).mono hx hk
  case walked =>
    intro name c a' hf hc
    obtain ⟨b, x, fs, rest, hr, hb, hfs, hw⟩ := h.walked hf (hback hf hc)
    exact ⟨b, x, fs, rest, hx.record _ _ hr, hx.body _ _ hb (by simp), hfs, hw.mono hx hk⟩
  case own =>
    intro name c m c' b hf hf' hh hh'
    have hhold {n : String} {c : ObjectClass} (hf : defs.find? n = some (.object c))
        (hn : (s.remember t a).Holds n c b) : s.Holds n c b := by
      obtain ⟨a', ha, -⟩ := id hn
      exact hn.of_later h hx hk hf (by simp [hback hf ha])
    exact h.own hf hf' (hhold hf hh) (hhold hf' hh')

/-- An object class can get its descriptor, with an empty body of its own. -/
theorem Invariant.withObject (h : Invariant defs U s)
    (hf : defs.find? name = some (.object c)) (hn : s.cached? (.declared name) = none) :
    Invariant defs U (s.withObject (.declared name) c) := by
  have hx : s.Extends none (s.withObject (.declared name) c) := .withObject s _ c
  have hk : s.KeepsClasses defs (s.withObject (.declared name) c) := .withObject hn
  have hself := s.withObject_self c name
  have hcases (u : TypeExpr) : u = .declared name ∨
      (s.withObject (.declared name) c).cached? u = s.cached? u := by
    rw [s.withObject_cached?]
    rcases (s.withBody.withRecord (objectRecord c s.graph.bodies.size)).cached?_remember
      (.declared name) u s.graph.records.size with ⟨hkey, -⟩ | hr
    · exact .inl (TypeExpr.eq_declared_of_key hkey.symm)
    · exact .inr hr
  -- The new body is at an address that no other class can have.
  have hbody {m : String} {c' : ObjectClass} {b : Address}
      (hf' : defs.find? m = some (.object c'))
      (hh : (s.withObject (.declared name) c).Holds m c' b) :
      m = name ∧ b = s.graph.bodies.size ∨ s.Holds m c' b ∧ b < s.graph.bodies.size := by
    rcases hcases (.declared m) with hm | hm
    · left
      cases hm
      rw [hf] at hf'
      cases hf'
      obtain ⟨a, ha, hr⟩ := hh
      rw [hself, Option.some.injEq] at ha
      subst ha
      rw [s.withObject_record, Option.some.injEq] at hr
      exact ⟨rfl, (objectRecord_inj hr).symm⟩
    · right
      have hc : (s.cached? (.declared m)).isSome := by
        obtain ⟨a, ha, -⟩ := hh
        simp [← hm, ha]
      have hh' := hh.of_later h hx hk hf' hc
      refine ⟨hh', ?_⟩
      obtain ⟨a, ha, hr⟩ := hh'
      obtain ⟨b', x, -, -, hr', hb, -, -⟩ := h.walked hf' ha
      rw [hr, Option.some.injEq] at hr'
      rw [objectRecord_inj hr']
      exact (Array.getElem?_eq_some_iff.mp hb).1
  constructor
  case shows =>
    intro u a hu hc
    rcases hcases u with rfl | hr
    · rw [hself, Option.some.injEq] at hc
      subst hc
      exact Stands.shows_bare (.object (TypeExpr.base_declared hf) hself (s.withObject_record _ c))
        rfl
    · rw [hr] at hc
      exact (h.shows hu hc).mono hx hk
  case walked =>
    intro m c' a hf' hc
    rcases hcases (.declared m) with hm | hm
    · cases hm
      rw [hf] at hf'
      cases hf'
      rw [hself, Option.some.injEq] at hc
      subst hc
      exact ⟨_, _, [], c.fields, s.withObject_record _ c, s.withObject_body _ c, rfl, .nil⟩
    · rw [hm] at hc
      obtain ⟨b, x, fs, rest, hr, hb, hfs, hw⟩ := h.walked hf' hc
      exact ⟨b, x, fs, rest, hx.record _ _ hr, hx.body _ _ hb (by simp), hfs, hw.mono hx hk⟩
  case own =>
    intro n d m d' b hf₁ hf₂ hh₁ hh₂
    rcases hbody hf₁ hh₁ with ⟨hn₁, hb₁⟩ | ⟨hs₁, hlt₁⟩ <;>
      rcases hbody hf₂ hh₂ with ⟨hn₂, hb₂⟩ | ⟨hs₂, hlt₂⟩
    · rw [hn₁, hn₂]
    · exact absurd (hb₁ ▸ hlt₂) (Nat.lt_irrefl _)
    · exact absurd (hb₂ ▸ hlt₁) (Nat.lt_irrefl _)
    · exact h.own hf₁ hf₂ hs₁ hs₂

/-! ## Walks -/

/-- A class is being walked into a body of its own: some fields are done, the others are left. -/
structure Walking (defs : Definitions) (name : String) (c : ObjectClass) (b : Address)
    (done left : List (String × TypeExpr)) (s : Session) : Prop where
  found : defs.find? name = some (.object c)
  fields : c.fields = done ++ left
  holds : s.Holds name c b
  walked : ∃ x, s.graph.bodies[b]? = some x ∧ Walked defs s done x

namespace Walking

variable {b : Address} {done left rest : List (String × TypeExpr)} {n : String}

theorem mono (h : Walking defs name c b done left s) (hx : s.Extends none s')
    (hk : s.KeepsClasses defs s') : Walking defs name c b done left s' := by
  obtain ⟨x, hb, hw⟩ := h.walked
  exact ⟨h.found, h.fields, h.holds.mono hx hk h.found, x, hx.body _ _ hb (by simp), hw.mono hx hk⟩

theorem start (hf : defs.find? name = some (.object c)) (s : Session) :
    Walking defs name c s.graph.bodies.size [] c.fields (s.withObject (.declared name) c) where
  found := hf
  fields := rfl
  holds := ⟨_, s.withObject_self c name, s.withObject_record _ c⟩
  walked := ⟨_, s.withObject_body _ c, .nil⟩

theorem body_lt (h : Walking defs name c b done left s) : b < s.graph.bodies.size := by
  obtain ⟨x, hb, -⟩ := h.walked
  exact (Array.getElem?_eq_some_iff.mp hb).1

/-- Entering the next field takes the walk one field on. -/
theorem enter (h : Walking defs name c b done ((n, t) :: rest) s) (ht : Shows defs s t a) :
    Walking defs name c b (done ++ [(n, t)]) rest
      (s.withBodyChanged b (·.enter n a t.allowsAbsence)) := by
  obtain ⟨x, hb, hw⟩ := h.walked
  have hx : s.Extends (some b) (s.withBodyChanged b (·.enter n a t.allowsAbsence)) :=
    .withBodyChanged s b _
  have hk : s.KeepsClasses defs (s.withBodyChanged b (·.enter n a t.allowsAbsence)) :=
    .withBodyChanged s b _
  refine ⟨h.found, by simp [h.fields], h.holds.mono hx hk h.found, _, ?_, (hw.snoc ht).mono hx hk⟩
  simp [Session.withBodyChanged, Graph.modifyBody, Array.getElem?_modify, hb]

end Walking

/-- A field can be entered into the body of the class that is being walked. -/
theorem Invariant.entered (h : Invariant defs U s) {b : Address}
    {done rest : List (String × TypeExpr)} {n : String}
    (hwalk : Walking defs name c b done ((n, t) :: rest) s) (hs : Shows defs s t a) :
    Invariant defs U (s.withBodyChanged b (·.enter n a t.allowsAbsence)) := by
  have hx : s.Extends (some b) (s.withBodyChanged b (·.enter n a t.allowsAbsence)) :=
    .withBodyChanged s b _
  have hk : s.KeepsClasses defs (s.withBodyChanged b (·.enter n a t.allowsAbsence)) :=
    .withBodyChanged s b _
  constructor
  case shows =>
    intro u a' hu hc
    exact (h.shows hu hc).mono hx hk
  case walked =>
    intro m c' a' hf' hc
    obtain ⟨b', y, fs', rest', hr', hb', hfs', hw'⟩ := h.walked hf' hc
    by_cases hbb : b' = b
    · subst hbb
      obtain rfl := h.own hwalk.found hf' hwalk.holds ⟨a', hc, hr'⟩
      rw [hwalk.found] at hf'
      cases hf'
      have hnext := hwalk.enter hs
      obtain ⟨x, hb, hw⟩ := hnext.walked
      exact ⟨b', x, _, rest, hr', hb, hnext.fields, hw⟩
    · exact ⟨b', y, fs', rest', hr', hx.body _ _ hb' (by simp [Ne.symm hbb]), hfs', hw'.mono hx hk⟩
  case own => exact h.own

/-! ## Runs -/

/-- What a run leaves behind: an older session with one body free to change has become a newer one,
and a result has the property `P`. -/
structure Preserved {α : Type} (defs : Definitions) (U : TypeExpr → Prop) (free : Option Address)
    (s s' : Session) (r : Except CompileFault α) (P : α → Prop) : Prop where
  growth : s.Extends free s'
  classes : s.KeepsClasses defs s'
  inv : Invariant defs U s'
  result : ∀ a, r = .ok a → P a
  settled : ∀ a, r = .ok a → Settled defs s s'

theorem Preserved.of_sameWork {α : Type} {r : Except CompileFault α} {P : α → Prop}
    {s₁ : Session} (hs : s.SameWork s₁) (h : Preserved defs U none s₁ s' r P) :
    Preserved defs U none s s' r P where
  growth := (Session.Extends.of_sameWork hs).trans h.growth
  classes := (Session.KeepsClasses.of_sameWork hs).trans h.classes
  inv := h.inv
  result := h.result
  settled a ha := (h.settled a ha).of_cached hs.cached?

/-- Every description by `D` keeps the invariant. -/
def Describe.Preserves (defs : Definitions) (U : TypeExpr → Prop) (D : Describe) : Prop :=
  ∀ {s s' t known r}, U t → (∀ an ∈ known, t.Analysed defs an) → Invariant defs U s →
    s.run (D t known) = (r, s') → Preserved defs U none s s' r (Shows defs s' t)

theorem AnalysisRun.optional_eq {an : Analysis} (h : AnalysisRun defs s t none an s') :
    an.optional = t.allowsAbsence := by
  cases h
  rfl

/-- A field of a walk is analysed before it is described. -/
theorem Describe.Preserves.field {D : Describe} (hD : D.Preserves defs U) (ht : U t)
    (hi : Invariant defs U s) {an : Analysis} {s₁ : Session} (ha : AnalysisRun defs s t none an s₁)
    {r : Except CompileFault Address} (hd : s₁.run (D t (some an)) = (r, s')) :
    Preserved defs U none s s' r (Shows defs s' t) :=
  .of_sameWork ha.sameWork (hD ht ha.analysed_known (hi.of_sameWork ha.sameWork) hd)

theorem walkFields_preserves {D : Describe} (hD : D.Preserves defs U) (hg : D.Grows) {b : Address}
    {done fields : List (String × TypeExpr)} (hU : ∀ f ∈ fields, U f.2) {s : Session}
    (hi : Invariant defs U s) (hwalk : Walking defs name c b done fields s)
    {r : Except CompileFault Unit} (h : s.run (walkFields defs D b fields) = (r, s')) :
    Preserved defs U (some b) s s' r fun _ =>
      ∃ x, s'.graph.bodies[b]? = some x ∧ Walked defs s' c.fields x := by
  induction fields generalizing s done with
  | nil =>
    cases h
    obtain ⟨x, hb, hw⟩ := hwalk.walked
    have hall : c.fields = done := by simpa using hwalk.fields
    exact ⟨.refl _ _, .refl _ _, hi, fun _ _ => ⟨x, hb, hall ▸ hw⟩, fun _ _ => .refl _ _⟩
  | cons f rest ih =>
    obtain ⟨n, t⟩ := f
    have hUt : U t := hU (n, t) (by simp)
    have hgrow : s.Extends (some b) (s.run (walkFields defs D b ((n, t) :: rest))).2 :=
      walkFields_extends hg b _ s
    have hcase := walkFields_run defs D s b n t rest
    rw [h] at hgrow hcase
    generalize hres : (r, s') = res at hcase
    cases hcase with
    | @failed an s₁ e s₂ ha hd =>
      cases hres
      have hp := hD.field hUt hi ha hd
      exact ⟨hgrow, hp.classes, hp.inv, nofun, nofun⟩
    | @entered an s₁ a s₂ ha hd =>
      have hp := hD.field hUt hi ha hd
      rw [ha.optional_eq] at hres
      have hwalk₂ := hwalk.mono hp.growth hp.classes
      have hshow : Shows defs s₂ t a := hp.result a rfl
      have hrest := ih (fun f hf => hU f (by simp [hf])) (hp.inv.entered hwalk₂ hshow)
        (hwalk₂.enter hshow) hres.symm
      have hx₃ : s₂.Extends (some b) (s₂.withBodyChanged b (·.enter n a t.allowsAbsence)) :=
        .withBodyChanged s₂ b _
      have hk₃ : s₂.KeepsClasses defs (s₂.withBodyChanged b (·.enter n a t.allowsAbsence)) :=
        .withBodyChanged s₂ b _
      refine ⟨hgrow, (hp.classes.trans hk₃).trans hrest.classes, hrest.inv, hrest.result,
        fun u hok => ?_⟩
      have hlast : Settled defs s₂ s' := ⟨(hrest.settled u hok).complete⟩
      refine (hp.settled a rfl).trans (hx₃.trans hrest.growth) (hk₃.trans hrest.classes) ?_ hlast
      intro m c' b' hf' hn' hh' hbb
      rw [Option.some.injEq] at hbb
      subst hbb
      -- A class that is new to `s` has another body than `c`, which was there before.
      obtain rfl := hp.inv.own hwalk.found hf' hwalk₂.holds hh'
      obtain ⟨a₀, ha₀, -⟩ := hwalk.holds
      rw [hn'] at ha₀
      cases ha₀

theorem describeObject_preserves {D : Describe} (hU : Universe defs U)
    (hD : D.Preserves defs U) (hg : D.Grows) (hname : U (.declared name))
    (hf : defs.find? name = some (.object c)) (hi : Invariant defs U s)
    {r : Except CompileFault Address}
    (h : s.run (describeObject defs D (.declared name) c) = (r, s')) :
    Preserved defs U none s s' r (Shows defs s' (.declared name)) := by
  have hbase : (TypeExpr.declared name).base defs = .object c := TypeExpr.base_declared hf
  have hgrow : s.Extends none (s.run (describeObject defs D (.declared name) c)).2 :=
    describeObject_extends hg _ c s
  have hself := s.withObject_self c name
  have hwalk {r s'} (hn : s.cached? (.declared name) = none)
      (hw : (s.withObject (.declared name) c).run
        (walkFields defs D s.graph.bodies.size c.fields) = (r, s')) :=
    walkFields_preserves hD hg (fun f hfm => hU.field hname hbase hfm) (hi.withObject hf hn)
      (.start hf s) hw
  have hcase := describeObject_run defs D s (.declared name) c
  rw [h] at hgrow hcase
  cases hcase with
  | kept hc =>
    refine ⟨hgrow, .refl _ _, hi, fun a ha => ?_, fun _ _ => .refl _ _⟩
    cases ha
    exact hi.shows hname hc
  | failed hn hw =>
    have hwalk := hwalk hn hw
    exact ⟨hgrow, (Session.KeepsClasses.withObject hn).trans hwalk.classes, hwalk.inv,
      nofun, nofun⟩
  | walked hn hw =>
    have hwalk := hwalk hn hw
    have hcached := hwalk.classes.cached hf hself
    have hrecord := hwalk.growth.record _ _ (s.withObject_record (.declared name) c)
    refine ⟨hgrow, (Session.KeepsClasses.withObject hn).trans hwalk.classes, hwalk.inv,
      fun a ha => ?_, fun _ _ => ⟨?_⟩⟩
    · cases ha
      exact Stands.shows_bare (.object hbase hcached hrecord) rfl
    · intro m c' hf' hn' hs
      by_cases hm : m = name
      · subst hm
        rw [hf] at hf'
        cases hf'
        obtain ⟨x, hx, hwalked⟩ := hwalk.result () rfl
        exact ⟨_, x, ⟨_, hcached, hrecord⟩, hx, hwalked⟩
      -- Any other new class was met on the walk.
      · refine (hwalk.settled () rfl).complete hf' ?_ hs
        have hne : (TypeExpr.declared name).key ≠ (TypeExpr.declared m).key := by
          intro hk
          cases hk
          exact hm rfl
        rw [s.withObject_cached?, Session.cached?_remember_ne _ _ hne]
        exact hn'

theorem PartRun.preserved {D : Describe} (hU : Universe defs U) (hD : D.Preserves defs U)
    (ht : U t) (hi : Invariant defs U s) {r : Except CompileFault Address}
    (h : PartRun D s (t.core.base defs) r s') :
    Preserved defs U none s s' r fun p =>
      ∀ e, (t.core.base defs).part? = some e → Shows defs s' e p := by
  cases h with
  | @part e r s' hpart hd =>
    have hp := hD (hU.part ht hpart) (by simp) hi hd
    refine ⟨hp.growth, hp.classes, hp.inv, fun p hr e' he' => ?_, hp.settled⟩
    rw [hpart, Option.some.injEq] at he'
    exact he' ▸ hp.result p hr
  | simple hpart hs =>
    refine ⟨.of_sameWork hs, .of_sameWork hs, hi.of_sameWork hs, fun p _ e he => ?_, fun _ _ => ?_⟩
    · rw [hpart] at he
      cases he
    · exact .of_same hs.cached?

theorem describeInner_preserves {D : Describe} (hU : Universe defs U) (hD : D.Preserves defs U)
    (hg : D.Grows) (ht : U t) (hi : Invariant defs U s) {an : Analysis}
    (ha : t.Analysed defs an) {r : Except CompileFault Address}
    (h : s.run (describeInner defs D an) = (r, s')) :
    Preserved defs U none s s' r fun a => ∃ record, Stands defs s' t a record := by
  have hgrow : s.Extends none (s.run (describeInner defs D an)).2 := describeInner_extends hg an s
  have hcase := describeInner_run defs D s an
  rw [h] at hgrow hcase
  obtain ⟨d, -, rfl⟩ := ha
  rw [TypeExpr.analysisWith_eq] at hcase
  generalize hres : (r, s') = res at hcase
  cases hcase with
  | @object c hb =>
    obtain ⟨name, hname, hf⟩ := TypeExpr.base_object hb
    simp only [hname] at hres
    have hp := describeObject_preserves hU hD hg (hname ▸ hU.core ht) hf hi hres.symm
    refine ⟨hp.growth, hp.classes, hp.inv, fun a hr => ?_, hp.settled⟩
    obtain ⟨record, hs⟩ := (hp.result a hr).bare rfl
    rw [← hname] at hs
    exact ⟨record, hs.of_core (.inl (congrArg Base.isObject hb))⟩
  | kept hb hf hc =>
    cases hres
    refine ⟨.refl _ _, .refl _ _, hi, fun a hr => ?_, fun _ _ => .refl _ _⟩
    cases hr
    obtain ⟨record, hs⟩ := (hi.shows (hU.core ht) hc).bare t.core_core
    exact ⟨record, hs.of_core (.inr hf)⟩
  | failed hb hc hp =>
    cases hres
    have hp := hp.preserved hU hD ht hi
    exact ⟨hp.growth, hp.classes, hp.inv, nofun, nofun⟩
  | refused hb hc hp hrec =>
    cases hres
    have hp := hp.preserved hU hD ht hi
    exact ⟨hp.growth, hp.classes, hp.inv, nofun, nofun⟩
  | @made p record s₁ hb hc hp hrec =>
    have hp := hp.preserved hU hD ht hi
    have hx : s₁.Extends none (s₁.withRecord record) := .withRecord s₁ record
    have hk : s₁.KeepsClasses defs (s₁.withRecord record) := .withRecord s₁ record
    have hstands : Stands defs (s₁.withRecord record) t s₁.graph.records.size record :=
      .value hb (fun e he => (hp.result p rfl e he).mono hx hk) hrec (s₁.withRecord_record record)
    have hset : Settled defs s (s₁.withRecord record) := ⟨fun hf hn hs =>
      ((hp.settled p rfl).complete hf hn hs).mono hx hk hf (by simp)⟩
    -- Only a descriptor without constraints of layers is kept for the core, which others share.
    by_cases hfree : t.layerConstraints = []
    · simp only [hfree, List.isEmpty_nil, if_true] at hres
      cases hres
      have hcore := (hstands.core hfree).shows_bare t.core_core
      have hclass : ∀ name c, t.core = .declared name → defs.find? name = some (.object c) →
          (s₁.withRecord record).cached? t.core = some s₁.graph.records.size := by
        intro name c hname hf
        rw [hname, TypeExpr.base_declared hf] at hb
        cases hb
      have hk' := Session.KeepsClasses.remember hclass
      have hx' := Session.Extends.remember (s₁.withRecord record) t.core s₁.graph.records.size
      refine ⟨hgrow, (hp.classes.trans hk).trans hk',
        (hp.inv.withRecord record).remember hU (hU.core ht) hcore hclass, fun a ha => ?_,
        fun _ _ => hset.trans hx' hk' (by simp) (.remember hclass)⟩
      cases ha
      exact ⟨record, hstands.mono hx' hk'⟩
    · have hfree' : t.layerConstraints.isEmpty = false := by simpa using hfree
      simp only [hfree', Bool.false_eq_true, if_false] at hres
      cases hres
      refine ⟨hgrow, hp.classes.trans hk, hp.inv.withRecord record, fun a ha => ?_, fun _ _ => hset⟩
      cases ha
      exact ⟨record, hstands⟩

theorem describeStep_preserves {D : Describe} (hU : Universe defs U) (hD : D.Preserves defs U)
    (hg : D.Grows) : Describe.Preserves defs U (describeStep defs D) := by
  intro s s' t known r ht hk hi h
  have hgrow : s.Extends none (s.run (describeStep defs D t known)).2 :=
    describeStep_extends hg s t known
  have hcase := describeStep_run defs D s t known
  rw [h] at hgrow hcase
  generalize hres : (r, s') = res at hcase
  cases hcase with
  | kept hc =>
    cases hres
    refine ⟨.refl _ _, .refl _ _, hi, fun a ha => ?_, fun _ _ => .refl _ _⟩
    cases ha
    exact hi.shows ht hc
  | failed hc ha hrun =>
    cases hres
    have hp := Preserved.of_sameWork ha.sameWork <|
      describeInner_preserves hU hD hg ht (hi.of_sameWork ha.sameWork) (ha.analysed hk) hrun
    exact ⟨hgrow, hp.classes, hp.inv, nofun, nofun⟩
  | @bare an s₁ a s₂ hc ha hrun hadd =>
    cases hres
    have hp := Preserved.of_sameWork ha.sameWork <|
      describeInner_preserves hU hD hg ht (hi.of_sameWork ha.sameWork) (ha.analysed hk) hrun
    obtain ⟨d, hmay, rfl⟩ := ha.analysed hk
    obtain ⟨record, hs⟩ := hp.result a rfl
    have hrec : s₂.graph.record a = record := by simp [Graph.record, hs.record]
    rw [hrec] at hadd
    have hshow : Shows defs s₂ t a := .of_stands hs ⟨d, hmay, by simp [hadd]⟩
    have hclass := hs.cached_of_declared
    have hx := Session.Extends.remember s₂ t a
    have hk₂ := Session.KeepsClasses.remember hclass
    refine ⟨hgrow, hp.classes.trans hk₂, hp.inv.remember hU ht hshow hclass, fun a' ha' => ?_,
      fun _ _ => (hp.settled a rfl).trans hx hk₂ (by simp) (.remember hclass)⟩
    cases ha'
    exact hshow.mono hx hk₂
  | @decorated an s₁ a s₂ s₃ hc ha hrun hadd hsame =>
    cases hres
    have hp := Preserved.of_sameWork ha.sameWork <|
      describeInner_preserves hU hD hg ht (hi.of_sameWork ha.sameWork) (ha.analysed hk) hrun
    obtain ⟨d, hmay, rfl⟩ := ha.analysed hk
    obtain ⟨record, hs⟩ := hp.result a rfl
    have hrec : s₂.graph.record a = record := by simp [Graph.record, hs.record]
    rw [hrec] at hadd hgrow ⊢
    -- The copy is one more record, and its expression is no object class.
    have hx₃ : s₂.Extends none (s₃.withRecord ((t.analysisWith defs d).decorate record)) :=
      (Session.Extends.of_sameWork hsame).trans (.withRecord _ _)
    have hk₃ : s₂.KeepsClasses defs (s₃.withRecord ((t.analysisWith defs d).decorate record)) :=
      (Session.KeepsClasses.of_sameWork hsame).trans (.withRecord _ _)
    have hshow := Shows.of_stands (hs.mono hx₃ hk₃)
      ⟨d, hmay, by rw [if_pos hadd, s₃.withRecord_record]⟩
    -- A class has no layers, so nothing is added to its descriptor.
    have hclass : ∀ name c, t = .declared name → defs.find? name = some (.object c) →
        (s₃.withRecord ((t.analysisWith defs d).decorate record)).cached? t
          = some s₃.graph.records.size := by
      rintro name c rfl -
      rw [hs.adds_bare rfl hmay] at hadd
      cases hadd
    have hx₄ := Session.Extends.remember
      (s₃.withRecord ((t.analysisWith defs d).decorate record)) t s₃.graph.records.size
    have hk₄ := Session.KeepsClasses.remember hclass
    refine ⟨hgrow, (hp.classes.trans hk₃).trans hk₄,
      ((hp.inv.of_sameWork hsame).withRecord _).remember hU ht hshow hclass,
      fun a' ha' => ?_, fun _ _ => ?_⟩
    · cases ha'
      exact hshow.mono hx₄ hk₄
    · have hlast : Settled defs s₂
          ((s₃.withRecord ((t.analysisWith defs d).decorate record)).remember t
            s₃.graph.records.size) := ⟨fun hf hn hs =>
        (Settled.remember hclass).complete hf ((hsame.cached? _).trans hn) hs⟩
      exact (hp.settled a rfl).trans (hx₃.trans hx₄) (hk₃.trans hk₄) (by simp) hlast

theorem describeWithin_preserves (hU : Universe defs U) (room : Nat) :
    Describe.Preserves defs U (describeWithin defs room) := by
  induction room with
  | zero =>
    intro s s' t known r _ _ hi h
    cases h
    exact ⟨.refl _ _, .refl _ _, hi, nofun, nofun⟩
  | succ room ih => exact describeStep_preserves hU ih (describeWithin_extends defs room)

theorem describe_preserves (hU : Universe defs U) (ht : U t) (hi : Invariant defs U s)
    {r : Except CompileFault Address} (h : s.run (describe defs t) = (r, s')) :
    Preserved defs U none s s' r (Shows defs s' t) :=
  describeWithin_preserves hU _ ht (by simp) hi h

/-- The descriptor of parameters: that of the object class, or an empty object. -/
inductive ShowsParameters (defs : Definitions) (s : Session) (t : TypeExpr) (a : Address) : Prop
  | object (hb : (t.base defs).isObject = true) (h : Shows defs s t a)
  | empty {b : Address} (hb : (t.base defs).isObject = false)
      (hr : s.graph.records[a]? = some (emptyObjectRecord b))
      (hbody : s.graph.bodies[b]? = some ⟨[], []⟩)

theorem ShowsParameters.mono (hx : s.Extends none s') (hk : s.KeepsClasses defs s')
    (h : ShowsParameters defs s t a) : ShowsParameters defs s' t a := by
  cases h with
  | object hb h => exact .object hb (h.mono hx hk)
  | empty hb hr hbody => exact .empty hb (hx.record _ _ hr) (hx.body _ _ hbody (by simp))

theorem describeParameters_preserves (hU : Universe defs U) (ht : U t)
    (hi : Invariant defs U s) {r : Except CompileFault Address}
    (h : s.run (describeParameters defs t) = (r, s')) :
    Preserved defs U none s s' r (ShowsParameters defs s' t) := by
  have hcase := describeParameters_run defs s t
  rw [h] at hcase
  generalize hres : (r, s') = res at hcase
  cases hcase with
  | object hb =>
    obtain ⟨name, rfl, hf⟩ := TypeExpr.base_object hb
    have hp := describeObject_preserves hU (describeWithin_preserves hU _)
      (describeWithin_extends defs _) ht hf hi hres.symm
    exact ⟨hp.growth, hp.classes, hp.inv,
      fun a ha => .object (by rw [hb]; rfl) (hp.result a ha), hp.settled⟩
  | @empty s₁ hb hs =>
    cases hres
    have hx : s.Extends none (s₁.withBody.withRecord (emptyObjectRecord s₁.graph.bodies.size)) :=
      ((Session.Extends.of_sameWork hs).trans (.withBody s₁)).trans (.withRecord _ _)
    have hc := hs.cached?
    refine ⟨hx, ⟨fun _ h => (hc _).trans h⟩, hi.later hx hc, fun a ha => ?_,
      fun _ _ => .of_same hc⟩
    cases ha
    refine .empty (b := s₁.graph.bodies.size) hb ?_ ?_ <;>
      simp [Session.withRecord, Session.withBody, Graph.addRecord, Graph.addBody]

end

end ToolCatalog
