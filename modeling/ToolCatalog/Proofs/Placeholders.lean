import ToolCatalog.Proofs.Findings
import ToolCatalog.Proofs.Objects

/-!
What a default factory finds while object classes are being walked.

A factory is called when a job begins: when a walk comes to a field, and when an expression is
described that nobody has analysed. Of all the classes that are being walked then, each at a field
of its own, the descriptor is the one that the walk will end with; it has the properties of the
fields before that field and requires those of them that cannot be left out. No job inside a walk
changes the body of the class.
-/
namespace ToolCatalog

/-- The factory of the outermost default of an expression. -/
def TypeExpr.factory? (t : TypeExpr) : Option Factory :=
  match t.defaultSource? with
  | some (.factory f _) => some f
  | _ => none

/-- The factory that is called as a job begins: that of the field to which a walk has come, or of an
expression that has to be analysed because no descriptor is remembered for it. -/
def Job.factory? (m : Job) : Option Factory :=
  match m.task with
  | .walk _ ((_, t) :: _) => t.factory?
  | .field t none => if (m.session.cached? t).isSome then none else t.factory?
  | _ => none

/-- A walk into a body goes past fields, one after the other. -/
inductive Passes (defs : Definitions) (body : Address) (s : Session) :
    List (String × TypeExpr) → Session → Prop
  | none : Passes defs body s [] s
  | next {done f rest s₁ s₂} (h : Passes defs body s done s₁)
      (hs : HandsOn defs ⟨s₁, .walk body (f :: rest)⟩ ⟨s₂, .walk body rest⟩) :
      Passes defs body s (done ++ [f]) s₂

/-- A walk of an object class that has come to a field. -/
structure Walk where
  name : String
  object : ObjectClass
  /-- The session in which the class was met. -/
  start : Session
  done : List (String × TypeExpr)
  field : String × TypeExpr
  rest : List (String × TypeExpr)
  /-- The session in which it is the field's turn. -/
  session : Session

namespace Walk

/-- The address of the descriptor that the class gets. -/
def address (w : Walk) : Address :=
  w.start.graph.records.size

/-- The body that the class gets. -/
def body (w : Walk) : Address :=
  w.start.graph.bodies.size

/-- The rest of the walk, with the field. -/
def job (w : Walk) : Job :=
  ⟨w.session, .walk w.body (w.field :: w.rest)⟩

/-- While a job is done, a class is being walked: the class was met during the calls and had no
descriptor, the walk has gone past the fields before the field, and the job is the rest of the walk
or belongs to the description of the field. -/
structure Open (defs : Definitions) (s : Session) (calls : List Call) (w : Walk) (m : Job) :
    Prop where
  met : Occurs defs s calls ⟨w.start, .object w.name w.object⟩
  new : w.start.cached? (.declared w.name) = none
  fields : w.object.fields = w.done ++ w.field :: w.rest
  passes : Passes defs w.body (w.start.withObject (.declared w.name) w.object) w.done w.session
  inside : m = w.job ∨ ∃ an s₁, AnalysisRun defs w.session w.field.2 none an s₁ ∧
    Job.Leads defs ⟨s₁, .field w.field.2 (some an)⟩ m

end Walk

variable {defs : Definitions} {U : TypeExpr → Prop} {s s' : Session} {calls : List Call}
  {name : String} {c : ObjectClass} {done rest : List (String × TypeExpr)} {m : Job} {w : Walk}

/-! ## When factories are called -/

/-- Finding a default calls the factory of the outermost one, and does nothing else. -/
theorem TypeExpr.findDefault_session (t : TypeExpr) (s : Session) :
    (t.findDefault.run s).2 = t.factory?.elim s fun f => (f.call.run s).2 := by
  unfold findDefault factory?
  cases t.defaultSource? with
  | none => rfl
  | some d => cases d <;> rfl

theorem Factory.call_counters {f : Factory} (hf : ∀ id, f ≠ .counter id) (s : Session) :
    (f.call.run s).2.counters = s.counters := by
  cases f with
  | counter id => exact absurd rfl (hf id)
  | empty b =>
    unfold call
    cases b.emptyValue? <;> rfl
  | measures name =>
    unfold call
    by_cases h : s.observable <;> rfl
  | _ => rfl

/-- An analysis that calls no counter leaves all counters alone. -/
theorem AnalysisRun.counters_eq {t : TypeExpr} {known : Option Analysis} {an : Analysis}
    (h : AnalysisRun defs s t known an s')
    (hf : known = none → ∀ id, t.factory? ≠ some (.counter id)) : s'.counters = s.counters := by
  cases h with
  | known => rfl
  | made =>
    rw [t.findDefault_session]
    cases hfactory : t.factory? with
    | none => rfl
    | some f => exact Factory.call_counters (fun id hid => hf rfl id (hid ▸ hfactory)) s

@[simp] theorem Session.remember_counters (s : Session) (t : TypeExpr) (a : Address) :
    (s.remember t a).counters = s.counters := by
  unfold remember
  split <;> rfl

@[simp] theorem Session.withRecord_counters (s : Session) (r : Record) :
    (s.withRecord r).counters = s.counters := rfl

theorem Session.withObject_counters (s : Session) (t : TypeExpr) (c : ObjectClass) :
    (s.withObject t c).counters = s.counters := by
  unfold withObject
  cases c.unknownName with
  | none => exact remember_counters _ _ _
  | some name => exact remember_counters _ _ _

theorem addLayers_counters (s : Session) (t : TypeExpr) (an : Analysis) (a : Address) :
    (s.run (addLayers t an a)).2.counters = s.counters := by
  rw [addLayers, Session.run_get_bind]
  dsimp only
  split
  · cases an.default with
    | none => exact Session.remember_counters _ _ _
    | some o => cases o <;> exact Session.remember_counters _ _ _
  · exact Session.remember_counters _ _ _

theorem enterBase_counters (s : Session) (an : Analysis) (record : Except CompileFault Record) :
    (s.run (enterBase an record)).2.counters = s.counters := by
  cases record with
  | error e => rfl
  | ok r =>
    rw [run_enterBase_ok]
    dsimp only
    split <;> simp

/-- Factories are called when jobs begin, and at no other time: where no job calls a counter, all
counters stay as they are. -/
theorem Evaluates.counters_eq {task : Task} {res : Except CompileFault Address × Session}
    {names : List String} (h : Evaluates defs s task res names)
    (hquiet : ∀ m, Job.Leads defs ⟨s, task⟩ m → ∀ id, m.factory? ≠ some (.counter id)) :
    res.2.counters = s.counters := by
  -- A field that is not remembered is quiet about its own factory, unless it has been analysed.
  have hanalysis {s s₁ : Session} {t : TypeExpr} {known : Option Analysis} {an : Analysis}
      (hc : s.cached? t = none) (ha : AnalysisRun defs s t known an s₁)
      (hquiet : ∀ m, Job.Leads defs ⟨s, .field t known⟩ m → ∀ id,
        m.factory? ≠ some (.counter id)) : s₁.counters = s.counters := by
    refine ha.counters_eq ?_
    rintro rfl id hid
    exact hquiet _ .refl id (by simp [Job.factory?, hc, hid])
  induction h with
  | kept _ | shared _ _ _ | known _ | done => rfl
  | barred hc ha _ ih =>
    exact (ih fun m hm => hquiet m (.head (.inner hc ha) hm)).trans (hanalysis hc ha hquiet)
  | layered hc ha _ ih =>
    rw [addLayers_counters]
    exact (ih fun m hm => hquiet m (.head (.inner hc ha) hm)).trans (hanalysis hc ha hquiet)
  | object hi hb _ ih => exact ih fun m hm => hquiet m (.head (.object hi hb) hm)
  | @simple s an _ _ _ =>
    rw [enterBase_counters]
    unfold Base.noted
    split <;> rfl
  | part hb hc hp _ ih =>
    rw [enterBase_counters]
    exact ih fun m hm => hquiet m (.head (.part hb hc hp) hm)
  | walked h _ ih =>
    exact (ih fun m hm => hquiet m (.head (.walk h) hm)).trans (Session.withObject_counters _ _ _)
  | stuck ha _ ih =>
    exact (ih fun m hm => hquiet m (.head (.first ha) hm)).trans
      (ha.counters_eq fun _ => hquiet _ .refl)
  | entered ha hd _ ihd ihrest =>
    have hfirst := (ihd fun m hm => hquiet m (.head (.first ha) hm)).trans
      (ha.counters_eq fun _ => hquiet _ .refl)
    exact (ihrest fun m hm => hquiet m (.head (.rest ha hd) hm)).trans hfirst

/-! ## Walks -/

theorem HandsOn.pass {body : Address} {f : String × TypeExpr} {rest : List (String × TypeExpr)}
    (h : HandsOn defs ⟨s, .walk body (f :: rest)⟩ ⟨s', .walk body rest⟩)
    (rest' : List (String × TypeExpr)) :
    HandsOn defs ⟨s, .walk body (f :: rest')⟩ ⟨s', .walk body rest'⟩ := by
  cases h with
  | rest ha hd => exact .rest ha hd

namespace Passes

variable {body : Address}

theorem cons {s₁ : Session} {f : String × TypeExpr} {rest : List (String × TypeExpr)}
    (hs : HandsOn defs ⟨s, .walk body (f :: rest)⟩ ⟨s₁, .walk body rest⟩)
    (h : Passes defs body s₁ done s') : Passes defs body s (f :: done) s' := by
  induction h with
  | none => exact .next .none hs
  | next _ hlast ih => exact .next ih hlast

/-- A walk that comes to an end without a fault has gone past all its fields. -/
theorem of_run (room : Nat) {fields : List (String × TypeExpr)} {s s' : Session}
    (h : s.run (walkFields defs (describeWithin defs room) body fields) = (.ok (), s')) :
    Passes defs body s fields s' := by
  induction fields generalizing s with
  | nil =>
    cases h
    exact .none
  | cons f rest ih =>
    obtain ⟨name, t⟩ := f
    have hcase := walkFields_run defs (describeWithin defs room) s body name t rest
    rw [h] at hcase
    generalize hres : ((.ok (), s') : Except CompileFault Unit × Session) = res at hcase
    cases hcase with
    | failed ha hd => cases hres
    | entered ha hd =>
      obtain ⟨names, hfield⟩ := (describeWithin_derivable defs room).of_run hd
        (by simpa using ha.analysed (by simp)) (by simp)
      have hstep : HandsOn defs ⟨s, .walk body ((name, t) :: rest)⟩ _ := .rest ha hfield
      exact .cons hstep (ih hres.symm)

theorem leads (h : Passes defs body s done s') :
    ∀ rest, Job.Leads defs ⟨s, .walk body (done ++ rest)⟩ ⟨s', .walk body rest⟩ := by
  induction h with
  | none => exact fun rest => .refl
  | @next done f _ _ _ _ hs ih =>
    intro rest
    rw [List.append_assoc]
    exact (ih (f :: rest)).tail (hs.pass rest)

/-- A walk that goes past fields has walked over them. -/
theorem walking (hU : Universe defs U) (hname : U (.declared name))
    (h : Passes defs body s done s') {rest : List (String × TypeExpr)}
    (hi : Invariant defs U s) (hwalk : Walking defs name c body [] (done ++ rest) s) :
    Invariant defs U s' ∧ Walking defs name c body done rest s' := by
  induction h generalizing rest with
  | none => exact ⟨hi, hwalk⟩
  | @next done f _ s₁ s₂ _ hs ih =>
    rw [List.append_assoc] at hwalk
    obtain ⟨hi₁, hwalk₁⟩ := ih hwalk
    cases hs with
    | rest ha hd => exact hwalk₁.past hU hi₁ hname ha hd

end Passes

namespace Walk.Open

/-- A job inside a walk is led to from the rest of the walk. -/
theorem leads (h : w.Open defs s calls m) : w.job.Leads defs m := by
  rcases h.inside with rfl | ⟨an, s₁, ha, hleads⟩
  · exact .refl
  · exact .head (.first ha) hleads

/-- The walk begins with the class. -/
theorem begins (h : w.Open defs s calls m) : Occurs defs s calls
    ⟨w.start.withObject (.declared w.name) w.object, .walk w.body w.object.fields⟩ :=
  h.met.step (.walk h.new)

theorem walking (hU : Universe defs U) (hcalls : ∀ c ∈ calls, U c.type) (hi : Invariant defs U s)
    (h : w.Open defs s calls m) :
    Walking defs w.name w.object w.body w.done (w.field :: w.rest) w.session := by
  obtain ⟨hstart, hname, hfind⟩ := h.met.ready hU hcalls hi
  have hwalk := Walking.start hfind w.start
  rw [h.fields] at hwalk
  exact (h.passes.walking hU hname (hstart.withObject hfind h.new) hwalk).2

/-- Inside a walk, what there is when it comes to its field stays as it is. -/
theorem session_extends (h : w.Open defs s calls m) : w.session.Extends none m.session := by
  rcases h.inside with rfl | ⟨an, s₁, ha, hleads⟩
  · exact .refl _ _
  · have hfield : s₁.Extends none m.session := Job.Leads.session_extends hleads
    exact (Session.Extends.of_sameWork ha.sameWork).trans hfield

/-- The walk leads to all that is inside it. -/
theorem begun_leads (h : w.Open defs s calls m) : Job.Leads defs
    ⟨w.start.withObject (.declared w.name) w.object, .walk w.body w.object.fields⟩ m := by
  have hpassed := h.passes.leads (w.field :: w.rest)
  rw [← h.fields] at hpassed
  exact hpassed.trans h.leads

end Walk.Open

theorem Walk.known_begun (w : Walk) :
    (w.start.withObject (.declared w.name) w.object).known? (.declared w.name)
      = some w.address := by
  rw [Session.withObject_known?]
  exact if_pos rfl

namespace Walk.Open

/-- The class is remembered all the time. -/
theorem cached (h : w.Open defs s calls m) :
    m.session.cached? (.declared w.name) = some w.address := by
  rw [Session.cached?_of_watchable _ rfl]
  exact Job.Leads.keeps_known h.begun_leads w.known_begun

/-- The class keeps the descriptor with which the walk begins. -/
theorem record (h : w.Open defs s calls m) :
    m.session.graph.records[w.address]? = some (objectRecord w.object w.body) :=
  (Job.Leads.session_extends h.begun_leads).record _ _ (w.start.withObject_record _ _)

/-- The body of the class holds the fields before the field. -/
theorem filled (hU : Universe defs U) (hcalls : ∀ c ∈ calls, U c.type) (hi : Invariant defs U s)
    (h : w.Open defs s calls m) : ∃ x, m.session.graph.bodies[w.body]? = some x ∧
      x.properties.keys = (Entries.ofList w.done).keys ∧
      x.required = (w.done.filter fun f => !f.2.allowsAbsence).map (·.1) := by
  obtain ⟨x, hx, hwalked⟩ := (h.walking hU hcalls hi).walked
  exact ⟨x, h.session_extends.body _ _ hx (by simp), hwalked.keys, hwalked.required.symm⟩

/-- The class is remembered after all calls. -/
theorem cached_after (hU : Universe defs U) (hcalls : ∀ c ∈ calls, U c.type)
    (hi : Invariant defs U s) (h : w.Open defs s calls m) :
    (s.after defs calls).2.cached? (.declared w.name) = some w.address := by
  obtain ⟨-, -, hfind⟩ := h.met.ready hU hcalls hi
  rw [Session.cached?_of_watchable _ rfl]
  refine h.begins.known hU hcalls hi ?_ (.remembered w.known_begun)
  rintro ⟨m₁, h₁, hagain⟩
  exact Job.not_meetsAgain (h₁.ready hU hcalls hi) hfind hagain

/-- If the class gets a descriptor, it is the one with which the walk begins. -/
theorem comes_eq (h : w.Open defs s calls m) {a : Address}
    (he : Job.Comes defs ⟨w.start, .object w.name w.object⟩ (.ok a, s')) : a = w.address := by
  obtain ⟨names, he⟩ := he
  generalize hres : (Except.ok a, s') = res at he
  cases he with
  | known hc =>
    rw [h.new] at hc
    cases hc
  | @walked _ _ _ r _ _ _ _ =>
    cases r with
    | error e => cases hres
    | ok b =>
      cases hres
      rfl

end Walk.Open

/-- A factory that counts the properties of a class counts those of its body. -/
theorem Session.measure_eq {a b : Address} {x : Body}
    (hc : s.cached? (.declared name) = some a)
    (hr : s.graph.records[a]? = some (objectRecord c b)) (hb : s.graph.bodies[b]? = some x) :
    s.measure name = x.properties.keys.length := by
  have hbody : (objectRecord c b).body? = some b := by
    rw [Record.body?, (objectRecord_hasBody c b).properties]
  simp [measure, hc, Graph.record_of_getElem? hr, hbody, Graph.body, hb, Entries.keys]

/-- Whenever a default factory is called during any calls, every class that is being walked is
remembered with a descriptor: the one that the walk ends with if it does, and that compiling the
class gives from then on. It has the properties of the fields before the one that the walk has come
to, and requires those of them that cannot be left out. So many properties are what a factory
counts. -/
theorem placeholder_at_factory (source : Source) (observable : Bool) (calls : List Call)
    (hcalls : ∀ c ∈ calls, source.Expression c.type) {m : Job} {f : Factory}
    (hf : m.factory? = some f) {w : Walk}
    (hw : w.Open source.definitions (.fresh observable) calls m) :
    m.session.cached? (.declared w.name) = some w.address ∧
      m.session.graph.records[w.address]? = some (objectRecord w.object w.body) ∧
      (∃ x, m.session.graph.bodies[w.body]? = some x ∧
        x.properties.keys = (Entries.ofList w.done).keys ∧
        x.required = (w.done.filter fun f => !f.2.allowsAbsence).map (·.1)) ∧
      (∀ a s', Job.Comes source.definitions ⟨w.start, .object w.name w.object⟩ (.ok a, s') →
        a = w.address) ∧
      (Session.after source.definitions (.fresh observable) calls).2.Compiles source
        (.declared w.name) w.address ∧
      (f = .measures w.name → m.session.observable = true →
        (f.call.run m.session).1 = .ok (.int (Entries.ofList w.done).keys.length)) := by
  obtain ⟨U, hU, hexpr⟩ := source.universe
  have hall : ∀ c ∈ calls, U c.type := fun c hc => hexpr _ (hcalls c hc)
  obtain ⟨x, hx, hkeys, hrequired⟩ := hw.filled hU hall (.fresh observable)
  obtain ⟨-, -, hfind⟩ := hw.met.ready hU hall (.fresh observable)
  obtain ⟨-, -, hinv⟩ := Session.after_preserves hU hall (.fresh observable)
  refine ⟨hw.cached, hw.record, ⟨x, hx, hkeys, hrequired⟩, fun a s' => hw.comes_eq,
    fun later hlater => ?_, ?_⟩
  · obtain ⟨-, hk, -⟩ := Session.after_preserves hU (fun c hc => hexpr _ (hlater c hc)) hinv
    exact describeParameters_kept (TypeExpr.base_declared hfind)
      (hk.cached hfind (hw.cached_after hU hall (.fresh observable)))
  · rintro rfl hobs
    have hcount := Session.measure_eq hw.cached hw.record hx
    rw [hkeys] at hcount
    show (if m.session.observable then (.ok (.int (m.session.measure w.name)) : DefaultOutcome)
      else .error .unobservable) = _
    rw [if_pos hobs, hcount]

/-- An order and a line of an order that mention each other. The place of a line counts the
properties of the order. -/
def orderSource : Source where
  declarations :=
    [.model "Line" [] none
      [("order", .forward "Order", .nothing),
        ("place", .atom (.builtin .integer),
          .spec { FieldSpec.empty with factory := some (.measures "Order") })],
      .model "Order" [] none
        [("number", .atom (.builtin .integer), .nothing), ("first", .reference "Line", .nothing)]]
  written := [.reference "Order"]

theorem orderSource_nodes : orderSource.nodes = [.declared "Order"] :=
  rfl

/-- The classes as they are finished. -/
def lineClass : ObjectClass where
  doc := none
  fields := [("order", .field 1 .empty (.declared "Order")),
    ("place", .field 2 { FieldSpec.empty with factory := some (.measures "Order") }
      (.atom (.builtin .integer)))]
  unknownName := none

def orderClass : ObjectClass where
  doc := none
  fields := [("number", .field 3 .empty (.atom (.builtin .integer))),
    ("first", .field 4 .empty (.declared "Line"))]
  unknownName := none

/-- The walk of the order that has come to its first line. -/
def orderWalk : Walk where
  name := "Order"
  object := orderClass
  start := .fresh true
  done := [("number", .field 3 .empty (.atom (.builtin .integer)))]
  field := ("first", .field 4 .empty (.declared "Line"))
  rest := []
  session := (((Session.fresh true).withObject (.declared "Order") orderClass).run
    (walkFields orderSource.definitions (describeWithin orderSource.definitions 1) 0
      [("number", .field 3 .empty (.atom (.builtin .integer)))])).2

/-- The walk of the line, inside that of the order, that has come to the place. -/
def lineWalk : Walk where
  name := "Line"
  object := lineClass
  start := orderWalk.session
  done := [("order", .field 1 .empty (.declared "Order"))]
  field := ("place", .field 2 { FieldSpec.empty with factory := some (.measures "Order") }
    (.atom (.builtin .integer)))
  rest := []
  session := ((orderWalk.session.withObject (.declared "Line") lineClass).run
    (walkFields orderSource.definitions (describeWithin orderSource.definitions 1) 1
      [("order", .field 1 .empty (.declared "Order"))])).2

theorem lineWalk_passes : Passes orderSource.definitions lineWalk.body
    (lineWalk.start.withObject (.declared "Line") lineClass) lineWalk.done lineWalk.session :=
  .of_run 1 rfl

theorem orderWalk_passes : Passes orderSource.definitions orderWalk.body
    (orderWalk.start.withObject (.declared "Order") orderClass) orderWalk.done orderWalk.session :=
  .of_run 1 rfl

/-- The order is being walked while the default of the place is looked for. -/
theorem orderWalk_open : orderWalk.Open orderSource.definitions (.fresh true)
    [.compile (.declared "Order")] lineWalk.job where
  met := .now (.object rfl) .refl
  new := rfl
  fields := rfl
  passes := orderWalk_passes
  inside := by
    refine .inr ⟨_, _, .made, .head (.inner rfl (.known _)) ?_⟩
    exact .head (.object rfl rfl) (.head (.walk rfl) (lineWalk_passes.leads [lineWalk.field]))

/-- So is the line. -/
theorem lineWalk_open : lineWalk.Open orderSource.definitions (.fresh true)
    [.compile (.declared "Order")] lineWalk.job where
  met := by
    refine orderWalk_open.begins.leads ((orderWalk_passes.leads [orderWalk.field]).trans ?_)
    exact .head (.first .made) (.head (.inner rfl (.known _)) (.single (.object rfl rfl)))
  new := rfl
  fields := rfl
  passes := lineWalk_passes
  inside := .inl rfl

theorem placeholder_at_factory_order :
    lineWalk.job.factory? = some (.measures "Order") ∧
      lineWalk.Open orderSource.definitions (.fresh true) [.compile (.declared "Order")]
        lineWalk.job ∧
      orderWalk.Open orderSource.definitions (.fresh true) [.compile (.declared "Order")]
        lineWalk.job ∧
      lineWalk.session.cached? (.declared "Order") = some 0 ∧
      lineWalk.session.graph.records[0]? = some (objectRecord orderClass 0) ∧
      (∃ x, lineWalk.session.graph.bodies[0]? = some x ∧ x.properties.keys = ["number"] ∧
        x.required = ["number"]) ∧
      (∀ a s', Job.Comes orderSource.definitions ⟨.fresh true, .object "Order" orderClass⟩
        (.ok a, s') → a = 0) ∧
      (Session.after orderSource.definitions (.fresh true)
        [.compile (.declared "Order")]).2.Compiles orderSource (.declared "Order") 0 ∧
      ((Factory.measures "Order").call.run lineWalk.session).1 = .ok (.int 1) := by
  have hcalls : ∀ c ∈ [Call.compile (.declared "Order")], orderSource.Expression c.type := by
    intro c hc
    obtain rfl := List.mem_singleton.mp hc
    exact .node (by rw [orderSource_nodes]; exact List.mem_singleton.mpr rfl)
  obtain ⟨hcached, hrecord, hfilled, hcomes, hkept, hcount⟩ :=
    placeholder_at_factory orderSource true _ hcalls (f := .measures "Order") rfl orderWalk_open
  exact ⟨rfl, lineWalk_open, orderWalk_open, hcached, hrecord, hfilled, hcomes, hkept,
    hcount rfl rfl⟩

end ToolCatalog
