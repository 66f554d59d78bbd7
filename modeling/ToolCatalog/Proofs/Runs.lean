import ToolCatalog.Compiler

/-!
What one call of each function of the compiler can do.

Each function gets an inductive list of its possible runs, with the recursive call it is given as a
parameter. Later proofs split along these lists and never unfold the functions themselves.
-/
namespace ToolCatalog

section

variable {ε σ α β : Type} {s s' : σ} {m : ExceptT ε (StateM σ) α} {f : α → ExceptT ε (StateM σ) β}

theorem run_run_bind_ok {a : α} (h : m.run.run s = (.ok a, s')) :
    (m >>= f).run.run s = (f a).run.run s' := by
  simp only [ExceptT.run_bind, StateT.run_bind, h]
  rfl

theorem run_run_bind_error {e : ε} (h : m.run.run s = (.error e, s')) :
    (m >>= f).run.run s = (.error e, s') := by
  simp only [ExceptT.run_bind, StateT.run_bind, h]
  rfl

theorem run_run_bind_eq_ok {b : β} (h : (m >>= f).run.run s = (.ok b, s')) :
    ∃ a s₁, m.run.run s = (.ok a, s₁) ∧ (f a).run.run s₁ = (.ok b, s') := by
  rcases hm : m.run.run s with ⟨res, s₁⟩
  cases res with
  | error e =>
    rw [run_run_bind_error hm] at h
    cases h
  | ok a =>
    rw [run_run_bind_ok hm] at h
    exact ⟨a, s₁, rfl, h⟩

theorem run_run_get_bind (g : σ → ExceptT ε (StateM σ) β) :
    (get >>= g).run.run s = (g s).run.run s := rfl

end

/-- What comes of making descriptors from a state, and the state after it. -/
def Session.run {α : Type} (s : Session) (m : Compile α) : Except CompileFault α × Session :=
  (ExceptT.run m).run s

namespace Session

variable {α β : Type} {s s' : Session} {m : Compile α} {f : α → Compile β}

@[simp] theorem run_pure (s : Session) (a : α) : s.run (pure a) = (.ok a, s) := rfl

theorem run_bind_ok {a : α} (h : s.run m = (.ok a, s')) : s.run (m >>= f) = s'.run (f a) :=
  run_run_bind_ok h

theorem run_bind_error {e : CompileFault} (h : s.run m = (.error e, s')) :
    s.run (m >>= f) = (.error e, s') :=
  run_run_bind_error h

theorem run_get_bind (g : Session → Compile α) : s.run (get >>= g) = s.run (g s) := rfl

theorem run_modify_bind (u : Session → Session) (g : PUnit → Compile α) :
    s.run (modify u >>= g) = (u s).run (g ⟨⟩) := rfl

/-- Everything but the counters and the events is the same. -/
structure SameWork (s s' : Session) : Prop where
  graph : s'.graph = s.graph
  memo : s'.memo = s.memo
  observable : s'.observable = s.observable

theorem SameWork.refl (s : Session) : SameWork s s := ⟨rfl, rfl, rfl⟩

theorem SameWork.report (s : Session) (e : Event) : SameWork s (s.report e) := ⟨rfl, rfl, rfl⟩

theorem SameWork.cached? (h : SameWork s s') (t : TypeExpr) : s'.cached? t = s.cached? t := by
  simp [Session.cached?, h.memo]

/-- A state to which a record has been added. -/
def withRecord (s : Session) (r : Record) : Session :=
  { s with graph := (s.graph.addRecord r).2 }

/-- A state to which an empty body has been added. -/
def withBody (s : Session) : Session :=
  { s with graph := (s.graph.addBody ⟨[], []⟩).2 }

/-- A state in which a body has been changed. -/
def withBodyChanged (s : Session) (b : Address) (f : Body → Body) : Session :=
  { s with graph := s.graph.modifyBody b f }

theorem run_addRecord (s : Session) (r : Record) :
    s.run (addRecord r) = (.ok s.graph.records.size, s.withRecord r) := rfl

theorem run_addBody (s : Session) :
    s.run addBody = (.ok s.graph.bodies.size, s.withBody) := rfl

end Session

/-! ## Defaults -/

theorem Factory.call_sameWork (f : Factory) (s : Session) : s.SameWork (f.call.run s).2 := by
  cases f with
  | empty b =>
    unfold Factory.call
    cases b.emptyValue? <;> exact .refl s
  | measures c =>
    unfold Factory.call
    by_cases h : s.observable <;> exact .refl s
  | counter id => exact ⟨rfl, rfl, rfl⟩
  | _ => exact .refl s

theorem DefaultSource.find_sameWork (d : DefaultSource) (s : Session) :
    s.SameWork (d.find.run s).2 := by
  cases d with
  | value v => exact .refl s
  | factory f v => exact f.call_sameWork s

namespace TypeExpr

/-- Finds the outermost default of an expression, if it has one. -/
def findDefault (t : TypeExpr) : StateM Session (Option DefaultOutcome) :=
  t.defaultSource?.mapM DefaultSource.find

theorem findDefault_sameWork (t : TypeExpr) (s : Session) :
    s.SameWork (t.findDefault.run s).2 := by
  unfold findDefault
  cases t.defaultSource? with
  | none => exact .refl s
  | some d => exact d.find_sameWork s

/-- What can become of the outermost default of an expression in some state. -/
def MayFind (t : TypeExpr) (d : Option DefaultOutcome) : Prop :=
  ∃ s : Session, (t.findDefault.run s).1 = d

/-- An analysis of an expression, made in some state. -/
def Analysed (defs : Definitions) (t : TypeExpr) (an : Analysis) : Prop :=
  ∃ d, t.MayFind d ∧ an = t.analysisWith defs d

end TypeExpr

/-- The analysis that an expression is described with, and the state after making it: the one that
is known already, or else one made now. -/
inductive AnalysisRun (defs : Definitions) (s : Session) (t : TypeExpr) :
    Option Analysis → Analysis → Session → Prop
  | known (an : Analysis) : AnalysisRun defs s t (some an) an s
  | made : AnalysisRun defs s t none
      (t.analysisWith defs (t.findDefault.run s).1) (t.findDefault.run s).2

theorem AnalysisRun.exists (defs : Definitions) (s : Session) (t : TypeExpr)
    (known : Option Analysis) : ∃ an s', AnalysisRun defs s t known an s' := by
  cases known with
  | some an => exact ⟨an, s, .known an⟩
  | none => exact ⟨_, _, .made⟩

theorem AnalysisRun.sameWork {defs s t known an s'} (h : AnalysisRun defs s t known an s') :
    s.SameWork s' := by
  cases h with
  | known => exact .refl s
  | made => exact t.findDefault_sameWork s

theorem AnalysisRun.analysed {defs s t known an s'} (h : AnalysisRun defs s t known an s')
    (hk : ∀ an ∈ known, t.Analysed defs an) : t.Analysed defs an := by
  cases h with
  | known => exact hk an rfl
  | made => exact ⟨_, ⟨s, rfl⟩, rfl⟩

/-- An analysis that was made can be handed on as the one that is known. -/
theorem AnalysisRun.analysed_known {defs s t an s'} (h : AnalysisRun defs s t none an s') :
    ∀ an' ∈ some an, t.Analysed defs an' := by
  intro an' han
  cases han
  exact h.analysed (by simp)

/-! ## Fields and object classes -/

/-- A body after one more field. -/
def Body.enter (b : Body) (name : String) (a : Address) (optional : Bool) : Body :=
  ⟨b.properties.put name a, if optional then b.required else b.required ++ [name]⟩

theorem Graph.modifyBody_modifyBody (g : Graph) (b : Address) (f h : Body → Body) :
    (g.modifyBody b f).modifyBody b h = g.modifyBody b (fun x => h (f x)) := by
  simp only [Graph.modifyBody, Graph.mk.injEq, true_and]
  apply Array.ext <;> simp [Array.getElem_modify]
  intro i hi
  split <;> simp

/-- Walking at least one field: its descriptor cannot be made, or it is entered and the walk goes
on. -/
inductive WalkRun (defs : Definitions) (D : Describe) (s : Session) (body : Address)
    (name : String) (t : TypeExpr) (rest : List (String × TypeExpr)) :
    Except CompileFault Unit × Session → Prop
  | failed {an s₁ e s₂} (ha : AnalysisRun defs s t none an s₁)
      (hd : s₁.run (D t (some an)) = (.error e, s₂)) :
      WalkRun defs D s body name t rest (.error e, s₂)
  | entered {an s₁ a s₂} (ha : AnalysisRun defs s t none an s₁)
      (hd : s₁.run (D t (some an)) = (.ok a, s₂)) :
      WalkRun defs D s body name t rest
        ((s₂.withBodyChanged body (·.enter name a an.optional)).run (walkFields defs D body rest))

theorem run_analyseNow {defs : Definitions} {s s₁ : Session} {t : TypeExpr} {an : Analysis}
    (ha : AnalysisRun defs s t none an s₁) : s.run (analyseNow defs t) = (.ok an, s₁) := by
  cases ha
  rfl

section

variable {defs : Definitions} {D : Describe} {s s₁ s₂ : Session} {name : String} {t : TypeExpr}
  {an : Analysis}

theorem walkFields_failed {e : CompileFault} (body : Address)
    (rest : List (String × TypeExpr)) (ha : AnalysisRun defs s t none an s₁)
    (hd : s₁.run (D t (some an)) = (.error e, s₂)) :
    s.run (walkFields defs D body ((name, t) :: rest)) = (.error e, s₂) := by
  rw [walkFields, Session.run_bind_ok (run_analyseNow ha), Session.run_bind_error hd]

theorem walkFields_entered {a : Address} (body : Address)
    (rest : List (String × TypeExpr)) (ha : AnalysisRun defs s t none an s₁)
    (hd : s₁.run (D t (some an)) = (.ok a, s₂)) :
    s.run (walkFields defs D body ((name, t) :: rest))
      = (s₂.withBodyChanged body (·.enter name a an.optional)).run
          (walkFields defs D body rest) := by
  rw [walkFields, Session.run_bind_ok (run_analyseNow ha), Session.run_bind_ok hd]
  cases ho : an.optional with
  | true => rfl
  | false =>
    have hm := s₂.graph.modifyBody_modifyBody body
      (fun b => { b with properties := b.properties.put name a })
      (fun b => { b with required := b.required ++ [name] })
    simp only [Session.withBodyChanged, Body.enter, Bool.false_eq_true, if_false, ← hm]
    rfl

end

theorem walkFields_run (defs : Definitions) (D : Describe) (s : Session) (body : Address)
    (name : String) (t : TypeExpr) (rest : List (String × TypeExpr)) :
    WalkRun defs D s body name t rest (s.run (walkFields defs D body ((name, t) :: rest))) := by
  have ha : AnalysisRun defs s t none _ _ := .made
  rcases hd : (t.findDefault.run s).2.run (D t (some (t.analysisWith defs (t.findDefault.run s).1)))
    with ⟨r, s₂⟩
  cases r with
  | error e =>
    rw [walkFields_failed body rest ha hd]
    exact .failed ha hd
  | ok a =>
    rw [walkFields_entered body rest ha hd]
    exact .entered ha hd

/-- A state in which the walk of an object class can start: the class has a descriptor with an empty
body. -/
def Session.withObject (s : Session) (t : TypeExpr) (c : ObjectClass) : Session :=
  let s := (s.withBody.withRecord (objectRecord c s.graph.bodies.size)).remember t
    s.graph.records.size
  match c.unknownName with
  | some name => s.report (.unknownName name t.label)
  | none => s

/-- Describing an object class: it is remembered, or its fields are walked. -/
inductive ObjectRun (defs : Definitions) (D : Describe) (s : Session) (t : TypeExpr)
    (c : ObjectClass) : Except CompileFault Address × Session → Prop
  | kept {a} (h : s.cached? t = some a) : ObjectRun defs D s t c (.ok a, s)
  | failed {e s'} (h : s.cached? t = none)
      (hw : (s.withObject t c).run (walkFields defs D s.graph.bodies.size c.fields)
        = (.error e, s')) : ObjectRun defs D s t c (.error e, s')
  | walked {s'} (h : s.cached? t = none)
      (hw : (s.withObject t c).run (walkFields defs D s.graph.bodies.size c.fields)
        = (.ok (), s')) : ObjectRun defs D s t c (.ok s.graph.records.size, s')

section

variable {defs : Definitions} {D : Describe} {s : Session} {t : TypeExpr}

theorem describeObject_kept {a : Address} (c : ObjectClass) (h : s.cached? t = some a) :
    s.run (describeObject defs D t c) = (.ok a, s) := by
  rw [describeObject, Session.run_get_bind, h]
  rfl

theorem describeObject_new (c : ObjectClass) (h : s.cached? t = none) :
    s.run (describeObject defs D t c) = (s.withObject t c).run (do
      walkFields defs D s.graph.bodies.size c.fields
      return s.graph.records.size) := by
  rw [describeObject, Session.run_get_bind, h]
  simp only
  rw [Session.run_bind_ok s.run_addBody, Session.run_bind_ok (Session.run_addRecord _ _),
    Session.run_modify_bind]
  unfold Session.withObject
  cases c.unknownName <;> rfl

end

theorem describeObject_run (defs : Definitions) (D : Describe) (s : Session) (t : TypeExpr)
    (c : ObjectClass) : ObjectRun defs D s t c (s.run (describeObject defs D t c)) := by
  cases h : s.cached? t with
  | some a =>
    rw [describeObject_kept c h]
    exact .kept h
  | none =>
    rw [describeObject_new c h]
    rcases hw : (s.withObject t c).run (walkFields defs D s.graph.bodies.size c.fields) with
      ⟨r, s'⟩
    cases r with
    | error e =>
      rw [Session.run_bind_error hw]
      exact .failed h hw
    | ok u =>
      rw [Session.run_bind_ok hw]
      exact .walked h hw

/-! ## Bases -/

namespace Base

/-- The expression whose descriptor stands inside the descriptor of a base. -/
def part? : Base → Option TypeExpr
  | .array element => some element
  | .record value => some value
  | _ => none

/-- Whether a base is an object class. -/
def isObject : Base → Bool
  | .object _ => true
  | _ => false

/-- The record of a base, given the descriptor of its part. -/
def recordOf (cs : List Constraint) (part : Address) : Base → Except CompileFault Record
  | .string none => .ok ((Record.ofType "string").constrain textKeywords cs)
  | .string (some f) =>
    .ok ((Record.ofType "string" ++ [("format", Slot.data (.text f.name))]).constrain
      textKeywords cs)
  | .number integer =>
    .ok ((Record.ofType (if integer then "integer" else "number")).constrain numberKeywords cs)
  | .boolean => .ok (Record.ofType "boolean")
  | .array _ =>
    .ok ((Record.ofType "array" ++ [("items", Slot.schema part)]).constrain arrayKeywords cs)
  | .enumeration members => (membersData members).map enumerationRecord
  | .literal member => (membersData [member]).map fun
    | v :: _ => constantRecord v
    | [] => constantRecord member
  | .record _ => .ok (Record.ofType "object" ++ [("additionalProperties", Slot.schema part)])
  | .object _ | .unknown => .ok (Record.ofType "any")

end Base

/-- Describing the part of a base, if it has one. -/
inductive PartRun (D : Describe) (s : Session) (base : Base) :
    Except CompileFault Address → Session → Prop
  | part {e r s'} (hp : base.part? = some e) (hd : s.run (D e none) = (r, s')) :
      PartRun D s base r s'
  | simple {s'} (hp : base.part? = none) (hs : s.SameWork s') : PartRun D s base (.ok 0) s'

/-- A state in which a base that has no keywords has been reported. -/
def Base.noted (base : Base) (label : String) (s : Session) : Session :=
  match base with
  | .object _ | .unknown => s.report (.unsupported label)
  | _ => s

theorem Base.noted_sameWork (base : Base) (label : String) (s : Session) :
    s.SameWork (base.noted label s) := by
  unfold noted
  split <;> first | exact .report s _ | exact .refl s

theorem toRecord_simple {base : Base} (hp : base.part? = none)
    (child : TypeExpr → Compile Address) (label : String) (cs : List Constraint) (s : Session) :
    s.run (base.toRecord child label cs) = (base.recordOf cs 0, base.noted label s) := by
  cases base with
  | string f => cases f <;> rfl
  | enumeration ms =>
    simp only [Base.toRecord, Base.recordOf, Base.noted]
    cases membersData ms <;> rfl
  | literal m =>
    simp only [Base.toRecord, Base.recordOf, Base.noted]
    cases membersData [m] with
    | error f => rfl
    | ok ms => cases ms <;> rfl
  | array e => cases hp
  | record e => cases hp
  | number i => rfl
  | boolean => rfl
  | object c => rfl
  | unknown => rfl

theorem toRecord_part {base : Base} {e : TypeExpr} (hp : base.part? = some e)
    {child : TypeExpr → Compile Address} {s s' : Session} {r : Except CompileFault Address}
    (hd : s.run (child e) = (r, s')) (label : String) (cs : List Constraint) :
    s.run (base.toRecord child label cs) = (r.bind (base.recordOf cs ·), s') := by
  cases base with
  | array _ | record _ =>
    cases hp
    cases r with
    | error f => exact Session.run_bind_error hd
    | ok a => exact (Session.run_bind_ok hd).trans rfl
  | _ => cases hp

theorem toRecord_run (D : Describe) (s : Session) (label : String) (cs : List Constraint)
    (base : Base) :
    ∃ r s', PartRun D s base r s' ∧
      s.run (base.toRecord (D · none) label cs) = (r.bind (base.recordOf cs ·), s') := by
  cases hp : base.part? with
  | none =>
    exact ⟨.ok 0, _, .simple hp (base.noted_sameWork label s), toRecord_simple hp _ _ _ s⟩
  | some e =>
    rcases hd : s.run (D e none) with ⟨r, s'⟩
    exact ⟨r, s', .part hp hd, toRecord_part hp hd _ _⟩

/-- Describing what stands under the layers of an expression: an object class; a base that is
remembered for want of constraints; or a new record. -/
inductive InnerRun (defs : Definitions) (D : Describe) (s : Session) (an : Analysis) :
    Except CompileFault Address × Session → Prop
  | object {c} (hb : an.base = .object c) :
      InnerRun defs D s an (s.run (describeObject defs D an.inner c))
  | kept {a} (hb : an.base.isObject = false) (hf : an.constraints = [])
      (hc : s.cached? an.inner = some a) : InnerRun defs D s an (.ok a, s)
  | failed {e s'} (hb : an.base.isObject = false)
      (hc : an.constraints = [] → s.cached? an.inner = none)
      (hp : PartRun D s an.base (.error e) s') : InnerRun defs D s an (.error e, s')
  | refused {p e s'} (hb : an.base.isObject = false)
      (hc : an.constraints = [] → s.cached? an.inner = none)
      (hp : PartRun D s an.base (.ok p) s') (hr : an.base.recordOf an.constraints p = .error e) :
      InnerRun defs D s an (.error e, s')
  | made {p r s'} (hb : an.base.isObject = false)
      (hc : an.constraints = [] → s.cached? an.inner = none)
      (hp : PartRun D s an.base (.ok p) s') (hr : an.base.recordOf an.constraints p = .ok r) :
      InnerRun defs D s an (.ok s'.graph.records.size,
        if an.constraints.isEmpty then
          (s'.withRecord r).remember an.inner s'.graph.records.size
        else s'.withRecord r)

/-- Describing a base that is no object class. -/
def describeValue (D : Describe) (an : Analysis) : Compile Address := do
  let s ← get
  match if an.constraints.isEmpty then s.cached? an.inner else none with
  | some a => return a
  | none =>
    let record ← an.base.toRecord (D · none) an.inner.label an.constraints
    let a ← addRecord record
    if an.constraints.isEmpty then modify (·.remember an.inner a)
    return a

section

variable {defs : Definitions} {D : Describe} {an : Analysis} {s s' : Session}

theorem describeInner_object {c : ObjectClass} (hb : an.base = .object c) :
    describeInner defs D an = describeObject defs D an.inner c := by
  simp only [describeInner, hb]

theorem describeInner_value (hb : an.base.isObject = false) :
    describeInner defs D an = describeValue D an := by
  unfold describeInner
  split
  · rename_i c h
    rw [h] at hb
    cases hb
  · rfl

theorem describeValue_kept {a : Address} (hf : an.constraints = [])
    (hc : s.cached? an.inner = some a) : s.run (describeValue D an) = (.ok a, s) := by
  rw [describeValue, Session.run_get_bind]
  simp only [hf, hc]
  rfl

/-- Enters the record of a base, if there is one; it is remembered for want of constraints. -/
def enterBase (an : Analysis) : Except CompileFault Record → Compile Address
  | .error e => throw e
  | .ok record => do
    let a ← addRecord record
    if an.constraints.isEmpty then modify (·.remember an.inner a)
    return a

theorem run_enterBase_error (an : Analysis) (e : CompileFault) (s : Session) :
    s.run (enterBase an (.error e)) = (.error e, s) := rfl

theorem run_enterBase_ok (an : Analysis) (r : Record) (s : Session) :
    s.run (enterBase an (.ok r)) = (.ok s.graph.records.size,
      if an.constraints.isEmpty then (s.withRecord r).remember an.inner s.graph.records.size
      else s.withRecord r) := by
  rw [enterBase, Session.run_bind_ok (Session.run_addRecord s r)]
  cases an.constraints.isEmpty <;> rfl

theorem describeValue_new {record : Except CompileFault Record}
    (hc : an.constraints = [] → s.cached? an.inner = none)
    (ht : s.run (an.base.toRecord (D · none) an.inner.label an.constraints) = (record, s')) :
    s.run (describeValue D an) = s'.run (enterBase an record) := by
  have hn : (if an.constraints.isEmpty then s.cached? an.inner else none) = none := by
    split
    · rename_i he
      exact hc (by simpa using he)
    · rfl
  rw [describeValue, Session.run_get_bind, hn]
  cases record with
  | error e => exact Session.run_bind_error ht
  | ok r => exact Session.run_bind_ok ht

end

theorem describeInner_run (defs : Definitions) (D : Describe) (s : Session) (an : Analysis) :
    InnerRun defs D s an (s.run (describeInner defs D an)) := by
  cases hb : an.base.isObject with
  | true =>
    cases ho : an.base with
    | object c =>
      rw [describeInner_object ho]
      exact .object ho
    | _ =>
      rw [ho] at hb
      cases hb
  | false =>
    rw [describeInner_value hb]
    by_cases hk : an.constraints = [] ∧ (s.cached? an.inner).isSome
    · obtain ⟨hf, ha⟩ := hk
      obtain ⟨a, hc⟩ := Option.isSome_iff_exists.mp ha
      rw [describeValue_kept hf hc]
      exact .kept hb hf hc
    have hn : an.constraints = [] → s.cached? an.inner = none := by
      intro hf
      simpa [hf] using hk
    obtain ⟨r, s', hp, ht⟩ := toRecord_run D s an.inner.label an.constraints an.base
    rw [describeValue_new hn ht]
    cases r with
    | error e => exact .failed hb hn hp
    | ok p =>
      change InnerRun defs D s an (s'.run (enterBase an (an.base.recordOf an.constraints p)))
      cases hrec : an.base.recordOf an.constraints p with
      | error e => exact .refused hb hn hp hrec
      | ok record =>
        rw [run_enterBase_ok]
        exact .made hb hn hp hrec

/-! ## Expressions and parameters -/

/-- Adds the layers of an expression to the descriptor of what stands under them. -/
def addLayers (t : TypeExpr) (an : Analysis) (inner : Address) : Compile Address := do
  let record := (← get).graph.record inner
  if an.adds record then
    if let some (.error _) := an.default then
      modify (·.report (.defaultOmitted t.label))
    let a ← addRecord (an.decorate record)
    modify (·.remember t a)
    return a
  else
    modify (·.remember t inner)
    return inner

/-- Describing an expression whose analysis is known. -/
def describeAnalysed (defs : Definitions) (D : Describe) (t : TypeExpr) (an : Analysis) :
    Compile Address := do
  addLayers t an (← describeInner defs D an)

/-- Describing an expression: it is remembered; what stands under its layers cannot be described; or
it is described, and the layers add something to the description or nothing. -/
inductive FieldRun (defs : Definitions) (D : Describe) (s : Session) (t : TypeExpr)
    (known : Option Analysis) : Except CompileFault Address × Session → Prop
  | kept {a} (h : s.cached? t = some a) : FieldRun defs D s t known (.ok a, s)
  | failed {an s₁ e s'} (h : s.cached? t = none) (ha : AnalysisRun defs s t known an s₁)
      (hi : s₁.run (describeInner defs D an) = (.error e, s')) :
      FieldRun defs D s t known (.error e, s')
  | bare {an s₁ a s₂} (h : s.cached? t = none) (ha : AnalysisRun defs s t known an s₁)
      (hi : s₁.run (describeInner defs D an) = (.ok a, s₂))
      (hadd : an.adds (s₂.graph.record a) = false) :
      FieldRun defs D s t known (.ok a, s₂.remember t a)
  | decorated {an s₁ a s₂ s₃} (h : s.cached? t = none) (ha : AnalysisRun defs s t known an s₁)
      (hi : s₁.run (describeInner defs D an) = (.ok a, s₂))
      (hadd : an.adds (s₂.graph.record a) = true) (hs : s₂.SameWork s₃) :
      FieldRun defs D s t known (.ok s₃.graph.records.size,
        (s₃.withRecord (an.decorate (s₂.graph.record a))).remember t s₃.graph.records.size)

section

variable {defs : Definitions} {D : Describe} {s s₁ : Session} {t : TypeExpr} {an : Analysis}
  {known : Option Analysis}

theorem describeStep_kept {a : Address} (known : Option Analysis) (h : s.cached? t = some a) :
    s.run (describeStep defs D t known) = (.ok a, s) := by
  rw [describeStep, Session.run_get_bind, h]
  rfl

theorem describeStep_new (h : s.cached? t = none)
    (ha : AnalysisRun defs s t known an s₁) :
    s.run (describeStep defs D t known) = s₁.run (describeAnalysed defs D t an) := by
  rw [describeStep, Session.run_get_bind, h]
  cases ha with
  | known => rfl
  | made => exact Session.run_bind_ok (run_analyseNow .made)

end

/-- The layers add nothing to a description, or a record with what they add. -/
inductive LayersRun (s : Session) (t : TypeExpr) (an : Analysis) (a : Address) :
    Except CompileFault Address × Session → Prop
  | bare (hadd : an.adds (s.graph.record a) = false) : LayersRun s t an a (.ok a, s.remember t a)
  | decorated {s'} (hadd : an.adds (s.graph.record a) = true) (hs : s.SameWork s') :
      LayersRun s t an a (.ok s'.graph.records.size,
        (s'.withRecord (an.decorate (s.graph.record a))).remember t s'.graph.records.size)

theorem addLayers_run (s : Session) (t : TypeExpr) (an : Analysis) (a : Address) :
    LayersRun s t an a (s.run (addLayers t an a)) := by
  rw [addLayers, Session.run_get_bind]
  cases hadd : an.adds (s.graph.record a) with
  | false =>
    simp only [hadd, Bool.false_eq_true, if_false]
    exact .bare hadd
  | true =>
    simp only [hadd, if_true]
    have hmade (s' : Session) (hs : s.SameWork s') : LayersRun s t an a (s'.run (do
        let a' ← addRecord (an.decorate (s.graph.record a))
        modify (·.remember t a')
        return a')) := by
      rw [Session.run_bind_ok (Session.run_addRecord s' _), Session.run_modify_bind,
        Session.run_pure]
      exact .decorated hadd hs
    cases hd : an.default with
    | none => exact hmade s (.refl s)
    | some o =>
      cases o with
      | ok v => exact hmade s (.refl s)
      | error f =>
        simp only [Session.run_modify_bind]
        exact hmade _ (.report s _)

theorem describeStep_run (defs : Definitions) (D : Describe) (s : Session) (t : TypeExpr)
    (known : Option Analysis) :
    FieldRun defs D s t known (s.run (describeStep defs D t known)) := by
  cases h : s.cached? t with
  | some a =>
    rw [describeStep_kept known h]
    exact .kept h
  | none =>
    obtain ⟨an, s₁, ha⟩ := AnalysisRun.exists defs s t known
    rw [describeStep_new h ha, describeAnalysed]
    rcases hi : s₁.run (describeInner defs D an) with ⟨r, s₂⟩
    cases r with
    | error e =>
      rw [Session.run_bind_error hi]
      exact .failed h ha hi
    | ok a =>
      rw [Session.run_bind_ok hi]
      have hl := addLayers_run s₂ t an a
      generalize s₂.run (addLayers t an a) = r at hl ⊢
      cases hl with
      | bare hadd => exact .bare h ha hi hadd
      | decorated hadd hs => exact .decorated h ha hi hadd hs

/-- The descriptor of an empty object. -/
def emptyObjectRecord (body : Address) : Record :=
  Record.ofType "object" ++ [("properties", .properties body)]

/-- Describing parameters: an object class, or a new empty object for anything else. -/
inductive ParametersRun (defs : Definitions) (s : Session) (t : TypeExpr) :
    Except CompileFault Address × Session → Prop
  | object {c} (hb : t.base defs = .object c) :
      ParametersRun defs s t
        (s.run (describeObject defs (describeWithin defs (defs.room t)) t c))
  | empty {s₁} (hb : (t.base defs).isObject = false) (hs : s.SameWork s₁) :
      ParametersRun defs s t (.ok s₁.graph.records.size,
        s₁.withBody.withRecord (emptyObjectRecord s₁.graph.bodies.size))

theorem describeParameters_run (defs : Definitions) (s : Session) (t : TypeExpr) :
    ParametersRun defs s t (s.run (describeParameters defs t)) := by
  by_cases hb : ∃ c, t.base defs = .object c
  · obtain ⟨c, hb⟩ := hb
    have hr : describeParameters defs t
        = describeObject defs (describeWithin defs (defs.room t)) t c := by
      simp only [describeParameters, hb]
    rw [hr]
    exact .object hb
  · have hb' : (t.base defs).isObject = false := by
      cases h : t.base defs with
      | object c => exact absurd ⟨c, h⟩ hb
      | _ => rfl
    have hr : describeParameters defs t = (do
        modify (·.report (.notAnObject t.label))
        let body ← addBody
        addRecord (emptyObjectRecord body)) := by
      unfold describeParameters
      split
      · rename_i c h
        exact absurd ⟨c, h⟩ hb
      · rfl
    rw [hr, Session.run_modify_bind, Session.run_bind_ok (Session.run_addBody _),
      Session.run_addRecord]
    exact .empty hb' (.report s _)

end ToolCatalog
