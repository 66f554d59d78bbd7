import ToolCatalog.Proofs.Faults
import ToolCatalog.Proofs.Preservation

/-!
Calls of the compiler one after the other in one session.

A call that fails keeps what it did before, so a later call may meet an object class whose body was
never finished. The invariant allows for that; only where no call fails are all classes complete.
-/
namespace ToolCatalog

/-- Nothing made yet; factories may look at what will be, or not. -/
def Session.fresh (observable : Bool) : Session :=
  { Session.empty with observable }

/-- One call of the compiler. -/
inductive Call
  | describe (t : TypeExpr)
  | compile (t : TypeExpr)

/-- The expression that a call is about. -/
def Call.type : Call → TypeExpr
  | .describe t | .compile t => t

/-- What a call does. -/
def Call.run (defs : Definitions) : Call → Compile Address
  | .describe t => ToolCatalog.describe defs t
  | .compile t => describeParameters defs t

/-- What comes of calls one after the other, and the session after them. -/
def Session.after (defs : Definitions) (s : Session) :
    List Call → List (Except CompileFault Address) × Session
  | [] => ([], s)
  | c :: rest =>
    let first := s.run (c.run defs)
    let others := Session.after defs first.2 rest
    (first.1 :: others.1, others.2)

/-- The descriptor at an address is what a call asked for. -/
def Call.Answered (defs : Definitions) (s : Session) : Call → Address → Prop
  | .describe t, a => Shows defs s t a
  | .compile t, a => ShowsParameters defs s t a

/-- Every object class that has a descriptor is complete. -/
def AllComplete (defs : Definitions) (s : Session) : Prop :=
  ∀ name c, defs.find? name = some (.object c) → (s.cached? (.declared name)).isSome →
    Complete defs s name c

section

variable {defs : Definitions} {U : TypeExpr → Prop} {s s' : Session}

theorem Call.explained {c : Call} {e : CompileFault}
    (h : s.run (c.run defs) = (.error e, s')) : Explained defs s c.type e := by
  cases c with
  | describe t => exact describe_explained h
  | compile t => exact describeParameters_explained h

theorem Session.cached?_fresh (o : Bool) (t : TypeExpr) :
    (Session.fresh o).cached? t = none := by
  simp [Session.cached?, Session.fresh, Session.empty, Memo.get?, Memo.empty]

theorem Invariant.fresh (o : Bool) : Invariant defs U (Session.fresh o) := by
  constructor
  case shows => simp [Session.cached?_fresh]
  case walked => simp [Session.cached?_fresh]
  case own => simp [Session.Holds, Session.cached?_fresh]

theorem AllComplete.fresh (o : Bool) : AllComplete defs (Session.fresh o) := by
  intro name c _ h
  simp [Session.cached?_fresh] at h

theorem AllComplete.settled (h : AllComplete defs s) (hx : s.Extends none s')
    (hk : s.KeepsClasses defs s') (hs : Settled defs s s') : AllComplete defs s' := by
  intro name c hf hc
  by_cases hn : (s.cached? (.declared name)).isSome
  · exact (h name c hf hn).mono hx hk hf (by simp)
  · exact hs.complete hf (by simpa using hn) hc

theorem Call.Answered.mono {c : Call} {a : Address} (hx : s.Extends none s')
    (hk : s.KeepsClasses defs s') (h : c.Answered defs s a) : c.Answered defs s' a := by
  cases c with
  | describe t => exact Shows.mono hx hk h
  | compile t => exact ShowsParameters.mono hx hk h

theorem Call.preserves (hU : Universe defs U) {c : Call} (hc : U c.type)
    (hi : Invariant defs U s) {r : Except CompileFault Address}
    (h : s.run (c.run defs) = (r, s')) :
    Preserved defs U none s s' r (c.Answered defs s') := by
  cases c with
  | describe t => exact describe_preserves hU hc hi h
  | compile t => exact describeParameters_preserves hU hc hi h

theorem Session.after_preserves (hU : Universe defs U) {calls : List Call}
    (hcalls : ∀ c ∈ calls, U c.type) {s : Session} (hi : Invariant defs U s) :
    s.Extends none (s.after defs calls).2 ∧ s.KeepsClasses defs (s.after defs calls).2 ∧
      Invariant defs U (s.after defs calls).2 := by
  induction calls generalizing s with
  | nil => exact ⟨.refl _ s, .refl _ s, hi⟩
  | cons c rest ih =>
    rcases hr : s.run (c.run defs) with ⟨r, s₁⟩
    have hp := Call.preserves hU (hcalls c (by simp)) hi hr
    obtain ⟨hx, hk, hi'⟩ := ih (fun d hd => hcalls d (by simp [hd])) hp.inv
    simp only [Session.after, hr]
    exact ⟨hp.growth.trans hx, hp.classes.trans hk, hi'⟩

/-- What calls found stays what they asked for, however many calls follow. -/
theorem Session.after_answered (hU : Universe defs U) {calls : List Call}
    (hcalls : ∀ c ∈ calls, U c.type) {s : Session} (hi : Invariant defs U s) :
    List.Forall₂ (fun c r => ∀ a, r = .ok a → c.Answered defs (s.after defs calls).2 a)
      calls (s.after defs calls).1 := by
  induction calls generalizing s with
  | nil => exact .nil
  | cons c rest ih =>
    rcases hr : s.run (c.run defs) with ⟨r, s₁⟩
    have hp := Call.preserves hU (hcalls c (by simp)) hi hr
    have hrest : ∀ d ∈ rest, U d.type := fun d hd => hcalls d (by simp [hd])
    obtain ⟨hx, hk, -⟩ := Session.after_preserves hU hrest hp.inv
    simp only [Session.after, hr]
    exact .cons (fun a ha => (hp.result a ha).mono hx hk) (ih hrest hp.inv)

/-- If no call fails, all object classes are complete. -/
theorem Session.after_allComplete (hU : Universe defs U) {calls : List Call}
    (hcalls : ∀ c ∈ calls, U c.type) {s : Session} (hi : Invariant defs U s)
    (hs : AllComplete defs s) (hok : ∀ r ∈ (s.after defs calls).1, ∃ a, r = .ok a) :
    AllComplete defs (s.after defs calls).2 := by
  induction calls generalizing s with
  | nil => exact hs
  | cons c rest ih =>
    rcases hr : s.run (c.run defs) with ⟨r, s₁⟩
    have hp := Call.preserves hU (hcalls c (by simp)) hi hr
    simp only [Session.after, hr, List.mem_cons, forall_eq_or_imp] at hok ⊢
    obtain ⟨⟨a, rfl⟩, hok⟩ := hok
    exact ih (fun d hd => hcalls d (by simp [hd])) hp.inv
      (hs.settled hp.growth hp.classes (hp.settled a rfl)) hok

end

end ToolCatalog
