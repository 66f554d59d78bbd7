import ToolCatalog.Proofs.History
import ToolCatalog.Proofs.Records

/-!
What all records of a session have in common.

The compiler makes records in four ways: of an object class, of the empty object, of any other base,
and as the copy of another record with the additions of layers. A property that all four give or
keep holds of every record of a session, whatever calls were made and whether they failed or not.
-/
namespace ToolCatalog

/-- A property that records get when they are made and keep when they are copied with additions. -/
structure Record.Lasting (P : Record → Prop) : Prop where
  empty : P []
  object : ∀ (c : ObjectClass) (b : Address), P (objectRecord c b)
  emptyObject : ∀ b : Address, P (emptyObjectRecord b)
  base : ∀ {b : Base} {cs : List Constraint} {p : Address} {r : Record},
    b.recordOf cs p = .ok r → P r
  decorate : ∀ (an : Analysis) {r : Record}, P r → P (an.decorate r)

/-- Every record of a graph has a property. -/
def Graph.All (P : Record → Prop) (g : Graph) : Prop :=
  ∀ (a : Address) (r : Record), g.records[a]? = some r → P r

/-- Every description by `D` keeps a property of all records. -/
def Describe.KeepsAll (P : Record → Prop) (D : Describe) : Prop :=
  ∀ {s s' : Session} {t known r}, s.graph.All P → s.run (D t known) = (r, s') → s'.graph.All P

variable {P : Record → Prop} {defs : Definitions} {D : Describe} {s s' : Session}

namespace Graph.All

theorem record {g : Graph} (hP : Record.Lasting P) (h : g.All P) (a : Address) :
    P (g.record a) := by
  unfold Graph.record
  cases hr : g.records[a]? with
  | none => exact hP.empty
  | some r => exact h a r hr

theorem sameWork (hs : s.graph.All P) (h : s.SameWork s') : s'.graph.All P :=
  fun a r hr => hs a r (h.graph ▸ hr)

theorem empty : Graph.empty.All P := by
  intro a r hr
  simp [Graph.empty] at hr

theorem addRecord {g : Graph} (h : g.All P) {r : Record} (hr : P r) :
    (g.addRecord r).2.All P := by
  intro a r' hr'
  simp only [Graph.addRecord, Array.getElem?_push] at hr'
  split at hr'
  · cases hr'
    exact hr
  · exact h a r' hr'

theorem withRecord (hs : s.graph.All P) {r : Record} (hr : P r) :
    (s.withRecord r).graph.All P :=
  hs.addRecord hr

theorem remember (hs : s.graph.All P) (t : TypeExpr) (a : Address) :
    (s.remember t a).graph.All P := by
  rwa [Session.remember_graph]

theorem withObject (hP : Record.Lasting P) (hs : s.graph.All P) (t : TypeExpr) (c : ObjectClass) :
    (s.withObject t c).graph.All P := by
  rw [s.withObject_graph]
  have hbody : s.withBody.graph.All P := hs
  exact hbody.withRecord (hP.object c _)

theorem fresh (observable : Bool) : (Session.fresh observable).graph.All P :=
  empty

end Graph.All

theorem walkFields_all (hD : D.KeepsAll P) (b : Address) {fields : List (String × TypeExpr)}
    {s : Session} (hs : s.graph.All P) {r : Except CompileFault Unit}
    (h : s.run (walkFields defs D b fields) = (r, s')) : s'.graph.All P := by
  induction fields generalizing s with
  | nil =>
    cases h
    exact hs
  | cons f rest ih =>
    have hcase := walkFields_run defs D s b f.1 f.2 rest
    generalize hres : s.run (walkFields defs D b ((f.1, f.2) :: rest)) = res at hcase
    rw [show ((f.1, f.2) :: rest) = f :: rest from rfl, h] at hres
    cases hcase with
    | failed ha hd =>
      cases hres
      exact hD (hs.sameWork ha.sameWork) hd
    | @entered an s₁ a s₂ ha hd =>
      have hfield : s₂.graph.All P := hD (hs.sameWork ha.sameWork) hd
      exact ih (s := s₂.withBodyChanged b _) hfield hres.symm

section

variable (hP : Record.Lasting P)

include hP

theorem describeObject_all (hD : D.KeepsAll P) {t : TypeExpr} {c : ObjectClass}
    (hs : s.graph.All P) {r : Except CompileFault Address}
    (h : s.run (describeObject defs D t c) = (r, s')) : s'.graph.All P := by
  have hcase := describeObject_run defs D s t c
  rw [h] at hcase
  cases hcase with
  | kept _ => exact hs
  | failed _ hw => exact walkFields_all hD _ (hs.withObject hP t c) hw
  | walked _ hw => exact walkFields_all hD _ (hs.withObject hP t c) hw

theorem describeInner_all (hD : D.KeepsAll P) {an : Analysis} (hs : s.graph.All P)
    {r : Except CompileFault Address} (h : s.run (describeInner defs D an) = (r, s')) :
    s'.graph.All P := by
  have hpart {r s'} (hp : PartRun D s an.base r s') : s'.graph.All P := by
    cases hp with
    | part _ hd => exact hD hs hd
    | simple _ hw => exact hs.sameWork hw
  have hcase := describeInner_run defs D s an
  generalize hres : s.run (describeInner defs D an) = res at hcase
  rw [h] at hres
  cases hcase with
  | object hb => exact describeObject_all hP hD hs hres.symm
  | kept _ _ _ =>
    cases hres
    exact hs
  | failed _ _ hp =>
    cases hres
    exact hpart hp
  | refused _ _ hp _ =>
    cases hres
    exact hpart hp
  | made _ _ hp hrec =>
    cases hres
    have hnew := (hpart hp).withRecord (hP.base hrec)
    split
    · exact hnew.remember _ _
    · exact hnew

theorem describeStep_all (hD : D.KeepsAll P) : Describe.KeepsAll P (describeStep defs D) := by
  intro s s' t known r hs h
  have hcase := describeStep_run defs D s t known
  rw [h] at hcase
  cases hcase with
  | kept _ => exact hs
  | failed _ ha hi => exact describeInner_all hP hD (hs.sameWork ha.sameWork) hi
  | bare _ ha hi _ =>
    exact (describeInner_all hP hD (hs.sameWork ha.sameWork) hi).remember _ _
  | @decorated an s₁ a s₂ s₃ _ ha hi _ hw =>
    have hs₂ := describeInner_all hP hD (hs.sameWork ha.sameWork) hi
    exact ((hs₂.sameWork hw).withRecord (hP.decorate an (hs₂.record hP a))).remember _ _

theorem describeWithin_all (defs : Definitions) (room : Nat) :
    Describe.KeepsAll P (describeWithin defs room) := by
  induction room with
  | zero =>
    intro s s' t known r hs h
    cases h
    exact hs
  | succ room ih => exact describeStep_all hP ih

theorem Call.keeps_all {c : Call} (hs : s.graph.All P) {r : Except CompileFault Address}
    (h : s.run (c.run defs) = (r, s')) : s'.graph.All P := by
  cases c with
  | describe t => exact describeWithin_all hP defs _ hs h
  | compile t =>
    have hcase := describeParameters_run defs s t
    generalize hres : s.run (describeParameters defs t) = res at hcase
    rw [show s.run (describeParameters defs t) = (r, s') from h] at hres
    cases hcase with
    | object hb => exact describeObject_all hP (describeWithin_all hP defs _) hs hres.symm
    | @empty s₁ _ hw =>
      cases hres
      have hs₁ : s₁.graph.All P := hs.sameWork hw
      have hbody : s₁.withBody.graph.All P := hs₁
      exact hbody.withRecord (hP.emptyObject _)

/-- What all records have in common is kept by any calls, failed ones included. -/
theorem Session.after_all (calls : List Call) {s : Session} (hs : s.graph.All P) :
    (s.after defs calls).2.graph.All P := by
  induction calls generalizing s with
  | nil => exact hs
  | cons c rest ih => exact ih (Call.keeps_all hP hs rfl)

end

/-! ## Growth -/

/-- Calls take nothing back, whatever they are about. -/
theorem Call.extends (c : Call) (s : Session) : s.Extends none (s.run (c.run defs)).2 := by
  cases c with
  | describe t => exact describeWithin_extends defs _ s t none
  | compile t => exact describeParameters_extends defs t s

theorem Session.after_extends (calls : List Call) (s : Session) :
    s.Extends none (s.after defs calls).2 := by
  induction calls generalizing s with
  | nil => exact .refl _ s
  | cons c rest ih => exact (c.extends s).trans (ih _)

end ToolCatalog
