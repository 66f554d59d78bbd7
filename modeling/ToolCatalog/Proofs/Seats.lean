import ToolCatalog.Proofs.Pending
import ToolCatalog.Proofs.Evaluation
import ToolCatalog.Proofs.Serial

/-!
Where descriptors are made.

A descriptor is remembered under a key, or it is made for one seat only: a field of an object
class, or a part somewhere below one. The proof keeps a chart of which descriptor was made at which
seat; it is no part of the program. `Sits` says of an expression that its descriptor and those of
all its parts are where they belong. As long as nothing is met while it is pending, no seat gets a
second descriptor and no descriptor a second seat.
-/
namespace ToolCatalog

/-! ## Seats -/

/-- What descriptors are made for: the expression with a key, or a field of an object class. -/
inductive Root
  | own (k : Key)
  | field (name : String) (index : Nat)

/-- The key that is remembered or pending where descriptors are made. -/
def Root.key : Root → Key
  | .own k => k
  | .field name _ => .declared name

/-- So many parts below a root. -/
structure Seat where
  root : Root
  depth : Nat

namespace Seat

/-- The seat of what is remembered under a key. -/
def own (k : Key) : Seat := ⟨.own k, 0⟩

/-- The seat of a field. -/
def field (name : String) (index : Nat) : Seat := ⟨.field name index, 0⟩

/-- The seat of the part of what has a seat. -/
def below (p : Seat) : Seat := ⟨p.root, p.depth + 1⟩

/-- A seat is another one or below it. -/
structure Covers (p q : Seat) : Prop where
  root : q.root = p.root
  depth : p.depth ≤ q.depth

theorem Covers.refl (p : Seat) : p.Covers p := ⟨rfl, Nat.le_refl _⟩

theorem Covers.of_below {p q : Seat} (h : p.below.Covers q) : p.Covers q :=
  ⟨h.root, Nat.le_of_succ_le h.depth⟩

theorem not_below_covers (p : Seat) : ¬p.below.Covers p :=
  fun h => absurd h.depth (Nat.not_succ_le_self _)

end Seat

namespace TypeExpr

/-- Whether the layers of an expression say more than what stands under them. -/
def enlarges (defs : Definitions) (t : TypeExpr) : Bool :=
  t.allowsAbsence || t.allowsNull || t.defaultSource?.isSome ||
    decide (t.describedBy defs ≠ nonEmpty? (t.core.base defs).description)

/-- The seat of the descriptor of an expression that is described at a seat. -/
def home (defs : Definitions) (t : TypeExpr) (p : Seat) : Seat :=
  if !t.enlarges defs && t.sharesCore defs then .own t.core.key
  else if t.watchable then .own t.key
  else p

/-- The seat at which the part of an expression is described. -/
def partSeat (defs : Definitions) (t : TypeExpr) (p : Seat) : Seat :=
  if t.sharesCore defs then (Seat.own t.core.key).below else (t.home defs p).below

end TypeExpr

/-- Which descriptor was made at which seat. -/
abbrev Chart := Address → Option Seat

namespace Chart

/-- A later chart. -/
def Below (L L' : Chart) : Prop :=
  ∀ a p, L a = some p → L' a = some p

/-- The chart with one more descriptor. -/
def enter (L : Chart) (a : Address) (p : Seat) : Chart :=
  fun b => if b = a then some p else L b

variable {L L' L'' : Chart} {a b : Address} {p q : Seat}

theorem Below.refl (L : Chart) : L.Below L := fun _ _ h => h

theorem Below.trans (h : L.Below L') (h' : L'.Below L'') : L.Below L'' :=
  fun a p hp => h' a p (h a p hp)

theorem enter_self (L : Chart) (a : Address) (p : Seat) : L.enter a p a = some p :=
  if_pos rfl

theorem below_enter (h : L a = none) : L.Below (L.enter a p) := by
  intro b q hb
  have hne : b ≠ a := by
    rintro rfl
    rw [h] at hb
    cases hb
  rw [enter, if_neg hne, hb]

/-- At most one descriptor has been added. -/
theorem below_of_eq_or_enter {X : Prop}
    (h : L' = L ∨ L' = L.enter a p ∧ L a = none ∧ X) : L.Below L' := by
  rcases h with rfl | ⟨rfl, ha, -⟩
  · exact .refl _
  · exact below_enter ha

theorem eq_of_enter (h : L.enter a p b = some q) : (b = a ∧ q = p) ∨ L b = some q := by
  unfold enter at h
  split at h
  · rename_i hb
    exact .inl ⟨hb, (Option.some.inj h).symm⟩
  · exact .inr h

end Chart

/-- The descriptor of an expression that was described at a seat has the seat where it belongs,
and so do the descriptors of its parts. -/
inductive Sits (defs : Definitions) (s : Session) (L : Chart) : Seat → TypeExpr → Address → Prop
  | mk {p t a r} (hr : s.graph.records[a]? = some r) (hl : L a = some (t.home defs p))
      (hd : r.data? "description" = (t.describedBy defs).map .text)
      (hp : ∀ e k c, (t.core.base defs).part? = some e → (k, .schema c) ∈ r →
        Sits defs s L (t.partSeat defs p) e c) : Sits defs s L p t a

/-- The fields with their positions. -/
def numbered (fs : List (String × TypeExpr)) : List (String × TypeExpr × Nat) :=
  fs.zipIdx.map fun f => (f.1.1, f.1.2, f.2)

theorem numbered_append (fs : List (String × TypeExpr)) (name : String) (t : TypeExpr) :
    numbered (fs ++ [(name, t)]) = numbered fs ++ [(name, t, fs.length)] := by
  simp [numbered, List.zipIdx_append]

/-- The properties of a body are descriptors of these fields of a class, each in its seat. -/
def Body.Seats (defs : Definitions) (s : Session) (L : Chart) (name : String)
    (fs : List (String × TypeExpr)) (x : Body) : Prop :=
  List.Forall₂ (fun f e => f.1 = e.1 ∧ Sits defs s L (.field name f.2.2) f.2.1 e.2)
    (Entries.ofList (numbered fs)) x.properties

/-- The body of an object class, which stands behind so many others, holds all fields in their
seats. -/
def Filled (defs : Definitions) (s : Session) (L : Chart) (least : Nat) (name : String)
    (c : ObjectClass) : Prop :=
  ∃ b x, s.Holds name c b ∧ least ≤ b ∧ s.graph.bodies[b]? = some x ∧
    x.Seats defs s L name c.fields

/-- A chart of a session in which nothing is pending but under some keys: no two descriptors have
one seat, a seat belongs to a key that is remembered or pending, and what is remembered sits. -/
structure Seated (defs : Definitions) (U : TypeExpr → Prop) (P : List Key) (s : Session)
    (L : Chart) : Prop where
  bounded : ∀ {a p}, L a = some p → a < s.graph.records.size
  distinct : ∀ {a b p}, L a = some p → L b = some p → a = b
  opened : ∀ {a p}, L a = some p → (s.known? p.root.key).isSome ∨ p.root.key ∈ P
  sits : ∀ {t a}, U t → s.cached? t = some a → Sits defs s L (.own t.key) t a
  values : ∀ k ∈ P, ∀ {name c}, defs.find? name = some (.object c) → k ≠ .declared name

/-- A seat at which something can be described: its key is remembered or pending, and nothing was
made there or below. -/
structure Seat.Vacant (P : List Key) (s : Session) (L : Chart) (p : Seat) : Prop where
  opened : (s.known? p.root.key).isSome ∨ p.root.key ∈ P
  free : ∀ {a q}, L a = some q → ¬p.Covers q

/-- How a chart grows while something is done: what is pending stays so, and a new descriptor is
made where `here` allows it or where something new is remembered. -/
structure Grown (defs : Definitions) (U : TypeExpr → Prop) (P : List Key) (here : Seat → Prop)
    (free : Option Address) (s : Session) (L : Chart) (s' : Session) (L' : Chart) : Prop where
  growth : s.Extends free s'
  bodies : s.graph.bodies.size ≤ s'.graph.bodies.size
  charts : L.Below L'
  seated : Seated defs U P s' L'
  kept : ∀ {k}, (s.known? k).isSome → (s'.known? k).isSome
  waits : ∀ {k}, k ∈ P → s.known? k = none → s'.known? k = none
  new : ∀ {a p}, L' a = some p → L a = some p ∨ here p ∨
    (s.known? p.root.key = none ∧ (s'.known? p.root.key).isSome)
  filled : ∀ {name c}, U (.declared name) → defs.find? name = some (.object c) →
    s.known? (.declared name) = none → (s'.known? (.declared name)).isSome →
      Filled defs s' L' s.graph.bodies.size name c

variable {defs : Definitions} {U : TypeExpr → Prop} {P Q : List Key} {here here' : Seat → Prop}
  {free : Option Address} {s s' s₁ s₂ : Session} {L L' L₁ L₂ : Chart} {t u : TypeExpr}
  {a b : Address} {p q : Seat} {r : Record} {name : String} {c : ObjectClass}

/-! ## Expressions and their seats -/

namespace TypeExpr

theorem MayFind.isSome {d : Option DefaultOutcome} (h : t.MayFind d) :
    d.isSome = t.defaultSource?.isSome := by
  obtain ⟨s, rfl⟩ := h
  unfold findDefault
  cases t.defaultSource? <;> rfl

/-- Whether layers add something does not depend on the session. -/
theorem adds_eq {d : Option DefaultOutcome} (hd : t.MayFind d)
    (hr : r.data? "description"
      = (nonEmpty? (t.core.base defs).description).map .text) :
    (t.analysisWith defs d).adds r = t.enlarges defs := by
  simp only [analysisWith_eq, Analysis.adds, enlarges, hd.isSome, hr, ne_eq, decide_not]
  congr 1
  rw [describedBy]
  cases t.peel.1.findSome? Layer.description <;>
    cases nonEmpty? (t.core.base defs).description <;>
      simp [beq_eq_decide]

theorem enlarges_of_bare (h : t.peel.1 = []) : t.enlarges defs = false := by
  simp [enlarges, allowsAbsence, allowsNull, defaultSource?, describedBy, h]

theorem describedBy_of_bare (h : t.peel.1 = []) :
    t.describedBy defs = nonEmpty? (t.core.base defs).description := by
  simp [describedBy, h]

theorem core_bare (t : TypeExpr) : t.core.peel.1 = [] := by
  rw [t.core_core]

/-- What is remembered has its seat whatever it was described for. -/
theorem home_of_watchable (h : t.watchable = true) (p q : Seat) :
    t.home defs p = t.home defs q := by
  simp [home, h]

theorem home_of_shared (he : t.enlarges defs = false) (hs : t.sharesCore defs = true) (p : Seat) :
    t.home defs p = .own t.core.key := by
  simp [home, he, hs]

theorem home_of_bare (hw : t.watchable = true) (h : t.peel.1 = []) (p : Seat) :
    t.home defs p = .own t.key := by
  rw [home_of_shared (enlarges_of_bare h) (sharesCore_of_bare hw h), core_of_bare h]

theorem partSeat_of_shared (hs : t.sharesCore defs = true) (p : Seat) :
    t.partSeat defs p = (Seat.own t.core.key).below := by
  simp [partSeat, hs]

theorem partSeat_of_unshared (hs : t.sharesCore defs = false) (p : Seat) :
    t.partSeat defs p = (t.home defs p).below := by
  simp [partSeat, hs]

end TypeExpr

/-! ## Sitting -/

namespace Sits

theorem mono (hx : s.Extends free s') (hL : L.Below L') (h : Sits defs s L p t a) :
    Sits defs s' L' p t a := by
  induction h with
  | mk hr hl hd _ ih => exact .mk (hx.record _ _ hr) (hL _ _ hl) hd ih

theorem label (h : Sits defs s L p t a) : L a = some (t.home defs p) := by
  cases h with
  | mk _ hl _ _ => exact hl

theorem anywhere (hw : t.watchable = true) (q : Seat) (h : Sits defs s L p t a) :
    Sits defs s L q t a := by
  have hhome : t.home defs p = t.home defs q := t.home_of_watchable hw p q
  have hpart : t.partSeat defs p = t.partSeat defs q := by
    rw [TypeExpr.partSeat, TypeExpr.partSeat, hhome]
  cases h with
  | mk hr hl hd hp => exact .mk hr (hhome ▸ hl) hd (hpart ▸ hp)

/-- Two constants that are remembered under one key share a descriptor. -/
theorem constant {i j : Nat} {v w : Value} (hv : (TypeExpr.constant i v).watchable = true)
    (hw : (TypeExpr.constant j w).watchable = true)
    (hk : (TypeExpr.constant i v).key = (TypeExpr.constant j w).key)
    (h : Sits defs s L p (.constant i v) a) : Sits defs s L q (.constant j w) a := by
  cases h with
  | mk hr hl hd hp =>
    refine .mk hr ?_ (hd.trans rfl) (fun e k c he => by cases he)
    rw [TypeExpr.home_of_bare hw rfl, ← hk, hl, TypeExpr.home_of_bare hv rfl]

end Sits

theorem Session.Extends.lt_records (hx : s.Extends free s') (ha : a < s.graph.records.size) :
    a < s'.graph.records.size := by
  have h := hx.record a _ (Array.getElem?_eq_some_iff.mpr ⟨ha, rfl⟩)
  exact (Array.getElem?_eq_some_iff.mp h).1

theorem Session.Extends.bodies_size (hx : s.Extends none s') :
    s.graph.bodies.size ≤ s'.graph.bodies.size := by
  refine Nat.le_of_not_lt fun hlt => ?_
  have h := hx.body _ _ (Array.getElem?_eq_some_iff.mpr ⟨hlt, rfl⟩) (by simp)
  exact absurd (Array.getElem?_eq_some_iff.mp h).1 (Nat.lt_irrefl _)

theorem Session.cached?_of_known? (hc : ∀ k, s'.known? k = s.known? k) (t : TypeExpr) :
    s'.cached? t = s.cached? t := by
  by_cases hw : t.watchable = true
  · rw [s'.cached?_of_watchable hw, s.cached?_of_watchable hw, hc]
  · simp [Session.cached?, hw]

theorem Filled.mono {least : Nat} (hx : s.Extends free s') (hL : L.Below L')
    (hk : ∀ a, s.cached? (.declared name) = some a → s'.cached? (.declared name) = some a)
    (hfree : ∀ b, free = some b → b < least) (h : Filled defs s L least name c) :
    Filled defs s' L' least name c := by
  obtain ⟨b, x, ⟨a, ha, hr⟩, hb, hx', hseats⟩ := h
  refine ⟨b, x, ⟨a, hk a ha, hx.record _ _ hr⟩, hb, hx.body _ _ hx' ?_, ?_⟩
  · intro he
    exact absurd hb (Nat.not_le_of_lt (hfree b he))
  · exact hseats.imp fun f e ⟨hn, hs⟩ => ⟨hn, hs.mono hx hL⟩

theorem Filled.weaken {least least' : Nat} (hle : least' ≤ least)
    (h : Filled defs s L least name c) : Filled defs s L least' name c := by
  obtain ⟨b, x, hh, hb, hx, hseats⟩ := h
  exact ⟨b, x, hh, Nat.le_trans hle hb, hx, hseats⟩

/-! ## Charts of sessions -/

namespace Seated

theorem weaken (hPQ : P ⊆ Q)
    (hv : ∀ k ∈ Q, ∀ {name c}, defs.find? name = some (.object c) → k ≠ .declared name)
    (h : Seated defs U P s L) : Seated defs U Q s L :=
  ⟨h.bounded, h.distinct, fun hp => (h.opened hp).imp_right (hPQ ·), h.sits, hv⟩

/-- A chart stays one while nothing is remembered. -/
theorem later (hx : s.Extends free s') (hc : ∀ k, s'.known? k = s.known? k)
    (h : Seated defs U P s L) : Seated defs U P s' L := by
  refine ⟨fun hp => hx.lt_records (h.bounded hp), h.distinct, fun hp => ?_, fun ht hs => ?_,
    h.values⟩
  · rw [hc]
    exact h.opened hp
  · rw [Session.cached?_of_known? hc] at hs
    exact (h.sits ht hs).mono hx (.refl L)

theorem of_sameWork (hs : s.SameWork s₁) (h : Seated defs U P s L) : Seated defs U P s₁ L :=
  h.later (Session.Extends.of_sameWork hs : s.Extends none s₁) hs.known?

/-- Nothing was made at a seat whose key is neither remembered nor pending. -/
theorem unused (h : Seated defs U P s L) (hn : s.known? p.root.key = none)
    (hk : p.root.key ∉ P) : L a ≠ some p := by
  intro ha
  rcases h.opened ha with hs | hp
  · simp [hn] at hs
  · exact hk hp

/-- The next descriptor has no seat yet. -/
theorem next_unseated (h : Seated defs U P s L) : L s.graph.records.size = none := by
  by_contra hne
  obtain ⟨q, hq⟩ := Option.ne_none_iff_exists'.mp hne
  exact Nat.lt_irrefl _ (h.bounded hq)

/-- What is remembered keeps its descriptor. -/
theorem keeps (h : Seated defs U P s L) (h' : Seated defs U Q s' L') (hL : L.Below L')
    (hk : ∀ {k}, (s.known? k).isSome → (s'.known? k).isSome) (ht : U t)
    (hc : s.cached? t = some a) : s'.cached? t = some a := by
  have hw := Session.watchable_of_cached? hc
  obtain ⟨b, hb⟩ := Option.isSome_iff_exists.mp
    (hk (Option.isSome_of_eq_some (Session.known?_of_cached? hc)))
  rw [← Session.cached?_of_watchable s' hw] at hb
  rw [hb, h'.distinct (h'.sits ht hb).label (hL _ _ (h.sits ht hc).label)]

end Seated

namespace Grown

theorem imp (himp : ∀ q, here q → here' q) (h : Grown defs U P here free s L s' L') :
    Grown defs U P here' free s L s' L' :=
  { h with new := fun hp => (h.new hp).imp_right fun hn => hn.imp_left (himp _) }

/-- Nothing new is remembered. -/
theorem later (hx : s.Extends free s') (hsize : s.graph.bodies.size ≤ s'.graph.bodies.size)
    (hc : ∀ k, s'.known? k = s.known? k) (h : Seated defs U P s L) :
    Grown defs U P here free s L s' L where
  growth := hx
  bodies := hsize
  charts := .refl L
  seated := h.later hx hc
  kept hk := by rwa [hc]
  waits _ hn := by rwa [hc]
  new hp := .inl hp
  filled _ _ hn hs := by simp [hc, hn] at hs

theorem refl (h : Seated defs U P s L) : Grown defs U P here free s L s L :=
  later (.refl free s) (Nat.le_refl _) (fun _ => rfl) h

theorem of_sameWork (hs : s.SameWork s₁) (h : Grown defs U P here free s₁ L s' L') :
    Grown defs U P here free s L s' L' := by
  have hr := hs.known?
  constructor
  case growth => exact (Session.Extends.of_sameWork hs).trans h.growth
  case bodies =>
    have := h.bodies
    rwa [hs.graph] at this
  case charts => exact h.charts
  case seated => exact h.seated
  case kept => exact fun hk => h.kept (by rwa [hr])
  case waits => exact fun hk hn => h.waits hk (by rwa [hr])
  case new =>
    intro a p hp
    have := h.new hp
    rwa [hr] at this
  case filled =>
    intro name c hU hf hn hm
    have := h.filled hU hf (by rwa [hr]) hm
    rwa [hs.graph] at this

theorem loosen (h : Grown defs U P here none s L s' L') :
    Grown defs U P here free s L s' L' :=
  { h with growth := h.growth.loosen }

theorem keeps (hs : Seated defs U P s L) (ht : U t) (hc : s.cached? t = some a)
    (h : Grown defs U Q here free s L s' L') : s'.cached? t = some a :=
  hs.keeps h.seated h.charts h.kept ht hc

theorem trans (hfree : ∀ b, free = some b → b < s.graph.bodies.size)
    (h : Grown defs U P here free s L s₁ L₁) (h' : Grown defs U P here free s₁ L₁ s₂ L₂) :
    Grown defs U P here free s L s₂ L₂ where
  growth := h.growth.trans h'.growth
  bodies := h.bodies.trans h'.bodies
  charts := h.charts.trans h'.charts
  seated := h'.seated
  kept hk := h'.kept (h.kept hk)
  waits hk hn := h'.waits hk (h.waits hk hn)
  new hp := by
    rcases h'.new hp with hp | hq | ⟨hn, hs⟩
    · rcases h.new hp with hp | hq | ⟨hn, hs⟩
      · exact .inl hp
      · exact .inr (.inl hq)
      · exact .inr (.inr ⟨hn, h'.kept hs⟩)
    · exact .inr (.inl hq)
    · refine .inr (.inr ⟨?_, hs⟩)
      by_contra hk
      have := h.kept (Option.isSome_iff_ne_none.mpr hk)
      simp [hn] at this
  filled {name c} hU hf hn hs := by
    by_cases h₁ : (s₁.known? (.declared name)).isSome
    · exact (h.filled hU hf hn h₁).mono h'.growth h'.charts
        (fun a ha => h'.keeps h.seated hU ha) hfree
    · exact (h'.filled hU hf (by simpa using h₁) hs).weaken h.bodies

end Grown

end ToolCatalog
