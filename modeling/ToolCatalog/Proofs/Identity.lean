import ToolCatalog.Proofs.Invariant
import ToolCatalog.TypeExpr.Resolve

/-!
Two expressions with one number are one expression.

A number is given out once. The proof keeps a ledger of which expression got which number; it is
no part of the program. `Owned` says of an expression that all its parts stand in the ledger under
their own numbers, and `Makes` says that a step gives out only numbers that are not in the ledger
yet. A text used as a type and the forward name that it stands for share one number; there the
ledger holds the forward name.
-/
namespace ToolCatalog

/-- Which expression has which number. -/
abbrev Ledger := Nat → Option TypeExpr

/-- A later ledger. -/
def Ledger.Below (H H' : Ledger) : Prop :=
  ∀ n t, H n = some t → H' n = some t

/-- What the ledger holds for a value in the place of a type. -/
def TypeExpr.constantEntry (id : Nat) : Value → TypeExpr
  | .text name => .forward id name
  | v => .constant id v

/-- Every part of an expression stands in the ledger under its number. -/
inductive Owned (H : Ledger) : TypeExpr → Prop
  | atom (a : Atom) : Owned H (.atom a)
  | declared (name : String) : Owned H (.declared name)
  | generic {id hd args} (h : H id = some (.generic id hd args)) (ha : ∀ t ∈ args, Owned H t) :
      Owned H (.generic id hd args)
  | callable {id args result} (h : H id = some (.callable id args result))
      (ha : ∀ t ∈ args, Owned H t) (hr : Owned H result) : Owned H (.callable id args result)
  | union {id style members} (h : H id = some (.union id style members))
      (hm : ∀ t ∈ members, Owned H t) : Owned H (.union id style members)
  | nullable {id style members inner} (h : H id = some (.nullable id style members inner))
      (hm : ∀ t ∈ members, Owned H t) (hi : Owned H inner) :
      Owned H (.nullable id style members inner)
  | literal {id values} (h : H id = some (.literal id values)) : Owned H (.literal id values)
  | annotated {id inner items} (h : H id = some (.annotated id inner items))
      (hi : Owned H inner) : Owned H (.annotated id inner items)
  | notRequired {id inner} (h : H id = some (.notRequired id inner)) (hi : Owned H inner) :
      Owned H (.notRequired id inner)
  | required {id inner} (h : H id = some (.required id inner)) (hi : Owned H inner) :
      Owned H (.required id inner)
  | forward {id name} (h : H id = some (.forward id name)) : Owned H (.forward id name)
  | constant {id v} (h : H id = some (TypeExpr.constantEntry id v)) : Owned H (.constant id v)
  | field {id spec inner} (h : H id = some (.field id spec inner)) (hi : Owned H inner) :
      Owned H (.field id spec inner)

theorem Ledger.Below.refl (H : Ledger) : H.Below H := fun _ _ h => h

theorem Ledger.Below.trans {H H₁ H₂ : Ledger} (h : H.Below H₁) (h' : H₁.Below H₂) : H.Below H₂ :=
  fun n t hn => h' n t (h n t hn)

theorem Owned.mono {H H' : Ledger} (hb : H.Below H') {t : TypeExpr} (h : Owned H t) :
    Owned H' t := by
  induction h with
  | atom a => exact .atom a
  | declared name => exact .declared name
  | generic h _ ih => exact .generic (hb _ _ h) ih
  | callable h _ _ ih ihr => exact .callable (hb _ _ h) ih ihr
  | union h _ ih => exact .union (hb _ _ h) ih
  | nullable h _ _ ih ihi => exact .nullable (hb _ _ h) ih ihi
  | literal h => exact .literal (hb _ _ h)
  | annotated h _ ih => exact .annotated (hb _ _ h) ih
  | notRequired h _ ih => exact .notRequired (hb _ _ h) ih
  | required h _ ih => exact .required (hb _ _ h) ih
  | forward h => exact .forward (hb _ _ h)
  | constant h => exact .constant (hb _ _ h)
  | field h _ ih => exact .field (hb _ _ h) ih

theorem Owned.core {H : Ledger} {t : TypeExpr} (h : Owned H t) : Owned H t.core := by
  induction h with
  | nullable _ _ _ _ ihi => exact ihi
  | annotated _ _ ih => exact ih
  | notRequired _ _ ih => exact ih
  | required _ _ ih => exact ih
  | field _ _ ih => exact ih
  | atom a => exact .atom a
  | declared name => exact .declared name
  | generic h ha => exact .generic h ha
  | callable h ha hr => exact .callable h ha hr
  | union h hm => exact .union h hm
  | literal h => exact .literal h
  | forward h => exact .forward h
  | constant h => exact .constant h

theorem Owned.part {H : Ledger} {defs : Definitions} {t e : TypeExpr} (h : Owned H t)
    (hp : (t.core.base defs).part? = some e) : Owned H e := by
  rcases TypeExpr.base_part hp with rfl | ⟨id, hd, args, hcore, he⟩
  · exact .atom _
  · have hc := h.core
    rw [hcore] at hc
    cases hc with
    | generic _ ha => exact ha e he

/-- An expression that can be remembered under a number stands in the ledger itself. -/
theorem Owned.entry {H : Ledger} {t : TypeExpr} {id : Nat} (h : Owned H t)
    (hw : t.watchable = true) (hk : t.key = .object id) : H id = some t := by
  cases h with
  | atom a => cases hk
  | declared name => cases hk
  -- A text has the key of its forward name but is never remembered.
  | @constant id' v h =>
    cases v <;> first | (cases hk; exact h) | cases hw | cases hk
  | generic h _ | callable h _ _ | union h _ | nullable h _ _ | literal h | annotated h _
  | notRequired h _ | required h _ | forward h | field h _ =>
    cases hk
    exact h

theorem eq_atom_of_key {t : TypeExpr} {a : Atom} (h : t.key = .atom a) : t = .atom a := by
  unfold TypeExpr.key at h
  split at h <;> simp_all

theorem eq_constant_of_key {t : TypeExpr} {e n : String} (h : t.key = .member e n) :
    ∃ i v, t = .constant i v := by
  unfold TypeExpr.key at h
  split at h <;> simp_all

/-- Expressions that are remembered under one key are one expression or two constants. -/
theorem Owned.same {H : Ledger} {t u : TypeExpr} (ht : Owned H t) (hu : Owned H u)
    (hwt : t.watchable = true) (hwu : u.watchable = true) (hk : t.key = u.key) :
    t = u ∨ ∃ i v j w, t = .constant i v ∧ u = .constant j w := by
  cases h : u.key with
  | object id =>
    have ht' := ht.entry hwt (hk.trans h)
    have hu' := hu.entry hwu h
    rw [ht', Option.some.injEq] at hu'
    exact .inl hu'
  | atom a => exact .inl ((eq_atom_of_key (hk.trans h)).trans (eq_atom_of_key h).symm)
  | declared name =>
    exact .inl ((TypeExpr.eq_declared_of_key (hk.trans h)).trans
      (TypeExpr.eq_declared_of_key h).symm)
  | member e n =>
    obtain ⟨i, v, rfl⟩ := eq_constant_of_key (hk.trans h)
    obtain ⟨j, w, rfl⟩ := eq_constant_of_key h
    exact .inr ⟨i, v, j, w, rfl, rfl⟩

/-! ## Giving out numbers -/

/-- What is shared as a "not required" layer around an expression is one. -/
def Parts.Holds : Parts → TypeExpr → Prop
  | .notRequired inner, t => ∃ id, t = .notRequired id inner
  | _, _ => True

/-- What is shared under these parts was made of them, or of parts equal to them. -/
def Parts.Gives (p : Parts) (t : TypeExpr) : Prop :=
  ∃ q : Parts, (q = p ∨ q.equal p = true) ∧ q.Holds t

/-- A supply whose coming numbers are not in the ledger and whose shared expressions are, each as
what it is shared as. -/
structure Supply.Fits (s : Supply) (H : Ledger) : Prop where
  fresh : ∀ n, s.next ≤ n → H n = none
  shared : ∀ e ∈ s.shared, Owned H e.2
  layers : ∀ e ∈ s.shared, e.1.Holds e.2

/-- A step whose new expressions can be entered into the ledger under numbers that were still to
come; its result then has the property `P`. -/
def Makes {α : Type} (H : Ledger) (m : Making α) (P : Ledger → α → Prop) : Prop :=
  ∀ s : Supply, s.Fits H → ∃ H' : Ledger, (∀ n < s.next, H' n = H n) ∧
    s.next ≤ (m.run s).2.next ∧ (m.run s).2.Fits H' ∧ P H' (m.run s).1

/-- A property of results that holds in every later ledger. -/
def Lasting {α : Type} (P : Ledger → α → Prop) : Prop :=
  ∀ H H' a, H.Below H' → P H a → P H' a

theorem Supply.Fits.below {s : Supply} {H H' : Ledger} (h : s.Fits H)
    (hs : ∀ n < s.next, H' n = H n) : H.Below H' := by
  intro n t hn
  have hlt : n < s.next := by
    refine Nat.lt_of_not_le fun hle => ?_
    rw [h.fresh n hle] at hn
    cases hn
  rw [hs n hlt, hn]

namespace Makes

variable {α β : Type} {H : Ledger} {P : Ledger → α → Prop} {Q : Ledger → β → Prop}

theorem pure {a : α} (h : P H a) : Makes H (pure a) P :=
  fun _ hs => ⟨H, fun _ _ => rfl, Nat.le_refl _, hs, h⟩

theorem bind {m : Making α} {f : α → Making β} (hm : Makes H m P)
    (hf : ∀ H' a, H.Below H' → P H' a → Makes H' (f a) Q) : Makes H (m >>= f) Q := by
  intro s hs
  obtain ⟨H₁, hsame, hle, hfit, hp⟩ := hm s hs
  obtain ⟨H₂, hsame', hle', hfit', hq⟩ := hf H₁ _ (hs.below hsame) hp _ hfit
  refine ⟨H₂, fun n hn => ?_, Nat.le_trans hle hle', hfit', hq⟩
  rw [hsame' n (by omega), hsame n hn]

theorem imp {m : Making α} {P' : Ledger → α → Prop} (h : Makes H m P)
    (hp : ∀ H' a, P H' a → P' H' a) : Makes H m P' := by
  intro s hs
  obtain ⟨H', hsame, hle, hfit, ha⟩ := h s hs
  exact ⟨H', hsame, hle, hfit, hp H' _ ha⟩

/-- A step may depend on the supply, and on what it shares. -/
theorem get {f : Supply → Making β} (h : ∀ s, s.Fits H → Makes H (f s) Q) :
    Makes H (get >>= f) Q :=
  fun s hs => h s hs s hs

theorem share {parts : Parts} {t : TypeExpr} (ht : Owned H t) (hp : parts.Holds t) :
    Makes H (modify fun s => { s with shared := s.shared ++ [(parts, t)] }) fun _ _ => True := by
  intro s hs
  have hall : ∀ e ∈ s.shared ++ [(parts, t)], Owned H e.2 ∧ e.1.Holds e.2 := by
    intro e he
    rcases List.mem_append.mp he with he | he
    · exact ⟨hs.shared e he, hs.layers e he⟩
    · rw [List.mem_singleton.mp he]
      exact ⟨ht, hp⟩
  exact ⟨H, fun _ _ => rfl, Nat.le_refl _,
    ⟨hs.fresh, fun e he => (hall e he).1, fun e he => (hall e he).2⟩, trivial⟩

theorem mapM {f : α → Making β} (hlast : Lasting Q) {l : List α}
    (h : ∀ a ∈ l, ∀ H', H.Below H' → Makes H' (f a) Q) :
    Makes H (l.mapM f) fun H' bs => ∀ b ∈ bs, Q H' b := by
  induction l generalizing H with
  | nil => exact pure (by simp)
  | cons a rest ih =>
    rw [List.mapM_cons]
    refine bind (h a (by simp) H (.refl H)) fun H₁ b hb₁ hq => ?_
    refine bind (ih fun x hx H' hb => h x (by simp [hx]) H' (hb₁.trans hb)) fun H₂ bs hb₂ hqs => ?_
    refine pure fun c hc => ?_
    rcases List.mem_cons.mp hc with rfl | hc
    · exact hlast _ _ _ hb₂ hq
    · exact hqs c hc

end Makes

/-- A step that gives out numbers and does nothing else. -/
def Quiet {α : Type} (m : Making α) : Prop :=
  ∀ s : Supply, s.next ≤ (m.run s).2.next ∧ (m.run s).2.shared = s.shared

theorem Quiet.pure {α : Type} (a : α) : Quiet (pure a : Making α) :=
  fun _ => ⟨Nat.le_refl _, rfl⟩

theorem Quiet.fresh : Quiet TypeExpr.fresh :=
  fun _ => ⟨Nat.le_succ _, rfl⟩

theorem Quiet.bind {α β : Type} {m : Making α} {f : α → Making β} (hm : Quiet m)
    (hf : ∀ a, Quiet (f a)) : Quiet (m >>= f) := by
  intro s
  obtain ⟨hle, hs⟩ := hm s
  obtain ⟨hle', hs'⟩ := hf (m.run s).1 (m.run s).2
  exact ⟨Nat.le_trans hle hle', hs'.trans hs⟩

theorem Quiet.mapM {α β : Type} {f : α → Making β} (hf : ∀ a, Quiet (f a)) (l : List α) :
    Quiet (l.mapM f) := by
  induction l with
  | nil => exact .pure []
  | cons a rest ih =>
    rw [List.mapM_cons]
    exact (hf a).bind fun b => ih.bind fun bs => .pure (b :: bs)

theorem Quiet.makes {α : Type} {m : Making α} (h : Quiet m) (H : Ledger) :
    Makes H m fun _ _ => True := by
  intro s hs
  obtain ⟨hle, hsh⟩ := h s
  refine ⟨H, fun _ _ => rfl, hle, ⟨fun n hn => hs.fresh n (Nat.le_trans hle hn), ?_, ?_⟩, trivial⟩
  · rw [hsh]
    exact hs.shared
  · rw [hsh]
    exact hs.layers

/-- The ledger with one more entry. -/
def Ledger.enter (H : Ledger) (id : Nat) (t : TypeExpr) : Ledger :=
  fun n => if n = id then some t else H n

theorem Ledger.enter_self (H : Ledger) (id : Nat) (t : TypeExpr) : H.enter id t id = some t :=
  if_pos rfl

theorem Ledger.below_enter {H : Ledger} {id : Nat} {t : TypeExpr} (h : H id = none) :
    H.Below (H.enter id t) := by
  intro n u hn
  have hne : n ≠ id := by
    rintro rfl
    rw [h] at hn
    cases hn
  simp [Ledger.enter, hne, hn]

/-- A new number, what a quiet step gives beside it, and the entry for the expression of both. -/
theorem Makes.entry {α β : Type} {H : Ledger} {Q : Ledger → β → Prop} {q : Making α}
    (hq : Quiet q) (f : Nat → α → β) (entry : Nat → α → TypeExpr)
    (h : ∀ H' id a, H.Below H' → H' id = some (entry id a) → Q H' (f id a)) :
    Makes H (do let id ← TypeExpr.fresh; let a ← q; return f id a) Q := by
  intro s hs
  obtain ⟨hle, hsh⟩ := hq { s with next := s.next + 1 }
  have hnone : H s.next = none := hs.fresh s.next (Nat.le_refl _)
  have hb := Ledger.below_enter (t := entry s.next (q.run { s with next := s.next + 1 }).1) hnone
  refine ⟨_, fun n hn => ?_, Nat.le_trans (Nat.le_succ _) hle,
    ⟨fun n hn => ?_, fun e he => ?_, fun e he => hs.layers e (by rw [← hsh]; exact he)⟩,
    h _ s.next (q.run { s with next := s.next + 1 }).1 hb (Ledger.enter_self ..)⟩
  · simp [Ledger.enter, Nat.ne_of_lt hn]
  · have hlt : s.next + 1 ≤ n := Nat.le_trans hle hn
    have hne : n ≠ s.next := by omega
    simp only [Ledger.enter, if_neg hne]
    exact hs.fresh n (by omega)
  · exact (hs.shared e (by rw [← hsh]; exact he)).mono hb

/-- A new number and the entry for the expression with it. -/
theorem Makes.new {β : Type} {H : Ledger} {Q : Ledger → β → Prop} (f : Nat → β)
    (entry : Nat → TypeExpr)
    (h : ∀ H' id, H.Below H' → H' id = some (entry id) → Q H' (f id)) :
    Makes H (do return f (← TypeExpr.fresh)) Q :=
  Makes.entry (.pure ()) (fun id _ => f id) (fun id _ => entry id) fun H' id _ => h H' id

/-! ## Making expressions -/

namespace TypeExpr

variable {H : Ledger}

theorem asType_owned {t : TypeExpr} (h : Owned H t) : Owned H t.asType := by
  unfold asType
  split
  · exact .atom _
  · cases h with
    | constant h => exact .forward h
  · exact h

theorem spliced_owned {t : TypeExpr} (h : Owned H t) : ∀ u ∈ t.spliced, Owned H u := by
  cases h with
  | union _ hm => exact hm
  | nullable _ hm _ => exact hm
  | _ =>
    intro u hu
    obtain rfl := List.mem_singleton.mp hu
    constructor <;> assumption

theorem distinct_subset (ts : List TypeExpr) : ∀ t ∈ distinct ts, t ∈ ts := by
  have h (kept : List TypeExpr) : ∀ t ∈ ts.foldl (fun kept t =>
      if kept.any (·.equal t) then kept else kept ++ [t]) kept, t ∈ kept ∨ t ∈ ts := by
    induction ts generalizing kept with
    | nil => simp
    | cons u rest ih =>
      intro t ht
      rcases ih _ t ht with hk | hr
      · dsimp only at hk
        split at hk
        · exact .inl hk
        · rcases List.mem_append.mp hk with hk | hu
          · exact .inl hk
          · exact .inr (by simp_all)
      · exact .inr (by simp [hr])
  intro t ht
  rcases h [] t ht with h | h
  · cases h
  · exact h

theorem unionMembers_owned {ts : List TypeExpr} (h : ∀ t ∈ ts, Owned H t) :
    ∀ t ∈ unionMembers ts, Owned H t := by
  intro t ht
  obtain ⟨u, hu, htu⟩ := List.mem_flatMap.mp (distinct_subset _ t ht)
  obtain ⟨w, hw, rfl⟩ := List.mem_map.mp hu
  exact spliced_owned (asType_owned (h w hw)) t htu

theorem equal_self (t : TypeExpr) : t.equal t = true := by
  cases t <;> simp [equal]

theorem sharing_makes {parts : Parts} {make : Nat → TypeExpr}
    (h : ∀ H' id, H.Below H' → H' id = some (make id) → Owned H' (make id))
    (hp : ∀ id, parts.Holds (make id)) :
    Makes H (sharing parts make) fun H' t => Owned H' t ∧ parts.Gives t := by
  unfold sharing
  refine .get fun s hs => ?_
  split
  · rename_i parts' t hfind
    have hmem := List.mem_of_find?_eq_some hfind
    have hequal : parts'.equal parts = true := by simpa using List.find?_some hfind
    exact .pure ⟨hs.shared _ hmem, parts', .inr hequal, hs.layers _ hmem⟩
  · have hnew : Makes H (do return make (← fresh)) fun H' t => Owned H' t ∧ parts.Holds t :=
      .new make make fun H' id hb hid => ⟨h H' id hb hid, hp id⟩
    have hshare : Makes H ((do return make (← fresh)) >>= fun t => do
        modify fun s => { s with shared := s.shared ++ [(parts, t)] }
        return t) fun H' t => Owned H' t ∧ parts.Gives t := by
      refine Makes.bind hnew fun H' t _ ht => ?_
      exact Makes.bind (.share ht.1 ht.2) fun H'' _ hb _ =>
        .pure ⟨ht.1.mono hb, parts, .inl rfl, ht.2⟩
    exact hshare

theorem restUnion_makes {members : List TypeExpr} (h : ∀ t ∈ members, Owned H t) :
    Makes H (restUnion members) Owned := by
  unfold restUnion
  split
  · exact .pure (h _ (by simp))
  · have hkind (id : Nat) : (Parts.union members).Holds (.union id .form members) := trivial
    exact (sharing_makes (fun H' id hb hid => .union hid fun t ht => (h t ht).mono hb)
      hkind).imp fun _ _ ht => ht.1

/-- The number of a union is given out before the union under it is made, which is shared. -/
theorem unionObject_makes (style : UnionStyle) {members : List TypeExpr}
    (h : ∀ t ∈ members, Owned H t) :
    Makes H (do unionObject (← fresh) style members) Owned := by
  -- `Makes.new` does not apply to null among the members: a step runs between number and entry.
  by_cases hn : members.any isNothing = true
  · intro s hs
    have hs₁ : Supply.Fits { s with next := s.next + 1 } H :=
      ⟨fun n hle => hs.fresh n (Nat.le_of_succ_le hle), hs.shared, hs.layers⟩
    have hrest : ∀ t ∈ members.filter (!·.isNothing), Owned H t :=
      fun t ht => h t (List.mem_filter.mp ht).1
    obtain ⟨H₁, hsame, hle, hfit, hinner⟩ := restUnion_makes hrest _ hs₁
    have hrun : (do unionObject (← fresh) style members : Making TypeExpr).run s
        = (do
            let inner ← restUnion (members.filter (!·.isNothing))
            return .nullable s.next style members inner : Making TypeExpr).run
          { s with next := s.next + 1 } := by
      show (unionObject s.next style members).run { s with next := s.next + 1 } = _
      rw [unionObject, if_pos hn]
    rw [hrun]
    have hnone : H₁ s.next = none := by
      rw [hsame s.next (Nat.lt_succ_self _)]
      exact hs.fresh s.next (Nat.le_refl _)
    have hb := hs₁.below hsame
    have hb₁ := Ledger.below_enter (t := .nullable s.next style members
      ((restUnion (members.filter (!·.isNothing))).run { s with next := s.next + 1 }).1) hnone
    refine ⟨_, fun n hlt => ?_, Nat.le_trans (Nat.le_succ _) hle,
      ⟨fun n hge => ?_, fun e he => (hfit.shared e he).mono hb₁, hfit.layers⟩,
      .nullable (Ledger.enter_self ..) (fun t ht => ((h t ht).mono hb).mono hb₁)
        (hinner.mono hb₁)⟩
    · simp only [Ledger.enter, Nat.ne_of_lt hlt, if_false]
      exact hsame n (Nat.lt_succ_of_lt hlt)
    · have hne : n ≠ s.next := by
        have : s.next + 1 ≤ n := Nat.le_trans hle hge
        omega
      simp only [Ledger.enter, hne, if_false]
      exact hfit.fresh n hge
  · have hmake (id : Nat) : unionObject id style members = pure (.union id style members) := by
      rw [unionObject, if_neg hn]
    simp only [hmake]
    exact .new _ _ fun H' id hb hid => .union hid fun t ht => (h t ht).mono hb

theorem unionOf_makes (style : UnionStyle) {ts : List TypeExpr} (h : ∀ t ∈ ts, Owned H t) :
    Makes H (unionOf style ts) Owned := by
  have hm := unionMembers_owned h
  unfold unionOf
  split
  · rename_i t heq
    exact .pure (hm t (by simp [heq]))
  · exact unionObject_makes style hm

theorem sharedUnion_makes {ts : List TypeExpr} (h : ∀ t ∈ ts, Owned H t) :
    Makes H (sharedUnion ts) Owned := by
  have hm := unionMembers_owned h
  unfold sharedUnion
  split
  · rename_i t heq
    exact .pure (hm t (by simp [heq]))
  · refine .get fun s hs => ?_
    split
    · rename_i hfind
      exact .pure (hs.shared _ (List.mem_of_find?_eq_some hfind))
    · have hshare : Makes H ((do unionObject (← fresh) .form (unionMembers ts)) >>= fun t => do
          modify fun s => { s with shared := s.shared ++ [(.union ts, t)] }
          return t) Owned := by
        refine Makes.bind (unionObject_makes .form hm) fun H' t _ ht => ?_
        exact Makes.bind (.share ht trivial) fun H'' _ hb _ => .pure (ht.mono hb)
      exact hshare

theorem barUnion_makes {ts : List TypeExpr} (h : ∀ t ∈ ts, Owned H t) :
    Makes H (barUnion ts) Owned := by
  unfold barUnion
  split
  · exact .pure (h _ (by simp))
  · exact unionOf_makes _ h

theorem annotate_makes {inner : TypeExpr} (h : Owned H inner) (items : List Metadata) :
    Makes H (annotate inner items) Owned := by
  unfold annotate
  split
  · cases h with
    | annotated _ hi => exact .new _ _ fun H' id hb hid => .annotated hid (hi.mono hb)
  · exact .new _ _ fun H' id hb hid => .annotated hid ((asType_owned h).mono hb)

theorem sharedNotRequired_makes {inner : TypeExpr} (h : Owned H inner) :
    Makes H (sharedNotRequired inner) fun H' t =>
      Owned H' t ∧ ∃ id x, t = .notRequired id x ∧ x.equal inner = true := by
  have hkind (id : Nat) : (Parts.notRequired inner).Holds (.notRequired id inner) := ⟨id, rfl⟩
  refine (sharing_makes (fun _ _ hb hid => .notRequired hid (h.mono hb)) hkind).imp
    fun H' t ht => ⟨ht.1, ?_⟩
  obtain ⟨q, hq, hholds⟩ := ht.2
  rcases hq with rfl | hq
  · obtain ⟨id, rfl⟩ := hholds
    exact ⟨id, inner, rfl, equal_self inner⟩
  · cases q with
    | notRequired x =>
      obtain ⟨id, rfl⟩ := hholds
      exact ⟨id, x, rfl, hq⟩
    | union _ | callable _ _ => cases hq

theorem sharedCallable_makes {args : List TypeExpr} {result : TypeExpr}
    (ha : ∀ t ∈ args, Owned H t) (hr : Owned H result) :
    Makes H (sharedCallable args result) Owned :=
  have hkind (id : Nat) : (Parts.callable args result).Holds (.callable id args result) := trivial
  (sharing_makes (fun _ _ hb hid => .callable hid (fun t ht => (ha t ht).mono hb) (hr.mono hb))
    hkind).imp fun _ _ ht => ht.1

end TypeExpr

/-- The expressions that names stand for are in the ledger. -/
def Scope.Listed (H : Ledger) (scope : Scope) : Prop :=
  ∀ name t, (name, Binding.shorthand t) ∈ scope → Owned H t

namespace Scope

variable {H H' : Ledger} {scope : Scope}

theorem Listed.mono (hb : H.Below H') (h : scope.Listed H) : scope.Listed H' :=
  fun name t ht => (h name t ht).mono hb

theorem Listed.find? (h : scope.Listed H) {name : String} {t : TypeExpr}
    (ht : scope.find? name = some t) : Owned H t := by
  unfold Scope.find? at ht
  split at ht
  · cases ht
    exact .declared name
  · rename_i hl
    cases ht
    obtain ⟨l₁, l₂, hmem, -⟩ := List.lookup_eq_some_iff.mp hl
    exact h name t (by simp [hmem])
  · split at ht
    · cases ht
      exact .atom _
    · obtain ⟨b, -, rfl⟩ := Option.map_eq_some_iff.mp ht
      exact .atom _

end Scope

theorem FieldSpec.numbered_quiet (spec : FieldSpec) : Quiet spec.numbered := by
  unfold FieldSpec.numbered
  split
  · exact Quiet.fresh.bind fun _ => .pure _
  · exact .pure _

theorem Metadata.numbered_quiet (m : Metadata) : Quiet m.numbered := by
  cases m with
  | field id spec =>
    exact Quiet.fresh.bind fun _ => spec.numbered_quiet.bind fun _ => .pure _
  | constraint c =>
    cases c with
    | object id attributes => exact Quiet.fresh.bind fun _ => .pure _
    | _ => exact .pure _

/-! ## Written expressions -/

namespace Written

variable {scope : Scope}

mutual

theorem make_makes (w : Written) {H : Ledger} (hs : scope.Listed H) :
    Makes H (w.make scope) Owned := by
  cases w with
  | atom a => exact .pure (.atom a)
  | generic head args =>
    rw [make]
    refine (makeAll_makes args hs).bind fun H₁ ts _ hts => ?_
    refine .new _ _ fun H₂ id hb hid => .generic hid fun t ht => ?_
    split at ht
    · obtain ⟨u, hu, rfl⟩ := List.mem_map.mp ht
      exact (TypeExpr.asType_owned (hts u hu)).mono hb
    · exact (hts t ht).mono hb
  | callable args result =>
    rw [make]
    refine (makeAll_makes args hs).bind fun H₁ ts hb₁ hts => ?_
    refine (make_makes result (hs.mono hb₁)).bind fun H₂ t hb₂ ht => ?_
    refine TypeExpr.sharedCallable_makes (fun u hu => ?_) (TypeExpr.asType_owned ht)
    obtain ⟨w, hw, rfl⟩ := List.mem_map.mp hu
    exact (TypeExpr.asType_owned (hts w hw)).mono hb₂
  | union members =>
    rw [make]
    exact (makeAll_makes members hs).bind fun H₁ ts _ hts => TypeExpr.unionOf_makes _ hts
  | bars members =>
    rw [make]
    exact (makeAll_makes members hs).bind fun H₁ ts _ hts => TypeExpr.barUnion_makes hts
  | literal values =>
    rw [make]
    exact .new _ _ fun H' id _ hid => .literal hid
  | annotated inner items =>
    rw [make]
    refine (make_makes inner hs).bind fun H₁ t _ ht => ?_
    refine ((Quiet.mapM Metadata.numbered_quiet items).makes H₁).bind fun H₂ items' hb _ => ?_
    exact TypeExpr.annotate_makes (ht.mono hb) items'
  | notRequired inner =>
    rw [make]
    refine (make_makes inner hs).bind fun H₁ t _ ht => ?_
    exact .new _ _ fun H₂ id hb hid => .notRequired hid ((TypeExpr.asType_owned ht).mono hb)
  | required inner =>
    rw [make]
    refine (make_makes inner hs).bind fun H₁ t _ ht => ?_
    exact .new _ _ fun H₂ id hb hid => .required hid ((TypeExpr.asType_owned ht).mono hb)
  | reference name =>
    refine .pure ?_
    cases hf : scope.find? name with
    | none => exact .declared name
    | some t => exact hs.find? hf
  | forward name =>
    rw [make]
    exact .new _ _ fun H' id _ hid => .forward hid
  | constant v =>
    rw [make]
    split
    · exact .pure (.atom .null)
    · exact .new _ (TypeExpr.constantEntry · v) fun H' id _ hid => .constant hid
  | field spec inner =>
    rw [make]
    refine (make_makes inner hs).bind fun H₁ t _ ht => ?_
    exact .entry spec.numbered_quiet _ (fun id spec => .field id spec t)
      fun H₂ id spec' hb hid => .field hid (ht.mono hb)

theorem makeAll_makes (ws : List Written) {H : Ledger} (hs : scope.Listed H) :
    Makes H (makeAll scope ws) fun H' ts => ∀ t ∈ ts, Owned H' t := by
  cases ws with
  | nil => exact .pure (by simp)
  | cons w rest =>
    rw [makeAll]
    refine (make_makes w hs).bind fun H₁ t hb₁ ht => ?_
    refine (makeAll_makes rest (hs.mono hb₁)).bind fun H₂ ts hb₂ hts => .pure fun u hu => ?_
    rcases List.mem_cons.mp hu with rfl | hu
    · exact ht.mono hb₂
    · exact hts u hu

end

end Written

/-! ## Resolved expressions -/

/-- A step that may meet an unknown name, and otherwise makes something with the property `P`. -/
def Resolves {α : Type} (H : Ledger) (m : Resolving α) (P : Ledger → α → Prop) : Prop :=
  Makes H m.run fun H' r => ∀ a, r = .ok a → P H' a

namespace Resolves

variable {α β : Type} {H : Ledger} {P : Ledger → α → Prop} {Q : Ledger → β → Prop}

theorem pure {a : α} (h : P H a) : Resolves H (pure a) P :=
  Makes.pure fun a' ha => by
    cases ha
    exact h

theorem throw (name : String) : Resolves H (throw name : Resolving α) P :=
  Makes.pure nofun

theorem lift {m : Making α} (h : Makes H m P) : Resolves H (liftM m) P := by
  have hbind : Makes H (m >>= fun a => Pure.pure (Except.ok a : Except String α)) fun H' r =>
      ∀ a, r = .ok a → P H' a :=
    h.bind fun H' a _ hp => Makes.pure fun a' ha => by
      cases ha
      exact hp
  exact hbind

/-- A new number and the entry for the expression with it. -/
theorem new (f : Nat → β) (entry : Nat → TypeExpr)
    (h : ∀ H' id, H.Below H' → H' id = some (entry id) → Q H' (f id)) :
    Resolves H (do return f (← TypeExpr.fresh)) Q :=
  lift (Makes.new f entry h)

theorem bind {m : Resolving α} {f : α → Resolving β} (hm : Resolves H m P)
    (hf : ∀ H' a, H.Below H' → P H' a → Resolves H' (f a) Q) : Resolves H (m >>= f) Q := by
  unfold Resolves
  rw [ExceptT.run_bind]
  refine Makes.bind hm fun H' r hb hr => ?_
  cases r with
  | ok a => exact hf H' a hb (hr a rfl)
  | error name => exact Makes.pure nofun

theorem mapM {f : α → Resolving β} (hlast : Lasting Q) {l : List α}
    (h : ∀ a ∈ l, ∀ H', H.Below H' → Resolves H' (f a) Q) :
    Resolves H (l.mapM f) fun H' bs => ∀ b ∈ bs, Q H' b := by
  induction l generalizing H with
  | nil => exact pure (by simp)
  | cons a rest ih =>
    rw [List.mapM_cons]
    refine bind (h a (by simp) H (.refl H)) fun H₁ b hb₁ hq => ?_
    refine bind (ih fun x hx H' hb => h x (by simp [hx]) H' (hb₁.trans hb)) fun H₂ bs hb₂ hqs => ?_
    refine pure fun c hc => ?_
    rcases List.mem_cons.mp hc with rfl | hc
    · exact hlast _ _ _ hb₂ hq
    · exact hqs c hc

end Resolves

namespace TypeExpr

section

variable {lookup : TypeExpr → String → Resolving TypeExpr}

mutual

/-- Replacing names by expressions of the ledger makes an expression of the ledger. -/
theorem resolveWith_resolves (t : TypeExpr) {H : Ledger}
    (hl : ∀ H' self name, H.Below H' → Owned H' self → Resolves H' (lookup self name) Owned)
    (ht : Owned H t) : Resolves H (resolveWith lookup t) Owned := by
  cases ht with
  | @generic id hd args h ha =>
    rw [resolveWith]
    refine (resolveAllWith_resolves args hl ha).bind fun H₁ made hb hmade => ?_
    split
    · exact .new _ _ fun H₂ id' hb' hid => .generic hid fun u hu => (hmade u hu).mono hb'
    · split
      · exact .pure (.generic (hb _ _ h) fun u hu => (ha u hu).mono hb)
      · exact .new _ _ fun H₂ id' hb' hid =>
          .generic hid fun u hu => (ha u hu).mono (hb.trans hb')
  | @callable id args result h ha hr =>
    rw [resolveWith]
    refine (resolveAllWith_resolves args hl ha).bind fun H₁ made hb hmade => ?_
    refine (resolveWith_resolves result (fun H' self name hb' => hl H' self name (hb.trans hb'))
      (hr.mono hb)).bind fun H₂ madeResult hb₂ hresult => ?_
    split
    · exact .pure ((Owned.callable h ha hr).mono (hb.trans hb₂))
    · exact .new _ _ fun H₃ id' hb' hid =>
        .callable hid (fun u hu => (hmade u hu).mono (hb₂.trans hb')) (hresult.mono hb')
  | @union id style members h hm =>
    rw [resolveWith]
    refine (resolveAllWith_resolves members hl hm).bind fun H₁ made hb hmade => ?_
    split
    · exact .pure ((Owned.union h hm).mono hb)
    · split
      · exact .lift (barUnion_makes hmade)
      · exact .lift (sharedUnion_makes hmade)
  | @nullable id style members inner h hm hi =>
    rw [resolveWith]
    refine (resolveAllWith_resolves members hl hm).bind fun H₁ made hb hmade => ?_
    split
    · exact .pure ((Owned.nullable h hm hi).mono hb)
    · split
      · exact .lift (barUnion_makes hmade)
      · exact .lift (sharedUnion_makes hmade)
  | @annotated id inner items h hi =>
    rw [resolveWith]
    refine (resolveWith_resolves inner hl hi).bind fun H₁ made hb hmade => ?_
    split
    · exact .pure ((Owned.annotated h hi).mono hb)
    · exact .lift (annotate_makes hmade items)
  | @notRequired id inner h hi =>
    rw [resolveWith]
    refine (resolveWith_resolves inner hl hi).bind fun H₁ made hb hmade => ?_
    split
    · exact .pure ((Owned.notRequired h hi).mono hb)
    · exact .new _ _ fun H₂ id' hb' hid => .notRequired hid (hmade.mono hb')
  | @required id inner h hi =>
    rw [resolveWith]
    refine (resolveWith_resolves inner hl hi).bind fun H₁ made hb hmade => ?_
    split
    · exact .pure ((Owned.required h hi).mono hb)
    · exact .new _ _ fun H₂ id' hb' hid => .required hid (hmade.mono hb')
  | forward h =>
    rw [resolveWith]
    exact hl H _ _ (.refl H) (.forward h)
  | atom a => exact .pure (.atom a)
  | declared name => exact .pure (.declared name)
  | literal h => exact .pure (.literal h)
  | constant h => exact .pure (.constant h)
  | field h hi => exact .pure (.field h hi)

theorem resolveAllWith_resolves {texts : Bool} (ts : List TypeExpr) {H : Ledger}
    (hl : ∀ H' self name, H.Below H' → Owned H' self → Resolves H' (lookup self name) Owned)
    (hts : ∀ t ∈ ts, Owned H t) :
    Resolves H (resolveAllWith lookup texts ts) fun H' us => ∀ u ∈ us, Owned H' u := by
  cases ts with
  | nil => exact .pure (by simp)
  | cons t rest =>
    have ht : Owned H t := hts t (by simp)
    have hrest {H' : Ledger} (hb : H.Below H') {u : TypeExpr} (hu : Owned H' u) :
        Resolves H' (do return u :: (← resolveAllWith lookup texts rest)) fun H' us =>
          ∀ u ∈ us, Owned H' u := by
      have hl' H'' self name (hb' : Ledger.Below H' H'') := hl H'' self name (hb.trans hb')
      refine (resolveAllWith_resolves rest hl' fun v hv =>
        (hts v (by simp [hv])).mono hb).bind fun H₂ us hb₂ hus => .pure fun v hv => ?_
      rcases List.mem_cons.mp hv with rfl | hv
      · exact hu.mono hb₂
      · exact hus v hv
    rw [resolveAllWith.eq_def]
    split
    · rename_i heq
      cases heq
    · rename_i id name rest' heq
      cases heq
      -- Here the text is read as the forward name whose entry it shares.
      have hforward : Owned H (.forward id name) := asType_owned ht
      cases texts with
      | true => exact (hl H _ name (.refl H) hforward).bind fun H₁ u hb hu => hrest hb hu
      | false => exact hrest (.refl H) ht
    · rename_i t' rest' hne heq
      cases heq
      exact (resolveWith_resolves t hl ht).bind fun H₁ u hb hu => hrest hb hu

end

end

theorem resolveWithin_resolves {scope : Scope} (depth : Nat) {H : Ledger} (hs : scope.Listed H)
    (busy : List String) {t : TypeExpr} (ht : Owned H t) :
    Resolves H (resolveWithin scope depth busy t) Owned := by
  induction depth generalizing H busy t with
  | zero => exact .pure ht
  | succ depth ih =>
    rw [resolveWithin]
    refine resolveWith_resolves t (fun H' self name hb hself => ?_) ht
    split
    · exact .pure hself
    · split
      · exact .throw name
      · rename_i found hfound
        exact ih (hs.mono hb) _ (asType_owned ((hs.mono hb).find? hfound))

theorem resolve_resolves {scope : Scope} {H : Ledger} (hs : scope.Listed H) {t : TypeExpr}
    (ht : Owned H t) : Resolves H (resolve scope t) Owned :=
  resolveWithin_resolves _ hs [] (asType_owned ht)

end TypeExpr

end ToolCatalog
