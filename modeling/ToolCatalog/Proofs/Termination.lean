import ToolCatalog.Proofs.Evaluation
import ToolCatalog.Proofs.Plain

/-!
Every call finishes, and no object class is walked twice.

Whatever was done in a session before, a call has a finite derivation that ends in what the call
computes. A class has a descriptor from the moment its walk begins, and keeps it; so over any number
of calls, failed ones included, each class is walked at most once.
-/
namespace ToolCatalog

variable {defs : Definitions} {s s₁ s' : Session} {names names' : List String}

/-- The classes walked between two sessions: they had no descriptor before, they have one after, and
each is walked once. What is remembered stays remembered. -/
structure WalkedOnce (s s' : Session) (names : List String) : Prop where
  kept : ∀ t : TypeExpr, (s.cached? t).isSome → (s'.cached? t).isSome
  before : ∀ name ∈ names, s.cached? (.declared name) = none
  after : ∀ name ∈ names, (s'.cached? (.declared name)).isSome
  nodup : names.Nodup

namespace WalkedOnce

theorem of_extends {free : Option Address} (h : s.Extends free s') : WalkedOnce s s' [] :=
  ⟨h.cached, by simp, by simp, .nil⟩

theorem append (h : WalkedOnce s s₁ names) (h' : WalkedOnce s₁ s' names') :
    WalkedOnce s s' (names ++ names') := by
  refine ⟨fun t ht => h'.kept t (h.kept t ht), ?_, ?_, ?_⟩
  · intro name hn
    rcases List.mem_append.mp hn with hn | hn
    · exact h.before name hn
    -- What has no descriptor later had none earlier.
    · by_contra hc
      have := h.kept _ (Option.isSome_iff_ne_none.mpr hc)
      simp [h'.before name hn] at this
  · intro name hn
    rcases List.mem_append.mp hn with hn | hn
    · exact h'.kept _ (h.after name hn)
    · exact h'.after name hn
  · refine List.nodup_append.mpr ⟨h.nodup, h'.nodup, fun name hn name' hn' he => ?_⟩
    have := h.after name hn
    simp [he, h'.before name' hn'] at this

theorem extend {free : Option Address} (h : WalkedOnce s s₁ names) (hx : s₁.Extends free s') :
    WalkedOnce s s' names := by
  simpa using h.append (.of_extends hx)

theorem of_sameWork (h : s.SameWork s₁) (hw : WalkedOnce s₁ s' names) : WalkedOnce s s' names :=
  have hx : s.Extends none s₁ := .of_sameWork h
  (of_extends hx).append hw

theorem object {name : String} {c : ObjectClass} (h : s.cached? (.declared name) = none)
    (hw : WalkedOnce (s.withObject (.declared name) c) s' names) :
    WalkedOnce s s' (name :: names) := by
  have hx := Session.Extends.withObject s (.declared name) c
  have hself : ((s.withObject (.declared name) c).cached? (.declared name)).isSome :=
    Session.withObject_cached s rfl c
  have hbegin : WalkedOnce s (s.withObject (.declared name) c) [name] :=
    ⟨hx.cached, by simpa using h, by simpa using hself, by simp⟩
  exact hbegin.append hw

end WalkedOnce

theorem enterBase_extends (an : Analysis) (record : Except CompileFault Record) (s : Session) :
    s.Extends none (s.run (enterBase an record)).2 := by
  cases record with
  | error e => exact .refl none s
  | ok r =>
    rw [run_enterBase_ok]
    cases an.constraints.isEmpty with
    | true => exact (Session.Extends.withRecord s r).trans (.remember _ _ _)
    | false => exact .withRecord s r

theorem addLayers_extends (t : TypeExpr) (an : Analysis) (a : Address) (s : Session) :
    s.Extends none (s.run (addLayers t an a)).2 := by
  have h := addLayers_run s t an a
  generalize s.run (addLayers t an a) = res at h ⊢
  cases h with
  | bare _ => exact .remember s t a
  | decorated _ hs =>
    exact ((Session.Extends.of_sameWork hs).trans (.withRecord _ _)).trans (.remember _ _ _)

/-- No task walks a class twice, nor one that has a descriptor already. -/
theorem Evaluates.walkedOnce {task : Task} {res : Except CompileFault Address × Session}
    (h : Evaluates defs s task res names) : WalkedOnce s res.2 names := by
  induction h with
  | @kept s _ _ _ _ => exact .of_extends (.refl none s)
  | barred _ ha _ ih => exact .of_sameWork ha.sameWork ih
  | layered _ ha _ ih =>
    exact .of_sameWork ha.sameWork (ih.extend (addLayers_extends _ _ _ _))
  | object _ _ _ ih => exact ih
  | @shared s _ _ _ _ _ => exact .of_extends (.refl none s)
  | @simple s an _ _ _ =>
    have hnoted : s.Extends none (an.base.noted an.inner.label s) :=
      .of_sameWork (an.base.noted_sameWork _ s)
    exact .of_extends (hnoted.trans (enterBase_extends _ _ _))
  | part _ _ _ _ ih => exact ih.extend (enterBase_extends _ _ _)
  | @known s _ _ _ _ => exact .of_extends (.refl none s)
  | walked h _ ih => exact .object h ih
  | @done s _ => exact .of_extends (.refl none s)
  | stuck ha _ ih => exact .of_sameWork ha.sameWork ih
  | entered ha _ _ ihd ihrest =>
    exact .of_sameWork ha.sameWork ((ihd.extend (.withBodyChanged _ _ _)).append ihrest)

/-! ## Calls -/

/-- What comes of a call, and the classes it walks. -/
inductive Call.Evaluates (defs : Definitions) (s : Session) :
    Call → Except CompileFault Address × Session → List String → Prop
  | describe {t res names} (h : ToolCatalog.Evaluates defs s (.field t none) res names) :
      Call.Evaluates defs s (.describe t) res names
  | object {name c res names} (hf : defs.find? name = some (.object c))
      (h : ToolCatalog.Evaluates defs s (.object name c) res names) :
      Call.Evaluates defs s (.compile (.declared name)) res names
  /-- Parameters of any other kind are an empty object; nothing is looked into. -/
  | empty {t} (hb : (t.base defs).isObject = false) :
      Call.Evaluates defs s (.compile t) (s.run (describeParameters defs t)) []

namespace Call

variable {c : Call} {res : Except CompileFault Address × Session}

theorem run_ne_exhausted (defs : Definitions) (s : Session) (c : Call) :
    (s.run (c.run defs)).1 ≠ .error .exhausted := by
  rcases hr : s.run (c.run defs) with ⟨r, s'⟩
  rintro rfl
  obtain ⟨u, f, -, -, he⟩ := Call.explained hr
  cases he

/-- Every call finishes with what it computes. -/
theorem evaluates (defs : Definitions) (s : Session) (c : Call) :
    ∃ names, c.Evaluates defs s (s.run (c.run defs)) names := by
  have hroom := c.run_ne_exhausted defs s
  cases c with
  | describe t =>
    obtain ⟨names, h⟩ := describeWithin_derivable defs (defs.room t) s t none (by simp) hroom
    exact ⟨names, .describe h⟩
  | compile t =>
    cases ho : t.base defs with
    | object c =>
      obtain ⟨name, rfl, hf⟩ := TypeExpr.base_object ho
      have hrun : (Call.compile (.declared name)).run defs = describeObject defs
          (describeWithin defs (defs.room (.declared name))) (.declared name) c := by
        simp only [run, describeParameters, ho]
      rw [hrun] at hroom ⊢
      obtain ⟨names, h⟩ := describeObject_derivable (describeWithin_derivable defs _) rfl hroom
      exact ⟨names, .object hf h⟩
    | _ => exact ⟨[], .empty (by rw [ho]; rfl)⟩

/-- A call computes what a derivation says. -/
theorem Evaluates.result_eq (h : c.Evaluates defs s res names) : res = s.run (c.run defs) := by
  obtain ⟨names', h'⟩ := c.evaluates defs s
  cases h with
  | empty hb => rfl
  | describe hd =>
    generalize s.run _ = res' at h' ⊢
    cases h' with
    | describe hd' => exact hd.result_unique hd'
  | object hf ho =>
    generalize s.run _ = res' at h' ⊢
    cases h' with
    | object hf' ho' =>
      rw [hf] at hf'
      cases hf'
      exact ho.result_unique ho'
    | empty hb =>
      rw [TypeExpr.base_declared hf] at hb
      cases hb

theorem Evaluates.walkedOnce (h : c.Evaluates defs s res names) : WalkedOnce s res.2 names := by
  cases h with
  | describe h => exact h.walkedOnce
  | object _ h => exact h.walkedOnce
  | empty _ => exact .of_extends (describeParameters_extends defs _ s)

end Call

/-- Calls one after the other, and the classes they walk. -/
inductive History (defs : Definitions) :
    Session → List Call → List (Except CompileFault Address) × Session → List String → Prop
  | nil (s : Session) : History defs s [] ([], s) []
  | cons {s c r s₁ rest rs s₂ names names'} (hc : c.Evaluates defs s (r, s₁) names)
      (hrest : History defs s₁ rest (rs, s₂) names') :
      History defs s (c :: rest) (r :: rs, s₂) (names ++ names')

namespace History

variable {calls : List Call} {res : List (Except CompileFault Address) × Session}

theorem after (defs : Definitions) (s : Session) (calls : List Call) :
    ∃ names, History defs s calls (s.after defs calls) names := by
  induction calls generalizing s with
  | nil => exact ⟨[], .nil s⟩
  | cons c rest ih =>
    obtain ⟨names, hc⟩ := c.evaluates defs s
    obtain ⟨names', hrest⟩ := ih (s.run (c.run defs)).2
    exact ⟨names ++ names', .cons hc hrest⟩

theorem result_eq (h : History defs s calls res names) : res = s.after defs calls := by
  induction h with
  | nil s => rfl
  | cons hc _ ih =>
    simp only [Session.after, ← hc.result_eq, ← ih]

theorem walkedOnce (h : History defs s calls res names) : WalkedOnce s res.2 names := by
  induction h with
  | nil s => exact .of_extends (.refl none s)
  | cons hc _ ih => exact hc.walkedOnce.append ih

end History

theorem Session.after_ne_exhausted (defs : Definitions) (s : Session) (calls : List Call) :
    ∀ r ∈ (s.after defs calls).1, r ≠ .error .exhausted := by
  induction calls generalizing s with
  | nil => simp [Session.after]
  | cons c rest ih =>
    intro r hr
    rcases List.mem_cons.mp hr with rfl | hr
    · exact c.run_ne_exhausted defs s
    · exact ih _ r hr

/-- From any session, any calls have a finite derivation, which ends in what they compute and never
for want of room; and it walks no object class twice, nor one that had a descriptor before. -/
theorem calls_finish (defs : Definitions) (s : Session) (calls : List Call) :
    (∃ names, History defs s calls (s.after defs calls) names) ∧
      ∀ res names, History defs s calls res names → res = s.after defs calls ∧
        (∀ r ∈ res.1, r ≠ .error .exhausted) ∧ names.Nodup ∧
          ∀ name ∈ names, s.cached? (.declared name) = none := by
  refine ⟨History.after defs s calls, fun res names h => ?_⟩
  have hwalked := h.walkedOnce
  obtain rfl := h.result_eq
  exact ⟨rfl, Session.after_ne_exhausted defs s calls, hwalked.nodup, hwalked.before⟩

/-- Two calls for a class that leads back to itself. -/
theorem calls_finish_tree :
    ∃ names, names.Nodup ∧ History treeSource.definitions (.fresh false)
      [.describe (.declared "Tree"), .compile (.declared "Tree")]
      (Session.after treeSource.definitions (.fresh false)
        [.describe (.declared "Tree"), .compile (.declared "Tree")]) names := by
  obtain ⟨⟨names, h⟩, hall⟩ := calls_finish treeSource.definitions (.fresh false)
    [.describe (.declared "Tree"), .compile (.declared "Tree")]
  exact ⟨names, (hall _ names h).2.2.1, h⟩

end ToolCatalog
