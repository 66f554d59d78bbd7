import ToolCatalog.Proofs.Faults
import ToolCatalog.Proofs.Invariant

/-!
What is pending while an expression is described.

An object class is remembered before its fields are walked. Any other expression is remembered when
its descriptor is done, and so is what stands under its layers; until then both are pending. An
expression that is met while it is pending gets a second descriptor, which the first one does not
know of. Where that cannot happen, the way is clear.
-/
namespace ToolCatalog

variable {defs : Definitions} {s s' : Session} {t : TypeExpr} {k : Key} {P Q : List Key}
  {K K' : String → Prop}

/-! ## What is remembered under a key -/

namespace Session

/-- The descriptor remembered under a key. -/
def known? (s : Session) (k : Key) : Option Address :=
  s.memo.get? ⟨k, 0⟩

theorem cached?_of_watchable (s : Session) (h : t.watchable = true) :
    s.cached? t = s.known? t.key := by
  simp [cached?, known?, occupant, h]

theorem watchable_of_cached? {a : Address} (h : s.cached? t = some a) : t.watchable = true := by
  by_contra hw
  simp [cached?, hw] at h

theorem known?_of_cached? {a : Address} (h : s.cached? t = some a) :
    s.known? t.key = some a := by
  rwa [← s.cached?_of_watchable (watchable_of_cached? h)]

theorem known?_remember (s : Session) (t : TypeExpr) (a : Address) (k : Key) :
    (s.remember t a).known? k
      = if t.watchable = true ∧ t.key = k then some a else s.known? k := by
  unfold remember known?
  by_cases hw : t.watchable = true
  · by_cases hk : t.key = k
    · subst hk
      simpa [hw, occupant] using Memo.get?_insert_self s.memo ⟨t.key, 0⟩ a
    · simpa [hw, hk, occupant] using Memo.get?_insert_ne s.memo (p := ⟨k, 0⟩) a hk
  · simp [hw]

theorem known?_remember_self (s : Session) (a : Address) (h : t.watchable = true) :
    (s.remember t a).known? t.key = some a := by
  rw [known?_remember, if_pos ⟨h, rfl⟩]

theorem isSome_known?_remember (t : TypeExpr) (a : Address) (h : (s.known? k).isSome) :
    ((s.remember t a).known? k).isSome := by
  rw [known?_remember]
  split
  · rfl
  · exact h

/-- An object class has a descriptor. -/
def Knows (s : Session) (name : String) : Prop :=
  (s.known? (.declared name)).isSome

theorem Extends.knows {free : Option Address} (h : s.Extends free s') {name : String}
    (hn : s.Knows name) : s'.Knows name :=
  h.cached (.declared name) hn

theorem SameWork.known? (h : s.SameWork s') (k : Key) : s'.known? k = s.known? k := by
  rw [Session.known?, Session.known?, h.memo]

end Session

/-! ## What is pending -/

namespace TypeExpr

/-- Whether what stands under the layers of an expression is remembered on its own: an object class
always, anything else for want of constraints. -/
def sharesCore (defs : Definitions) (t : TypeExpr) : Bool :=
  t.core.watchable && ((t.core.base defs).isObject || t.layerConstraints.isEmpty)

/-- The key of an expression with layers, if it can be remembered. -/
def outerKeys (t : TypeExpr) : List Key :=
  if t.watchable && !t.peel.1.isEmpty then [t.key] else []

/-- The key of what stands under the layers, if it is no object class and is remembered. -/
def innerKeys (defs : Definitions) (t : TypeExpr) : List Key :=
  if t.sharesCore defs && !(t.core.base defs).isObject then [t.core.key] else []

/-- The keys under which something is remembered only when an expression has been described. -/
def pending (defs : Definitions) (t : TypeExpr) : List Key :=
  t.outerKeys ++ t.innerKeys defs

theorem peel_of_bare (h : t.peel.1 = []) : t.peel = ([], t) := by
  have hcore := t.core_core
  unfold core at hcore
  cases t <;> first | rfl | simp [peel] at h

theorem core_of_bare (h : t.peel.1 = []) : t.core = t := by
  rw [core, peel_of_bare h]

theorem mem_outerKeys : k ∈ t.outerKeys ↔ t.watchable = true ∧ t.peel.1 ≠ [] ∧ k = t.key := by
  unfold outerKeys
  cases t.watchable <;> cases t.peel.1 <;> simp

theorem mem_innerKeys : k ∈ t.innerKeys defs ↔
    t.sharesCore defs = true ∧ (t.core.base defs).isObject = false ∧ k = t.core.key := by
  unfold innerKeys
  cases t.sharesCore defs <;> cases (t.core.base defs).isObject <;> simp

theorem sharesCore_of_object (h : (t.core.base defs).isObject = true) :
    t.sharesCore defs = true := by
  obtain ⟨name, hname⟩ : ∃ name, t.core = .declared name := by
    cases hb : t.core.base defs with
    | object c =>
      obtain ⟨name, hname, -⟩ := base_object hb
      exact ⟨name, hname⟩
    | _ =>
      rw [hb] at h
      cases h
  rw [sharesCore, h, hname]
  rfl

theorem sharesCore_of_free (hw : t.core.watchable = true) (h : t.layerConstraints = []) :
    t.sharesCore defs = true := by
  simp [sharesCore, hw, h]

theorem sharesCore_of_bare (hw : t.watchable = true) (h : t.peel.1 = []) :
    t.sharesCore defs = true := by
  refine sharesCore_of_free ?_ ?_
  · rwa [core_of_bare h]
  · rw [layerConstraints, h]
    rfl

theorem watchable_core (h : t.sharesCore defs = true) : t.core.watchable = true := by
  simp only [sharesCore, Bool.and_eq_true] at h
  exact h.1

theorem layerConstraints_of_shared (h : t.sharesCore defs = true)
    (hb : (t.core.base defs).isObject = false) : t.layerConstraints = [] := by
  simpa [sharesCore, hb, watchable_core h] using h

theorem core_key_mem_innerKeys (h : t.sharesCore defs = true)
    (hb : (t.core.base defs).isObject = false) : t.core.key ∈ t.innerKeys defs :=
  mem_innerKeys.mpr ⟨h, hb, rfl⟩

/-- Whatever is remembered when an expression has been described was pending, unless it is a
class. -/
theorem key_mem_pending (hw : t.watchable = true) (hb : (t.base defs).isObject = false) :
    t.key ∈ t.pending defs := by
  rw [pending, List.mem_append, mem_outerKeys, mem_innerKeys]
  by_cases hp : t.peel.1 = []
  · exact .inr ⟨sharesCore_of_bare hw hp, by rwa [core_of_bare hp], by rw [core_of_bare hp]⟩
  · exact .inl ⟨hw, hp, rfl⟩

theorem pending_declared {name : String} {c : ObjectClass}
    (hf : defs.find? name = some (.object c)) : (declared name).pending defs = [] := by
  have hb : ((declared name).core.base defs).isObject = true := by
    rw [core_of_bare rfl, base_declared hf]
    rfl
  simp [pending, outerKeys, innerKeys, hb, peel]

/-- No object class is ever pending. -/
theorem ne_declared_of_pending (h : k ∈ t.pending defs) {name : String} {c : ObjectClass}
    (hf : defs.find? name = some (.object c)) : k ≠ .declared name := by
  rintro rfl
  rw [pending, List.mem_append, mem_outerKeys, mem_innerKeys] at h
  rcases h with ⟨-, hp, hk⟩ | ⟨-, hb, hk⟩
  · obtain rfl : t = .declared name := eq_declared_of_key hk.symm
    exact hp rfl
  · have hcore : t.core = .declared name := eq_declared_of_key hk.symm
    rw [hcore, base_declared hf] at hb
    cases hb

end TypeExpr

/-! ## Clear ways -/

/-- Describing an expression meets nothing that is pending, neither under these keys nor on the way
itself, while these object classes have descriptors. Every class on the way is entered once, so the
way has an end. -/
inductive Clear (defs : Definitions) : (String → Prop) → List Key → TypeExpr → Prop
  | mk {K : String → Prop} {P : List Key} {t : TypeExpr} (apart : ∀ k ∈ t.pending defs, k ∉ P)
      (part : ∀ e, (t.core.base defs).part? = some e → Clear defs K (t.pending defs ++ P) e)
      (fields : ∀ name c, t.core = .declared name → defs.find? name = some (.object c) →
        ¬K name → ∀ f ∈ c.fields,
          Clear defs (fun n => n = name ∨ K n) (t.pending defs ++ P) f.2) :
      Clear defs K P t

namespace Clear

theorem apart (h : Clear defs K P t) : ∀ k ∈ t.pending defs, k ∉ P := by
  cases h with
  | mk hapart _ _ => exact hapart

theorem part {e : TypeExpr} (hp : (t.core.base defs).part? = some e) (h : Clear defs K P t) :
    Clear defs K (t.pending defs ++ P) e := by
  cases h with
  | mk _ hpart _ => exact hpart e hp

theorem field {name : String} {c : ObjectClass} {f : String × TypeExpr}
    (ht : t.core = .declared name) (hf : defs.find? name = some (.object c)) (hn : ¬K name)
    (hfm : f ∈ c.fields) (h : Clear defs K P t) :
    Clear defs (fun n => n = name ∨ K n) (t.pending defs ++ P) f.2 := by
  cases h with
  | mk _ _ hfields => exact hfields name c ht hf hn f hfm

/-- The more classes have descriptors and the less is pending, the clearer the way. -/
theorem mono (hK : ∀ n, K n → K' n) (hP : Q ⊆ P) (h : Clear defs K P t) : Clear defs K' Q t := by
  induction h generalizing K' Q with
  | @mk K P t hapart _ _ ihpart ihfields =>
    have hsub : t.pending defs ++ Q ⊆ t.pending defs ++ P :=
      List.append_subset.mpr ⟨List.subset_append_left _ _,
        List.Subset.trans hP (List.subset_append_right _ _)⟩
    exact .mk (fun k hk hq => hapart k hk (hP hq)) (fun e he => ihpart e he hK hsub)
      fun name c ht hf hn f hfm =>
        ihfields name c ht hf (mt (hK name) hn) f hfm (fun n => Or.imp_right (hK n)) hsub

/-- A class that has a descriptor is in the way of nothing. -/
theorem known {name : String} {c : ObjectClass} (hf : defs.find? name = some (.object c))
    (hn : K name) : Clear defs K P (.declared name) := by
  refine .mk (by simp [TypeExpr.pending_declared hf]) (fun e he => ?_) fun m c' hm _ hk => ?_
  · rw [TypeExpr.core_of_bare rfl, TypeExpr.base_declared hf] at he
    cases he
  · cases hm
    exact absurd hn hk

theorem later {free : Option Address} (hs : s.Extends free s') (h : Clear defs s.Knows P t) :
    Clear defs s'.Knows P t :=
  h.mono (fun _ => hs.knows) (List.Subset.refl P)

end Clear

end ToolCatalog
