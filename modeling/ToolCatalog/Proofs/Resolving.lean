import ToolCatalog.Proofs.Fields
import ToolCatalog.Proofs.Renumbering

/-!
When looking up the names in an expression fails.

Looking names up hands out numbers and shares what it makes, so its result depends on what was made
before. Whether there is a result does not: it fails exactly if some name that is met is unknown,
and then with the first of these names. `Answers` says this of a step for a list of names. An
expression that has no forward name itself is made again as it is, but for numbers.
-/
namespace ToolCatalog

/-! ## Names -/

namespace TypeExpr

mutual

/-- The forward names that are looked up in an expression, in order. -/
def names : TypeExpr → List String
  | .forward _ name => [name]
  | .generic _ head args => namesAll (head.spelling != .form) args
  | .callable _ args result => namesAll false args ++ result.names
  | .union _ _ members => namesAll false members
  | .nullable _ _ members _ => namesAll false members
  | .annotated _ inner _ => inner.names
  | .notRequired _ inner => inner.names
  | .required _ inner => inner.names
  | _ => []

/-- The forward names in a list; with `texts`, a text there is a forward name too. -/
def namesAll (texts : Bool) : List TypeExpr → List String
  | [] => []
  | .constant _ (.text name) :: rest => (if texts then [name] else []) ++ namesAll texts rest
  | t :: rest => t.names ++ namesAll texts rest

end

end TypeExpr

namespace Scope

/-- The unknown names that are met when names are looked up through at most `depth` names inside
each other; `busy` are those being looked up. -/
def unknownWithin (scope : Scope) : Nat → List String → TypeExpr → List String
  | 0, _, _ => []
  | depth + 1, busy, t => t.names.flatMap fun name =>
    if busy.contains name then []
    else match scope.find? name with
      | none => [name]
      | some found => scope.unknownWithin depth (name :: busy) found.asType

/-- The unknown names that are met when an expression is resolved, in order. -/
def unknown (scope : Scope) (t : TypeExpr) : List String :=
  scope.unknownWithin (scope.length + 1) [] t.asType

/-- What a type can resolve to in a scope. -/
def Turns (scope : Scope) (t u : TypeExpr) : Prop :=
  ∃ s : Supply, ((TypeExpr.resolve scope t).run.run s).1 = .ok u

end Scope

/-! ## Steps that meet unknown names -/

/-- Whatever was given out before, a step fails with the first of these unknown names; without any
it has a result, with the property `P`. -/
def Answers {α : Type} (m : Resolving α) (unknown : List String) (P : α → Prop) : Prop :=
  Yields m.run fun r => match unknown.head? with
    | none => ∃ a, r = .ok a ∧ P a
    | some name => r = .error name

namespace Answers

variable {α β : Type} {m : Resolving α} {xs ys : List String} {P : α → Prop} {Q : β → Prop}

theorem pure {a : α} (h : P a) : Answers (pure a) [] P :=
  fun _ => ⟨a, rfl, h⟩

theorem throw (name : String) : Answers (throw name : Resolving α) [name] P :=
  fun _ => rfl

theorem lift {m : Making α} (h : Yields m P) : Answers (liftM m) [] P :=
  fun s => ⟨(m.run s).1, rfl, h s⟩

/-- A new number. -/
theorem new {f : Nat → β} (h : ∀ id, Q (f id)) : Answers (do return f (← TypeExpr.fresh)) [] Q :=
  fun s => ⟨f s.next, rfl, h s.next⟩

theorem bind {f : α → Resolving β} (hm : Answers m xs P) (hf : ∀ a, P a → Answers (f a) ys Q) :
    Answers (m >>= f) (xs ++ ys) Q := by
  unfold Answers
  rw [ExceptT.run_bind]
  refine Yields.bind hm fun r hr => ?_
  cases xs with
  | nil =>
    obtain ⟨a, rfl, ha⟩ := hr
    exact hf a ha
  | cons name rest =>
    obtain rfl : r = .error name := hr
    exact .pure rfl

/-- What follows a step may meet no unknown name at all. -/
theorem bind_known {f : α → Resolving β} (hm : Answers m xs P)
    (hf : ∀ a, P a → Answers (f a) [] Q) : Answers (m >>= f) xs Q :=
  List.append_nil xs ▸ hm.bind hf

theorem imp {P' : α → Prop} (hm : Answers m xs P) (h : ∀ a, P a → P' a) : Answers m xs P' := by
  intro s
  have hs := hm s
  cases xs with
  | nil =>
    obtain ⟨a, ha, hp⟩ := hs
    exact ⟨a, ha, h a hp⟩
  | cons name rest => exact hs

theorem mapM {f : α → Resolving β} {names : α → List String} {R : α → β → Prop}
    (h : ∀ a, Answers (f a) (names a) (R a)) (l : List α) :
    Answers (l.mapM f) (l.flatMap names) (List.Forall₂ R l) := by
  induction l with
  | nil => exact pure .nil
  | cons a rest ih =>
    rw [List.mapM_cons, List.flatMap_cons]
    exact (h a).bind fun b hb => ih.bind_known fun bs hbs => pure (.cons hb hbs)

end Answers

/-! ## Looking names up -/

namespace TypeExpr

/-- Two equal expressions that differ in the numbers of objects at most. -/
structure Remade (t u : TypeExpr) : Prop where
  equal : u.equal t = true
  unnumbered : u.unnumbered = t.unnumbered

theorem Remade.refl (t : TypeExpr) : t.Remade t := ⟨t.equal_self, rfl⟩

theorem equalLists_of_remade {ts us : List TypeExpr} (h : List.Forall₂ Remade ts us) :
    equalLists us ts = true := by
  induction h with
  | nil => rfl
  | cons h _ ih => simp [equalLists, h.equal, ih]

theorem equalLists_self (ts : List TypeExpr) : equalLists ts ts = true :=
  equalLists_of_remade (List.forall₂_same.mpr fun t _ => .refl t)

/-- An expression without names is left as it is, where one with names may be made anew. -/
theorem answers_keep {t : TypeExpr} {c : Bool} {m : Resolving TypeExpr}
    (hc : t.names = [] → c = true) (hm : Answers m [] fun _ => True) :
    Answers (if c then pure t else m) [] fun u => t.names = [] → t.Remade u := by
  cases c with
  | true => exact .pure fun _ => .refl t
  | false => exact hm.imp fun u _ hn => nomatch hc hn

section

variable {lookup : TypeExpr → String → Resolving TypeExpr} {unknown : String → List String}

mutual

/-- Replacing names fails with the first name whose lookup fails; without names nothing changes. -/
theorem resolveWith_answers
    (hl : ∀ self name, Answers (lookup self name) (unknown name) fun _ => True) (t : TypeExpr) :
    Answers (resolveWith lookup t) (t.names.flatMap unknown) fun u =>
      t.names = [] → t.Remade u := by
  cases t with
  | generic id head args =>
    rw [resolveWith]
    refine (resolveAllWith_answers hl args).bind_known fun made hmade => ?_
    split
    · rename_i hne
      exact .new fun id' hn => by simp [equalLists_of_remade (hmade hn)] at hne
    · split
      · exact .pure fun _ => .refl _
      · exact .new fun id' _ => ⟨by simp [equal, equalLists_self], rfl⟩
  | callable id args result =>
    rw [resolveWith, names, List.flatMap_append]
    refine (resolveAllWith_answers hl args).bind fun made hmade => ?_
    refine (resolveWith_answers hl result).bind_known fun madeResult hresult => ?_
    refine answers_keep (fun hn => ?_) (.new fun _ => trivial)
    obtain ⟨hargs, hres⟩ := List.append_eq_nil_iff.mp hn
    simp [equalLists_of_remade (hmade hargs), (hresult hres).equal]
  | union id style members =>
    rw [resolveWith]
    refine (resolveAllWith_answers hl members).bind_known fun made hmade => ?_
    refine answers_keep (fun hn => equalLists_of_remade (hmade hn)) ?_
    split <;> exact .lift (.any _)
  | nullable id style members inner =>
    rw [resolveWith]
    refine (resolveAllWith_answers hl members).bind_known fun made hmade => ?_
    refine answers_keep (fun hn => equalLists_of_remade (hmade hn)) ?_
    split <;> exact .lift (.any _)
  | annotated id inner items =>
    rw [resolveWith]
    exact (resolveWith_answers hl inner).bind_known fun made hmade =>
      answers_keep (fun hn => (hmade hn).equal) (.lift (.any _))
  | notRequired id inner =>
    rw [resolveWith]
    exact (resolveWith_answers hl inner).bind_known fun made hmade =>
      answers_keep (fun hn => (hmade hn).equal) (.new fun _ => trivial)
  | required id inner =>
    rw [resolveWith]
    exact (resolveWith_answers hl inner).bind_known fun made hmade =>
      answers_keep (fun hn => (hmade hn).equal) (.new fun _ => trivial)
  | forward id name =>
    rw [resolveWith, names, List.flatMap_singleton]
    exact (hl _ name).imp fun _ _ hn => nomatch hn
  | atom a => exact .pure fun _ => .refl _
  | declared name => exact .pure fun _ => .refl _
  | literal id values => exact .pure fun _ => .refl _
  | constant id v => exact .pure fun _ => .refl _
  | field id spec inner => exact .pure fun _ => .refl _

theorem resolveAllWith_answers {texts : Bool}
    (hl : ∀ self name, Answers (lookup self name) (unknown name) fun _ => True)
    (ts : List TypeExpr) :
    Answers (resolveAllWith lookup texts ts) ((namesAll texts ts).flatMap unknown) fun us =>
      namesAll texts ts = [] → List.Forall₂ Remade ts us := by
  cases ts with
  | nil => exact .pure fun _ => .nil
  | cons t rest =>
    -- One element is answered, then the rest; both are as they were if there are no names.
    have hcons {xs : List String} {m : Resolving TypeExpr}
        (hm : Answers m (xs.flatMap unknown) fun u => xs = [] → t.Remade u) :
        Answers (do return (← m) :: (← resolveAllWith lookup texts rest))
          ((xs ++ namesAll texts rest).flatMap unknown) fun us =>
            xs ++ namesAll texts rest = [] → List.Forall₂ Remade (t :: rest) us := by
      rw [List.flatMap_append]
      refine hm.bind fun u hu => (resolveAllWith_answers hl rest).bind_known fun us hus => ?_
      exact .pure fun hn => by
        obtain ⟨hone, hrest⟩ := List.append_eq_nil_iff.mp hn
        exact .cons (hu hone) (hus hrest)
    rw [resolveAllWith.eq_def]
    split
    · rename_i heq
      cases heq
    · rename_i id name rest' heq
      cases heq
      rw [namesAll]
      cases texts with
      | true =>
        have hname : Answers (lookup (.forward id name) name) (unknown name) fun u =>
            [name] = [] → (constant id (.text name)).Remade u :=
          (hl _ name).imp fun _ _ hn => nomatch hn
        rw [← List.flatMap_singleton unknown name] at hname
        exact hcons hname
      | false => exact hcons (.pure fun _ => .refl _)
    · rename_i t' rest' hne heq
      cases heq
      rw [namesAll]
      · exact hcons (resolveWith_answers hl t)
      · exact hne

end

end

theorem resolveWithin_answers (scope : Scope) (depth : Nat) (busy : List String) (t : TypeExpr) :
    Answers (resolveWithin scope depth busy t) (scope.unknownWithin depth busy t) fun u =>
      t.names = [] → t.Remade u := by
  induction depth generalizing busy t with
  | zero => exact .pure fun _ => .refl t
  | succ depth ih =>
    rw [resolveWithin, Scope.unknownWithin]
    refine resolveWith_answers (fun self name => ?_) t
    split
    · exact .pure trivial
    · cases scope.find? name with
      | none => exact .throw name
      | some found => exact (ih _ _).imp fun _ _ => trivial

/-- An expression resolves exactly if it meets no unknown name; else the first one is reported. -/
theorem resolve_answers (scope : Scope) (t : TypeExpr) :
    Answers (resolve scope t) (scope.unknown t) fun u =>
      scope.Turns t u ∧ (t.asType.names = [] → t.asType.Remade u) := by
  intro s
  have hs := resolveWithin_answers scope (scope.length + 1) [] t.asType s
  unfold Scope.unknown
  cases hx : (scope.unknownWithin (scope.length + 1) [] t.asType).head? with
  | none =>
    rw [hx] at hs
    obtain ⟨u, hu, hremade⟩ := hs
    exact ⟨u, hu, ⟨s, hu⟩, hremade⟩
  | some name =>
    rw [hx] at hs
    exact hs

end TypeExpr

/-- The types of keys resolve together exactly if none of them meets an unknown name. -/
theorem resolveKeys_answers (scope : Scope) (keys : List (String × TypeExpr)) :
    Answers (keys.mapM fun (n, t) => do return (n, ← TypeExpr.resolve scope t))
      (keys.flatMap fun e => scope.unknown e.2)
      (List.Forall₂ (fun e f => e.1 = f.1 ∧ scope.Turns e.2 f.2) keys) :=
  Answers.mapM (fun e => (TypeExpr.resolve_answers scope e.2).bind_known fun _ hu =>
    .pure ⟨rfl, hu.1⟩) keys

end ToolCatalog
