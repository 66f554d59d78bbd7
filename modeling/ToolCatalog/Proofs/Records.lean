import Mathlib.Data.List.Forall2
import Mathlib.Data.List.Induction
import ToolCatalog.Compiler

/-!
What writing keywords does to a record.

What an analysis adds to a record is a list of keywords written in order; the list depends on the
record only through its type.
-/
namespace ToolCatalog

section

variable {α β γ δ : Type} {R : α → β → Prop}

theorem exists_of_mem_left {l : List α} {l' : List β} (h : List.Forall₂ R l l') {x : α}
    (hx : x ∈ l) : ∃ y ∈ l', R x y := by
  induction h with
  | nil => cases hx
  | @cons a b _ _ hab _ ih =>
    rcases List.mem_cons.mp hx with rfl | hx
    · exact ⟨b, by simp, hab⟩
    · obtain ⟨y, hy, hr⟩ := ih hx
      exact ⟨y, by simp [hy], hr⟩

theorem exists_of_mem_right {l : List α} {l' : List β} (h : List.Forall₂ R l l') {y : β}
    (hy : y ∈ l') : ∃ x ∈ l, R x y :=
  exists_of_mem_left h.flip hy

theorem map_eq_of_forall₂ {f : α → γ} {g : β → γ} {l : List α} {l' : List β}
    (h : List.Forall₂ (fun a b => f a = g b) l l') : l.map f = l'.map g := by
  induction h with
  | nil => rfl
  | cons h _ ih => rw [List.map_cons, List.map_cons, h, ih]

theorem forall₂_and {S : α → β → Prop} {l : List α} {l' : List β} (h : List.Forall₂ R l l')
    (h' : List.Forall₂ S l l') : List.Forall₂ (fun a b => R a b ∧ S a b) l l' := by
  induction h with
  | nil => exact .nil
  | cons hr _ ih =>
    cases h' with
    | cons hs hrest => exact .cons ⟨hr, hs⟩ (ih hrest)

theorem forall₂_comp {S : β → γ → Prop} {m : List β} {n : List γ} {l : List α}
    (h : List.Forall₂ R l m) (h' : List.Forall₂ S m n) :
    List.Forall₂ (fun a c => ∃ b, R a b ∧ S b c) l n := by
  induction h generalizing n with
  | nil =>
    cases h'
    exact .nil
  | cons hr _ ih =>
    cases h' with
    | cons hs hrest => exact .cons ⟨_, hr, hs⟩ (ih hrest)

/-- What succeeds for each succeeds for all, in order. -/
theorem exists_mapM_ok {ε : Type} {f : α → Except ε β} {l : List α}
    (h : ∀ x ∈ l, ∃ y, f x = .ok y) :
    ∃ ys, l.mapM f = .ok ys ∧ List.Forall₂ (fun x y => f x = .ok y) l ys := by
  induction l with
  | nil => exact ⟨[], rfl, .nil⟩
  | cons x rest ih =>
    obtain ⟨y, hy⟩ := h x (by simp)
    obtain ⟨ys, hys, hall⟩ := ih fun z hz => h z (by simp [hz])
    refine ⟨y :: ys, ?_, .cons hy hall⟩
    rw [List.mapM_cons, hy, hys]
    rfl

/-- Two lists that stand beside one list have equal images where equals stand beside one entry. -/
theorem map_eq_of_common {S : α → γ → Prop} {f : β → δ} {g : γ → δ} {l : List α} {m : List β}
    {m' : List γ} (h : List.Forall₂ R l m) (h' : List.Forall₂ S l m')
    (heq : ∀ a ∈ l, ∀ b c, R a b → S a c → f b = g c) : m.map f = m'.map g := by
  induction h generalizing m' with
  | nil =>
    cases h'
    rfl
  | @cons a b _ _ hr _ ih =>
    cases h' with
    | cons hs hrest =>
      rw [List.map_cons, List.map_cons, heq a (by simp) _ _ hr hs,
        ih hrest fun a ha => heq a (by simp [ha])]

end

namespace Entries

variable {α β : Type}

theorem lookup_cons (l : String) (e : String × α) (m : Entries α) :
    List.lookup l (e :: m) = if l = e.1 then some e.2 else m.lookup l := by
  obtain ⟨k, v⟩ := e
  rw [List.lookup_cons]
  by_cases h : l = k
  · simp [h]
  · have hb : (l == k) = false := by simpa using h
    rw [hb, if_neg h]

theorem mem_of_lookup {k : String} {v : α} {m : Entries α} (h : m.lookup k = some v) :
    (k, v) ∈ m := by
  obtain ⟨l₁, l₂, rfl, -⟩ := List.lookup_eq_some_iff.mp h
  simp

theorem lookup_of_mem {k : String} {v : α} {m : Entries α} (hd : m.keys.Nodup) (h : (k, v) ∈ m) :
    m.lookup k = some v := by
  induction m with
  | nil => cases h
  | cons e rest ih =>
    obtain ⟨hnot, hrest⟩ := List.nodup_cons.mp hd
    rw [lookup_cons]
    rcases List.mem_cons.mp h with rfl | h
    · exact if_pos rfl
    · have hmem : k ∈ rest.map (·.1) := List.mem_map_of_mem h
      rw [if_neg (ne_of_mem_of_not_mem hmem hnot), ih hrest h]

theorem lookup_map (f : α → β) (k : String) (m : Entries α) :
    List.lookup k (m.map fun e => (e.1, f e.2)) = (m.lookup k).map f := by
  induction m with
  | nil => rfl
  | cons e rest ih =>
    rw [List.map_cons, lookup_cons, lookup_cons, ih]
    split <;> rfl

theorem lookup_put_self (k : String) (v : α) (m : Entries α) : (put k v m).lookup k = some v := by
  induction m with
  | nil => simp [put]
  | cons e rest ih =>
    simp only [put]
    split
    · rename_i h
      simp [h]
    · rename_i h
      rw [lookup_cons, if_neg (Ne.symm h), ih]

theorem lookup_put_ne {k l : String} (v : α) (m : Entries α) (h : l ≠ k) :
    (put k v m).lookup l = m.lookup l := by
  induction m with
  | nil => simp [put, lookup_cons, h]
  | cons e rest ih =>
    simp only [put]
    split
    · rename_i hk
      rw [lookup_cons, lookup_cons, hk, if_neg h, if_neg h]
    · rw [lookup_cons, lookup_cons, ih]

theorem put_map (f : α → β) (k : String) (v : α) (m : Entries α) :
    (put k v m).map (fun e => (e.1, f e.2)) = put k (f v) (m.map fun e => (e.1, f e.2)) := by
  induction m with
  | nil => rfl
  | cons e rest ih =>
    simp only [put, List.map_cons]
    split <;> simp [ih]

theorem mem_put {k : String} {v : α} {m : Entries α} {e : String × α} (h : e ∈ put k v m) :
    e = (k, v) ∨ e ∈ m := by
  induction m with
  | nil => simpa [put] using h
  | cons x rest ih =>
    simp only [put] at h
    split at h
    · rename_i hk
      rcases List.mem_cons.mp h with rfl | h
      · exact .inl (by rw [hk])
      · exact .inr (by simp [h])
    · rcases List.mem_cons.mp h with rfl | h
      · exact .inr (by simp)
      · rcases ih h with h | h
        · exact .inl h
        · exact .inr (by simp [h])

theorem mem_put_of_mem {k : String} {v : α} {m : Entries α} {e : String × α} (h : e ∈ m)
    (hk : e.1 ≠ k) : e ∈ put k v m := by
  induction m with
  | nil => cases h
  | cons x rest ih =>
    simp only [put]
    split
    · rename_i hx
      rcases List.mem_cons.mp h with rfl | h
      · exact absurd hx hk
      · exact List.mem_cons_of_mem _ h
    · rcases List.mem_cons.mp h with rfl | h
      · exact List.mem_cons_self
      · exact List.mem_cons_of_mem _ (ih h)

theorem put_append_of_notMem {k : String} {v : α} {l m : Entries α} (h : k ∉ l.map (·.1)) :
    put k v (l ++ m) = l ++ put k v m := by
  induction l with
  | nil => rfl
  | cons x rest ih =>
    obtain ⟨hx, hrest⟩ := not_or.mp (mt List.mem_cons.mpr h)
    rw [List.cons_append, put, if_neg (Ne.symm hx), ih hrest, List.cons_append]

theorem keys_put (k : String) (v : α) (m : Entries α) :
    (put k v m).keys = if k ∈ m.keys then m.keys else m.keys ++ [k] := by
  induction m with
  | nil => simp [put, keys]
  | cons e rest ih =>
    simp only [put, keys, List.map_cons, List.mem_cons] at ih ⊢
    by_cases h : e.1 = k
    · simp [h]
    · rw [if_neg h, List.map_cons, ih]
      by_cases hk : k ∈ rest.map (·.1)
      · simp [hk]
      · simp [hk, Ne.symm h]

theorem nodup_put {k : String} (v : α) {m : Entries α} (h : m.keys.Nodup) :
    (put k v m).keys.Nodup := by
  rw [keys_put]
  split
  · exact h
  · rename_i hk
    exact List.nodup_append.mpr ⟨h, by simp, by simpa using fun x hx => by rintro rfl; exact hk hx⟩

theorem ofList_append (xs : List (String × α)) (k : String) (v : α) :
    ofList (xs ++ [(k, v)]) = put k v (ofList xs) := by
  simp [ofList]

theorem ofList_map (f : α → β) (xs : List (String × α)) :
    ofList (xs.map fun e => (e.1, f e.2)) = (ofList xs).map fun e => (e.1, f e.2) := by
  induction xs using List.reverseRecOn with
  | nil => rfl
  | append_singleton xs x ih =>
    obtain ⟨k, v⟩ := x
    rw [List.map_append, List.map_singleton, ofList_append, ih, ofList_append, put_map]

theorem mem_ofList {xs : List (String × α)} {e : String × α} :
    e ∈ ofList xs → e ∈ xs := by
  have hfold (m : Entries α) : e ∈ xs.foldl (fun acc x => put x.1 x.2 acc) m →
      e ∈ m ∨ e ∈ xs := by
    induction xs generalizing m with
    | nil => exact .inl
    | cons x rest ih =>
      intro h
      rcases ih _ h with h | h
      · rcases mem_put h with rfl | h
        · exact .inr (by simp)
        · exact .inl h
      · exact .inr (by simp [h])
  intro h
  rcases hfold [] h with h | h
  · cases h
  · exact h

theorem forall₂_put {R : α → β → Prop} {m : Entries α} {m' : Entries β}
    (h : List.Forall₂ (fun e e' => e.1 = e'.1 ∧ R e.2 e'.2) m m') {k : String} {v : α} {v' : β}
    (hv : R v v') :
    List.Forall₂ (fun e e' => e.1 = e'.1 ∧ R e.2 e'.2) (put k v m) (put k v' m') := by
  induction h with
  | nil => exact .cons ⟨rfl, hv⟩ .nil
  | cons he hm ih =>
    simp only [put, ← he.1]
    split
    · exact .cons ⟨rfl, hv⟩ hm
    · exact .cons ⟨rfl, he.2⟩ ih

end Entries

namespace Record

theorem data?_put_ne (r : Record) {k l : String} (x : Slot) (h : l ≠ k) :
    Record.data? (r.put k x) l = r.data? l := by
  simp [data?, Entries.lookup_put_ne _ _ h]

theorem data?_cons (key : String) (e : String × Slot) (r : Record) :
    Record.data? (e :: r) key
      = if key = e.1 then (match e.2 with | .data v => some v | _ => none) else r.data? key := by
  unfold data?
  rw [Entries.lookup_cons]
  by_cases h : key = e.1
  · rw [if_pos h, if_pos h]
    cases e.2 <;> rfl
  · rw [if_neg h, if_neg h]

theorem mem_of_data? {r : Record} {key : String} {v : Value} (h : r.data? key = some v) :
    (key, .data v) ∈ r := by
  unfold data? at h
  split at h
  · rename_i w hlookup
    cases h
    exact Entries.mem_of_lookup hlookup
  · cases h

theorem data?_of_mem {r : Record} {key : String} {v : Value} (hd : (r.map (·.1)).Nodup)
    (h : (key, Slot.data v) ∈ r) : r.data? key = some v := by
  rw [data?, Entries.lookup_of_mem hd h]

theorem putAll_append (r : Record) (xs ys : List (String × Value)) :
    r.putAll (xs ++ ys) = (r.putAll xs).putAll ys := by
  simp [putAll]

theorem lookup_putAll_of_notMem {r : Record} {xs : List (String × Value)} {key : String}
    (h : ∀ e ∈ xs, e.1 ≠ key) : (r.putAll xs).lookup key = r.lookup key := by
  induction xs generalizing r with
  | nil => rfl
  | cons x rest ih =>
    have hx : key ≠ x.1 := fun he => h x (by simp) he.symm
    calc (r.putAll (x :: rest)).lookup key
        = (Record.putAll (r.put x.1 (.data x.2)) rest).lookup key := rfl
      _ = List.lookup key (r.put x.1 (.data x.2)) := ih fun e he => h e (by simp [he])
      _ = r.lookup key := Entries.lookup_put_ne _ r hx

end Record

/-- Constraint items set keywords of the family only. -/
theorem Constraint.mem_keywords {family : List (Attribute × String)} {cs : List Constraint}
    {e : String × Value} (h : e ∈ cs.flatMap (Constraint.keywords family)) :
    ∃ x ∈ family, x.2 = e.1 := by
  obtain ⟨c, -, hc⟩ := List.mem_flatMap.mp h
  obtain ⟨x, hx, hv⟩ := List.mem_filterMap.mp hc
  obtain ⟨v, -, rfl⟩ := Option.map_eq_some_iff.mp hv
  exact ⟨x, hx, rfl⟩

/-- Constraints leave every keyword alone that is not of their family. -/
theorem Record.lookup_constrain_of_notMem {r : Record} {family : List (Attribute × String)}
    {key : String} (cs : List Constraint) (h : ∀ e ∈ family, e.2 ≠ key) :
    (r.constrain family cs).lookup key = r.lookup key := by
  refine Record.lookup_putAll_of_notMem fun e he => ?_
  obtain ⟨x, hx, hxe⟩ := Constraint.mem_keywords he
  exact hxe ▸ h x hx

/-- The keywords that an analysis adds to a record with a type. -/
def Analysis.additions (an : Analysis) (type : Option Value) : List (String × Value) :=
  an.description.toList.map (fun d => ("description", Value.text d)) ++
    an.default?.toList.map (fun v => ("default", v)) ++
    (if an.nullable then [("type", typeWithNull type)] else []) ++
    (if an.optional then [("optional", Value.bool true)] else [])

theorem Analysis.decorate_eq (an : Analysis) (r : Record) :
    an.decorate r = r.putAll (an.additions (r.data? "type")) := by
  unfold Analysis.decorate Analysis.additions
  cases an.description <;> cases an.default? <;> cases an.nullable <;> cases an.optional <;>
    simp [Record.putAll, Record.data?_put_ne]

theorem Analysis.mem_additions {an : Analysis} {type : Option Value} {e : String × Value}
    (h : e ∈ an.additions type) :
    (∃ d, an.description = some d ∧ e = ("description", .text d)) ∨
      (∃ v, an.default? = some v ∧ e = ("default", v)) ∨
      (an.nullable = true ∧ e = ("type", typeWithNull type)) ∨
      (an.optional = true ∧ e = ("optional", .bool true)) := by
  simp only [additions, List.mem_append, List.mem_map, Option.mem_toList] at h
  rcases h with ((⟨d, hd, rfl⟩ | ⟨v, hv, rfl⟩) | h) | h
  · exact .inl ⟨d, hd, rfl⟩
  · exact .inr (.inl ⟨v, hv, rfl⟩)
  · split at h
    · rename_i hn
      exact .inr (.inr (.inl ⟨hn, List.mem_singleton.mp h⟩))
    · cases h
  · split at h
    · rename_i ho
      exact .inr (.inr (.inr ⟨ho, List.mem_singleton.mp h⟩))
    · cases h

end ToolCatalog
