import ToolCatalog.Proofs.Merging

/-!
What a finished descriptor holds under each keyword.

Of several constraint items that set one attribute the last one counts, so the keyword of an
attribute holds what `Constraint.lastSet` finds. Layers write their own keywords over those of the
base and leave the others alone.
-/
namespace ToolCatalog

section

variable {α β : Type}

/-- Entries of which at most one brings anything bring the same in every order. -/
theorem flatMap_eq_of_perm {f : α → List β} {l l' : List α} (h : l.Perm l')
    (hone : l.countP (fun x => !(f x).isEmpty) ≤ 1) : l.flatMap f = l'.flatMap f := by
  induction h with
  | nil => rfl
  | cons x _ ih =>
    rw [List.countP_cons] at hone
    rw [List.flatMap_cons, List.flatMap_cons, ih (by omega)]
  | swap x y l =>
    -- One of the two brings nothing.
    rw [List.countP_cons, List.countP_cons] at hone
    have : f x = [] ∨ f y = [] := by
      by_contra hne
      obtain ⟨hx, hy⟩ := not_or.mp hne
      simp [hx, hy] at hone
    rcases this with h | h <;> simp [h]
  | trans hl _ ih ih' =>
    rw [ih hone, ih' (hl.countP_eq _ ▸ hone)]

/-- The first that is found is found in every order, where at most one can be. -/
theorem findSome?_eq_of_perm {f : α → Option β} {l l' : List α} (h : l.Perm l')
    (hone : l.countP (fun x => (f x).isSome) ≤ 1) : l.findSome? f = l'.findSome? f := by
  have hflat := flatMap_eq_of_perm (f := fun x => (f x).toList) h (by
    refine (List.countP_congr fun x _ => ?_).trans_le hone
    cases f x <;> rfl)
  rw [← List.head?_filterMap, ← List.head?_filterMap, List.filterMap_eq_flatMap_toList,
    List.filterMap_eq_flatMap_toList, hflat]

end

/-! ## The bound that counts -/

/-- A value as an attribute's keyword shows it. -/
def Attribute.written (a : Attribute) (v : Value) : Value :=
  if a = .pattern then v.asBound else v

namespace Constraint

variable {a : Attribute} {cs ds : List Constraint}

/-- The value that counts for an attribute, which is the last one set. -/
def lastSet (a : Attribute) (cs : List Constraint) : Option Value :=
  (cs.filterMap (·.attribute? a)).getLast?

theorem lastSet_append : lastSet a (cs ++ ds) = (lastSet a ds).or (lastSet a cs) := by
  rw [lastSet, List.filterMap_append, List.getLast?_append]
  rfl

theorem lastSet_flatMap_of_perm {α : Type} {f : α → List Constraint} {l l' : List α}
    (h : l.Perm l') (hone : l.countP (fun x => (lastSet a (f x)).isSome) ≤ 1) :
    lastSet a (l.flatMap f) = lastSet a (l'.flatMap f) := by
  have hsets : l.countP (fun x => !((f x).filterMap (·.attribute? a)).isEmpty) ≤ 1 := by
    refine (List.countP_congr fun x _ => ?_).trans_le hone
    rw [lastSet]
    cases (f x).filterMap (·.attribute? a) <;> simp
  rw [lastSet, lastSet, List.filterMap_flatMap, List.filterMap_flatMap,
    flatMap_eq_of_perm h hsets]

/-- What one item writes under the keyword of an attribute. -/
theorem keywords_at {family : List (Attribute × String)} (hkeys : (family.map (·.2)).Nodup)
    {k : String} (hk : (a, k) ∈ family) (c : Constraint) :
    (c.keywords family).filterMap (fun e => if e.1 = k then some e.2 else none)
      = ((c.attribute? a).map a.written).toList := by
  have hcons (x : Attribute × String) (rest : List (Attribute × String)) :
      c.keywords (x :: rest)
        = ((c.attribute? x.1).map fun v => (x.2, x.1.written v)).toList ++ c.keywords rest := by
    simp only [keywords, List.filterMap_cons]
    cases c.attribute? x.1 <;> rfl
  induction family with
  | nil => cases hk
  | cons x rest ih =>
    obtain ⟨hnot, hrest⟩ := List.nodup_cons.mp hkeys
    rw [hcons, List.filterMap_append]
    rcases List.mem_cons.mp hk with rfl | hk
    · have hothers : (c.keywords rest).filterMap (fun e => if e.1 = k then some e.2 else none)
          = [] := by
        refine List.filterMap_eq_nil_iff.mpr fun e he => if_neg fun hek => hnot ?_
        have hmem : e ∈ [c].flatMap (keywords rest) := by simpa using he
        obtain ⟨y, hy, hye⟩ := mem_keywords hmem
        exact List.mem_map.mpr ⟨y, hy, hye.trans hek⟩
      rw [hothers, List.append_nil]
      cases c.attribute? a <;> simp
    · have hne : x.2 ≠ k := by
        intro he
        exact hnot (List.mem_map.mpr ⟨(a, k), hk, he.symm⟩)
      rw [ih hrest hk]
      cases c.attribute? x.1 <;> simp [hne]

end Constraint

namespace Entries

variable {α : Type}

theorem lookup_ofList (xs : List (String × α)) (k : String) :
    (ofList xs).lookup k
      = (xs.filterMap fun e => if e.1 = k then some e.2 else none).getLast? := by
  induction xs using List.reverseRecOn with
  | nil => rfl
  | append_singleton xs x ih =>
    rw [ofList_append, List.filterMap_append, List.getLast?_append, ← ih]
    by_cases hk : x.1 = k
    · simp [hk, lookup_put_self]
    · simp [hk, lookup_put_ne _ _ (Ne.symm hk)]

theorem lookup_ofList_append (xs ys : List (String × α)) (k : String) :
    (ofList (xs ++ ys)).lookup k = ((ofList ys).lookup k).or ((ofList xs).lookup k) := by
  rw [lookup_ofList, List.filterMap_append, List.getLast?_append, ← lookup_ofList, ← lookup_ofList]

theorem lookup_ofList_flatMap {β : Type} (f : β → List (String × α)) (l : List β) (k : String) :
    (ofList (l.flatMap f)).lookup k = l.reverse.findSome? fun b => (ofList (f b)).lookup k := by
  rw [lookup_ofList, List.filterMap_flatMap, List.getLast?_flatMap]
  simp only [lookup_ofList]

end Entries

namespace Record

theorem lookup_putAll (r : Record) (xs : List (String × Value)) (k : String) :
    (r.putAll xs).lookup k = (((Entries.ofList xs).lookup k).map .data).or (r.lookup k) := by
  induction xs using List.reverseRecOn with
  | nil => rfl
  | append_singleton xs x ih =>
    have hlast : r.putAll (xs ++ [x]) = Entries.put x.1 (.data x.2) (r.putAll xs) :=
      r.putAll_append xs [x]
    rw [hlast, Entries.ofList_append]
    by_cases hk : k = x.1
    · rw [hk, Entries.lookup_put_self, Entries.lookup_put_self]
      rfl
    · rw [Entries.lookup_put_ne _ _ hk, Entries.lookup_put_ne _ _ hk, ih]

/-- The keyword of an attribute holds the value that counts. -/
theorem lookup_constrain {family : List (Attribute × String)} (hkeys : (family.map (·.2)).Nodup)
    {a : Attribute} {k : String} (hk : (a, k) ∈ family) (r : Record) (cs : List Constraint) :
    (r.constrain family cs).lookup k
      = ((Constraint.lastSet a cs).map fun v => .data (a.written v)).or (r.lookup k) := by
  rw [constrain, lookup_putAll, Entries.lookup_ofList, List.filterMap_flatMap]
  simp only [Constraint.keywords_at hkeys hk, ← List.filterMap_eq_flatMap_toList]
  rw [← List.map_filterMap, List.getLast?_map, Option.map_map]
  rfl

end Record

/-! ## Bases and layers -/

/-- The keywords for what constraint items set. -/
def boundKeywords : List String :=
  (textKeywords ++ numberKeywords ++ arrayKeywords).map (·.2)

theorem boundKeywords_eq : boundKeywords =
    ["minLength", "maxLength", "pattern", "minimum", "exclusiveMinimum", "maximum",
      "exclusiveMaximum", "minItems", "maxItems"] :=
  rfl

theorem notMem_layerKeywords {k : String} (h : k ∈ boundKeywords) : k ∉ layerKeywords := by
  revert k
  decide

theorem Record.lookup_of_other {r : Record} (h : ∀ e ∈ r, e.1 ∉ boundKeywords) {k : String}
    (hk : k ∈ boundKeywords) : r.lookup k = none := by
  refine List.lookup_eq_none_iff.mpr fun e he => ?_
  simpa using fun hek : k = e.1 => h e he (hek ▸ hk)

namespace Base

variable {b : Base} {cs cs' : List Constraint} {p : Address} {r r' : Record} {a : Attribute}
  {k : String}

theorem nodup_family (b : Base) : (b.family.map (·.2)).Nodup := by
  cases b <;> simp [family, textKeywords, numberKeywords, arrayKeywords]

theorem mem_boundKeywords (hk : (a, k) ∈ b.family) : k ∈ boundKeywords := by
  have hall : (a, k) ∈ textKeywords ++ numberKeywords ++ arrayKeywords := by
    cases b <;> simp_all [family]
  exact List.mem_map_of_mem hall

theorem family_disjoint (hk : (a, k) ∈ b.family) : k ∉ layerKeywords :=
  notMem_layerKeywords (mem_boundKeywords hk)

/-- Constraints are written over the record that a base has without any. -/
theorem recordOf_eq (b : Base) (cs : List Constraint) (p : Address) :
    b.recordOf cs p = (b.recordOf [] p).map (·.constrain b.family cs) := by
  have hnone (r : Record) : r.constrain [] cs = r := by
    have hflat : cs.flatMap (Constraint.keywords []) = [] :=
      List.flatMap_eq_nil_iff.mpr fun _ _ => rfl
    rw [Record.constrain, hflat]
    rfl
  cases b with
  | string f => cases f <;> rfl
  | number | array => rfl
  | enumeration ms =>
    simp only [recordOf, family, hnone]
    cases membersData ms <;> rfl
  | literal m =>
    simp only [recordOf, family, hnone]
    cases membersData [m] <;> rfl
  | _ => simp [recordOf, family, hnone, Except.map]

theorem exists_free (h : b.recordOf cs p = .ok r) :
    ∃ start, b.recordOf [] p = .ok start ∧ r = start.constrain b.family cs := by
  rw [recordOf_eq] at h
  cases hfree : b.recordOf [] p with
  | error f =>
    rw [hfree] at h
    cases h
  | ok start =>
    rw [hfree] at h
    exact ⟨start, rfl, (Except.ok.inj h).symm⟩

/-- What a base has without constraints is none of the keywords that they give. -/
theorem lookup_free (h : b.recordOf [] p = .ok r) (hk : k ∈ boundKeywords) : r.lookup k = none := by
  refine Record.lookup_of_other ?_ hk
  cases b with
  | string f =>
    cases f <;> cases h <;> simp [Record.constrain, Record.putAll, Record.ofType, boundKeywords_eq]
  | enumeration ms =>
    obtain ⟨data, -, rfl⟩ := Base.recordOf_enumeration h
    unfold enumerationRecord
    cases commonType? (data.map Value.jsonType?) <;> simp [Record.ofType, boundKeywords_eq]
  | literal m =>
    obtain ⟨v, -, rfl⟩ := Base.recordOf_literal h
    unfold constantRecord
    cases v.jsonType? <;> simp [Record.ofType, boundKeywords_eq]
  | _ =>
    cases h
    simp [Record.constrain, Record.putAll, Record.ofType, boundKeywords_eq]

/-- The keyword of an attribute holds the value that counts. -/
theorem lookup_bound (h : b.recordOf cs p = .ok r) (hk : (a, k) ∈ b.family) :
    r.lookup k = (Constraint.lastSet a cs).map fun v => .data (a.written v) := by
  obtain ⟨start, hstart, rfl⟩ := exists_free h
  rw [Record.lookup_constrain b.nodup_family hk, lookup_free hstart (mem_boundKeywords hk),
    Option.or_none]

/-- The other keywords do not depend on the constraints. -/
theorem lookup_unbound (h : b.recordOf cs p = .ok r) (h' : b.recordOf cs' p = .ok r')
    (hk : ∀ a, (a, k) ∉ b.family) : r.lookup k = r'.lookup k := by
  obtain ⟨start, hstart, rfl⟩ := exists_free h
  obtain ⟨start', hstart', rfl⟩ := exists_free h'
  obtain rfl : start = start' := Except.ok.inj (hstart.symm.trans hstart')
  have hnot : ∀ x ∈ b.family, x.2 ≠ k := fun x hx he => hk x.1 (he ▸ hx)
  rw [Record.lookup_constrain_of_notMem _ hnot, Record.lookup_constrain_of_notMem _ hnot]

end Base

namespace Analysis

variable (an : Analysis) (r : Record)

theorem finish_of_adds (h : an.adds r = false) : an.finish r = r := by
  simp [finish, h]

theorem lookup_finish {k : String} (hk : k ∉ layerKeywords) :
    (an.finish r).lookup k = r.lookup k := by
  unfold finish
  split
  · rw [an.decorate_eq]
    exact Record.lookup_putAll_of_notMem fun e he heq => hk (heq ▸ additions_key he)
  · rfl

theorem lookup_finish_default : (an.finish r).lookup "default"
    = (an.default?.map .data).or (r.lookup "default") := by
  cases h : an.adds r with
  | false =>
    have hd : an.default? = none := by
      simp only [adds, Bool.or_eq_false_iff, Option.isSome_eq_false_iff, Option.isNone_iff_eq_none]
        at h
      simp [default?, h.1.2]
    rw [an.finish_of_adds r h, hd]
    rfl
  | true =>
    simp only [finish, h, if_true, decorate]
    cases an.description <;> cases an.default? <;> cases an.nullable <;> cases an.optional <;>
      simp [Entries.lookup_put_self, Entries.lookup_put_ne]

theorem lookup_finish_optional : (an.finish r).lookup "optional"
    = if an.optional then some (.data (.bool true)) else r.lookup "optional" := by
  cases h : an.adds r with
  | false =>
    simp only [adds, Bool.or_eq_false_iff] at h
    rw [an.finish_of_adds r (by simp [adds, h]), h.1.1.1]
    rfl
  | true =>
    rw [finish, if_pos h, an.decorate_optional]

theorem lookup_finish_type : (an.finish r).lookup "type"
    = if an.nullable then some (.data (typeWithNull (r.data? "type"))) else r.lookup "type" := by
  cases h : an.adds r with
  | false =>
    simp only [adds, Bool.or_eq_false_iff] at h
    rw [an.finish_of_adds r (by simp [adds, h]), h.1.1.2]
    rfl
  | true =>
    simp only [finish, h, if_true, decorate]
    cases an.description <;> cases an.default? <;> cases an.nullable <;> cases an.optional <;>
      simp [Entries.lookup_put_self, Entries.lookup_put_ne, Record.data?_put_ne]

end Analysis

end ToolCatalog
