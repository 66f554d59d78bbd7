import ToolCatalog.Proofs.Bounds

/-!
What the declarations of a dictionary and its bases say about a key.

A class has the statements of its bases, one base after the other, and then its own. The last one
about a key gives the key its type. But a key counts as optional as soon as any of them leaves it
optional as it is written, and a later statement does not take that back.
-/
namespace ToolCatalog

/-- What a declaration says of a key: the type as it is written, and whether the declared class is
total. -/
structure KeyStatement where
  key : String
  type : TypeExpr
  total : Bool

namespace KeyStatement

/-- Whether the key is optional by this statement, as far as its type says so without looking up
names. -/
def optional (e : KeyStatement) : Bool :=
  !((Reading.writtenRequired? e.type).getD e.total)

/-- No statement about a key leaves it optional as it is written. -/
def Firm (n : String) (statements : List KeyStatement) : Prop :=
  ∀ e ∈ statements, e.key = n → e.optional = false

/-- The last statement about a key. -/
def latest? (n : String) (statements : List KeyStatement) : Option KeyStatement :=
  (statements.filter (·.key = n)).getLast?

theorem mem_of_latest? {n : String} {statements : List KeyStatement} {e : KeyStatement}
    (h : latest? n statements = some e) : e ∈ statements ∧ e.key = n := by
  simpa using List.mem_of_getLast? h

theorem latest?_append (n : String) (xs ys : List KeyStatement) :
    latest? n (xs ++ ys) = (latest? n ys).or (latest? n xs) := by
  rw [latest?, List.filter_append, List.getLast?_append]
  rfl

theorem latest?_flatMap {α : Type} (n : String) (f : α → List KeyStatement) (l : List α) :
    latest? n (l.flatMap f) = l.reverse.findSome? fun a => latest? n (f a) := by
  rw [latest?, List.filter_flatMap, List.getLast?_flatMap]
  rfl

/-- What the statements of one class say last about a key is what its entries hold. -/
theorem latest?_own (n : String) (total : Bool) (keys : Entries TypeExpr) :
    (latest? n (keys.map fun e => ⟨e.1, e.2, total⟩)).map (·.type)
      = (Entries.ofList keys).lookup n := by
  induction keys using List.reverseRecOn with
  | nil => rfl
  | append_singleton keys e ih =>
    rw [List.map_append, latest?_append, Option.map_or, ih, Entries.lookup_ofList_append]
    congr 1
    by_cases hn : e.1 = n
    · simp [latest?, Entries.ofList, Entries.put, hn]
    · simp [latest?, Entries.ofList, Entries.put, Entries.lookup_cons, hn, Ne.symm hn]

end KeyStatement

/-! ## Readings -/

namespace Reading

/-- What has been read after some declarations, and the supply that is left. -/
def after (ds : List Declaration) : Reading × Supply :=
  (ds.foldlM Reading.read ⟨[], []⟩).run .empty

theorem after_append (ds : List Declaration) (d : Declaration) :
    after (ds ++ [d]) = ((after ds).1.read d).run (after ds).2 := by
  rw [after, List.foldlM_append]
  simp only [List.foldlM_cons, List.foldlM_nil, bind_pure]
  rfl

/-- The types of a dictionary's own keys as they are made when it is read after some declarations.
A key that is written twice has the later type. -/
def ownKeys (before : List Declaration) (keys : List (String × Written)) : Entries TypeExpr :=
  let (r, s) := after before
  Entries.ofList
    ((keys.mapM fun (n, w) => do return (n, (← w.make r.scope).asType) : Making _).run s).1

/-- The dictionaries that stand under these names when some declarations have been read. -/
def basesAfter (before : List Declaration) (bases : List String) : List Keyed :=
  bases.filterMap (after before).1.keyed?

/-- The dictionary that a declaration adds to what is read. -/
theorem after_keyed (before : List Declaration) (name : String) (bases : List String)
    (doc : Option String) (total : Bool) (keys : List (String × Written)) :
    (after (before ++ [.keyed name bases doc total keys])).1.drafts
      = (after before).1.drafts ++ [.keyed
        { name, doc
          keys := Entries.ofList ((basesAfter before bases).flatMap (·.keys) ++ ownKeys before keys)
          optionalKeys := (basesAfter before bases).flatMap (·.optionalKeys) ++
            ((ownKeys before keys).filter fun (_, t) => !((writtenRequired? t).getD total)).map
              (·.1) }] := by
  rw [after_append]
  rfl

/-- A declaration of anything but a dictionary adds no dictionary. -/
theorem keyed_of_mem_after {before : List Declaration} {d : Declaration}
    (hd : ∀ name bases doc total keys, d ≠ .keyed name bases doc total keys) {k : Keyed}
    (hk : .keyed k ∈ (after (before ++ [d])).1.drafts) : .keyed k ∈ (after before).1.drafts := by
  rw [after_append] at hk
  cases d with
  | keyed name bases doc total keys => exact absurd rfl (hd name bases doc total keys)
  | shorthand name w => exact hk
  | _ =>
    rcases List.mem_append.mp hk with hk | hk
    · exact hk
    · cases List.mem_singleton.mp hk

end Reading

/-- A dictionary with the statements about its keys: those of its bases in order, then its own. -/
inductive Source.Lineage (source : Source) : Keyed → List KeyStatement → Prop
  | intro {before : List Declaration} {name : String} {bases : List String} {doc : Option String}
      {total : Bool} {keys : List (String × Written)} {k : Keyed}
      {lines : Keyed → List KeyStatement}
      (hdeclared : before ++ [.keyed name bases doc total keys] <+: source.declarations)
      (hread : (Reading.after (before ++ [.keyed name bases doc total keys])).1.drafts.getLast?
        = some (.keyed k))
      (hbases : ∀ b ∈ Reading.basesAfter before bases, Lineage source b (lines b)) :
      Lineage source k ((Reading.basesAfter before bases).flatMap lines ++
        (Reading.ownKeys before keys).map fun e => ⟨e.1, e.2, total⟩)

namespace Source.Lineage

variable {source : Source} {k : Keyed} {statements : List KeyStatement} {n : String}

/-- Every dictionary that is read has its statements. -/
theorem of_mem {ds : List Declaration} (hds : ds <+: source.declarations)
    (hk : .keyed k ∈ (Reading.after ds).1.drafts) : ∃ statements, source.Lineage k statements := by
  induction ds using List.reverseRecOn generalizing k with
  | nil => cases hk
  | append_singleton ds d ih =>
    have hearlier {k : Keyed} (hk : .keyed k ∈ (Reading.after ds).1.drafts) :
        ∃ statements, source.Lineage k statements :=
      ih ((List.prefix_append ds [d]).trans hds) hk
    cases d with
    | keyed name bases doc total keys =>
      have hread := Reading.after_keyed ds name bases doc total keys
      rw [hread] at hk
      rcases List.mem_append.mp hk with hk | hk
      · exact hearlier hk
      · have hbases : ∀ b ∈ Reading.basesAfter ds bases, ∃ line, source.Lineage b line := by
          intro b hb
          obtain ⟨name, -, hname⟩ := List.mem_filterMap.mp hb
          exact hearlier (Reading.mem_of_keyed? hname)
        choose! lines hlines using hbases
        refine ⟨_, .intro hds ?_ hlines⟩
        rw [hread, List.getLast?_concat, List.mem_singleton.mp hk]
    | _ => exact hearlier (Reading.keyed_of_mem_after (by simp) hk)

/-- A key has the type of the last statement about it. -/
theorem lookup_keys (h : source.Lineage k statements) :
    (k.keys.map (·.1)).Nodup ∧
      ∀ n, k.keys.lookup n = (KeyStatement.latest? n statements).map (·.type) := by
  induction h with
  | @intro before name bases doc total keys k lines _ hread _ ih =>
    rw [Reading.after_keyed, List.getLast?_concat] at hread
    cases hread
    refine ⟨Entries.nodup_ofList _, fun n => ?_⟩
    have hinherited : (Entries.ofList
          ((Reading.basesAfter before bases).flatMap (·.keys))).lookup n
        = (KeyStatement.latest? n ((Reading.basesAfter before bases).flatMap lines)).map
          (·.type) := by
      rw [Entries.lookup_ofList_flatMap, KeyStatement.latest?_flatMap, List.map_findSome?,
        ← List.head?_filterMap, ← List.head?_filterMap]
      refine congrArg List.head? (List.filterMap_congr fun b hb => ?_)
      obtain ⟨hnodup, hlookup⟩ := ih b (List.mem_reverse.mp hb)
      rw [Entries.ofList_of_nodup _ hnodup, hlookup]
      rfl
    rw [KeyStatement.latest?_append, Option.map_or, KeyStatement.latest?_own, ← hinherited,
      ← Entries.lookup_ofList_append]

/-- A key counts as optional exactly if some statement about it leaves it optional. -/
theorem mem_optionalKeys (h : source.Lineage k statements) (n : String) :
    n ∈ k.optionalKeys ↔ ∃ e ∈ statements, e.key = n ∧ e.optional = true := by
  induction h with
  | @intro before name bases doc total keys k lines _ hread _ ih =>
    rw [Reading.after_keyed, List.getLast?_concat] at hread
    cases hread
    have hinherited : n ∈ (Reading.basesAfter before bases).flatMap (·.optionalKeys) ↔
        ∃ e ∈ (Reading.basesAfter before bases).flatMap lines, e.key = n ∧ e.optional = true := by
      simp only [List.mem_flatMap]
      constructor
      · rintro ⟨b, hb, hn⟩
        obtain ⟨e, he, hopt⟩ := (ih b hb).mp hn
        exact ⟨e, ⟨b, hb, he⟩, hopt⟩
      · rintro ⟨e, ⟨b, hb, he⟩, hopt⟩
        exact ⟨b, hb, (ih b hb).mpr ⟨e, he, hopt⟩⟩
    rw [List.mem_append, hinherited]
    simp only [List.mem_append, or_and_right, exists_or]
    refine or_congr_right ?_
    simp [KeyStatement.optional]

/-- A key does not count as optional exactly if all statements about it are firm. -/
theorem not_optional_iff (h : source.Lineage k statements) (n : String) :
    k.optionalKeys.contains n = false ↔ KeyStatement.Firm n statements := by
  rw [← Bool.not_eq_true, List.contains_iff_mem, h.mem_optionalKeys, KeyStatement.Firm]
  simp

-- A key that a base leaves optional counts as optional where it is declared again as required.
example : ((Reading.after [
    .keyed "Base" [] none false [("id", .atom (.builtin .integer))],
    .keyed "Derived" ["Base"] none true
      [("id", .required (.atom (.builtin .integer)))]]).1.keyed? "Derived").map (·.optionalKeys)
    = some ["id"] := by
  rfl

end Source.Lineage

end ToolCatalog
