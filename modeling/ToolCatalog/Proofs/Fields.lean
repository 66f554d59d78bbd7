import Mathlib.Data.List.Induction
import ToolCatalog.Proofs.Programs

/-!
The fields of a class as they are declared.

While declarations are read, the fields of a class stand under distinct names. The finished class
lists them in the same order: the fields of a model under their aliases where they have one, the
keys of a keyed dictionary as they are. So two fields can get one key only in a model.
-/
namespace ToolCatalog

/-- Whatever was given out before, the result of a step has a property. -/
def Yields {α : Type} (m : Making α) (P : α → Prop) : Prop :=
  ∀ s : Supply, P (m.run s).1

namespace Yields

variable {α β : Type} {m : Making α} {P : α → Prop} {Q : β → Prop}

theorem pure {a : α} (h : P a) : Yields (pure a) P :=
  fun _ => h

theorem bind {f : α → Making β} (hm : Yields m P) (hf : ∀ a, P a → Yields (f a) Q) :
    Yields (m >>= f) Q :=
  fun s => hf _ (hm s) (m.run s).2

theorem any (m : Making α) : Yields m fun _ => True :=
  fun _ => trivial

theorem mapM {f : α → Making β} {R : α → β → Prop} (h : ∀ a, Yields (f a) (R a)) (l : List α) :
    Yields (l.mapM f) (List.Forall₂ R l) := by
  induction l with
  | nil => exact pure .nil
  | cons a rest ih =>
    rw [List.mapM_cons]
    exact (h a).bind fun b hb => ih.bind fun bs hbs => pure (.cons hb hbs)

theorem foldlM {f : β → α → Making β} (h : ∀ b a, Q b → Yields (f b a) Q) (l : List α) {b : β}
    (hb : Q b) : Yields (l.foldlM f b) Q := by
  induction l generalizing b with
  | nil => exact pure hb
  | cons a rest ih =>
    rw [List.foldlM_cons]
    exact (h b a hb).bind fun b' hb' => ih hb'

end Yields

/-! ## Names in drafts -/

/-- The names of the fields of a class that is being read. -/
def Draft.names : Draft → List String
  | .model m => m.fields.map (·.1)
  | .keyed k => k.keys.map (·.1)
  | .finished _ _ => []

/-- The fields of a class that is being read have distinct names, and no class with fields is
finished yet. -/
def Draft.Distinct (d : Draft) : Prop :=
  d.names.Nodup ∧ ∀ name c, d ≠ .finished name (.object c)

theorem Entries.nodup_ofList {α : Type} (xs : List (String × α)) :
    (Entries.ofList xs).keys.Nodup := by
  induction xs using List.reverseRecOn with
  | nil => exact .nil
  | append_singleton xs x ih =>
    obtain ⟨k, v⟩ := x
    rw [Entries.ofList_append]
    exact Entries.nodup_put v ih

namespace Reading

theorem fieldNames_nodup (r : Reading) (ancestry own : List String) :
    (r.fieldNames ancestry own).Nodup := by
  have hfold (names kept : List String) (h : kept.Nodup) :
      (names.foldl (fun kept n => if kept.contains n then kept else kept ++ [n]) kept).Nodup := by
    induction names generalizing kept with
    | nil => exact h
    | cons n rest ih =>
      refine ih _ ?_
      dsimp only
      split
      · exact h
      · rename_i hn
        refine List.nodup_append.mpr ⟨h, by simp, fun a ha b hb hab => hn ?_⟩
        rw [List.mem_singleton.mp hb] at hab
        simpa [← hab] using ha
  exact hfold _ [] .nil

/-- All classes read so far have distinct names for their fields. -/
def Distinct (r : Reading) : Prop :=
  ∀ d ∈ r.drafts, d.Distinct

theorem Distinct.append {r : Reading} (h : r.Distinct) {d : Draft} (hd : d.Distinct)
    (scope : Scope) : Distinct ⟨scope, r.drafts ++ [d]⟩ := by
  intro d' hd'
  rcases List.mem_append.mp hd' with hd' | hd'
  · exact h d' hd'
  · rwa [List.mem_singleton.mp hd']

/-- Names that are kept with what is found under them are some of the names, in their order. -/
theorem names_sublist {α : Type} (find : String → Option α) (names : List String) :
    ((names.filterMap fun n => (find n).map fun f => (n, f)).map (·.1)).Sublist names := by
  induction names with
  | nil => exact .slnil
  | cons n rest ih =>
    cases hf : find n with
    | none => simpa [List.filterMap_cons, hf] using ih.cons n
    | some f => simpa [List.filterMap_cons, hf] using ih.cons_cons n

theorem read_distinct {r : Reading} (h : r.Distinct) (d : Declaration) :
    Yields (r.read d) Distinct := by
  cases d with
  | model name bases doc fields =>
    refine (Yields.any _).bind fun own _ => .pure (h.append ?_ _)
    exact ⟨(names_sublist _ _).nodup (r.fieldNames_nodup _ _), nofun⟩
  | keyed name bases doc total keys =>
    refine (Yields.any _).bind fun own _ => .pure (h.append ?_ _)
    exact ⟨Entries.nodup_ofList _, nofun⟩
  | enumeration e =>
    have hd : (Draft.finished e.name (.enumeration e)).Distinct := ⟨.nil, by simp⟩
    exact .pure (h.append hd _)
  | derived name base =>
    have hd : (Draft.finished name (.derived base)).Distinct := ⟨.nil, by simp⟩
    exact .pure (h.append hd _)
  | shorthand name w => exact (Yields.any _).bind fun t _ => .pure h

end Reading

/-! ## Finished classes -/

/-- The class that becomes of a draft lists the draft's fields in order, each under its key. -/
def Draft.Lists (d : Draft) (name : String) (c : ObjectClass) : Prop :=
  match d with
  | .model m => m.name = name ∧
    List.Forall₂ (fun n f => ∃ id spec t, f = (FieldSpec.key spec n, .field id spec t))
      d.names c.fields
  | .keyed k => k.name = name ∧ c.fields.map (·.1) = d.names
  | .finished _ _ => False

theorem Model.finish_yields (scope : Scope) (m : Model) :
    Yields (m.finish scope) fun c => Draft.Lists (.model m) m.name c := by
  unfold Model.finish
  refine (Yields.mapM (R := fun f f' => f.1 = f'.1) (fun f => ?_) m.fields).bind
    fun retried hretried => ?_
  · dsimp only
    split
    · exact .pure rfl
    · exact (Yields.any _).bind fun _ _ => .pure rfl
  have hnames : m.fields.map (·.1)
      = (if retried.all (·.2.resolved) then retried else m.fields).map (·.1) := by
    split
    · exact map_eq_of_forall₂ hretried
    · rfl
  refine (Yields.mapM (R := fun f e => ∃ id, e = (f.2.spec.key f.1, .field id f.2.spec f.2.type))
    (fun f => ?_) _).bind fun fields hfields => .pure ⟨rfl, ?_⟩
  · exact (Yields.any _).bind fun id _ => .pure ⟨id, rfl⟩
  · rw [Draft.names, hnames, List.forall₂_map_left_iff]
    exact hfields.imp fun f e ⟨id, he⟩ => ⟨id, _, _, he⟩

theorem Yields.bind_ok {α β : Type} {m : Resolving α} {f : α → Resolving β} {P : α → Prop}
    {Q : β → Prop} (hm : Yields m.run fun r => ∀ a, r = .ok a → P a)
    (hf : ∀ a, P a → Yields (f a).run fun r => ∀ b, r = .ok b → Q b) :
    Yields (m >>= f).run fun r => ∀ b, r = .ok b → Q b := by
  rw [ExceptT.run_bind]
  refine hm.bind fun r hr => ?_
  cases r with
  | ok a => exact hf a (hr a rfl)
  | error name => exact .pure nofun

theorem Yields.mapM_ok {α β : Type} {f : α → Resolving β} {R : α → β → Prop}
    (h : ∀ a, Yields (f a).run fun r => ∀ b, r = .ok b → R a b) (l : List α) :
    Yields (l.mapM f).run fun r => ∀ bs, r = .ok bs → List.Forall₂ R l bs := by
  induction l with
  | nil => exact .pure fun bs hbs => by cases hbs; exact .nil
  | cons a rest ih =>
    rw [List.mapM_cons]
    refine Yields.bind_ok (h a) fun b hb => Yields.bind_ok ih fun bs hbs => .pure fun l hl => ?_
    cases hl
    exact .cons hb hbs

/-- Resolving the types of keys leaves the keys alone. -/
theorem resolveKeys_yields (scope : Scope) (keys : List (String × TypeExpr)) :
    Yields (keys.mapM fun (n, t) => do return (n, ← TypeExpr.resolve scope t) :
        Resolving (List (String × TypeExpr))).run fun r => ∀ types, r = .ok types →
      List.Forall₂ (fun e f => e.1 = f.1) keys types :=
  Yields.mapM_ok (fun _ => Yields.bind_ok (P := fun _ => True) (fun _ _ _ => trivial)
    fun _ _ => .pure fun f hf => by cases hf; rfl) keys

/-- Layers for optional keys leave the keys alone. -/
theorem Keyed.settle_yields (k : Keyed) {types : List (String × TypeExpr)}
    (ht : k.keys.map (·.1) = types.map (·.1)) (unknownName : Option String) :
    Yields (k.settle types unknownName) fun c => Draft.Lists (.keyed k) k.name c := by
  refine (Yields.mapM (R := fun f f' => f.1 = f'.1) (fun f => ?_) types).bind
    fun fields hfields => .pure ⟨rfl, ?_⟩
  · unfold Keyed.layer
    split
    · exact .pure rfl
    · split
      · exact (Yields.any _).bind fun _ _ => .pure rfl
      · exact .pure rfl
  · exact (ht.trans (map_eq_of_forall₂ hfields)).symm

theorem Keyed.finish_yields (scope : Scope) (k : Keyed) :
    Yields (k.finish scope) fun c => Draft.Lists (.keyed k) k.name c := by
  rw [k.finish_eq]
  refine (resolveKeys_yields scope k.keys).bind fun r hr => ?_
  cases r with
  | ok types =>
    exact k.settle_yields (map_eq_of_forall₂ (hr types rfl)) none
  | error name => exact k.settle_yields rfl (some name)

theorem Draft.finish_yields (scope : Scope) (d : Draft) :
    Yields (d.finish scope) fun e => ∀ c, e.2 = .object c → (∀ n, d ≠ .finished n (.object c)) →
      d.Lists e.1 c := by
  cases d with
  | model m =>
    exact (m.finish_yields scope).bind fun c hc => .pure fun c' he _ => by cases he; exact hc
  | keyed k =>
    exact (k.finish_yields scope).bind fun c hc => .pure fun c' he _ => by cases he; exact hc
  | finished name body => exact .pure fun c he hn => absurd (by rw [← he]) (hn name)

/-! ## Sources -/

/-- What has been read of a source before its classes are finished. -/
def Source.reading (source : Source) : Reading :=
  ((source.declarations.foldlM Reading.read ⟨[], []⟩).run .empty).1

theorem Source.classes_reverse (source : Source) : source.definitions.classes.reverse
    = ((source.reading.drafts.mapM (Draft.finish source.reading.scope)).run
        ((source.declarations.foldlM Reading.read ⟨[], []⟩).run .empty).2).1 :=
  List.reverse_reverse _

theorem Source.reading_distinct (source : Source) : source.reading.Distinct :=
  Yields.foldlM (fun _ d hr => Reading.read_distinct hr d) source.declarations
    (by simp [Reading.Distinct]) .empty

/-- The classes of a source come of its drafts, each with the fields of its draft. -/
theorem Source.classes_lists (source : Source) :
    List.Forall₂ (fun d (e : String × ClassBody) => ∀ c, e.2 = .object c →
      (∀ n, d ≠ .finished n (.object c)) → d.Lists e.1 c) source.reading.drafts
      source.definitions.classes.reverse := by
  have hmap := Yields.mapM (fun d => Draft.finish_yields source.reading.scope d)
    source.reading.drafts ((source.declarations.foldlM Reading.read ⟨[], []⟩).run .empty).2
  rw [source.classes_reverse]
  exact hmap

/-- Every object class of a source lists the fields that a declaration gives it, whose names are
distinct. -/
theorem Source.lists (source : Source) {name : String} {c : ObjectClass}
    (h : source.definitions.find? name = some (.object c)) :
    ∃ d ∈ source.reading.drafts, d.names.Nodup ∧ d.Lists name c := by
  have hmem := List.mem_reverse.mpr (Definitions.mem_of_find? h)
  obtain ⟨d, hd, hlists⟩ := exists_of_mem_right source.classes_lists hmem
  obtain ⟨hnames, hopen⟩ := source.reading_distinct d hd
  exact ⟨d, hd, hnames, hlists c rfl fun n => hopen n c⟩

end ToolCatalog
