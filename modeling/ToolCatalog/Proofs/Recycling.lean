import Mathlib.Data.List.Dedup
import ToolCatalog.Proofs.Growth

/-!
The memo never takes one object for another, although slots are used again.

Objects come to life in free slots and die, values are remembered for objects that are alive, and
the memo is cleared. The watches on an object are reported at any time after its death, in any order
and perhaps when another object has its slot. What the memo remembers for an object that is alive is
always what was last remembered for that very object since the memo was cleared.
-/
namespace ToolCatalog

variable {σ α : Type}

/-- The object that an entry was written for. -/
def MemoEntry.occupant (e : MemoEntry σ α) : Occupant σ :=
  ⟨e.slot, e.incarnation⟩

/-- Objects in their slots, and a memo for them. -/
structure World (σ α : Type) where
  memo : Memo σ α
  /-- How many objects have been in a slot. -/
  born : σ → Nat
  /-- Whether the last of them is alive. -/
  occupied : σ → Bool
  /-- All watches that were set, with the objects that they watch. -/
  made : List (Occupant σ × Nat)
  /-- The watches that the memo had on an object when it died, and that are still to be reported. -/
  pending : List (Occupant σ × Nat)

/-- What can happen. -/
inductive Happening (σ α : Type)
  | birth (slot : σ)
  | death (o : Occupant σ)
  | get (o : Occupant σ)
  | set (o : Occupant σ) (value : α)
  | clear
  /-- A watch on a dead object is reported. -/
  | report (o : Occupant σ) (watch : Nat)
  /-- A watch that the memo does not hold any more is given up and never reported. -/
  | discard (o : Occupant σ) (watch : Nat)

namespace World

/-- Whether an object is alive. -/
def alive (w : World σ α) (o : Occupant σ) : Bool :=
  w.occupied o.slot && o.incarnation + 1 == w.born o.slot

variable [DecidableEq σ]

/-- Nothing has happened yet. -/
def empty : World σ α :=
  ⟨.empty, fun _ => 0, fun _ => false, [], []⟩

/-- Whether something can happen now. -/
def Allows (w : World σ α) : Happening σ α → Prop
  | .birth slot => w.occupied slot = false
  | .death o | .get o | .set o _ => w.alive o = true
  | .clear => True
  | .report o n => (o, n) ∈ w.made ∧ w.alive o = false
  | .discard _ n => ∀ e ∈ w.memo.entries, e.watch ≠ n

/-- What changes. An object that cannot be watched is not remembered. -/
def after (watchable : Occupant σ → Bool) (w : World σ α) : Happening σ α → World σ α
  | .birth slot => { w with
      born := Function.update w.born slot (w.born slot + 1)
      occupied := Function.update w.occupied slot true }
  | .death o => { w with
      occupied := Function.update w.occupied o.slot false
      pending := w.pending ++ (w.memo.watches o).map fun n => (o, n) }
  | .get _ => w
  | .set o v =>
    if watchable o then
      { w with memo := w.memo.insert o v, made := (o, w.memo.nextWatch) :: w.made }
    else w
  | .clear => { w with memo := w.memo.clear }
  | .report o n => { w with
      memo := w.memo.expire o.slot n
      pending := w.pending.filter (· ≠ (o, n)) }
  | .discard o n => { w with pending := w.pending.filter (· ≠ (o, n)) }

/-- The worlds that events lead to; the last event is the first of the list. -/
inductive Reached (watchable : Occupant σ → Bool) : List (Happening σ α) → World σ α → Prop
  | start : Reached watchable [] empty
  | step {es w} (h : Reached watchable es w) {e : Happening σ α} (he : w.Allows e) :
      Reached watchable (e :: es) (w.after watchable e)

end World

namespace Happening

variable [DecidableEq σ] (watchable : Occupant σ → Bool) (o : Occupant σ)

/-- What was last remembered for an object since the memo was cleared. -/
def latest : List (Happening σ α) → Option α
  | [] | .clear :: _ => none
  | .set p v :: es => if watchable p && p = o then some v else latest es
  | .birth _ :: es | .death _ :: es | .get _ :: es | .report _ _ :: es | .discard _ _ :: es =>
    latest es

/-- The objects for which something was remembered since the memo was cleared. -/
def remembered : List (Happening σ α) → List (Occupant σ)
  | [] | .clear :: _ => []
  | .set p _ :: es => if watchable p then p :: remembered es else remembered es
  | .birth _ :: es | .death _ :: es | .get _ :: es | .report _ _ :: es | .discard _ _ :: es =>
    remembered es

variable {watchable} {o} {es : List (Happening σ α)}

theorem latest_isSome_iff :
    (latest watchable o es).isSome = true ↔ o ∈ remembered watchable es := by
  induction es with
  | nil => simp [latest, remembered]
  | cons e es ih =>
    cases e with
    | clear => simp [latest, remembered]
    | set p v =>
      by_cases hp : watchable p = true
      · by_cases hpo : p = o
        · subst hpo
          simp [latest, remembered, hp]
        · simp [latest, remembered, hp, hpo, Ne.symm hpo, ih]
      · simp [latest, remembered, hp, ih]
    | birth | death | get | report | discard => exact ih

end Happening

/-! ## The memo -/

namespace Memo

variable {m : Memo σ α} {o : Occupant σ} {v : α} {e : MemoEntry σ α} {n : Nat}

/-- At most one entry for each slot. -/
def Slotted (m : Memo σ α) : Prop :=
  (m.entries.map (·.slot)).Nodup

theorem Slotted.entry_unique (h : m.Slotted) {e' : MemoEntry σ α} (he : e ∈ m.entries)
    (he' : e' ∈ m.entries) (hslot : e.slot = e'.slot) : e = e' :=
  List.inj_on_of_nodup_map h he he' hslot

variable [DecidableEq σ]

theorem Slotted.find?_eq_some_iff (h : m.Slotted) {slot : σ} :
    m.entries.find? (·.slot = slot) = some e ↔ e ∈ m.entries ∧ e.slot = slot := by
  constructor
  · intro hf
    have hslot := List.find?_some hf
    exact ⟨List.mem_of_find?_eq_some hf, by simpa using hslot⟩
  · rintro ⟨he, rfl⟩
    cases hf : m.entries.find? (·.slot = e.slot) with
    | none => simpa using List.find?_eq_none.mp hf e he
    | some e' =>
      have hslot := List.find?_some hf
      rw [h.entry_unique (List.mem_of_find?_eq_some hf) he (by simpa using hslot)]

/-- What is remembered for an object is what its own entry has. -/
theorem Slotted.get?_eq_some_iff (h : m.Slotted) :
    m.get? o = some v ↔ ∃ e ∈ m.entries, e.occupant = o ∧ e.value = v := by
  obtain ⟨slot, incarnation⟩ := o
  simp only [MemoEntry.occupant, Occupant.mk.injEq]
  constructor
  · intro hget
    unfold get? at hget
    split at hget
    · rename_i e hfind
      obtain ⟨he, hslot⟩ := h.find?_eq_some_iff.mp hfind
      split at hget
      · rename_i hinc
        exact ⟨e, he, ⟨hslot, hinc⟩, by simpa using hget⟩
      · cases hget
    · cases hget
  · rintro ⟨e, he, ⟨rfl, rfl⟩, rfl⟩
    simp [get?, h.find?_eq_some_iff.mpr ⟨he, rfl⟩]

theorem mem_insert (h : e ∈ (m.insert o v).entries) :
    (e ∈ m.entries ∧ e.slot ≠ o.slot) ∨ e = ⟨o.slot, o.incarnation, m.nextWatch, v⟩ := by
  simpa [insert] using h

theorem Slotted.insert (h : m.Slotted) : (m.insert o v).Slotted := by
  have hkept : ((m.entries.filter (·.slot ≠ o.slot)).map (·.slot)).Nodup :=
    h.sublist (List.filter_sublist.map _)
  simp only [Slotted, Memo.insert, List.map_append, List.map_cons, List.map_nil]
  refine List.nodup_append.mpr ⟨hkept, by simp, ?_⟩
  simp only [List.mem_map, List.mem_filter]
  grind

theorem mem_expire : e ∈ (m.expire o.slot n).entries ↔
    e ∈ m.entries ∧ ¬ (e.slot = o.slot ∧ e.watch = n) := by
  simp [expire]
  grind

theorem Slotted.expire (h : m.Slotted) : (m.expire o.slot n).Slotted :=
  List.Nodup.sublist (List.filter_sublist.map _) h

theorem mem_watches : n ∈ m.watches o ↔ ∃ e ∈ m.entries, e.occupant = o ∧ e.watch = n := by
  obtain ⟨slot, incarnation⟩ := o
  simp [watches, MemoEntry.occupant, and_assoc]

/-- What is remembered for an object depends on its entry only. -/
theorem Slotted.get?_congr (h : m.Slotted) {m' : Memo σ α} (h' : m'.Slotted)
    (hsame : ∀ e : MemoEntry σ α, e.occupant = o → (e ∈ m'.entries ↔ e ∈ m.entries)) :
    m'.get? o = m.get? o := by
  refine Option.ext fun v => ?_
  rw [h'.get?_eq_some_iff, h.get?_eq_some_iff]
  constructor
  · rintro ⟨e, he, ho, hv⟩
    exact ⟨e, (hsame e ho).mp he, ho, hv⟩
  · rintro ⟨e, he, ho, hv⟩
    exact ⟨e, (hsame e ho).mpr he, ho, hv⟩

end Memo

/-! ## The invariant -/

namespace World

variable {watchable : Occupant σ → Bool} {w : World σ α} {o p : Occupant σ} {slot : σ} {v : α}
  {n : Nat} {es : List (Happening σ α)}

/-- At most one object in a slot is alive. -/
theorem alive_unique (ho : w.alive o = true) (hp : w.alive p = true) (h : o.slot = p.slot) :
    o = p := by
  obtain ⟨slot, incarnation⟩ := o
  obtain ⟨slot', incarnation'⟩ := p
  simp only [alive, Bool.and_eq_true, beq_iff_eq] at h ho hp
  subst h
  have hinc : incarnation = incarnation' := by omega
  rw [hinc]

variable [DecidableEq σ]

theorem alive_birth : (w.after watchable (.birth slot)).alive o =
    if o.slot = slot then o.incarnation == w.born slot else w.alive o := by
  by_cases h : o.slot = slot
  · simp [after, alive, h, Function.update]
  · simp [after, alive, h, Function.update]

theorem alive_death : (w.after watchable (.death p)).alive o =
    if o.slot = p.slot then false else w.alive o := by
  by_cases h : o.slot = p.slot
  · simp [after, alive, h, Function.update]
  · simp [after, alive, h, Function.update]

/-- What is so of every world that events lead to. -/
structure Sound (watchable : Occupant σ → Bool) (es : List (Happening σ α)) (w : World σ α) :
    Prop where
  slotted : w.memo.Slotted
  watched : ∀ e ∈ w.memo.entries, (e.occupant, e.watch) ∈ w.made
  old : ∀ o n, (o, n) ∈ w.made → n < w.memo.nextWatch ∧ o.incarnation < w.born o.slot
  own : ∀ o p n, (o, n) ∈ w.made → (p, n) ∈ w.made → o = p
  remembered : ∀ o ∈ Happening.remembered watchable es, o.incarnation < w.born o.slot
  get : ∀ o, w.alive o = true → w.memo.get? o = Happening.latest watchable o es
  pending : ∀ e ∈ w.memo.entries, w.alive e.occupant = false → (e.occupant, e.watch) ∈ w.pending

namespace Sound

theorem empty : Sound watchable [] (empty : World σ α) where
  slotted := .nil
  watched := by simp [World.empty, Memo.empty]
  old := by simp [World.empty]
  own := by simp [World.empty]
  remembered := by simp [Happening.remembered]
  get o ho := by simp [World.empty, alive] at ho
  pending := by simp [World.empty, Memo.empty]

/-- Nothing is remembered for an object that was not born yet. -/
theorem get?_unborn (h : Sound watchable es w) (ho : w.born o.slot ≤ o.incarnation) :
    w.memo.get? o = none ∧ Happening.latest watchable o es = none := by
  constructor
  · by_contra hget
    obtain ⟨v, hv⟩ := Option.ne_none_iff_exists'.mp hget
    obtain ⟨e, he, rfl, -⟩ := h.slotted.get?_eq_some_iff.mp hv
    exact absurd (h.old _ _ (h.watched e he)).2 (by omega)
  · by_contra hlatest
    have hmem := Happening.latest_isSome_iff.mp (Option.isSome_iff_ne_none.mpr hlatest)
    exact absurd (h.remembered o hmem) (by omega)

/-- An object that comes to life in a free slot is new, so nothing is remembered for it. -/
theorem birth (h : Sound watchable es w) (hfree : w.occupied slot = false) :
    Sound watchable (.birth slot :: es) (w.after watchable (.birth slot)) := by
  have hborn (o : Occupant σ) : w.born o.slot ≤ (w.after watchable (.birth slot)).born o.slot := by
    by_cases ho : o.slot = slot
    · simp [after, ho]
    · simp [after, Function.update_of_ne ho]
  refine { h with old := fun o n ho => ?_, remembered := fun o ho => ?_, get := fun o ho => ?_,
                  pending := fun e he hdead => ?_ }
  · obtain ⟨hn, ho⟩ := h.old o n ho
    exact ⟨hn, Nat.lt_of_lt_of_le ho (hborn o)⟩
  · exact Nat.lt_of_lt_of_le (h.remembered o ho) (hborn o)
  · rw [alive_birth] at ho
    by_cases hslot : o.slot = slot
    · rw [if_pos hslot, beq_iff_eq] at ho
      obtain ⟨hget, hlatest⟩ := h.get?_unborn (o := o) (Nat.le_of_eq (by rw [hslot, ho]))
      exact hget.trans hlatest.symm
    · rw [if_neg hslot] at ho
      exact h.get o ho
  · refine h.pending e he ?_
    rw [alive_birth] at hdead
    by_cases hslot : e.occupant.slot = slot
    · simp [alive, hslot, hfree]
    · rwa [if_neg hslot] at hdead

/-- When an object dies, the watches on it are to be reported. -/
theorem death (h : Sound watchable es w) (ho : w.alive o = true) :
    Sound watchable (.death o :: es) (w.after watchable (.death o)) := by
  refine { h with get := fun p hp => ?_, pending := fun e he hdead => ?_ }
  · rw [alive_death] at hp
    by_cases hslot : p.slot = o.slot
    · simp [hslot] at hp
    · rw [if_neg hslot] at hp
      exact h.get p hp
  · rw [alive_death] at hdead
    refine List.mem_append.mpr ?_
    cases hwas : w.alive e.occupant with
    | false => exact .inl (h.pending e he hwas)
    | true =>
      have hslot : e.occupant.slot = o.slot := by
        by_contra hslot
        simp [hslot, hwas] at hdead
      have hone := alive_unique hwas ho hslot
      refine .inr (List.mem_map.mpr ⟨e.watch, Memo.mem_watches.mpr ⟨e, he, hone, rfl⟩, ?_⟩)
      rw [hone]

/-- What is remembered for an object takes the place of what its slot had, which was its own or was
found by no object any more. -/
theorem set (h : Sound watchable es w) (ho : w.alive o = true) :
    Sound watchable (.set o v :: es) (w.after watchable (.set o v)) := by
  cases hwatch : watchable o with
  | false =>
    simp only [after, hwatch]
    exact { h with remembered := by simpa [Happening.remembered, hwatch] using h.remembered
                   get := by simpa [Happening.latest, hwatch] using h.get }
  | true =>
    simp only [after, hwatch, if_true]
    have hborn : o.incarnation < w.born o.slot := by
      simp only [alive, Bool.and_eq_true, beq_iff_eq] at ho
      omega
    have hunmade (p) : (p, w.memo.nextWatch) ∉ w.made := fun hp =>
      absurd (h.old p _ hp).1 (Nat.lt_irrefl _)
    refine ⟨h.slotted.insert, fun e he => ?_, fun p n hp => ?_, fun p q n hp hq => ?_,
      fun p hp => ?_, fun p hp => ?_, fun e he hdead => ?_⟩
    · rcases Memo.mem_insert he with ⟨he, -⟩ | rfl
      · exact List.mem_cons_of_mem _ (h.watched e he)
      · exact List.mem_cons_self
    · rcases List.mem_cons.mp hp with hnew | hp
      · cases hnew
        exact ⟨Nat.lt_succ_self _, hborn⟩
      · obtain ⟨hn, hp⟩ := h.old p n hp
        exact ⟨Nat.lt_succ_of_lt hn, hp⟩
    · rcases List.mem_cons.mp hp with hp | hp <;> rcases List.mem_cons.mp hq with hq | hq
      · cases hp
        cases hq
        rfl
      · cases hp
        exact absurd hq (hunmade q)
      · cases hq
        exact absurd hp (hunmade p)
      · exact h.own p q n hp hq
    · simp only [Happening.remembered, hwatch, if_true, List.mem_cons] at hp
      rcases hp with rfl | hp
      · exact hborn
      · exact h.remembered p hp
    · by_cases hpo : o = p
      · subst hpo
        simp [Happening.latest, hwatch, Memo.get?_insert_self]
      · have hslot : o.slot ≠ p.slot := fun hslot => hpo (alive_unique ho hp hslot)
        simp [Happening.latest, hpo, Memo.get?_insert_ne _ _ hslot, h.get p hp]
    · rcases Memo.mem_insert he with ⟨he, -⟩ | rfl
      · exact h.pending e he hdead
      · exact absurd (ho.symm.trans hdead) (by simp)

theorem clear (h : Sound watchable es w) :
    Sound watchable (.clear :: es) (w.after watchable .clear) :=
  { h with
    slotted := .nil
    watched := by simp [after, Memo.clear]
    remembered := by simp [Happening.remembered]
    get := fun o _ => by simp [after, Memo.clear, Memo.get?, Happening.latest]
    pending := by simp [after, Memo.clear] }

/-- The entry of an object that is alive was not written with a watch on a dead one. -/
theorem survives (h : Sound watchable es w) (hmade : (p, n) ∈ w.made) (hdead : w.alive p = false)
    {e : MemoEntry σ α} (he : e ∈ w.memo.entries) (ho : w.alive e.occupant = true) :
    e ∈ (w.memo.expire p.slot n).entries := by
  refine Memo.mem_expire.mpr ⟨he, ?_⟩
  rintro ⟨-, hwatch⟩
  have hone := h.own _ _ n (hwatch ▸ h.watched e he) hmade
  rw [hone, hdead] at ho
  cases ho

theorem report (h : Sound watchable es w) (hmade : (p, n) ∈ w.made) (hdead : w.alive p = false) :
    Sound watchable (.report p n :: es) (w.after watchable (.report p n)) := by
  have hkept (e) (he : e ∈ (w.memo.expire p.slot n).entries) := (Memo.mem_expire.mp he).1
  refine { h with slotted := h.slotted.expire, watched := fun e he => h.watched e (hkept e he),
                  get := fun o ho => ?_, pending := fun e he hdead => ?_ }
  · refine Eq.trans ?_ (h.get o ho)
    refine h.slotted.get?_congr h.slotted.expire fun e heo => ⟨hkept e, fun he => ?_⟩
    exact h.survives hmade hdead he (heo ▸ ho)
  · obtain ⟨he, hne⟩ := Memo.mem_expire.mp he
    refine List.mem_filter.mpr ⟨h.pending e he hdead, ?_⟩
    simp only [ne_eq, decide_not, Bool.not_eq_eq_eq_not, Bool.not_true, decide_eq_false_iff_not]
    rintro heq
    cases heq
    exact hne ⟨rfl, rfl⟩

theorem discard (h : Sound watchable es w) (hfree : ∀ e ∈ w.memo.entries, e.watch ≠ n) :
    Sound watchable (.discard p n :: es) (w.after watchable (.discard p n)) := by
  refine { h with pending := fun e he hdead => List.mem_filter.mpr ⟨h.pending e he hdead, ?_⟩ }
  simp [hfree e he]

/-- Whatever happens, the memo stays sound. -/
theorem step (h : Sound watchable es w) {e : Happening σ α} (he : w.Allows e) :
    Sound watchable (e :: es) (w.after watchable e) := by
  cases e with
  | birth slot => exact h.birth he
  | death o => exact h.death he
  | get o => exact { h with }
  | set o v => exact h.set he
  | clear => exact h.clear
  | report p n => exact h.report he.1 he.2
  | discard p n => exact h.discard he

end Sound

theorem Reached.sound (h : Reached watchable es w) : Sound watchable es w := by
  induction h with
  | start => exact .empty
  | step _ he ih => exact ih.step he

/-- The objects that are alive and for which something was remembered since the memo was cleared. -/
def remembers (watchable : Occupant σ → Bool) (es : List (Happening σ α)) (w : World σ α) :
    List (Occupant σ) :=
  (Happening.remembered watchable es).dedup.filter w.alive

/-- When every death was reported, the entries are those of the objects that are alive. -/
theorem Sound.entries_perm (h : Sound watchable es w) (hnone : w.pending = []) :
    (w.memo.entries.map MemoEntry.occupant).Perm (w.remembers watchable es) := by
  have hnodup : (w.memo.entries.map MemoEntry.occupant).Nodup :=
    List.Nodup.of_map Occupant.slot (by rw [List.map_map]; exact h.slotted)
  refine (List.perm_ext_iff_of_nodup hnodup ((List.nodup_dedup _).filter _)).mpr fun o => ?_
  -- An object that is alive has an entry exactly if something was remembered for it.
  have hlive (ho : w.alive o = true) : (∃ e ∈ w.memo.entries, e.occupant = o) ↔
      o ∈ Happening.remembered watchable es := by
    rw [← Happening.latest_isSome_iff, ← h.get o ho, Option.isSome_iff_exists]
    simp only [h.slotted.get?_eq_some_iff]
    constructor
    · rintro ⟨e, he, heo⟩
      exact ⟨e.value, e, he, heo, rfl⟩
    · rintro ⟨-, e, he, heo, -⟩
      exact ⟨e, he, heo⟩
  rw [List.mem_map, List.mem_filter, List.mem_dedup]
  constructor
  · rintro ⟨e, he, rfl⟩
    have halive : w.alive e.occupant = true := by
      by_contra hdead
      simpa [hnone] using h.pending e he (by simpa using hdead)
    exact ⟨(hlive halive).mp ⟨e, he, rfl⟩, halive⟩
  · rintro ⟨hmem, halive⟩
    exact (hlive halive).mpr hmem

/-- Whatever has happened: what is remembered for an object that is alive is what was last
remembered for it since the memo was cleared; a report about a dead object leaves the entries of
objects that are alive; and when nothing is to be reported any more, there are as many entries as
objects that are alive and were remembered since the memo was cleared. -/
theorem Reached.never_confused (h : Reached watchable es w) :
    (∀ o, w.alive o = true → w.memo.get? o = Happening.latest watchable o es) ∧
      (∀ p n, w.Allows (.report p n) → ∀ e ∈ w.memo.entries, w.alive e.occupant = true →
        e ∈ (w.after watchable (.report p n)).memo.entries) ∧
      (w.pending = [] → w.memo.size = (w.remembers watchable es).length) := by
  refine ⟨h.sound.get, fun p n hreport e he ho => h.sound.survives hreport.1 hreport.2 he ho,
    fun hnone => ?_⟩
  rw [← (h.sound.entries_perm hnone).length_eq, List.length_map]
  rfl

/-- The second object in the slot outlives the late report about the first. -/
theorem Reached.never_confused_late :
    let first : Occupant Nat := ⟨0, 0⟩
    let second : Occupant Nat := ⟨0, 1⟩
    let es : List (Happening Nat String) := [.report first 0, .set second "new", .birth 0,
      .death first, .set first "old", .birth 0]
    ∃ w, Reached (fun _ => true) es w ∧ w.memo.get? second = some "new" ∧ w.memo.size = 1 := by
  intro first second es
  have hstart : Reached (fun _ => true) [] (empty : World Nat String) := .start
  have hborn := hstart.step (e := .birth 0) rfl
  have hold := hborn.step (e := .set first "old") rfl
  have hdead := hold.step (e := .death first) rfl
  have hreborn := hdead.step (e := .birth 0) rfl
  have hnew := hreborn.step (e := .set second "new") rfl
  have hrun := hnew.step (e := .report first 0) ⟨.tail _ (.head _), rfl⟩
  have hall := hrun.never_confused
  exact ⟨_, hrun, hall.1 second rfl, hall.2.2 rfl⟩

end World

end ToolCatalog
