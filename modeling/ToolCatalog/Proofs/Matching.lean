import ToolCatalog.Regex

/-!
What expressions match, said without looking for it.

An expression matches a word between what stands before it and what stands after it. A match may
divide its word among the parts of the expression in any way, while the search tries one way after
the other. Main statement: for every expression that is regular in the strict sense, built of sets,
anchors, sequences, choices, groups and repetitions, the search finds a match exactly if there is
one.

A repetition goes no further after a round without text, nor after more rounds than the text has
characters. No match is lost by that, because rounds without text can be left out.
-/
namespace ToolCatalog

/-- The words that are matched, each between what stands before it and what stands after it. -/
abbrev Words := List Char → List Char → List Char → Prop

namespace Words

/-- The empty word. -/
def nothing : Words :=
  fun _ word _ => word = []

/-- One word and then another. -/
def seq (M N : Words) : Words := fun before word after =>
  ∃ u v, word = u ++ v ∧ M before u (v ++ after) ∧ N (before ++ u) v after

/-- So many words one after the other. -/
def rounds (M : Words) : Nat → Words
  | 0 => nothing
  | n + 1 => M.seq (rounds M n)

/-- At least so many words one after the other, and at most so many. -/
def times (M : Words) (least : Nat) (most : Option Nat) : Words := fun before word after =>
  ∃ n, least ≤ n ∧ (∀ m ∈ most, n ≤ m) ∧ M.rounds n before word after

end Words

namespace Regex

/-- Whether an expression looks nowhere else, refers to no group and keeps no first match, and
whether all its repetitions have bounds in order. -/
def regular : Regex → Bool
  | .empty | .set _ _ | .anchor _ => true
  | .seq r s | .either r s => regular r && regular s
  | .times r least most greed =>
    regular r && (most.all fun m => least ≤ m) && greed != .possessive
  | .group _ r => regular r
  | .atomic _ | .look _ _ _ | .same _ _ | .ifGroup _ _ _ => false

/-- The words of a regular expression. -/
def Matches : Regex → Words
  | .empty => .nothing
  | .set s mode => fun _ word _ => ∃ c, word = [c] ∧ s.contains mode c = true
  | .anchor a => fun before word after =>
    word = [] ∧ a.holds (before ++ after).toArray before.length = true
  | .seq r s => r.Matches.seq s.Matches
  | .either r s => fun before word after =>
    r.Matches before word after ∨ s.Matches before word after
  | .times r least most _ => r.Matches.times least most
  | .group _ r => r.Matches
  | .atomic _ | .look _ _ _ | .same _ _ | .ifGroup _ _ _ => fun _ _ _ => False

end Regex

namespace Words

variable {M N : Words} {K K' : List Char → List Char → Prop} {before rest word after : List Char}
  {n : Nat}

/-- A word comes next, and behind it a condition holds of what stands before and after. -/
def Then (M : Words) (K : List Char → List Char → Prop) (before rest : List Char) : Prop :=
  ∃ word after, rest = word ++ after ∧ M before word after ∧ K (before ++ word) after

@[simp] theorem nothing_then : nothing.Then K = K := by
  funext before rest
  refine propext ⟨?_, fun h => ⟨[], rest, rfl, rfl, by rwa [List.append_nil]⟩⟩
  rintro ⟨_, after, rfl, rfl, hK⟩
  rwa [List.append_nil] at hK

theorem seq_then : (M.seq N).Then K = M.Then (N.Then K) := by
  funext before rest
  refine propext ⟨?_, ?_⟩
  · rintro ⟨_, after, rfl, ⟨u, v, rfl, hu, hv⟩, hK⟩
    exact ⟨u, v ++ after, List.append_assoc u v after, hu, v, after, rfl, hv,
      by rwa [List.append_assoc]⟩
  · rintro ⟨u, _, rfl, hu, v, after, rfl, hv, hK⟩
    exact ⟨u ++ v, after, (List.append_assoc u v after).symm, ⟨u, v, rfl, hu, hv⟩,
      by rwa [← List.append_assoc]⟩

theorem rounds_add_then (m n : Nat) :
    (M.rounds (m + n)).Then K = (M.rounds m).Then ((M.rounds n).Then K) := by
  induction m with
  | zero => rw [Nat.zero_add, rounds, nothing_then]
  | succ m ih => rw [Nat.succ_add, rounds, rounds, seq_then, seq_then, ih]

/-- Only the words that take up text. -/
def proper (M : Words) : Words :=
  fun before word after => M before word after ∧ word ≠ []

/-- Words without text can be left out. -/
theorem rounds_proper (h : M.rounds n before word after) :
    ∃ m ≤ n, m ≤ word.length ∧ M.proper.rounds m before word after := by
  induction n generalizing before word with
  | zero =>
    obtain rfl : word = [] := h
    exact ⟨0, Nat.le_refl 0, Nat.le_refl 0, rfl⟩
  | succ n ih =>
    obtain ⟨u, v, rfl, hu, hv⟩ := h
    obtain ⟨m, hmn, hmv, hm⟩ := ih hv
    by_cases hempty : u = []
    · subst hempty
      rw [List.append_nil] at hm
      exact ⟨m, Nat.le_succ_of_le hmn, hmv, hm⟩
    · refine ⟨m + 1, Nat.succ_le_succ hmn, ?_, u, v, rfl, ⟨hu, hempty⟩, hm⟩
      have hpos : 0 < u.length := List.length_pos_iff.mpr hempty
      rw [List.length_append]
      omega

theorem rounds_of_proper (h : M.proper.rounds n before word after) :
    M.rounds n before word after := by
  induction n generalizing before word with
  | zero => exact h
  | succ n ih =>
    obtain ⟨u, v, rfl, hu, hv⟩ := h
    exact ⟨u, v, rfl, hu.1, ih hv⟩

/-- At most so many words, and then a condition. -/
def UpTo (M : Words) (n : Nat) (K : List Char → List Char → Prop) (before rest : List Char) :
    Prop :=
  ∃ m ≤ n, (M.rounds m).Then K before rest

theorem upTo_zero : M.UpTo 0 K before rest ↔ K before rest := by
  simp [UpTo, rounds]

/-- Of several words the first can be taken to have text, unless there is no text at all. -/
theorem upTo_succ : M.UpTo (n + 1) K before rest ↔
    M.Then (fun before' rest' =>
      if before'.length = before.length then K before' rest' else M.UpTo n K before' rest')
      before rest ∨ K before rest := by
  constructor
  · rintro ⟨m, hm, word, after, rfl, hw, hK⟩
    obtain ⟨m', hle, -, hw⟩ := rounds_proper hw
    cases m' with
    | zero =>
      obtain rfl : word = [] := hw
      exact .inr (by simpa using hK)
    | succ m' =>
      obtain ⟨u, v, rfl, ⟨hu, hne⟩, hv⟩ := hw
      have hmore : M.UpTo n K (before ++ u) (v ++ after) :=
        ⟨m', by omega, v, after, rfl, rounds_of_proper hv, by rwa [List.append_assoc]⟩
      refine .inl ⟨u, v ++ after, List.append_assoc u v after, hu, ?_⟩
      simpa [hne] using hmore
  · rintro (⟨u, rest', rfl, hu, hK⟩ | hK)
    · split at hK
      · rename_i hlen
        obtain rfl : u = [] := by simpa using hlen
        exact ⟨0, Nat.zero_le _, by simpa [rounds] using hK⟩
      · obtain ⟨m, hm, hK⟩ := hK
        refine ⟨m + 1, Nat.succ_le_succ hm, ?_⟩
        rw [rounds, seq_then]
        exact ⟨u, rest', rfl, hu, hK⟩
    · exact ⟨0, Nat.zero_le _, by simpa [rounds] using hK⟩

/-- Words without text are not needed before a condition either. -/
theorem rounds_then_short (h : (M.rounds n).Then K before rest) :
    ∃ m ≤ n, m ≤ rest.length ∧ (M.rounds m).Then K before rest := by
  obtain ⟨word, after, rfl, hw, hK⟩ := h
  obtain ⟨m, hmn, hlen, hm⟩ := rounds_proper hw
  refine ⟨m, hmn, ?_, word, after, rfl, rounds_of_proper hm, hK⟩
  rw [List.length_append]
  omega

/-- A repetition in a text of so many characters: the words that are needed, and then as many as its
bounds and the text allow. -/
theorem rounds_then_upTo_iff {least more size : Nat} {most : Option Nat}
    (hrest : rest.length ≤ size) (hmore : ∀ j ≤ size, j ≤ more ↔ ∀ m ∈ most, least + j ≤ m) :
    (M.rounds least).Then (M.UpTo more K) before rest ↔
      (M.times least most).Then K before rest := by
  constructor
  · rintro ⟨u, rest', rfl, hu, j, hj, hK⟩
    obtain ⟨i, hij, hlen, hK⟩ := rounds_then_short hK
    have hi : i ≤ size := by
      rw [List.length_append] at hrest
      omega
    have hall : (M.rounds (least + i)).Then K before (u ++ rest') := by
      rw [rounds_add_then]
      exact ⟨u, rest', rfl, hu, hK⟩
    obtain ⟨word, after, hsplit, hw, hK⟩ := hall
    exact ⟨word, after, hsplit,
      ⟨least + i, Nat.le_add_right _ _, (hmore i hi).mp (Nat.le_trans hij hj), hw⟩, hK⟩
  · rintro ⟨word, after, hsplit, ⟨n, hleast, hmost, hw⟩, hK⟩
    obtain ⟨j, rfl⟩ := Nat.exists_eq_add_of_le hleast
    have hall : (M.rounds (least + j)).Then K before rest := ⟨word, after, hsplit, hw, hK⟩
    rw [rounds_add_then] at hall
    obtain ⟨u, rest', rfl, hu, hK⟩ := hall
    obtain ⟨i, hij, hlen, hK⟩ := rounds_then_short hK
    have hi : i ≤ size := by
      rw [List.length_append] at hrest
      omega
    have hfits : ∀ m ∈ most, least + i ≤ m := fun m hm => by
      have := hmost m hm
      omega
    exact ⟨u, rest', rfl, hu, i, (hmore i hi).mpr hfits, hK⟩

end Words

/-! ## Continuations and matchers -/

variable {text : List Char} {step : Matcher} {M : Words} {k : Continuation}
  {K K' : List Char → List Char → Prop}

/-- What follows succeeds exactly where a condition holds of what stands before and after. -/
def Continuation.Decides (text : List Char) (k : Continuation)
    (K : List Char → List Char → Prop) : Prop :=
  ∀ (st : MatchState) (before rest : List Char), text = before ++ rest →
    st.position = before.length → ((k st).isSome = true ↔ K before rest)

theorem Continuation.Decides.congr (h : k.Decides text K)
    (hK : ∀ before rest, text = before ++ rest → (K before rest ↔ K' before rest)) :
    k.Decides text K' :=
  fun st before rest ht hp => (h st before rest ht hp).trans (hK before rest ht)

namespace Matcher

/-- A matcher finds a word that goes together with what follows exactly if there is one. -/
def Finds (text : List Char) (m : Matcher) (M : Words) : Prop :=
  ∀ {k : Continuation} {K : List Char → List Char → Prop}, k.Decides text K →
    Continuation.Decides text (fun st => m st k) (M.Then K)

theorem Finds.rounds (h : step.Finds text M) (n : Nat) :
    (Matcher.rounds step n).Finds text (M.rounds n) := by
  induction n with
  | zero =>
    intro k K hk
    rw [Words.rounds, Words.nothing_then]
    exact hk
  | succ n ih =>
    intro k K hk
    rw [Words.rounds, Words.seq_then]
    exact h (ih hk)

/-- What greedy and reluctant repetitions have in common: both try another round, unless the last
one took up no text, and both try to stop. -/
structure Repeats (step : Matcher) (more : Nat → Option Nat → Matcher) : Prop where
  zero : ∀ last st k, more 0 last st k = k st
  succ : ∀ n last st k, (more (n + 1) last st k).isSome = true ↔
    (last ≠ some st.position ∧ (step st fun next => more n (some st.position) next k).isSome = true)
      ∨ (k st).isSome = true

theorem greedy_repeats (step : Matcher) : Repeats step (greedy step) where
  zero _ _ _ := rfl
  succ n last st k := by
    rw [greedy]
    by_cases hlast : last = some st.position
    · simp [hlast]
    · cases hstep : step st fun next => greedy step n (some st.position) next k <;> simp [hlast]

theorem reluctant_repeats (step : Matcher) : Repeats step (reluctant step) where
  zero _ _ _ := rfl
  succ n last st k := by
    rw [reluctant]
    by_cases hlast : last = some st.position
    · cases hk : k st <;> simp [hlast]
    · cases hk : k st <;> simp [hlast]

/-- Up to so many rounds find as many words, where the last round took up some text. -/
theorem Repeats.decides {more : Nat → Option Nat → Matcher} (hr : Repeats step more)
    (hs : step.Finds text M) (hk : k.Decides text K) (n : Nat) (last : Option Nat) :
    Continuation.Decides text (fun st => more n last st k) fun before rest =>
      if last = some before.length then K before rest else M.UpTo n K before rest := by
  induction n generalizing last with
  | zero =>
    intro st before rest ht hp
    simp only [hr.zero, Words.upTo_zero, ite_self]
    exact hk st before rest ht hp
  | succ n ih =>
    intro st before rest ht hp
    -- The next round is told where this one started, and its condition says so.
    have hround : (step st fun next => more n (some before.length) next k).isSome = true ↔ _ :=
      hs (ih (some before.length)) st before rest ht hp
    simp only [hr.succ, hp, hround, hk st before rest ht hp]
    by_cases hlast : last = some before.length
    · simp [hlast]
    · simp only [hlast, ne_eq, not_false_eq_true, true_and, if_false, Words.upTo_succ,
        Option.some.injEq, eq_comm]

/-- A repetition finds as many words as its bounds allow. -/
theorem Finds.times (hs : step.Finds text M) {least : Nat} {most : Option Nat} {greed : Greed}
    (hgreed : greed ≠ .possessive) (hmost : ∀ m ∈ most, least ≤ m) :
    (Matcher.times step text.length least most greed).Finds text (M.times least most) := by
  intro k K hk
  let more := most.elim (text.length + 1) fun m => min (m - least) (text.length + 1)
  have hmore : ∀ j ≤ text.length, j ≤ more ↔ ∀ m ∈ most, least + j ≤ m := fun j hj => by
    cases most with
    | none => simpa [more] using Nat.le_succ_of_le hj
    | some m =>
      have := hmost m rfl
      simp only [more, Option.elim_some, Option.mem_some_iff, forall_eq']
      omega
  have hrounds {repeated : Nat → Option Nat → Matcher} (hr : Repeats step repeated) :
      Continuation.Decides text
        (fun st => Matcher.rounds step least st fun st => repeated more none st k)
        ((M.times least most).Then K) := by
    have hupTo := hr.decides hs hk more none
    simp only [reduceCtorEq, if_false] at hupTo
    refine (hs.rounds least hupTo).congr fun before rest ht => ?_
    exact Words.rounds_then_upTo_iff (by simp [ht]) hmore
  cases greed with
  | greedy => cases most <;> exact hrounds (greedy_repeats step)
  | reluctant => cases most <;> exact hrounds (reluctant_repeats step)
  | possessive => exact absurd rfl hgreed

end Matcher

namespace Regex

variable {r s : Regex} {before rest : List Char}

theorem not_set_then_nil {s : CharSet} {mode : CharMode} :
    ¬(set s mode).Matches.Then K before [] := by
  rintro ⟨_, after, hnil, ⟨c, rfl, -⟩, -⟩
  cases hnil

theorem set_then_cons {s : CharSet} {mode : CharMode} {c : Char} :
    (set s mode).Matches.Then K before (c :: rest) ↔
      s.contains mode c = true ∧ K (before ++ [c]) rest := by
  constructor
  · rintro ⟨_, after, hcons, ⟨d, rfl, hd⟩, hK⟩
    cases hcons
    exact ⟨hd, hK⟩
  · rintro ⟨hc, hK⟩
    exact ⟨[c], rest, rfl, ⟨c, rfl, hc⟩, hK⟩

theorem anchor_then {a : Anchor} : (anchor a).Matches.Then K before rest ↔
    a.holds (before ++ rest).toArray before.length = true ∧ K before rest := by
  constructor
  · rintro ⟨_, rest', rfl, ⟨rfl, ha⟩, hK⟩
    exact ⟨ha, by rwa [List.append_nil] at hK⟩
  · rintro ⟨ha, hK⟩
    exact ⟨[], rest, rfl, ⟨rfl, ha⟩, by rwa [List.append_nil]⟩

theorem either_then : (either r s).Matches.Then K before rest ↔
    r.Matches.Then K before rest ∨ s.Matches.Then K before rest := by
  constructor
  · rintro ⟨word, after, hrest, hw | hw, hK⟩
    · exact .inl ⟨word, after, hrest, hw, hK⟩
    · exact .inr ⟨word, after, hrest, hw, hK⟩
  · rintro (⟨word, after, hrest, hw, hK⟩ | ⟨word, after, hrest, hw, hK⟩)
    · exact ⟨word, after, hrest, .inl hw, hK⟩
    · exact ⟨word, after, hrest, .inr hw, hK⟩

theorem set_finds (s : CharSet) (mode : CharMode) :
    ((set s mode).run text.toArray).Finds text (set s mode).Matches := by
  intro k K hk st before rest ht hp
  have hnext : text.toArray[st.position]? = rest[0]? := by
    rw [List.getElem?_toArray, ht, hp, List.getElem?_append_right (Nat.le_refl _), Nat.sub_self]
  simp only [run, hnext]
  cases rest with
  | nil => simpa using not_set_then_nil
  | cons c rest' =>
    have hstep := hk (st.advance 1) (before ++ [c]) rest' (by simp [ht])
      (by simp [MatchState.advance, hp])
    rw [set_then_cons, ← hstep]
    by_cases hc : s.contains mode c = true <;> simp [hc]

theorem anchor_finds (a : Anchor) :
    ((anchor a).run text.toArray).Finds text (anchor a).Matches := by
  intro k K hk st before rest ht hp
  rw [anchor_then, ← hk st before rest ht hp, ← ht, ← hp]
  simp only [run]
  split <;> simp_all

/-- The search for a regular expression finds a word that goes together with what follows exactly if
there is one. -/
theorem run_finds (h : r.regular = true) : (r.run text.toArray).Finds text r.Matches := by
  induction r with
  | empty =>
    intro k K hk
    rw [Matches, Words.nothing_then]
    exact hk
  | set s mode => exact set_finds s mode
  | anchor a => exact anchor_finds a
  | seq r s ihr ihs =>
    intro k K hk
    rw [regular, Bool.and_eq_true] at h
    rw [Matches, Words.seq_then]
    exact ihr h.1 (ihs h.2 hk)
  | either r s ihr ihs =>
    intro k K hk st before rest ht hp
    rw [regular, Bool.and_eq_true] at h
    rw [either_then, ← ihr h.1 hk st before rest ht hp, ← ihs h.2 hk st before rest ht hp]
    simp only [run]
    cases run text.toArray r st k <;> simp
  | times r least most greed ih =>
    rw [regular, Bool.and_eq_true, Bool.and_eq_true] at h
    obtain ⟨⟨hr, hmost⟩, hgreed⟩ := h
    have hs : (r.run text.toArray).Finds text r.Matches := ih hr
    have hbounds : ∀ m ∈ most, least ≤ m := by
      rintro m rfl
      simpa using hmost
    intro k K hk
    exact hs.times (by simpa using hgreed) hbounds hk
  | group index r ih =>
    intro k K hk st
    -- The search notes where the group starts and ends, which is nothing to what is found.
    exact ih h (fun st => hk (st.closeGroup index)) (st.openGroup index)
  | atomic r | look direction negated r | same index mode | ifGroup index yes no =>
    cases h

/-- A regular expression matches a text in full exactly if the text is one of its words. -/
theorem fullMatch_iff (h : r.regular = true) (s : String) :
    r.fullMatch s = true ↔ r.Matches [] s.toList [] := by
  have hend : Continuation.Decides s.toList
      (fun st => if st.position == s.toList.toArray.size then some st else none)
      fun _ rest => rest = [] := by
    intro st before rest ht hp
    simp only [hp, ht]
    cases rest <;> simp
  rw [fullMatch, run_finds h hend .initial [] s.toList rfl rfl]
  constructor
  · rintro ⟨word, _, hword, hw, rfl⟩
    rwa [hword, List.append_nil]
  · exact fun hw => ⟨s.toList, [], (List.append_nil _).symm, hw, rfl⟩

end Regex

end ToolCatalog
