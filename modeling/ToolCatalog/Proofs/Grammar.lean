import Mathlib.Data.List.Basic
import ToolCatalog.Proofs.Matching
import ToolCatalog.Settings

/-!
The names and permissions that are matched where no pattern is set.

A name has up to 64 characters of one kind. A permission is made of segments between colons, of
which the first starts with a letter and the others may hold asterisks. Main statements: the
patterns that hold by default match a text in full exactly if it is such a name or such a
permission, so neither matches a text with a line feed at its end or with a character beyond ASCII.
-/
namespace ToolCatalog

/-! ## The grammar -/

/-- Whether a character can stand in a name: an ASCII letter or digit, an underscore or a hyphen. -/
def nameChar (c : Char) : Bool :=
  c.isAlphanum || c == '_' || c == '-'

/-- Whether a character can stand in any segment of a permission: a small ASCII letter, a digit, an
underscore or a hyphen. -/
def segmentChar (c : Char) : Bool :=
  c.isLower || c.isDigit || c == '_' || c == '-'

/-- A name has from one to 64 characters. -/
def IsToolName (s : String) : Prop :=
  1 ≤ s.length ∧ s.length ≤ 64 ∧ ∀ c ∈ s.toList, nameChar c = true

/-- The first segment of a permission starts with a small letter. -/
def IsFirstSegment : List Char → Prop
  | [] => False
  | c :: rest => c.isLower = true ∧ ∀ d ∈ rest, segmentChar d = true

/-- A further segment is not empty, and may hold asterisks. -/
def IsFurtherSegment (segment : List Char) : Prop :=
  segment ≠ [] ∧ ∀ c ∈ segment, segmentChar c = true ∨ c = '*'

/-- A permission is a first segment and any number of further ones, between colons. -/
def IsPermission (s : String) : Prop :=
  ∃ first further, s.toList.splitOn ':' = first :: further ∧ IsFirstSegment first ∧
    ∀ segment ∈ further, IsFurtherSegment segment

/-! ## Characters -/

section

variable {c : Char}

theorem isLower_iff : c.isLower = true ↔ 97 ≤ c.toNat ∧ c.toNat ≤ 122 := by
  show (decide (c.val ≥ 'a'.val) && decide (c.val ≤ 'z'.val)) = true ↔ _
  simp [UInt32.le_iff_toNat_le]

theorem isUpper_iff : c.isUpper = true ↔ 65 ≤ c.toNat ∧ c.toNat ≤ 90 := by
  show decide (c.val ≥ 'A'.val ∧ c.val ≤ 'Z'.val) = true ↔ _
  simp [UInt32.le_iff_toNat_le]

theorem isDigit_iff : c.isDigit = true ↔ 48 ≤ c.toNat ∧ c.toNat ≤ 57 := by
  simp [Char.isDigit, UInt32.le_iff_toNat_le]

theorem nameChar_iff : nameChar c = true ↔ 97 ≤ c.toNat ∧ c.toNat ≤ 122 ∨
    65 ≤ c.toNat ∧ c.toNat ≤ 90 ∨ 48 ≤ c.toNat ∧ c.toNat ≤ 57 ∨ c.toNat = 95 ∨ c.toNat = 45 := by
  have hletter : c.isAlphanum = (c.isUpper || c.isLower || c.isDigit) := rfl
  simp only [nameChar, hletter, Bool.or_eq_true, beq_iff_eq, isLower_iff, isUpper_iff, isDigit_iff,
    ← Char.toNat_inj, Char.reduceToNat]
  omega

theorem segmentChar_iff : segmentChar c = true ↔ 97 ≤ c.toNat ∧ c.toNat ≤ 122 ∨
    48 ≤ c.toNat ∧ c.toNat ≤ 57 ∨ c.toNat = 95 ∨ c.toNat = 45 := by
  simp only [segmentChar, Bool.or_eq_true, beq_iff_eq, isLower_iff, isDigit_iff, ← Char.toNat_inj,
    Char.reduceToNat]
  omega

end

/-! ## Segments -/

section

variable {x : Char} {w first segment : List Char} {further : List (List Char)}

theorem intercalate_cons : [x].intercalate (first :: further)
    = first ++ further.flatMap (x :: ·) := by
  induction further generalizing first with
  | nil => simp [List.intercalate]
  | cons next rest ih => rw [List.intercalate_cons_cons, ih]; simp

/-- A text is its segments with separators between them. -/
theorem eq_of_splitOn (h : w.splitOn x = first :: further) :
    w = first ++ further.flatMap (x :: ·) := by
  rw [← intercalate_cons, ← h, List.intercalate_splitOn]

theorem splitOn_of_notMem (h : ∀ segment ∈ first :: further, x ∉ segment) :
    (first ++ further.flatMap (x :: ·)).splitOn x = first :: further := by
  rw [← intercalate_cons, List.splitOn_intercalate x h (List.cons_ne_nil first further)]

theorem IsFirstSegment.plain (h : IsFirstSegment first) : ∀ c ∈ first, segmentChar c = true := by
  cases first with
  | nil => exact h.elim
  | cons c rest =>
    obtain ⟨hc, hrest⟩ := h
    refine List.forall_mem_cons.mpr ⟨?_, hrest⟩
    rw [isLower_iff] at hc
    rw [segmentChar_iff]
    exact .inl hc

theorem IsFirstSegment.notMem_colon (h : IsFirstSegment first) : ':' ∉ first :=
  fun hmem => by simpa [segmentChar] using h.plain ':' hmem

theorem IsFurtherSegment.notMem_colon (h : IsFurtherSegment segment) : ':' ∉ segment :=
  fun hmem => by simpa [segmentChar] using h.2 ':' hmem

/-- A permission is its segments, written with colons before all but the first. -/
theorem isPermission_iff {s : String} : IsPermission s ↔
    ∃ (first : List Char) (further : List (List Char)),
      s.toList = first ++ further.flatMap (':' :: ·) ∧ IsFirstSegment first ∧
        ∀ segment ∈ further, IsFurtherSegment segment := by
  constructor
  · rintro ⟨first, further, hsplit, hfirst, hfurther⟩
    exact ⟨first, further, eq_of_splitOn hsplit, hfirst, hfurther⟩
  · rintro ⟨first, further, hs, hfirst, hfurther⟩
    have hcolon : ∀ segment ∈ first :: further, ':' ∉ segment :=
      List.forall_mem_cons.mpr
        ⟨hfirst.notMem_colon, fun segment h => (hfurther segment h).notMem_colon⟩
    exact ⟨first, further, hs ▸ splitOn_of_notMem hcolon, hfirst, hfurther⟩

end

/-! ## What neither a name nor a permission holds -/

/-- All characters are ASCII, and the last one is no line feed. -/
def IsClean (s : String) : Prop :=
  (∀ c ∈ s.toList, c.toNat < 128) ∧ s.toList.getLast? ≠ some '\n'

theorem IsClean.of_chars {s : String} (h : ∀ c ∈ s.toList, c.toNat < 128 ∧ c ≠ '\n') :
    IsClean s :=
  ⟨fun c hc => (h c hc).1, fun hlast => (h '\n' (List.mem_of_getLast? hlast)).2 rfl⟩

theorem IsToolName.isClean {s : String} (h : IsToolName s) : IsClean s := by
  refine .of_chars fun c hc => ?_
  have hname := nameChar_iff.mp (h.2.2 c hc)
  refine ⟨by omega, fun hline => ?_⟩
  subst hline
  exact absurd hname (by decide)

theorem IsPermission.isClean {s : String} (h : IsPermission s) : IsClean s := by
  obtain ⟨first, further, hs, hfirst, hfurther⟩ := isPermission_iff.mp h
  have hplain {c : Char} (h : segmentChar c = true) : c.toNat < 128 ∧ c ≠ '\n' := by
    have hc := segmentChar_iff.mp h
    refine ⟨by omega, fun hline => ?_⟩
    subst hline
    exact absurd hc (by decide)
  refine .of_chars fun c hc => ?_
  rw [hs, List.mem_append, List.mem_flatMap] at hc
  rcases hc with hc | ⟨segment, hsegment, hc⟩
  · exact hplain (hfirst.plain c hc)
  · rcases List.mem_cons.mp hc with rfl | hc
    · decide
    · rcases (hfurther segment hsegment).2 c hc with hc | rfl
      · exact hplain hc
      · decide

/-- No segment of a permission is empty. -/
theorem IsPermission.notMem_nil {s : String} (h : IsPermission s) : [] ∉ s.toList.splitOn ':' := by
  obtain ⟨first, further, hsplit, hfirst, hfurther⟩ := h
  rw [hsplit]
  rintro hnil
  rcases List.mem_cons.mp hnil with rfl | hnil
  · exact hfirst.elim
  · exact (hfurther [] hnil).1 rfl

/-! ## Words of the expressions -/

namespace Words

variable {α : Type} {M : Words} {write : α → List Char} {P : α → Prop} {n : Nat}
  {before word after : List Char}

/-- Words that are the same everywhere, one after the other: what they say is a list. -/
theorem rounds_iff (hM : ∀ before word after, M before word after ↔ ∃ x, word = write x ∧ P x) :
    M.rounds n before word after ↔
      ∃ xs : List α, xs.length = n ∧ word = xs.flatMap write ∧ ∀ x ∈ xs, P x := by
  induction n generalizing before word with
  | zero =>
    constructor
    · rintro rfl
      exact ⟨[], rfl, rfl, by simp⟩
    · rintro ⟨xs, hlen, rfl, -⟩
      rw [List.length_eq_zero_iff.mp hlen]
      rfl
  | succ n ih =>
    constructor
    · rintro ⟨u, v, rfl, hu, hv⟩
      obtain ⟨x, rfl, hx⟩ := (hM _ _ _).mp hu
      obtain ⟨xs, rfl, rfl, hxs⟩ := ih.mp hv
      exact ⟨x :: xs, rfl, rfl, List.forall_mem_cons.mpr ⟨hx, hxs⟩⟩
    · rintro ⟨_ | ⟨x, xs⟩, hlen, rfl, hall⟩
      · cases hlen
      · obtain ⟨hx, hxs⟩ := List.forall_mem_cons.mp hall
        exact ⟨write x, xs.flatMap write, rfl, (hM _ _ _).mpr ⟨x, rfl, hx⟩,
          ih.mpr ⟨xs, Nat.succ.inj hlen, rfl, hxs⟩⟩

theorem times_iff (hM : ∀ before word after, M before word after ↔ ∃ x, word = write x ∧ P x)
    {least : Nat} {most : Option Nat} : M.times least most before word after ↔
      ∃ xs : List α, word = xs.flatMap write ∧ (∀ x ∈ xs, P x) ∧ least ≤ xs.length ∧
        ∀ m ∈ most, xs.length ≤ m := by
  constructor
  · rintro ⟨n, hleast, hmost, hw⟩
    obtain ⟨xs, rfl, rfl, hxs⟩ := (rounds_iff hM).mp hw
    exact ⟨xs, rfl, hxs, hleast, hmost⟩
  · rintro ⟨xs, rfl, hxs, hleast, hmost⟩
    exact ⟨xs.length, hleast, hmost, (rounds_iff hM).mpr ⟨xs, rfl, rfl, hxs⟩⟩

end Words

namespace Regex

variable {r : Regex} {s : CharSet} {mode : CharMode} {greed : Greed} {least : Nat}
  {most : Option Nat} {before word after : List Char}

/-- A repeated set matches words of its characters. -/
theorem matches_times_set : (times (set s mode) least most greed).Matches before word after ↔
    (∀ c ∈ word, s.contains mode c = true) ∧ least ≤ word.length ∧
      ∀ m ∈ most, word.length ≤ m := by
  have hset (before word after : List Char) : (set s mode).Matches before word after ↔
      ∃ c, word = [c] ∧ s.contains mode c = true := Iff.rfl
  rw [Matches, Words.times_iff hset]
  simp

theorem matches_start_seq : (seq (anchor .start) r).Matches [] word after ↔
    r.Matches [] word after := by
  constructor
  · rintro ⟨_, v, rfl, ⟨rfl, -⟩, hv⟩
    exact hv
  · exact fun h => ⟨[], word, rfl, ⟨rfl, rfl⟩, h⟩

theorem matches_seq_finish : (seq r (anchor .finish)).Matches before word [] ↔
    r.Matches before word [] := by
  constructor
  · rintro ⟨u, _, rfl, hu, rfl, -⟩
    simpa using hu
  · intro h
    refine ⟨word, [], (List.append_nil word).symm, h, rfl, ?_⟩
    simp [Anchor.holds]

end Regex

/-! ## The patterns that hold by default -/

/-- Characters are compared as they are. -/
def CharMode.exact : CharMode := ⟨false, false⟩

/-- What can stand in a name. -/
def nameSet : CharSet :=
  ⟨false, [.range 97 122, .range 65 90, .range 48 57, .char 95, .char 45]⟩

def lowerSet : CharSet := ⟨false, [.range 97 122]⟩

def segmentSet : CharSet := ⟨false, [.range 97 122, .range 48 57, .char 95, .char 45]⟩

def furtherSet : CharSet :=
  ⟨false, [.range 97 122, .range 48 57, .char 95, .char 42, .char 45]⟩

def toolNameRegex : Regex :=
  .seq (.anchor .start) (.seq (.times (.set nameSet .exact) 1 (some 64) .greedy) (.anchor .finish))

/-- A colon and a segment behind it. -/
def furtherRegex : Regex :=
  .group 1 (.seq (.set (.single 58) .exact) (.times (.set furtherSet .exact) 1 none .greedy))

def permissionRegex : Regex :=
  .seq (.anchor .start) (.seq (.set lowerSet .exact)
    (.seq (.times (.set segmentSet .exact) 0 none .greedy)
      (.seq (.times furtherRegex 0 none .greedy) (.anchor .finish))))

theorem ofPattern_of_toOption {source : String} {r : Regex}
    (h : (Regex.ofPattern source).toOption = some r) : Regex.ofPattern source = .ok r := by
  cases hp : Regex.ofPattern source with
  | ok r' =>
    rw [hp] at h
    cases h
    rfl
  | error f =>
    rw [hp] at h
    cases h

theorem ofPattern_toolName :
    Regex.ofPattern SettingKey.toolNamePattern.default = .ok toolNameRegex :=
  ofPattern_of_toOption (by decide +kernel)

theorem ofPattern_permission :
    Regex.ofPattern SettingKey.permissionPattern.default = .ok permissionRegex :=
  ofPattern_of_toOption (by decide +kernel)

section

variable {c : Char} {before word after : List Char}

theorem contains_nameSet : nameSet.contains .exact c = true ↔ nameChar c = true := by
  simp [nameChar_iff, CharSet.contains, nameSet, CharItem.contains, CharMode.variants,
    CharMode.exact]

theorem contains_lowerSet : lowerSet.contains .exact c = true ↔ c.isLower = true := by
  simp [isLower_iff, CharSet.contains, lowerSet, CharItem.contains, CharMode.variants,
    CharMode.exact]

theorem contains_segmentSet : segmentSet.contains .exact c = true ↔ segmentChar c = true := by
  simp [segmentChar_iff, CharSet.contains, segmentSet, CharItem.contains, CharMode.variants,
    CharMode.exact]

theorem contains_furtherSet :
    furtherSet.contains .exact c = true ↔ segmentChar c = true ∨ c = '*' := by
  simp [segmentChar_iff, CharSet.contains, furtherSet, CharItem.contains, CharMode.variants,
    CharMode.exact, ← Char.toNat_inj]
  omega

theorem contains_colon : (CharSet.single 58).contains .exact c = true ↔ c = ':' := by
  simp [CharSet.contains, CharSet.single, CharItem.contains, CharMode.variants, CharMode.exact,
    ← Char.toNat_inj]

theorem toolNameRegex_matches : toolNameRegex.Matches [] word [] ↔
    1 ≤ word.length ∧ word.length ≤ 64 ∧ ∀ c ∈ word, nameChar c = true := by
  rw [toolNameRegex, Regex.matches_start_seq, Regex.matches_seq_finish, Regex.matches_times_set]
  simp only [contains_nameSet, Option.mem_some_iff, forall_eq']
  tauto

/-- What can follow the first segment: a colon and a further one. -/
theorem furtherRegex_matches : furtherRegex.Matches before word after ↔
    ∃ segment, word = ':' :: segment ∧ IsFurtherSegment segment := by
  have hsegment {before segment after : List Char} :
      (Regex.times (.set furtherSet .exact) 1 none .greedy).Matches before segment after ↔
        IsFurtherSegment segment := by
    rw [Regex.matches_times_set]
    simp [contains_furtherSet, IsFurtherSegment, Nat.one_le_iff_ne_zero, and_comm]
  constructor
  · rintro ⟨_, segment, rfl, ⟨c, rfl, hc⟩, hs⟩
    rw [contains_colon.mp hc]
    exact ⟨segment, rfl, hsegment.mp hs⟩
  · rintro ⟨segment, rfl, hs⟩
    exact ⟨[':'], segment, rfl, ⟨':', rfl, contains_colon.mpr rfl⟩, hsegment.mpr hs⟩

theorem repeated_furtherRegex_matches :
    (Regex.times furtherRegex 0 none .greedy).Matches before word after ↔
      ∃ further : List (List Char), word = further.flatMap (':' :: ·) ∧
        ∀ segment ∈ further, IsFurtherSegment segment := by
  rw [Regex.Matches, Words.times_iff fun _ _ _ => furtherRegex_matches]
  simp

theorem permissionRegex_matches : permissionRegex.Matches [] word [] ↔
    ∃ (first : List Char) (further : List (List Char)),
      word = first ++ further.flatMap (':' :: ·) ∧ IsFirstSegment first ∧
        ∀ segment ∈ further, IsFurtherSegment segment := by
  rw [permissionRegex, Regex.matches_start_seq]
  constructor
  · rintro ⟨_, _, rfl, ⟨c, rfl, hc⟩, rest, v, rfl, hrest, hv⟩
    rw [Regex.matches_seq_finish, repeated_furtherRegex_matches] at hv
    rw [Regex.matches_times_set] at hrest
    obtain ⟨further, rfl, hfurther⟩ := hv
    refine ⟨c :: rest, further, rfl, ⟨contains_lowerSet.mp hc, fun d hd => ?_⟩, hfurther⟩
    exact contains_segmentSet.mp (hrest.1 d hd)
  · rintro ⟨_ | ⟨c, rest⟩, further, rfl, hfirst, hfurther⟩
    · exact hfirst.elim
    · obtain ⟨hc, hrest⟩ := hfirst
      refine ⟨[c], rest ++ further.flatMap (':' :: ·), rfl, ⟨c, rfl, contains_lowerSet.mpr hc⟩,
        rest, further.flatMap (':' :: ·), rfl, ?_, ?_⟩
      · rw [Regex.matches_times_set]
        exact ⟨fun d hd => contains_segmentSet.mpr (hrest d hd), Nat.zero_le _, by simp⟩
      · rw [Regex.matches_seq_finish, repeated_furtherRegex_matches]
        exact ⟨further, rfl, hfurther⟩

end

namespace Pattern

variable {p : Pattern} {s : String}

/-- A pattern is determined by its source. -/
theorem regex_eq {r : Regex} (hr : Regex.ofPattern p.source = .ok r) : p.regex = r :=
  Except.ok.inj (p.valid.symm.trans hr)

/-- Where no other pattern for names is set, the texts that match are the names. -/
theorem fullMatch_iff_isToolName (hp : p.source = SettingKey.toolNamePattern.default) :
    p.fullMatch s = true ↔ IsToolName s := by
  have hr : p.regex = toolNameRegex := regex_eq (hp ▸ ofPattern_toolName)
  rw [fullMatch, hr, Regex.fullMatch_iff rfl, toolNameRegex_matches, String.length_toList]
  rfl

/-- Where no other pattern for permissions is set, the texts that match are the permissions. -/
theorem fullMatch_iff_isPermission (hp : p.source = SettingKey.permissionPattern.default) :
    p.fullMatch s = true ↔ IsPermission s := by
  have hr : p.regex = permissionRegex := regex_eq (hp ▸ ofPattern_permission)
  rw [fullMatch, hr, Regex.fullMatch_iff rfl, permissionRegex_matches, isPermission_iff]

end Pattern

end ToolCatalog
