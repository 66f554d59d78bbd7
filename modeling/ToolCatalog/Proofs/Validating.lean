import ToolCatalog.Proofs.Grammar
import ToolCatalog.Proofs.Standing

/-!
Which definitions are accepted where no patterns are set.

A definition is checked before anything else is done with it: its name, and then its permissions in
order. Main statement: under the patterns that hold by default there is no fault in a definition
exactly if its name is one and its permissions are; any other definition is refused for its name, or
else for the first permission that is none, and the registry stays as it was.
-/
namespace ToolCatalog

variable {defs : Definitions} {r : Registry} {d : ToolDefinition} {ps : List Value}

/-- A value that counts as a text of which something holds. -/
def Value.IsText (P : String → Prop) (v : Value) : Prop :=
  ∃ s, v.textual? = some s ∧ P s

theorem Value.IsText.of_textual {P : String → Prop} {v : Value} {s : String} (h : v.IsText P)
    (hs : v.textual? = some s) : P s := by
  obtain ⟨s', hs', hP⟩ := h
  cases hs'.symm.trans hs
  exact hP

/-! ## Default settings -/

theorem Pattern.ofSource_ok {source : String} {regex : Regex}
    (h : Regex.ofPattern source = .ok regex) :
    Pattern.ofSource source = .ok ⟨source, regex, h⟩ := by
  unfold ofSource
  split
  · rename_i regex' h'
    cases h'.symm.trans h
    rfl
  · rename_i f h'
    cases h'.symm.trans h

namespace Settings

/-- The settings where none is set. -/
def usual : Settings where
  toolNamePattern := ⟨SettingKey.toolNamePattern.default, toolNameRegex, ofPattern_toolName⟩
  permissionPattern := ⟨SettingKey.permissionPattern.default, permissionRegex, ofPattern_permission⟩
  logLevel := SettingKey.logLevel.default
  logFormat := SettingKey.logFormat.default

theorem patternOf_text {source : String} {regex : Regex} (h : Regex.ofPattern source = .ok regex) :
    patternOf (.text source) = .ok (.ok ⟨source, regex, h⟩) := by
  have htext : textOf (.text source) = .ok source := rfl
  rw [patternOf, htext]
  simp only [Pattern.ofSource_ok h]

theorem load_usual {env : Environment} {given : Entries Value}
    (hraw : ∀ key, raw env given key = .text key.default) (hknown : unknownNames env given = []) :
    load env given = .ok usual := by
  rw [load, hraw, hraw, hraw, hraw, hknown, patternOf_text ofPattern_toolName,
    patternOf_text ofPattern_permission]
  rfl

theorem load_empty : load .empty [] = .ok usual :=
  load_usual (fun key => by cases key <;> rfl) rfl

end Settings

namespace Registry

/-- Names and permissions have to match the patterns that hold by default. -/
structure UsualPatterns (r : Registry) : Prop where
  name : r.namePattern.source = SettingKey.toolNamePattern.default
  permission : r.permissionPattern.source = SettingKey.permissionPattern.default

/-- Whatever is asked of a registry for which nothing was set, its patterns stay those. -/
theorem through_usualPatterns (observable : Bool) (ops : List Operation) :
    (({ Registry.empty .usual with session := .fresh observable } : Registry).through
      defs ops).UsualPatterns := by
  have hfresh := (Orderly.empty .usual).withSession (Session.fresh_proper observable)
  have ho : Orderly .usual (through defs _ ops) := (through_orderly ops hfresh).1
  constructor
  · rw [ho.namePattern]
    rfl
  · rw [ho.permissionPattern]
    rfl

/-! ## Checking -/

theorem matchesText_iff {pattern : Pattern} {v : Value} {P : String → Prop}
    (h : ∀ s, pattern.fullMatch s = true ↔ P s) : matchesText pattern v = true ↔ v.IsText P := by
  simp only [matchesText, Value.IsText, Option.any_eq_true, h]

theorem UsualPatterns.name_iff (h : r.UsualPatterns) {v : Value} :
    matchesText r.namePattern v = true ↔ v.IsText IsToolName :=
  matchesText_iff fun _ => Pattern.fullMatch_iff_isToolName h.name

theorem UsualPatterns.permission_iff (h : r.UsualPatterns) {v : Value} :
    matchesText r.permissionPattern v = true ↔ v.IsText IsPermission :=
  matchesText_iff fun _ => Pattern.fullMatch_iff_isPermission h.permission

/-- The fault found in a definition with this name and these permissions. -/
inductive Blames (r : Registry) (name : Value) (ps : List Value) : RegistryFault → Prop
  | name {f : ToolFault} (hname : ¬name.IsText IsToolName) (hf : f = r.nameFault name)
      (hfield : f.field = some (.text "name")) : Blames r name ps (.tool f)
  /-- The name is one, and so are the permissions before this one. -/
  | permission {f : ToolFault} {front back : List Value} {p : Value}
      (hname : name.IsText IsToolName) (hps : ps = front ++ p :: back)
      (hfront : ∀ q ∈ front, q.IsText IsPermission) (hp : ¬p.IsText IsPermission)
      (hf : f = permissionFault name p) (hfield : f.field = some (.text "required_permissions"))
      (hnamed : f.context.permission = .text p.plain) : Blames r name ps (.tool f)

theorem validate_ok_iff (hr : r.UsualPatterns) (hps : defs.iterate? d.permissions = some ps) :
    r.validate defs d = .ok () ↔ d.name.IsText IsToolName ∧ ∀ p ∈ ps, p.IsText IsPermission := by
  simp only [← hr.name_iff, ← hr.permission_iff]
  constructor
  · intro h
    obtain ⟨hname, hall⟩ := validate_matches h
    exact ⟨hname, hall ps hps⟩
  · rintro ⟨hname, hall⟩
    exact validate_ok ps hname hps hall

theorem validate_error (hr : r.UsualPatterns) (hps : defs.iterate? d.permissions = some ps)
    {f : RegistryFault} (h : r.validate defs d = .error f) : r.Blames d.name ps f := by
  rw [validate, hps] at h
  cases hname : matchesText r.namePattern d.name with
  | false =>
    rw [hname] at h
    cases h
    exact .name (by simp [← hr.name_iff, hname]) rfl rfl
  | true =>
    rw [hname] at h
    cases hbad : ps.find? (!matchesText r.permissionPattern ·) with
    | none =>
      simp only [hbad] at h
      cases h
    | some p =>
      simp only [hbad] at h
      cases h
      obtain ⟨hp, front, back, hsplit, hfront⟩ := List.find?_eq_some_iff_append.mp hbad
      refine .permission (hr.name_iff.mp hname) hsplit (fun q hq => ?_) ?_ rfl rfl rfl
      · rw [← hr.permission_iff]
        simpa using hfront q hq
      · rw [← hr.permission_iff]
        simpa using hp

/-- Registration starts with the check, and an accepted name may still be taken. -/
theorem register_run (defs : Definitions) (r : Registry) (d : ToolDefinition) :
    (register defs d).run.run r = match r.validate defs d with
      | .error f => (.error f, r)
      | .ok () =>
        if (r.find? d.name).isSome then (.error (.tool (.duplicate d.name .empty)), r)
        else (store defs d).run.run r := by
  have hall : r.validateAll defs [] [d] = _ := validateAll_cons_eq r [] d []
  cases hv : r.validate defs d with
  | error f =>
    rw [hv] at hall
    exact register_refused hall
  | ok u =>
    cases hfind : r.find? d.name with
    | none => exact register_new hv hfind
    | some t =>
      rw [hv, hfind] at hall
      exact register_refused hall

/-! ## Accepting and refusing -/

/-- How a registry treats a definition with these permissions. -/
structure Judges (defs : Definitions) (r : Registry) (d : ToolDefinition) (ps : List Value) :
    Prop where
  accepted_iff : r.validate defs d = .ok () ↔
    d.name.IsText IsToolName ∧ ∀ p ∈ ps, p.IsText IsPermission
  fault : ∀ f, r.validate defs d = .error f → r.Blames d.name ps f
  /-- A text with a line feed at its end or with a character beyond ASCII is refused. -/
  unclean : ∀ v ∈ d.name :: ps, ∀ s, v.textual? = some s → ¬IsClean s →
    r.validate defs d ≠ .ok ()
  /-- A permission with nothing before, between or behind its colons is refused. -/
  gap : ∀ p ∈ ps, ∀ s, p.textual? = some s → [] ∈ s.toList.splitOn ':' →
    r.validate defs d ≠ .ok ()
  refused : ∀ f, r.validate defs d = .error f → (register defs d).run.run r = (.error f, r)
  accepted : r.validate defs d = .ok () → (register defs d).run.run r =
    if (r.find? d.name).isSome then (.error (.tool (.duplicate d.name .empty)), r)
    else (store defs d).run.run r

/-- Under the patterns that hold by default a definition is accepted exactly if its name is one and
its permissions are, whatever the registry holds. Otherwise its name is blamed, or else the first
permission that is none, and nothing is done. -/
theorem usual_judges (hr : r.UsualPatterns) (hps : defs.iterate? d.permissions = some ps) :
    r.Judges defs d ps := by
  have hok := validate_ok_iff hr hps
  exact {
    accepted_iff := hok
    fault := fun f hf => validate_error hr hps hf
    unclean := fun v hv s hs hclean haccepted => by
      obtain ⟨hname, hall⟩ := hok.mp haccepted
      rcases List.mem_cons.mp hv with rfl | hv
      · exact hclean (hname.of_textual hs).isClean
      · exact hclean ((hall v hv).of_textual hs).isClean
    gap := fun p hp s hs hgap haccepted => by
      obtain ⟨-, hall⟩ := hok.mp haccepted
      exact ((hall p hp).of_textual hs).notMem_nil hgap
    refused := fun f hf => by rw [register_run, hf]
    accepted := fun haccepted => by rw [register_run, haccepted] }

/-- A tool whose second permission ends with a colon. -/
def searchDefinition : ToolDefinition where
  name := .text "search_kb"
  description := .text "Searches the knowledge base."
  schema := .declared "Query"
  permissions := .list [.text "kb:read:*", .text "kb:"]

/-- Where nothing is set, the second permission is blamed. -/
theorem usual_judges_search :
    Settings.load .empty [] = .ok .usual ∧
      (register .empty searchDefinition).run.run (.empty .usual)
        = (.error (.tool (permissionFault (.text "search_kb") (.text "kb:"))), .empty .usual) := by
  have hj : (Registry.empty .usual).Judges .empty searchDefinition
      [.text "kb:read:*", .text "kb:"] := usual_judges ⟨rfl, rfl⟩ rfl
  have hname : searchDefinition.name.IsText IsToolName :=
    ⟨"search_kb", rfl, by decide, by decide, List.all_eq_true.mp rfl⟩
  have hread : (Value.text "kb:read:*").IsText IsPermission := by
    refine ⟨"kb:read:*", rfl, ['k', 'b'], [['r', 'e', 'a', 'd'], ['*']], by decide, ?_, ?_⟩
    · exact ⟨rfl, List.all_eq_true.mp rfl⟩
    · simp [IsFurtherSegment, segmentChar]
  refine ⟨Settings.load_empty, ?_⟩
  cases hv : (Registry.empty .usual).validate .empty searchDefinition with
  | ok u => exact absurd hv (hj.gap (.text "kb:") (by simp) "kb:" rfl (by decide))
  | error f =>
    rw [hj.refused f hv]
    cases hj.fault f hv with
    | name hbad _ _ => exact absurd hname hbad
    | @permission f front back p _ hps hfront hp hf =>
      rcases front with _ | ⟨q, front⟩
      · cases hps
        exact absurd hread hp
      · cases front with
        | nil =>
          cases hps
          rw [hf]
          rfl
        | cons q' front => simp at hps

end Registry

end ToolCatalog
