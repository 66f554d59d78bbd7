import ToolCatalog.Proofs.Plain

/-!
When a call fails.

A call fails exactly if it meets an enumeration or a constant with a member whose conversion to JSON
data fails in another way than by lying outside every data format. It meets what stands in arrays,
in records and in the fields of the object classes that have no descriptor yet; so a call may
succeed because an earlier one has failed half-way.
-/
namespace ToolCatalog

section

variable {defs : Definitions} {s s' : Session} {t u : TypeExpr} {a : Address} {f : DataFault}

theorem Walked.shows {fs : List (String × TypeExpr)} {x : Body} (h : Walked defs s fs x) :
    ∀ e ∈ fs, ∃ a, Shows defs s e.2 a := by
  induction h with
  | nil => simp
  | snoc _ ht ih =>
    intro e he
    rcases List.mem_append.mp he with he | he
    · exact ih e he
    · rw [List.mem_singleton.mp he]
      exact ⟨_, ht⟩

theorem Shows.not_refuses (h : Shows defs s t a) : ¬(t.core.base defs).Refuses f := by
  intro hf
  cases h with
  | object hb _ _ _ =>
    obtain ⟨ms, hms, -⟩ := hf
    rw [hb] at hms
    cases hms
  | value _ _ hrec _ _ =>
    rw [Base.recordOf_error.mpr ⟨f, hf, rfl⟩] at hrec
    cases hrec

/-- Nothing that refuses is met on the way to a descriptor, whether it was made between two sessions
or before. -/
theorem Shows.not_refuses_of_leads (hset : Settled defs s s') (hl : Leads defs s t u)
    (h : Shows defs s' t a) : ¬(u.core.base defs).Refuses f := by
  induction hl generalizing a with
  | here t => exact h.not_refuses
  | part hp _ ih =>
    cases h with
    | object hb _ _ _ =>
      rw [hb] at hp
      cases hp
    | value _ hpart _ _ _ => exact ih (hpart _ hp)
  | @field t v u c name hb hn hf _ ih =>
    cases h with
    | object hb' hc' _ _ =>
      obtain ⟨m, hm, hfind⟩ := TypeExpr.base_object hb
      rw [hm] at hn hc'
      obtain ⟨b, x, -, -, hw⟩ := hset.complete hfind hn (by simp [hc'])
      obtain ⟨a', ha'⟩ := hw.shows _ hf
      exact ih ha'
    | value hb' _ _ _ _ =>
      rw [hb] at hb'
      cases hb'

end

/-- Whether a call looks into its expression: parameters are only looked into if they are an object
class. -/
def Call.looksInto (defs : Definitions) : Call → Bool
  | .describe _ => true
  | .compile t => (t.base defs).isObject

theorem Call.looksInto_of_error {defs : Definitions} {s s' : Session} {c : Call} {e : CompileFault}
    (h : s.run (c.run defs) = (.error e, s')) : c.looksInto defs = true := by
  cases c with
  | describe t => rfl
  | compile t =>
    generalize hr : s.run ((Call.compile t).run defs) = r at h
    have hcase := describeParameters_run defs s t
    rw [show s.run (describeParameters defs t) = r from hr] at hcase
    cases hcase with
    | object hb => exact congrArg Base.isObject hb
    | empty _ _ => cases h

/-- After any calls, failed ones included, the next call fails exactly if it meets a member without
data. -/
theorem call_fails_iff (source : Source) (observable : Bool) (calls : List Call)
    (hcalls : ∀ c ∈ calls, source.Expression c.type) (c : Call) (hc : source.Expression c.type) :
    let s := (Session.after source.definitions (.fresh observable) calls).2
    (∃ e, (s.run (c.run source.definitions)).1 = .error e) ↔
      c.looksInto source.definitions = true ∧ ∃ u f, Leads source.definitions s c.type u ∧
        (u.core.base source.definitions).Refuses f := by
  intro s
  obtain ⟨U, hU, hexpr⟩ := source.universe
  obtain ⟨-, -, hinv⟩ := Session.after_preserves hU (fun c hc => hexpr _ (hcalls c hc))
    (.fresh observable)
  rcases hr : s.run (c.run source.definitions) with ⟨r, s'⟩
  have hp := Call.preserves hU (hexpr _ hc) hinv hr
  constructor
  · rintro ⟨e, rfl⟩
    obtain ⟨u, f, hl, hf, -⟩ := Call.explained hr
    exact ⟨Call.looksInto_of_error hr, u, f, hl, hf⟩
  · rintro ⟨hlook, u, f, hl, hf⟩
    cases r with
    | error e => exact ⟨e, rfl⟩
    | ok a =>
      refine absurd hf ?_
      cases c with
      | describe t =>
        have h : Shows source.definitions s' t a := hp.result a rfl
        exact h.not_refuses_of_leads (hp.settled a rfl) hl
      | compile t =>
        cases (hp.result a rfl : ShowsParameters _ _ _ _) with
        | object _ h => exact h.not_refuses_of_leads (hp.settled a rfl) hl
        | empty hb _ _ =>
          rw [Call.looksInto, hb] at hlook
          cases hlook

/-- A literal of bytes that are no UTF-8 text. -/
def bytesSource : Source where
  declarations := []
  written := [.literal [.bytes [0xff]]]

theorem describe_bytes_fails :
    bytesSource.nodes = [.literal 0 [.bytes [0xff]]] ∧
      ((Session.fresh false).run (describe bytesSource.definitions (.literal 0 [.bytes [0xff]]))).1
        = .error (.data .invalidText) :=
  ⟨rfl, rfl⟩

theorem call_fails_iff_bytes :
    (∃ e, ((Session.fresh false).run
        ((Call.describe (.literal 0 [.bytes [0xff]])).run bytesSource.definitions)).1 = .error e) ↔
      (Call.describe (.literal 0 [.bytes [0xff]])).looksInto bytesSource.definitions = true ∧
        ∃ u f, Leads bytesSource.definitions (.fresh false) (.literal 0 [.bytes [0xff]]) u ∧
          (u.core.base bytesSource.definitions).Refuses f := by
  have hnodes : bytesSource.nodes = [.literal 0 [.bytes [0xff]]] := rfl
  exact call_fails_iff bytesSource false [] (by simp) (.describe (.literal 0 [.bytes [0xff]]))
    (.node (by rw [hnodes]; exact List.mem_singleton.mpr rfl))

end ToolCatalog
