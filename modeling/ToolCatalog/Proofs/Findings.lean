import ToolCatalog.Proofs.Lookups

/-!
One descriptor for an expression, over any number of calls.

Every descriptor that is found under a key, at any time in any call, is the one that is remembered
there at the end, exactly if the key is never met again while it is pending. Then the fields of all
classes whose expression has the key hold that very descriptor.
-/
namespace ToolCatalog

/-- The job with which a call begins, if it looks into its expression. -/
inductive Call.Begins (defs : Definitions) (s : Session) : Call → Job → Prop
  | describe {t} : Call.Begins defs s (.describe t) ⟨s, .field t none⟩
  | object {name c} (hf : defs.find? name = some (.object c)) :
      Call.Begins defs s (.compile (.declared name)) ⟨s, .object name c⟩

/-- The jobs of calls one after the other. -/
inductive Occurs (defs : Definitions) : Session → List Call → Job → Prop
  | now {s c rest m m'} (hb : Call.Begins defs s c m) (h : m.Leads defs m') :
      Occurs defs s (c :: rest) m'
  | later {s c rest m} (h : Occurs defs (s.run (c.run defs)).2 rest m) :
      Occurs defs s (c :: rest) m

/-- A descriptor is found under a key at some time during the calls. -/
def Found (defs : Definitions) (s : Session) (calls : List Call) (k : Key) (a : Address) : Prop :=
  ∃ m, Occurs defs s calls m ∧ m.Finds defs k a

/-- During the calls a key is met again while it is pending. -/
def Recurs (defs : Definitions) (s : Session) (calls : List Call) (k : Key) : Prop :=
  ∃ m, Occurs defs s calls m ∧ m.MeetsAgain defs k

/-- The properties of a body are descriptors that were found for these fields. -/
def Body.Finds (defs : Definitions) (s : Session) (calls : List Call)
    (fs : List (String × TypeExpr)) (x : Body) : Prop :=
  List.Forall₂ (fun f e => f.1 = e.1 ∧
    (f.2.watchable = true → Found defs s calls f.2.key e.2)) (Entries.ofList fs) x.properties

variable {defs : Definitions} {U : TypeExpr → Prop} {s s' s₀ : Session} {calls : List Call}
  {call : Call} {a b : Address} {k : Key} {name : String} {c : ObjectClass} {m m' : Job}
  {res : Except CompileFault Address × Session}

/-! ## Calls -/

theorem Call.Begins.comes (h : Call.Begins defs s call m) :
    m.Comes defs (s.run (call.run defs)) := by
  obtain ⟨names, he⟩ := call.evaluates defs s
  generalize s.run (call.run defs) = res at he ⊢
  cases h with
  | describe =>
    cases he with
    | describe he => exact ⟨names, he⟩
  | object hf =>
    cases he with
    | object hf' he =>
      rw [hf] at hf'
      cases hf'
      exact ⟨names, he⟩
    | empty hb =>
      rw [TypeExpr.base_declared hf] at hb
      cases hb

theorem Call.Begins.session_eq (h : Call.Begins defs s call m) : m.session = s := by
  cases h <;> rfl

theorem Call.Begins.ready (hi : Invariant defs U s) (hc : U call.type)
    (h : Call.Begins defs s call m) : m.Ready defs U := by
  cases h with
  | describe => exact ⟨hi, hc, by simp⟩
  | object hf => exact ⟨hi, hc, hf⟩

/-- A call begins with a job, or remembers nothing. -/
theorem Call.begins_or (defs : Definitions) (s : Session) (call : Call) :
    (∃ m, Call.Begins defs s call m) ∨ ∀ k, (s.run (call.run defs)).2.known? k = s.known? k := by
  cases call with
  | describe t => exact .inl ⟨_, .describe⟩
  | compile t =>
    have h := describeParameters_run defs s t
    change _ ∨ ∀ k, (s.run (describeParameters defs t)).2.known? k = _
    generalize s.run (describeParameters defs t) = res at h ⊢
    cases h with
    | object hb =>
      obtain ⟨name, rfl, hf⟩ := TypeExpr.base_object hb
      exact .inl ⟨_, .object hf⟩
    | empty _ hs => exact .inr fun k => hs.known? k

/-- Nothing that is remembered is forgotten by a call. -/
theorem Call.keeps_known (call : Call) (hk : s.known? k = some a) :
    (s.run (call.run defs)).2.known? k = some a := by
  rcases call.begins_or defs s with ⟨m, hb⟩ | hsame
  · obtain ⟨names, he⟩ := hb.comes
    exact he.keeps_known (by rwa [hb.session_eq])
  · rw [hsame, hk]

theorem Session.after_keeps_known (hk : s.known? k = some a) :
    (s.after defs calls).2.known? k = some a := by
  induction calls generalizing s with
  | nil => exact hk
  | cons call rest ih => exact ih (call.keeps_known hk)

/-- The session that a call leaves behind is sound. -/
theorem Call.invariant (hU : Universe defs U) (hi : Invariant defs U s) (hc : U call.type) :
    Invariant defs U (s.run (call.run defs)).2 :=
  (Call.preserves hU hc hi (r := (s.run (call.run defs)).1) rfl).inv

/-! ## Jobs -/

namespace Occurs

theorem step (h : Occurs defs s calls m) (hnext : HandsOn defs m m') : Occurs defs s calls m' := by
  induction h with
  | now hb hleads => exact .now hb (hleads.tail hnext)
  | later _ ih => exact .later (ih hnext)

theorem leads (h : Occurs defs s calls m) (hleads : m.Leads defs m') : Occurs defs s calls m' := by
  induction hleads with
  | refl => exact h
  | tail _ hlast ih => exact ih.step hlast

theorem ready (hU : Universe defs U) (hcalls : ∀ c ∈ calls, U c.type) (hi : Invariant defs U s)
    (h : Occurs defs s calls m) : m.Ready defs U := by
  induction h with
  | now hb hleads => exact Job.Leads.ready hU hleads (hb.ready hi (hcalls _ List.mem_cons_self))
  | later _ ih =>
    exact ih (fun c hc => hcalls c (List.mem_cons_of_mem _ hc))
      (Call.invariant hU hi (hcalls _ List.mem_cons_self))

theorem comes (h : Occurs defs s calls m) : ∃ res, m.Comes defs res := by
  induction h with
  | now hb hleads =>
    obtain ⟨res, he, -⟩ := Job.Leads.comes hleads hb.comes
    exact ⟨res, he⟩
  | later _ ih => exact ih

/-- What is found by a job is remembered at the end, unless its key is met again. -/
theorem known (hU : Universe defs U) (hcalls : ∀ c ∈ calls, U c.type) (hi : Invariant defs U s)
    (h : Occurs defs s calls m) (hnot : ¬Recurs defs s calls k) (hf : m.Finds defs k a) :
    (s.after defs calls).2.known? k = some a := by
  induction h with
  | @now s call rest m m' hb hleads =>
    have hready := hb.ready hi (hcalls call List.mem_cons_self)
    have hk := Job.Leads.known hU hleads hready hb.comes
      (fun m₁ h₁ hagain => hnot ⟨m₁, .now hb h₁, hagain⟩) hf
    have hlast : ((s.run (call.run defs)).2.after defs rest).2.known? k = some a :=
      Session.after_keeps_known hk
    exact hlast
  | @later s call rest m _ ih =>
    refine ih (fun c hc => hcalls c (List.mem_cons_of_mem _ hc))
      (Call.invariant hU hi (hcalls call List.mem_cons_self)) ?_ hf
    rintro ⟨m₁, h₁, hagain⟩
    exact hnot ⟨m₁, .later h₁, hagain⟩

/-- What is remembered before the calls is all that is found there. -/
theorem finds_eq (h : Occurs defs s calls m) (hk : s.known? k = some a) (hf : m.Finds defs k b) :
    b = a := by
  induction h with
  | now hb hleads => exact Job.Leads.finds_eq hleads (by rwa [hb.session_eq]) hf
  | later _ ih => exact ih (Call.keeps_known _ hk) hf

/-- Descriptors and bodies that are there at the end of a job are the same after all calls, but for
the bodies that were begun before. -/
theorem session_keeps (hU : Universe defs U) (hcalls : ∀ c ∈ calls, U c.type)
    (hi : Invariant defs U s) (h : Occurs defs s calls m) (he : m.Comes defs res) :
    (∀ (u : Address) r, res.2.graph.records[u]? = some r →
      (s.after defs calls).2.graph.records[u]? = some r) ∧
    ∀ (b : Address) x, m.session.graph.bodies.size ≤ b → res.2.graph.bodies[b]? = some x →
      (s.after defs calls).2.graph.bodies[b]? = some x := by
  induction h with
  | @now s call rest m m' hb hleads =>
    have hcall := hcalls call List.mem_cons_self
    obtain ⟨hrecords, hbodies⟩ := Job.Leads.session_keeps hU hleads (hb.ready hi hcall) hb.comes he
    obtain ⟨hx, -, -⟩ := Session.after_preserves hU
      (fun c hc => hcalls c (List.mem_cons_of_mem call hc)) (Call.invariant hU hi hcall)
    exact ⟨fun u r hu => hx.record u r (hrecords u r hu),
      fun b x hle hxb => hx.body b x (hbodies b x hle hxb) (by simp)⟩
  | later _ ih =>
    exact ih (fun c hc => hcalls c (List.mem_cons_of_mem _ hc))
      (Call.invariant hU hi (hcalls _ List.mem_cons_self)) he

end Occurs

/-- Every descriptor found under a key is remembered there at the end, exactly if the key is never
met again while it is pending. -/
theorem found_known_iff (hU : Universe defs U) (hcalls : ∀ c ∈ calls, U c.type)
    (hi : Invariant defs U s) :
    (∀ a, Found defs s calls k a → (s.after defs calls).2.known? k = some a) ↔
      ¬Recurs defs s calls k := by
  constructor
  · rintro hall ⟨m, hm, hagain⟩
    obtain ⟨m', a, b, hleads, ha, hb, hne⟩ := hagain.finds hU (hm.ready hU hcalls hi)
    have hk := hall a ⟨m, hm, ha⟩
    have hk' := hall b ⟨m', hm.leads hleads, hb⟩
    rw [hk, Option.some.injEq] at hk'
    exact hne hk'.symm
  · rintro hnot a ⟨m, hm, hf⟩
    exact hm.known hU hcalls hi hnot hf

/-! ## Fields -/

/-- A walk enters what is found for its fields, as far as it comes. -/
theorem Evaluates.walk_finds {body : Address} {fields pre : List (String × TypeExpr)} {x : Body}
    {r : Except CompileFault Address} {names : List String}
    (h : Evaluates defs s (.walk body fields) (r, s') names)
    (hm : Occurs defs s₀ calls ⟨s, .walk body fields⟩) (hx : s.graph.bodies[body]? = some x)
    (hfinds : x.Finds defs s₀ calls pre) :
    ∃ post x', post <+: fields ∧ s'.graph.bodies[body]? = some x' ∧
      x'.Finds defs s₀ calls (pre ++ post) := by
  induction fields generalizing s x pre names with
  | nil =>
    cases h
    exact ⟨[], x, List.nil_prefix, hx, by simpa using hfinds⟩
  | cons f rest ih =>
    obtain ⟨name, t⟩ := f
    cases h with
    | stuck ha hd =>
      have hx' : s.Extends none s' :=
        (Session.Extends.of_sameWork ha.sameWork).trans hd.session_extends
      exact ⟨[], x, List.nil_prefix, hx'.body body x hx (by simp), by simpa using hfinds⟩
    | @entered _ _ _ _ _ an s₁ a s₂ _ names₁ names₂ ha hd hrest =>
      have hx' : s.Extends none s₂ :=
        (Session.Extends.of_sameWork ha.sameWork).trans hd.session_extends
      have hx₂ : s₂.graph.bodies[body]? = some x := hx'.body body x hx (by simp)
      have hfield : t.watchable = true → Found defs s₀ calls t.key a := fun hw =>
        ⟨_, hm.step (.first ha), .described ⟨hw, rfl⟩ ⟨names₁, hd⟩⟩
      have henter : (x.enter name a an.optional).Finds defs s₀ calls (pre ++ [(name, t)]) := by
        rw [Body.Finds, Entries.ofList_append, Body.enter]
        exact Entries.forall₂_put
          (R := fun (t : TypeExpr) a => t.watchable = true → Found defs s₀ calls t.key a)
          hfinds hfield
      obtain ⟨post, x', hpost, hx', hall⟩ := ih hrest (hm.step (.rest ha hd))
        (by simp [Session.withBodyChanged, Graph.modifyBody, Array.getElem?_modify, hx₂]) henter
      rw [List.append_assoc] at hall
      exact ⟨(name, t) :: post, x', List.cons_prefix_cons.mpr ⟨rfl, hpost⟩, hx', hall⟩

/-- A job that looks in vain for the descriptor of an object class leads to one that walks the
class. -/
theorem Job.object_of_looksUp (hr : m.Ready defs U) (hf : defs.find? name = some (.object c))
    (hn : m.session.known? (.declared name) = none) (hl : m.task.LooksUp (.declared name)) :
    ∃ s, m.Leads defs ⟨s, .object name c⟩ ∧ s.known? (.declared name) = none := by
  obtain ⟨s, task⟩ := m
  obtain ⟨-, htask⟩ := hr
  cases task with
  | field t known =>
    obtain ⟨-, hkey⟩ := hl
    obtain rfl := TypeExpr.eq_declared_of_key hkey
    have hmissed : s.cached? (.declared name) = none := by
      rwa [s.cached?_of_watchable rfl]
    obtain ⟨an, s₁, ha⟩ := AnalysisRun.exists defs s (.declared name) known
    obtain ⟨d, -, rfl⟩ := ha.analysed htask.2
    exact ⟨s₁, .head (.inner hmissed ha) (.single (.object rfl (TypeExpr.base_declared hf))),
      by rwa [ha.sameWork.known?]⟩
  | inner an =>
    obtain ⟨t, -, d, -, rfl⟩ := htask
    obtain ⟨hb, -, -, hkey⟩ := hl
    have hcore : t.core = .declared name := TypeExpr.eq_declared_of_key hkey
    change (t.core.base defs).isObject = false at hb
    rw [hcore, TypeExpr.base_declared hf] at hb
    cases hb
  | object name' c' =>
    cases hl
    obtain ⟨-, hf'⟩ := htask
    rw [hf] at hf'
    cases hf'
    exact ⟨s, .refl, hn⟩
  | walk body fields => cases hl

/-- A class that has come to be remembered was walked. -/
theorem Occurs.of_known (hU : Universe defs U) (hcalls : ∀ c ∈ calls, U c.type)
    (hi : Invariant defs U s) (hf : defs.find? name = some (.object c))
    (hn : s.known? (.declared name) = none)
    (hk : (s.after defs calls).2.known? (.declared name) = some a) :
    ∃ s₁, Occurs defs s calls ⟨s₁, .object name c⟩ ∧ s₁.known? (.declared name) = none := by
  induction calls generalizing s with
  | nil =>
    rw [Session.after, hn] at hk
    cases hk
  | cons call rest ih =>
    have hcall := hcalls call List.mem_cons_self
    cases hs : (s.run (call.run defs)).2.known? (.declared name) with
    | none =>
      obtain ⟨s₁, hm, hn₁⟩ := ih (fun c hc => hcalls c (List.mem_cons_of_mem call hc))
        (Call.invariant hU hi hcall) hs hk
      exact ⟨s₁, .later hm, hn₁⟩
    | some b =>
      rcases call.begins_or defs s with ⟨m, hb⟩ | hsame
      · obtain ⟨names, he⟩ := hb.comes
        obtain ⟨m', hleads, hmissed, hlook⟩ :=
          he.looked_up (by rwa [hb.session_eq]) hs
        have hm' : Occurs defs s (call :: rest) m' := .now hb hleads
        obtain ⟨s₁, hwalk, hn₁⟩ := Job.object_of_looksUp (hm'.ready hU hcalls hi) hf hmissed hlook
        exact ⟨s₁, hm'.leads hwalk, hn₁⟩
      · rw [hsame, hn] at hs
        cases hs

/-- The body of every class holds what was found for its fields, as far as they have been walked. -/
theorem Session.Holds.finds (hU : Universe defs U) (hcalls : ∀ c ∈ calls, U c.type)
    (hi : Invariant defs U s) (hf : defs.find? name = some (.object c))
    (hn : s.known? (.declared name) = none) {body : Address} {x : Body}
    (hh : (s.after defs calls).2.Holds name c body)
    (hx : (s.after defs calls).2.graph.bodies[body]? = some x) :
    ∃ fs, fs <+: c.fields ∧ x.Finds defs s calls fs := by
  obtain ⟨a, hcached, hrecord⟩ := hh
  have hk := Session.known?_of_cached? hcached
  obtain ⟨s₁, hm, hn₁⟩ := Occurs.of_known hU hcalls hi hf hn hk
  have hmissed : s₁.cached? (.declared name) = none := by
    rwa [s₁.cached?_of_watchable rfl]
  have hwalk := hm.step (.walk hmissed)
  -- The class keeps the descriptor and the body with which its walk begins.
  have hself : (s.after defs calls).2.known? (.declared name) = some s₁.graph.records.size := by
    refine hwalk.known hU hcalls hi ?_ (.remembered ?_)
    · rintro ⟨m₁, h₁, hagain⟩
      exact Job.not_meetsAgain (h₁.ready hU hcalls hi) hf hagain
    · rw [Session.withObject_known?, if_pos rfl]
  obtain rfl : s₁.graph.records.size = a := Option.some.inj (hself.symm.trans hk)
  obtain ⟨res, names, he⟩ := hm.comes
  cases he with
  | known hc =>
    rw [hmissed] at hc
    cases hc
  | @walked _ _ _ r s₂ names _ hw =>
    obtain ⟨hrecords, hbodies⟩ := hm.session_keeps hU hcalls hi ⟨_, .walked hmissed hw⟩
    have hempty : Body.Finds defs s calls [] ⟨[], []⟩ := .nil
    obtain ⟨fs, x', hfs, hx', hfinds⟩ := hw.walk_finds hwalk (s₁.withObject_body _ c) hempty
    have hobject := hrecords _ _ (hw.session_extends.record _ _ (s₁.withObject_record _ c))
    obtain rfl : s₁.graph.bodies.size = body :=
      objectRecord_inj (Option.some.inj (hobject.symm.trans hrecord))
    have hbody := hbodies _ _ (Nat.le_refl _) hx'
    obtain rfl : x' = x := Option.some.inj (hbody.symm.trans hx)
    exact ⟨fs, hfs, hfinds⟩

/-- After any calls, whatever was found under a key at any time is what is remembered there now,
exactly if the key was never met again while it was pending. An object class never is. What is
remembered between two calls is all that is found from then on. And the property of every field that
has been walked is the descriptor that is remembered for its expression, unless that was met
again. -/
theorem one_descriptor_iff (source : Source) (observable : Bool) (calls : List Call)
    (hcalls : ∀ c ∈ calls, source.Expression c.type) :
    let defs := source.definitions
    let s₀ := Session.fresh observable
    let s := (s₀.after defs calls).2
    (∀ k, (∀ a, Found defs s₀ calls k a → s.known? k = some a) ↔ ¬Recurs defs s₀ calls k) ∧
      (∀ name c, defs.find? name = some (.object c) → ¬Recurs defs s₀ calls (.declared name)) ∧
      (∀ before later k a, (s₀.after defs before).2.known? k = some a →
        ∀ b, Found defs (s₀.after defs before).2 later k b → b = a) ∧
      ∀ name c body x, defs.find? name = some (.object c) → s.Holds name c body →
        s.graph.bodies[body]? = some x → ∃ fs, fs <+: c.fields ∧
          List.Forall₂ (fun f e => f.1 = e.1 ∧ (f.2.watchable = true →
            ¬Recurs defs s₀ calls f.2.key → s.known? f.2.key = some e.2))
            (Entries.ofList fs) x.properties := by
  intro defs s₀ s
  obtain ⟨U, hU, hexpr⟩ := source.universe
  have hall : ∀ c ∈ calls, U c.type := fun c hc => hexpr _ (hcalls c hc)
  have hi : Invariant defs U s₀ := .fresh observable
  have hiff (k : Key) := found_known_iff (k := k) hU hall hi
  refine ⟨hiff, ?_, ?_, ?_⟩
  · rintro name c hf ⟨m, hm, hagain⟩
    exact Job.not_meetsAgain (hm.ready hU hall hi) hf hagain
  · rintro before later k a hk b ⟨m, hm, hfinds⟩
    exact hm.finds_eq hk hfinds
  · intro name c body x hf hh hx
    have hn : s₀.known? (.declared name) = none := by
      have hmissed := Session.cached?_fresh observable (.declared name)
      exact Session.known?_of_missed hmissed rfl rfl
    obtain ⟨fs, hfs, hfinds⟩ := hh.finds hU hall hi hf hn hx
    refine ⟨fs, hfs, hfinds.imp fun f e hfe => ⟨hfe.1, fun hw hnot => ?_⟩⟩
    exact (hiff f.2.key).mpr hnot e.2 (hfe.2 hw)

/-- The two links of the list are one expression, but their properties hold two descriptors; the
second one has taken the place of the first. -/
theorem link_has_two_descriptors :
    nodeLink.watchable = true ∧ rootClass.fields = [("head", nodeLink)] ∧
      nodeClass.fields = [("next", nodeLink)] ∧
      rootCompiled.Holds "Root" rootClass 0 ∧ rootCompiled.Holds "Node" nodeClass 1 ∧
      (rootCompiled.graph.body 0).properties = [("head", 3)] ∧
      (rootCompiled.graph.body 1).properties = [("next", 2)] ∧
      rootCompiled.known? nodeLink.key = some 3 :=
  ⟨rfl, rfl, rfl, ⟨0, rfl, rfl⟩, ⟨1, rfl, rfl⟩, rfl, rfl, rfl⟩

/-- The link is met again while it is pending, the node is not. -/
theorem one_descriptor_iff_link :
    Recurs nodeSource.definitions (.fresh false) [.compile (.declared "Root")] nodeLink.key ∧
      ¬Recurs nodeSource.definitions (.fresh false) [.compile (.declared "Root")]
        (.declared "Node") := by
  obtain ⟨-, hclass, -, hfields⟩ := one_descriptor_iff nodeSource false
    [.compile (.declared "Root")] fun c hc => by
      obtain rfl := List.mem_singleton.mp hc
      exact .node (by rw [nodeSource_nodes]; simp [Call.type])
  refine ⟨?_, hclass "Node" nodeClass nodeSource_find.1⟩
  by_contra hnot
  have hproperty {name field : String} {c : ObjectClass} {body a : Address}
      (hf : nodeSource.definitions.find? name = some (.object c))
      (hlink : c.fields = [(field, nodeLink)]) (hh : rootCompiled.Holds name c body)
      (hx : rootCompiled.graph.bodies[body]? = some ⟨[(field, a)], []⟩) :
      rootCompiled.known? nodeLink.key = some a := by
    obtain ⟨fs, hfs, hall⟩ := hfields name c body _ hf hh hx
    rw [hlink] at hfs
    rcases List.prefix_cons_iff.mp hfs with rfl | ⟨l, rfl, hl⟩
    · cases hall
    · obtain rfl := List.prefix_nil.mp hl
      cases hall with
      | cons h _ => exact h.2 rfl hnot
  have hhead := hproperty (a := 3) nodeSource_find.2 rfl ⟨0, rfl, rfl⟩ rfl
  have hnext := hproperty (a := 2) nodeSource_find.1 rfl ⟨1, rfl, rfl⟩ rfl
  rw [hhead] at hnext
  cases hnext

end ToolCatalog
