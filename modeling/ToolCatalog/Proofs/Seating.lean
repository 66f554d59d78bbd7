import ToolCatalog.Proofs.Seats

/-!
What is remembered gets its seat.

Three steps of the compiler remember an expression with a descriptor: an object class before its
fields are walked, what stands under layers when its base is made, and an expression when its layers
are added. `settle` is what these have in common; here are the last two.
-/
namespace ToolCatalog

variable {defs : Definitions} {U : TypeExpr → Prop} {P Q : List Key} {here here' : Seat → Prop}
  {free : Option Address} {s s' s₁ s₂ : Session} {L L' L₁ L₂ : Chart} {t u w : TypeExpr}
  {a b : Address} {p q : Seat} {r : Record} {name : String} {c : ObjectClass}

/-! ## Remembering -/

/-- What was pending is remembered with a descriptor that has its seat. -/
theorem Seated.settle (hU : Universe defs U) (hw : U w) (h : Seated defs U Q s L)
    (hx : s.Extends none s') (hc : ∀ k, s'.known? k = s.known? k)
    (hL : L' = L ∨ L' = L.enter a q ∧ L a = none ∧ (∀ b, L b ≠ some q) ∧
      (((s.known? q.root.key).isSome ∨ q.root.key ∈ P) ∨
        w.watchable = true ∧ q.root.key = w.key))
    (hsits : Sits defs s' L' p w a) (hP : P ⊆ Q)
    (hQ : ∀ k ∈ Q, k ∈ P ∨ w.watchable = true ∧ k = w.key) :
    Seated defs U P (s'.remember w a) L' := by
  have hx' : s.Extends none (s'.remember w a) := hx.trans (.remember s' w a)
  have hkept {k : Key} (hk : (s.known? k).isSome) : ((s'.remember w a).known? k).isSome :=
    Session.isSome_known?_remember w a (by rwa [hc])
  have hown {k : Key} (hk : w.watchable = true ∧ k = w.key) :
      ((s'.remember w a).known? k).isSome := by
    rw [hk.2, s'.known?_remember_self a hk.1]
    rfl
  constructor
  case bounded =>
    intro b q' hb
    rw [Session.remember_graph]
    rcases hL with rfl | ⟨rfl, -, -⟩
    · exact hx.lt_records (h.bounded hb)
    · rcases Chart.eq_of_enter hb with ⟨rfl, -⟩ | hb
      · cases hsits with
        | mk hr _ _ _ => exact (Array.getElem?_eq_some_iff.mp hr).1
      · exact hx.lt_records (h.bounded hb)
  case distinct =>
    intro b b' q' hb hb'
    rcases hL with rfl | ⟨rfl, -, hq, -⟩
    · exact h.distinct hb hb'
    · rcases Chart.eq_of_enter hb with ⟨rfl, rfl⟩ | hold <;>
        rcases Chart.eq_of_enter hb' with ⟨rfl, hq'⟩ | hold'
      · rfl
      · exact absurd hold' (hq _)
      · exact absurd (hq' ▸ hold) (hq _)
      · exact h.distinct hold hold'
  case opened =>
    intro b q' hb
    have hold (hb : L b = some q') :
        ((s'.remember w a).known? q'.root.key).isSome ∨ q'.root.key ∈ P := by
      rcases h.opened hb with hs | hp
      · exact .inl (hkept hs)
      · exact (hQ _ hp).symm.imp_left hown
    rcases hL with rfl | ⟨rfl, -, -, hseat⟩
    · exact hold hb
    · rcases Chart.eq_of_enter hb with ⟨rfl, rfl⟩ | hb
      · rcases hseat with ho | hk
        · exact ho.imp_left hkept
        · exact .inl (hown hk)
      · exact hold hb
  case sits =>
    intro u b hu hb
    have hwu := Session.watchable_of_cached? hb
    have hrec := Session.known?_of_cached? hb
    have hsits' := hsits.mono (Session.Extends.remember s' w a) (.refl L')
    rw [Session.known?_remember, hc] at hrec
    split at hrec
    · rename_i hk
      cases hrec
      rcases hU.same hw hu hk.1 hwu hk.2 with rfl | ⟨i, v, j, v', rfl, rfl⟩
      · exact hsits'.anywhere hwu _
      · exact hsits'.constant hk.1 hwu hk.2
    · rw [← Session.cached?_of_watchable s hwu] at hrec
      exact (h.sits hu hrec).mono hx' (Chart.below_of_eq_or_enter hL)
  case values => exact fun k hk => h.values k (hP hk)

namespace Grown

theorem settle (hU : Universe defs U) (hw : U w) (h : Grown defs U Q here' none s L s₁ L₁)
    (hx : s₁.Extends none s₂) (hc : ∀ k, s₂.known? k = s₁.known? k)
    (hL : L₂ = L₁ ∨ L₂ = L₁.enter a q ∧ L₁ a = none ∧ (∀ b, L₁ b ≠ some q) ∧
      (here q ∧ ((s.known? q.root.key).isSome ∨ q.root.key ∈ P) ∨
        w.watchable = true ∧ q.root.key = w.key))
    (hsits : Sits defs s₂ L₂ p w a) (hP : P ⊆ Q)
    (hQ : ∀ k ∈ Q, k ∈ P ∨ w.watchable = true ∧ k = w.key)
    (hkey : w.watchable = true → w.key ∉ P ∧ s.known? w.key = none)
    (hclass : ∀ name c, defs.find? name = some (.object c) → w = .declared name →
      (s₁.known? (.declared name)).isSome)
    (hhere : ∀ q, here' q → here q ∨ w.watchable = true ∧ q.root.key = w.key) :
    Grown defs U P here none s L (s₂.remember w a) L₂ := by
  have hx' : s₁.Extends none (s₂.remember w a) := hx.trans (.remember s₂ w a)
  have hbelow : L₁.Below L₂ := Chart.below_of_eq_or_enter hL
  have hkept {k : Key} (hk : (s₁.known? k).isSome) : ((s₂.remember w a).known? k).isSome :=
    Session.isSome_known?_remember w a (by rwa [hc])
  have hseated : Seated defs U P (s₂.remember w a) L₂ :=
    h.seated.settle hU hw hx hc (hL.imp_right fun ⟨he, ha, hq, hseat⟩ =>
      ⟨he, ha, hq, hseat.imp_left fun ho => ho.2.imp_left h.kept⟩) hsits hP hQ
  constructor
  case growth => exact h.growth.trans hx'
  case bodies => exact h.bodies.trans hx'.bodies_size
  case charts => exact h.charts.trans hbelow
  case seated => exact hseated
  case kept => exact fun hk => hkept (h.kept hk)
  case waits =>
    intro k hk hn
    rw [Session.known?_remember, if_neg, hc, h.waits (hP hk) hn]
    rintro ⟨hww, rfl⟩
    exact (hkey hww).1 hk
  case new =>
    intro b q' hb
    have hremembered (hk : w.watchable = true ∧ q'.root.key = w.key) :
        s.known? q'.root.key = none ∧ ((s₂.remember w a).known? q'.root.key).isSome := by
      refine ⟨hk.2 ▸ (hkey hk.1).2, ?_⟩
      rw [hk.2, s₂.known?_remember_self a hk.1]
      rfl
    have hold (hb : L₁ b = some q') : L b = some q' ∨ here q' ∨
        (s.known? q'.root.key = none ∧ ((s₂.remember w a).known? q'.root.key).isSome) := by
      rcases h.new hb with hb | hq | ⟨hn, hlater⟩
      · exact .inl hb
      · exact .inr ((hhere q' hq).imp_right hremembered)
      · exact .inr (.inr ⟨hn, hkept hlater⟩)
    rcases hL with rfl | ⟨rfl, -, -, hseat⟩
    · exact hold hb
    · rcases Chart.eq_of_enter hb with ⟨rfl, rfl⟩ | hb
      · exact .inr (hseat.imp And.left hremembered)
      · exact hold hb
  case filled =>
    intro name c hUc hf hn hs
    have hs₁ : (s₁.known? (.declared name)).isSome := by
      rw [Session.known?_remember, hc] at hs
      split at hs
      · rename_i hk
        exact hclass name c hf (TypeExpr.eq_declared_of_key hk.2)
      · exact hs
    exact (h.filled hUc hf hn hs₁).mono hx' hbelow
      (fun b hb => h.seated.keeps hseated hbelow hkept hUc hb) (by simp)

end Grown

/-! ## What an expression has pending -/

namespace TypeExpr

theorem home_of_apart (h : t.enlarges defs = true ∨ t.sharesCore defs = false)
    (p : Seat) : t.home defs p = if t.watchable then .own t.key else p := by
  rcases h with h | h <;> simp [home, h]

/-- What is made below the home of an expression belongs to its key or is made below its seat. -/
theorem covers_of_home (h : t.sharesCore defs = false)
    (hq : (t.home defs p).below.Covers q) :
    p.Covers q ∨ t.watchable = true ∧ q.root.key = t.key := by
  rw [home_of_apart (.inr h)] at hq
  cases hw : t.watchable with
  | true =>
    rw [hw, if_pos rfl] at hq
    exact .inr ⟨rfl, by rw [hq.root]; rfl⟩
  | false =>
    rw [hw, if_neg (by simp)] at hq
    exact .inl hq.of_below

theorem of_mem_outerKeys_append {k : Key} (h : k ∈ t.outerKeys ++ P) :
    k ∈ P ∨ t.watchable = true ∧ k = t.key := by
  rcases List.mem_append.mp h with h | h
  · obtain ⟨hw, -, rfl⟩ := mem_outerKeys.mp h
    exact .inr ⟨hw, rfl⟩
  · exact .inl h

theorem of_mem_pending_append {k : Key} (h : k ∈ t.pending defs ++ P) :
    k ∈ t.outerKeys ++ P ∨ t.sharesCore defs = true ∧ k = t.core.key := by
  rw [pending, List.append_assoc, List.mem_append, List.mem_append] at h
  rcases h with h | h | h
  · exact .inl (List.mem_append_left P h)
  · exact .inr ⟨(mem_innerKeys.mp h).1, (mem_innerKeys.mp h).2.2⟩
  · exact .inl (List.mem_append_right _ h)

theorem outerKeys_append_subset : t.outerKeys ++ P ⊆ t.pending defs ++ P :=
  List.append_subset.mpr ⟨fun _ h => List.mem_append_left P (List.mem_append_left _ h),
    List.subset_append_right _ _⟩

end TypeExpr

/-- What has layers and is remembered with what stands under them has another key than that. -/
theorem Universe.core_key_ne (hU : Universe defs U) (ht : U t) (hw : t.watchable = true)
    (hp : t.peel.1 ≠ []) (hs : t.sharesCore defs = true) : t.core.key ≠ t.key := by
  intro hk
  rcases hU.same ht (hU.core ht) hw (TypeExpr.watchable_core hs) hk.symm with
    h | ⟨i, v, j, v', h, -⟩
  · exact hp (h ▸ t.core_bare)
  · rw [h] at hp
    exact hp rfl

namespace Seated

/-- What is pending while an expression is described can be so beside what was before. -/
theorem pending (h : Seated defs U P s L) (t : TypeExpr) :
    Seated defs U (t.pending defs ++ P) s L := by
  refine h.weaken (List.subset_append_right _ _) fun k hk {name c} hf => ?_
  rcases List.mem_append.mp hk with hk | hk
  · exact TypeExpr.ne_declared_of_pending hk hf
  · exact h.values k hk hf

theorem outer (h : Seated defs U P s L) (t : TypeExpr) :
    Seated defs U (t.outerKeys ++ P) s L :=
  h.weaken (List.subset_append_right _ _) fun k hk =>
    (h.pending t).values k (TypeExpr.outerKeys_append_subset hk)

/-- Nothing was made yet for a key that is neither remembered nor pending. -/
theorem vacant (h : Seated defs U P s L) (hk : p.root.key ∉ P ∧ s.known? p.root.key = none)
    (hQ : p.root.key ∈ Q) : p.Vacant Q s L := by
  refine ⟨.inr hQ, fun {a q} ha hq => h.unused (p := q) ?_ ?_ ha⟩
  · rw [hq.root]
    exact hk.2
  · rw [hq.root]
    exact hk.1

end Seated

namespace Clear

/-- An expression that has no descriptor is not pending either. -/
theorem key_new (h : Clear defs s.Knows P t) (hs : Seated defs U P s L)
    (hn : s.cached? t = none) (hw : t.watchable = true) :
    t.key ∉ P ∧ s.known? t.key = none := by
  refine ⟨fun hk => ?_, by rwa [← s.cached?_of_watchable hw]⟩
  cases hb : t.base defs with
  | object c =>
    obtain ⟨name, rfl, hf⟩ := TypeExpr.base_object hb
    exact hs.values _ hk hf rfl
  | _ =>
    have hmem : t.key ∈ t.pending defs := TypeExpr.key_mem_pending hw (by rw [hb]; rfl)
    exact h.apart _ hmem hk

/-- Nor is what stands under its layers, where that has no descriptor. -/
theorem core_key_new (h : Clear defs s.Knows P t) (hsh : t.sharesCore defs = true)
    (hb : (t.core.base defs).isObject = false)
    (hc : t.layerConstraints = [] → s.cached? t.core = none) :
    t.core.key ∉ P ∧ s.known? t.core.key = none := by
  refine ⟨h.apart _ (List.mem_append_right _ (TypeExpr.core_key_mem_innerKeys hsh hb)), ?_⟩
  rw [← s.cached?_of_watchable (TypeExpr.watchable_core hsh)]
  exact hc (TypeExpr.layerConstraints_of_shared hsh hb)

theorem of_sameWork (hs : s.SameWork s₁) (h : Clear defs s.Knows P t) :
    Clear defs s₁.Knows P t :=
  h.later (Session.Extends.of_sameWork hs : s.Extends none s₁)

end Clear

namespace Seat.Vacant

theorem of_sameWork (hs : s.SameWork s₁) (h : p.Vacant P s L) : p.Vacant P s₁ L :=
  ⟨by rw [hs.known?]; exact h.opened, h.free⟩

/-- Where an expression does not share the descriptor of what stands under its layers, its own is
made at its seat or belongs to its key. -/
theorem home (h : p.Vacant P s L)
    (hapart : t.enlarges defs = true ∨ t.sharesCore defs = false) :
    p.Covers (t.home defs p) ∧ ((s.known? (t.home defs p).root.key).isSome ∨
        (t.home defs p).root.key ∈ P) ∨
      t.watchable = true ∧ (t.home defs p).root.key = t.key := by
  rw [TypeExpr.home_of_apart hapart]
  cases hw : t.watchable with
  | true => exact .inr ⟨rfl, rfl⟩
  | false => exact .inl ⟨.refl p, h.opened⟩

/-- The part of an expression is described at a seat where nothing was made. -/
theorem part (hv : p.Vacant P s L) (h : Seated defs U P s L) (hclear : Clear defs s.Knows P t)
    (hn : s.cached? t = none) (hb : (t.core.base defs).isObject = false)
    (hc : t.layerConstraints = [] → s.cached? t.core = none) :
    (t.partSeat defs p).Vacant (t.pending defs ++ P) s L := by
  cases hsh : t.sharesCore defs with
  | true =>
    rw [TypeExpr.partSeat_of_shared hsh]
    exact h.vacant (hclear.core_key_new hsh hb hc) (List.mem_append_left P
      (List.mem_append_right _ (TypeExpr.core_key_mem_innerKeys hsh hb)))
  | false =>
    rw [TypeExpr.partSeat_of_unshared hsh, TypeExpr.home_of_apart (.inr hsh)]
    cases hw : t.watchable with
    | true =>
      have hlayers : t.peel.1 ≠ [] := by
        intro hp
        simp [TypeExpr.sharesCore_of_bare hw hp] at hsh
      exact h.vacant (hclear.key_new h hn hw) (List.mem_append_left P
        (List.mem_append_left _ (TypeExpr.mem_outerKeys.mpr ⟨hw, hlayers, rfl⟩)))
    | false =>
      exact ⟨hv.opened.imp_right (List.mem_append_right _ ·),
        fun ha hq => hv.free ha hq.of_below⟩

end Seat.Vacant

/-! ## Layers -/

/-- A descriptor is what stands under the layers of an expression that is described at a seat. -/
structure Underlies (defs : Definitions) (s : Session) (L : Chart) (p : Seat) (t : TypeExpr)
    (a : Address) (r : Record) : Prop where
  record : s.graph.records[a]? = some r
  description : r.data? "description" = (nonEmpty? (t.core.base defs).description).map .text
  parts : ∀ e k c, (t.core.base defs).part? = some e → (k, .schema c) ∈ r →
    Sits defs s L (t.partSeat defs p) e c
  shared : t.sharesCore defs = true → L a = some (.own t.core.key) ∧
    s.known? t.core.key = some a
  unshared : t.sharesCore defs = false → L a = none

/-- What is remembered stands under the layers of every expression that shares it. -/
theorem Seated.underlies (hU : Universe defs U) (ht : U t) (h : Seated defs U P s L)
    (hsh : t.sharesCore defs = true) (hc : s.cached? t.core = some a) (p : Seat) :
    ∃ r, Underlies defs s L p t a r := by
  have hw := Session.watchable_of_cached? hc
  cases h.sits (hU.core ht) hc with
  | @mk _ _ _ r hr hl hd hp =>
    rw [TypeExpr.describedBy_of_bare t.core_bare, t.core_idem] at hd
    rw [TypeExpr.home_of_bare hw t.core_bare] at hl
    rw [t.core_idem, TypeExpr.partSeat_of_shared (TypeExpr.sharesCore_of_bare hw t.core_bare),
      t.core_idem, ← TypeExpr.partSeat_of_shared hsh p] at hp
    exact ⟨r, hr, hd, hp, fun _ => ⟨hl, Session.known?_of_cached? hc⟩, by simp [hsh]⟩

/-- An object class has a descriptor before layers are added. -/
theorem Underlies.knows (hf : defs.find? name = some (.object c))
    (hu : Underlies defs s L p (.declared name) a r) : s.Knows name := by
  have hobj : ((TypeExpr.declared name).core.base defs).isObject = true :=
    congrArg Base.isObject (TypeExpr.base_declared hf)
  exact Option.isSome_of_eq_some (hu.shared (TypeExpr.sharesCore_of_object hobj)).2

theorem Analysis.lookup_decorate_description (an : Analysis) (r : Record) :
    (an.decorate r).lookup "description"
      = (an.description.map fun d => .data (.text d)).or (r.lookup "description") := by
  unfold Analysis.decorate
  cases an.description <;> cases an.default? <;> cases an.nullable <;> cases an.optional <;>
    simp [Entries.lookup_put_self, Entries.lookup_put_ne]

theorem Analysis.decorate_description (an : Analysis) (r : Record) :
    (an.decorate r).data? "description"
      = (an.description.map .text).or (r.data? "description") := by
  rw [Record.data?, an.lookup_decorate_description, Record.data?]
  cases an.description <;> rfl

theorem Analysis.schema_of_decorate {an : Analysis} {k : String}
    (h : (k, Slot.schema a) ∈ an.decorate r) : (k, Slot.schema a) ∈ r := by
  rw [an.decorate_eq] at h
  rcases Record.mem_putAll h with h | ⟨x, -, hx⟩
  · exact h
  · cases hx

section

variable {an : Analysis}

/-- Nothing was made yet at the seat of an expression that is still pending. -/
theorem Grown.unmade (hs : Seated defs U P s L) (hv : p.Vacant P s L)
    (hkey : t.watchable = true → t.key ∉ P ∧ s.known? t.key = none)
    (hapart : t.enlarges defs = true ∨ t.sharesCore defs = false)
    (h : Grown defs U (t.outerKeys ++ P)
      (fun q => t.sharesCore defs = false ∧ (t.home defs p).below.Covers q) none s L s₁ L₁) :
    L₁ b ≠ some (t.home defs p) := by
  have hhome := TypeExpr.home_of_apart hapart p
  intro hb
  cases hw : t.watchable with
  | true =>
    rw [hw, if_pos rfl] at hhome
    obtain ⟨hk, hn⟩ := hkey hw
    have hlayers : t.peel.1 ≠ [] := by
      intro hp
      rcases hapart with he | hu
      · simp [TypeExpr.enlarges_of_bare hp] at he
      · simp [TypeExpr.sharesCore_of_bare hw hp] at hu
    rcases h.new hb with hold | ⟨-, hq⟩ | ⟨-, hlater⟩
    · rw [hhome] at hold
      exact hs.unused (p := .own t.key) hn hk hold
    · exact Seat.not_below_covers _ hq
    · have hwait := h.waits
        (List.mem_append_left P (TypeExpr.mem_outerKeys.mpr ⟨hw, hlayers, rfl⟩)) hn
      rw [hhome] at hlater
      simp [Seat.own, Root.key, hwait] at hlater
  | false =>
    rw [hw, if_neg (by simp)] at hhome
    rcases h.new hb with hold | ⟨-, hq⟩ | ⟨hn, hlater⟩
    · rw [hhome] at hold
      exact hv.free hold (.refl p)
    · exact Seat.not_below_covers _ hq
    · rw [hhome] at hn hlater
      rcases hv.opened with ho | ho
      · simp [hn] at ho
      · simp [h.waits (List.mem_append_right _ ho) hn] at hlater

/-- With its layers an expression is remembered, and it sits: with the descriptor of what stands
under them, or with one that has not been given a seat yet. -/
theorem Grown.layered (hU : Universe defs U) (ht : U t) (hs : Seated defs U P s L)
    (hclear : Clear defs s.Knows P t) (hv : p.Vacant P s L) (hn : s.cached? t = none)
    (h : Grown defs U (t.outerKeys ++ P)
      (fun q => t.sharesCore defs = false ∧ (t.home defs p).below.Covers q) none s L s₁ L₁)
    (hu : Underlies defs s₁ L₁ p t a r) (hx : s₁.Extends none s₂)
    (hc : ∀ k, s₂.known? k = s₁.known? k)
    (hL : L₂ = L₁ ∨ L₂ = L₁.enter b (t.home defs p) ∧ L₁ b = none ∧
      (t.enlarges defs = true ∨ t.sharesCore defs = false))
    (hsits : Sits defs s₂ L₂ p t b) :
    ∃ L', Grown defs U P p.Covers none s L (s₂.remember t b) L' ∧
      Sits defs (s₂.remember t b) L' p t b := by
  have hkey := hclear.key_new hs hn
  refine ⟨L₂, h.settle hU ht hx hc (q := t.home defs p) (hL.imp_right ?_) hsits
    (List.subset_append_right _ _) (fun _ => TypeExpr.of_mem_outerKeys_append) hkey ?_
    (fun q hq => TypeExpr.covers_of_home hq.1 hq.2), hsits.mono (.remember s₂ t b) (.refl L₂)⟩
  · rintro ⟨rfl, hnone, hapart⟩
    exact ⟨rfl, hnone, fun b => h.unmade hs hv hkey hapart, hv.home hapart⟩
  · rintro name c hf rfl
    exact hu.knows hf

theorem addLayers_grows (hU : Universe defs U) (ht : U t) (hs : Seated defs U P s L)
    (hclear : Clear defs s.Knows P t) (hv : p.Vacant P s L) (hn : s.cached? t = none)
    (ha : t.Analysed defs an)
    (h : Grown defs U (t.outerKeys ++ P)
      (fun q => t.sharesCore defs = false ∧ (t.home defs p).below.Covers q) none s L s₁ L₁)
    (hu : Underlies defs s₁ L₁ p t a r) (hrun : s₁.run (addLayers t an a) = (.ok b, s')) :
    ∃ L', Grown defs U P p.Covers none s L s' L' ∧ Sits defs s' L' p t b := by
  obtain ⟨d, hmay, rfl⟩ := ha
  have hadds := TypeExpr.adds_eq hmay hu.description
  have hrecord : s₁.graph.record a = r := Graph.record_of_getElem? hu.record
  have hcase := addLayers_run s₁ t (t.analysisWith defs d) a
  rw [hrun] at hcase
  generalize hres : ((.ok b, s') : Except CompileFault Address × Session) = res at hcase
  cases hcase with
  | bare hadd =>
    cases hres
    rw [hrecord, hadds] at hadd
    have hdesc : r.data? "description" = (t.describedBy defs).map .text := by
      have he : t.describedBy defs = nonEmpty? (t.core.base defs).description := by
        simp only [TypeExpr.enlarges, Bool.or_eq_false_iff] at hadd
        simpa using hadd.2
      rw [hu.description, he]
    cases hsh : t.sharesCore defs with
    | true =>
      refine h.layered hU ht hs hclear hv hn hu (.refl none s₁) (fun _ => rfl) (.inl rfl)
        (.mk hu.record ?_ hdesc hu.parts)
      rw [TypeExpr.home_of_shared hadd hsh]
      exact (hu.shared hsh).1
    | false =>
      have hnone := hu.unshared hsh
      have hbelow := Chart.below_enter (p := t.home defs p) hnone
      exact h.layered hU ht hs hclear hv hn hu (.refl none s₁) (fun _ => rfl)
        (.inr ⟨rfl, hnone, .inr hsh⟩) (.mk hu.record (Chart.enter_self _ _ _) hdesc
          fun e k c he hc => (hu.parts e k c he hc).mono (.refl none s₁) hbelow)
  | @decorated s₂ hadd hsame =>
    cases hres
    rw [hrecord, hadds] at hadd
    rw [hrecord]
    have hx : s₁.Extends none (s₂.withRecord ((t.analysisWith defs d).decorate r)) :=
      (Session.Extends.of_sameWork hsame).trans (.withRecord _ _)
    have hnone : L₁ s₂.graph.records.size = none := by
      rw [hsame.graph]
      exact h.seated.next_unseated
    have hbelow := Chart.below_enter (p := t.home defs p) hnone
    refine h.layered hU ht hs hclear hv hn hu hx (fun k => hsame.known? k)
      (.inr ⟨rfl, hnone, .inl hadd⟩)
      (.mk (s₂.withRecord_record _) (Chart.enter_self _ _ _) ?_ fun e k c he hc => ?_)
    · rw [Analysis.decorate_description, hu.description, TypeExpr.analysisWith_eq]
      simp only [TypeExpr.describedBy]
      cases t.peel.1.findSome? Layer.description <;> simp
    · exact (hu.parts e k c he (Analysis.schema_of_decorate hc)).mono hx hbelow

/-! ## Bases -/

theorem Base.schema_of_recordOf {b : Base} {cs : List Constraint} {c d : Address} {k : String}
    (hb : b.isObject = false) (h : b.recordOf cs c = .ok r) (hd : (k, Slot.schema d) ∈ r) :
    d = c := by
  have hp := Record.Profile.recordOf (g := .empty) hb h
  exact ((hp.below d).mp ⟨_, hd, rfl⟩).2.symm

/-- What stands under layers that add no constraints sits at its own seat. -/
theorem Sits.core (hsh : t.sharesCore defs = true) (hr : s.graph.records[a]? = some r)
    (hl : L a = some (.own t.core.key))
    (hd : r.data? "description" = (nonEmpty? (t.core.base defs).description).map .text)
    (hp : ∀ e k c, (t.core.base defs).part? = some e → (k, .schema c) ∈ r →
      Sits defs s L (t.partSeat defs p) e c) : Sits defs s L p t.core a := by
  have hw := TypeExpr.watchable_core hsh
  refine .mk hr ?_ ?_ fun e k c he hc => ?_
  · rw [TypeExpr.home_of_bare hw t.core_bare, hl]
  · rw [hd, TypeExpr.describedBy_of_bare t.core_bare, t.core_idem]
  · rw [t.core_idem] at he
    rw [TypeExpr.partSeat_of_shared (TypeExpr.sharesCore_of_bare hw t.core_bare), t.core_idem,
      ← TypeExpr.partSeat_of_shared hsh p]
    exact hp e k c he hc

/-- Nothing was made yet at the seat of what stands under the layers. -/
theorem Grown.core_unmade (hs : Seated defs U P s L) (hsh : t.sharesCore defs = true)
    (hb : (t.core.base defs).isObject = false)
    (hkey : t.core.key ∉ P ∧ s.known? t.core.key = none)
    (h : Grown defs U (t.pending defs ++ P) (t.partSeat defs p).Covers none s L s₁ L₁) :
    L₁ b ≠ some (.own t.core.key) := by
  intro hb'
  rcases h.new hb' with hold | hq | ⟨-, hlater⟩
  · exact hs.unused (p := .own t.core.key) hkey.2 hkey.1 hold
  · rw [TypeExpr.partSeat_of_shared hsh] at hq
    exact Seat.not_below_covers _ hq
  · have hwait := h.waits (List.mem_append_left P
      (List.mem_append_right _ (TypeExpr.core_key_mem_innerKeys hsh hb))) hkey.2
    simp [Seat.own, Root.key, hwait] at hlater

/-- What stands under the layers is remembered with a descriptor that has no seat yet. -/
theorem Grown.core_made (hU : Universe defs U) (ht : U t) (hs : Seated defs U P s L)
    (hsh : t.sharesCore defs = true) (hb : (t.core.base defs).isObject = false)
    (hkey : t.core.key ∉ P ∧ s.known? t.core.key = none)
    (h : Grown defs U (t.pending defs ++ P) (t.partSeat defs p).Covers none s L s₁ L₁)
    (hx : s₁.Extends none s₂) (hc : ∀ k, s₂.known? k = s₁.known? k) (ha : L₁ a = none)
    (hsits : Sits defs s₂ (L₁.enter a (.own t.core.key)) p t.core a) :
    Grown defs U (t.outerKeys ++ P)
      (fun q => t.sharesCore defs = false ∧ (t.home defs p).below.Covers q) none s L
      (s₂.remember t.core a) (L₁.enter a (.own t.core.key)) := by
  have hw := TypeExpr.watchable_core hsh
  refine h.settle hU (hU.core ht) hx hc (q := .own t.core.key)
    (.inr ⟨rfl, ha, fun _ => h.core_unmade hs hsh hb hkey, .inr ⟨hw, rfl⟩⟩) hsits
    TypeExpr.outerKeys_append_subset ?_ (fun _ => ⟨?_, hkey.2⟩) ?_ ?_
  · exact fun k hk => (TypeExpr.of_mem_pending_append hk).imp_right fun hk => ⟨hw, hk.2⟩
  · intro hk
    rcases List.mem_append.mp hk with hk | hk
    · obtain ⟨hwt, hlayers, hkey⟩ := TypeExpr.mem_outerKeys.mp hk
      exact hU.core_key_ne ht hwt hlayers hsh hkey
    · exact hkey.1 hk
  · intro name o hf he
    rw [he, TypeExpr.base_declared hf] at hb
    cases hb
  · intro q hq
    rw [TypeExpr.partSeat_of_shared hsh] at hq
    exact .inr ⟨hw, by rw [hq.root]; rfl⟩

/-- The descriptor of a base is made when that of its part is. -/
theorem enterBase_grows (hU : Universe defs U) (ht : U t) (hs : Seated defs U P s L)
    (hclear : Clear defs s.Knows P t) (ha : t.Analysed defs an)
    (hb : (t.core.base defs).isObject = false)
    (hc : t.layerConstraints = [] → s.cached? t.core = none)
    (h : Grown defs U (t.pending defs ++ P) (t.partSeat defs p).Covers none s L s₁ L₁)
    {c : Address} (hpart : ∀ e, (t.core.base defs).part? = some e →
      Sits defs s₁ L₁ (t.partSeat defs p) e c)
    (hrun : s₁.run (enterBase an ((t.core.base defs).recordOf t.layerConstraints c))
      = (.ok a, s')) :
    ∃ L' r, Grown defs U (t.outerKeys ++ P)
        (fun q => t.sharesCore defs = false ∧ (t.home defs p).below.Covers q) none s L s' L' ∧
      Underlies defs s' L' p t a r := by
  obtain ⟨d, -, rfl⟩ := ha
  obtain ⟨r, hr⟩ : ∃ r, (t.core.base defs).recordOf t.layerConstraints c = .ok r := by
    cases hr : (t.core.base defs).recordOf t.layerConstraints c with
    | error e =>
      rw [hr, run_enterBase_error] at hrun
      cases hrun
    | ok r => exact ⟨r, rfl⟩
  rw [hr, run_enterBase_ok, TypeExpr.analysisWith_eq] at hrun
  cases hrun
  have hdesc : r.data? "description"
      = (nonEmpty? (t.core.base defs).description).map .text := by
    rw [Record.data?, Base.recordOf_lookup (.inl rfl) hr, TypeExpr.base_description_of_value hb]
    rfl
  have hparts (e k d) (he : (t.core.base defs).part? = some e) (hd : (k, .schema d) ∈ r) :
      Sits defs s₁ L₁ (t.partSeat defs p) e d := by
    rw [Base.schema_of_recordOf hb hr hd]
    exact hpart e he
  have hnone := h.seated.next_unseated
  have hx : s₁.Extends none (s₁.withRecord r) := .withRecord s₁ r
  by_cases hsh : t.sharesCore defs = true
  · have hsits : Sits defs (s₁.withRecord r)
        (L₁.enter s₁.graph.records.size (.own t.core.key)) p t.core s₁.graph.records.size :=
      .core hsh (s₁.withRecord_record r) (Chart.enter_self _ _ _) hdesc fun e k d he hd =>
        (hparts e k d he hd).mono hx (Chart.below_enter hnone)
    have hgrown := h.core_made hU ht hs hsh hb (hclear.core_key_new hsh hb hc) hx
      (fun _ => rfl) hnone hsits
    obtain ⟨r', hu⟩ := hgrown.seated.underlies hU ht hsh
      (Session.cached?_remember_self _ _ (TypeExpr.watchable_core hsh)) p
    simp only [TypeExpr.layerConstraints_of_shared hsh hb, List.isEmpty_nil, if_true]
    exact ⟨_, r', hgrown, hu⟩
  · rw [Bool.not_eq_true] at hsh
    have hpending : t.pending defs = t.outerKeys := by
      simp [TypeExpr.pending, TypeExpr.innerKeys, hsh]
    rw [hpending, TypeExpr.partSeat_of_unshared hsh] at h
    have hgrown := (h.imp fun q hq => And.intro hsh hq).trans (by simp)
      (.later hx hx.bodies_size (fun _ => rfl) h.seated)
    -- Without constraints it is not shared because it cannot be remembered.
    have hs' : (if t.layerConstraints.isEmpty then
        (s₁.withRecord r).remember t.core s₁.graph.records.size else s₁.withRecord r)
        = s₁.withRecord r := by
      split
      · rename_i hfree
        have hw : t.core.watchable = false := by
          simpa [TypeExpr.sharesCore, hb, hfree] using hsh
        simp [Session.remember, hw]
      · rfl
    rw [hs']
    exact ⟨_, r, hgrown, s₁.withRecord_record r, hdesc,
      fun e k d he hd => (hparts e k d he hd).mono hx (.refl L₁), by simp [hsh], fun _ => hnone⟩

end

end ToolCatalog
