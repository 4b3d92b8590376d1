import AnchorLayout.Proofs.Pass.Answers

/-!
# Placing a shape

A shape may publish anchors more than once, and each time all that it had are
replaced. It never takes back what it has told: what is published first is found
among the anchors that are published last (`Members.Within`), so all answers
that it and the shapes before it have been given stay true (`Placing.register`).
For a rectangle this is so because its size, where it is given, is taken for
what it is however the rectangle is placed (`Shape.extent_size`).
-/

namespace AnchorLayout

open AnchorLayout.Action

/-- All members of one mapping are members of another. -/
def Members.Within (own members : Members) : Prop :=
  ∀ name v, Table.get? own name = some v → Table.get? members name = some v

theorem Members.within_nil (members : Members) : Members.Within [] members := nofun

/-- A mapping has in it each member that it is checked for. -/
theorem Members.within_cons {own members : Members} {name : String} {v : Value}
    (hv : Table.get? members name = some v) (h : own.Within members) :
    Members.Within ((name, v) :: own) members := by
  intro n w hw
  rw [Table.get?] at hw
  split_ifs at hw with hn
  · cases hw
    rwa [← beq_iff_eq.1 hn]
  · exact h n w hw

/-- The anchors of data are found by the names of their members. -/
theorem Anchors.get?_ofMembers {id : ShapeId} {members : Members} {as : Anchors}
    (h : Anchors.ofMembers id members = .ok as) {name : String} {a : Anchor} :
    Table.get? as name = some a ↔
      ∃ v, Table.get? members name = some v ∧ Anchor.ofValue id name v = .ok a := by
  induction members generalizing as with
  | nil =>
    cases h
    exact ⟨nofun, nofun⟩
  | cons m members ih =>
    obtain ⟨n, v⟩ := m
    obtain ⟨a', ha', h⟩ := except_bind_iff.1 h
    obtain ⟨as', has', h⟩ := except_bind_iff.1 h
    cases h
    by_cases hn : n = name
    · subst hn
      simp [Table.get?, ha']
    · simp [Table.get?, hn, ih has']

/-- What is true while the shape `id`, which is the next after `done`, is
    realized: the members that it has published last, if it has published any,
    are `own`. -/
structure Placing (done : List String) (id : String) (own : Members) (s : Journaled Registry) :
    Prop where
  sound : Sound done (done ++ [id]) s
  own : ∀ as, s.state.anchors.get? (.text id) = some as → Anchors.ofMembers (.text id) own = .ok as

namespace Placing

variable {done : List String} {id : String} {own members : Members} {s s' : Journaled Registry}
  {α β : Type} {b : Builder}

/-- The shape asks for something. -/
theorem ask (h : Placing done id own s) {a : Action Registry α} {f : α → Action Registry β} {y : β}
    (ha : Along (Asks done id) a) (hr : (a >>= f) s = (.ok y, s')) :
    ∃ x s₁, a s = (.ok x, s₁) ∧ Placing done id own s₁ ∧ f x s₁ = (.ok y, s') := by
  obtain ⟨x, s₁, hx, hr⟩ := bind_eq_ok.1 hr
  have hs := ha hx
  exact ⟨x, s₁, hx, ⟨hs.sound h.sound, hs.anchors ▸ h.own⟩, hr⟩

/-- The shape publishes anchors that agree with those that it has published
    before. -/
theorem register (h : Placing done id own s) (hm : own.Within members) {u : Unit}
    (hr : Registry.register (.text id) members s = (.ok u, s')) : Placing done id members s' := by
  obtain ⟨as, has, hr⟩ := ofExcept_bind_eq_ok.1 hr
  obtain ⟨key, hkey, hr⟩ := ofExcept_bind_eq_ok.1 hr
  cases hkey
  cases hr
  refine ⟨h.sound.extend (Journal.threshold_write ..) (Journal.survey_write h.sound.traced _) rfl
    ?_ ?_, ?_⟩
  · intro i name a ha
    rw [Registry.anchor_eq_ok] at ha ⊢
    obtain ⟨as₀, hi, h₀, ha⟩ := ha
    by_cases hid : i = .text id
    · -- An anchor of the shape itself, which it publishes again.
      subst hid
      obtain ⟨v, hv, hva⟩ := (Anchors.get?_ofMembers (h.own as₀ h₀)).1 ha
      exact ⟨as, hi, Table.get?_insert_text as,
        (Anchors.get?_ofMembers has).2 ⟨v, hm name v hv, hva⟩⟩
    · exact ⟨as₀, hi, (Table.get?_insert_text_of_ne as hid).trans h₀, ha⟩
  · -- Only the shape itself has got anchors, if it had none.
    rintro i ⟨as₀, h₀⟩
    by_cases hid : i = id
    · simp [hid]
    · refine h.sound.known i ⟨as₀, ?_⟩
      rwa [← Table.get?_insert_text_of_ne as fun he => hid (ShapeId.text.inj he)]
  · intro as₀ h₀
    rw [Table.get?_insert_text] at h₀
    cases h₀
    exact has

/-- What a shape publishes in part is what its final anchors have to agree with
    from then on. -/
theorem publishPartial (h : Placing done id own s) (hb : b.id = .text id)
    (hm : own.Within members) {f : Builder → Action Registry β} {y : β}
    (hr : (b.publishPartial members >>= f) s = (.ok y, s')) :
    ∃ b' s₁, b'.id = .text id ∧ b'.published = members ∧ Placing done id members s₁ ∧
      f b' s₁ = (.ok y, s') := by
  rw [Builder.publishPartial, bind_assoc] at hr
  obtain ⟨_, s₁, hs₁, hr⟩ := bind_eq_ok.1 hr
  rw [pure_bind] at hr
  rw [hb] at hs₁
  exact ⟨{ b with published := members }, s₁, hb, rfl, h.register hm hs₁, hr⟩

theorem publish (h : Placing done id own s) (hb : b.id = .text id) (hm : own.Within members)
    {f : Builder → Action Registry β} {y : β}
    (hr : (b.publish members >>= f) s = (.ok y, s')) :
    ∃ b' s₁, b'.id = .text id ∧ Placing done id members s₁ ∧ f b' s₁ = (.ok y, s') := by
  rw [Builder.publish, bind_assoc] at hr
  obtain ⟨b', s₁, hb', -, hs₁, hr⟩ := h.publishPartial hb hm hr
  rw [pure_bind] at hr
  exact ⟨{ b' with isFinal := true }, s₁, hb', hs₁, hr⟩

end Placing

/-! ## Sizes -/

namespace Shape

/-- A size that is given is that of the extent. -/
theorem extent_size (start stop : Option Float) (size : Float) :
    (extent start stop (some size)).size = size := by
  cases start <;> cases stop <;> rfl

/-- A span gives the extent, whatever it warns of. -/
theorem span_eq {b : Builder} {start stop size : Option Float} {names : String × String × String}
    {s s' : Journaled Registry} {e : Extent}
    (h : span b start stop size names s = (.ok e, s')) : e = extent start stop size := by
  unfold span at h
  split_ifs at h
  · obtain ⟨_, s₁, -, h⟩ := bind_eq_ok.1 h
    cases h
    rfl
  · cases h
    rfl

/-- The members that are published once a size is known, if it is given. -/
def sized (known : Members) (name : String) : Option Float → Members
  | some x => known.insert name (.float x)
  | none => known

/-- A size that was not there before takes nothing back. -/
theorem within_sized {known : Members} {name : String} (h : Table.get? known name = none)
    (size : Option Float) : known.Within (sized known name size) := by
  intro n v hv
  cases size with
  | none => exact hv
  | some x =>
    have hne : name ≠ n := by
      rintro rfl
      rw [h] at hv
      cases hv
    exact (Table.get?_insert_of_ne known _ hne).trans hv

/-- The final anchors of a circle tell the radius that was published first. -/
theorem radius_within (cx cy r : Float) :
    Members.Within [("r", .float r)] (circleAnchors cx cy r) :=
  Members.within_cons rfl (Members.within_nil _)

/-- Those of a rectangle tell its sizes. -/
theorem sizes_within (left right width top bottom height : Option Float) (rotation : Float) :
    (sized (sized [] "width" width) "height" height).Within
      (rectAnchors (extent left right width) (extent top bottom height) rotation) := by
  have hw : ∀ w, width = some w → Table.get? (rectAnchors (extent left right width)
      (extent top bottom height) rotation) "width" = some (.float w) := by
    rintro w rfl
    exact congrArg (fun x => some (Value.float x)) (extent_size left right w)
  have hh : ∀ n, height = some n → Table.get? (rectAnchors (extent left right width)
      (extent top bottom height) rotation) "height" = some (.float n) := by
    rintro n rfl
    exact congrArg (fun x => some (Value.float x)) (extent_size top bottom n)
  cases width with
  | none =>
    cases height with
    | none => exact Members.within_nil _
    | some n => exact Members.within_cons (hh n rfl) (Members.within_nil _)
  | some w =>
    cases height with
    | none => exact Members.within_cons (hw w rfl) (Members.within_nil _)
    | some n =>
      exact Members.within_cons (hw w rfl) (Members.within_cons (hh n rfl) (Members.within_nil _))

end Shape

/-! ## The kinds of shapes -/

namespace Placing

variable {done : List String} {id : String} {own : Members} {s s' : Journaled Registry}
  {b : Builder} {props : Members} {out : Builder × Members} {β : Type}

theorem publishSize (h : Placing done id b.published s) (hb : b.id = .text id) {name : String}
    (hn : Table.get? b.published name = none) {size : Option Float}
    {f : Builder → Action Registry β} {y : β}
    (hr : (Shape.publishSize b b.published name size >>= f) s = (.ok y, s')) :
    ∃ b' s₁, b'.id = .text id ∧ b'.published = Shape.sized b.published name size ∧
      Placing done id b'.published s₁ ∧ f b' s₁ = (.ok y, s') := by
  cases size with
  | none =>
    rw [Shape.publishSize, pure_bind] at hr
    exact ⟨b, s, hb, rfl, h, hr⟩
  | some x =>
    obtain ⟨b', s₁, hb', hp, h, hr⟩ := h.publishPartial hb (Shape.within_sized hn (some x)) hr
    exact ⟨b', s₁, hb', hp, hp ▸ h, hr⟩

/-- The shape publishes its final anchors and is checked. -/
theorem finish (h : Placing done id own s) (hb : b.id = .text id) {members : Members}
    (hm : own.Within members) {check : Builder → Action Registry Unit}
    (hc : ∀ b', b'.id = .text id → Along (Asks done id) (check b')) {drawn : Members}
    (hr : (do
      let b ← b.publish members
      check b
      return (b, drawn)) s = (.ok out, s')) : Sound done (done ++ [id]) s' := by
  obtain ⟨b', s₁, hb', h, hr⟩ := h.publish hb hm hr
  obtain ⟨_, s₂, -, h, hr⟩ := h.ask (hc b' hb') hr
  cases hr
  exact h.sound

theorem circle (h : Placing done id [] s) (hb : b.id = .text id)
    (hr : Shape.circle b props s = (.ok out, s')) : Sound done (done ++ [id]) s' := by
  obtain ⟨r, s₁, -, h, hr⟩ := h.ask ((asks_reading hb).gathering.optional _ _ _) hr
  obtain ⟨b₁, s₂, hb₁, -, h, hr⟩ := h.publishPartial hb (Members.within_nil _) hr
  obtain ⟨cx, s₃, -, h, hr⟩ := h.ask ((asks_reading hb₁).gathering.optional _ _ _) hr
  obtain ⟨cy, s₄, -, h, hr⟩ := h.ask ((asks_reading hb₁).gathering.optional _ _ _) hr
  exact h.finish hb₁ (Shape.radius_within _ _ _) (fun b hb => (asks_reading hb).checkBounds _) hr

theorem dot (h : Placing done id [] s) (hb : b.id = .text id)
    (hr : Shape.dot b props s = (.ok out, s')) : Sound done (done ++ [id]) s' := by
  obtain ⟨x, s₁, -, h, hr⟩ := h.ask ((asks_reading hb).gathering.optional _ _ _) hr
  obtain ⟨y, s₂, -, h, hr⟩ := h.ask ((asks_reading hb).gathering.optional _ _ _) hr
  exact h.finish hb (Members.within_nil _) (fun b hb => (asks_reading hb).checkBounds _) hr

theorem line (h : Placing done id [] s) (hb : b.id = .text id)
    (hr : Shape.line b props s = (.ok out, s')) : Sound done (done ++ [id]) s' := by
  obtain ⟨p, s₁, -, h, hr⟩ := h.ask ((asks_reading hb).gathering.lineEnd _ _ _ _) hr
  obtain ⟨q, s₂, -, h, hr⟩ := h.ask ((asks_reading hb).gathering.lineEnd _ _ _ _) hr
  exact h.finish hb (Members.within_nil _) (fun b hb => (asks_reading hb).checkBounds _) hr

/-- A rectangle publishes up to three times, and never takes anything back. -/
theorem rect (h : Placing done id [] s) (hb : b.id = .text id) (hp : b.published = [])
    (hr : Shape.rect b props s = (.ok out, s')) : Sound done (done ++ [id]) s' := by
  obtain ⟨width, s₁, -, h, hr⟩ := h.ask ((asks_reading hb).gathering.optional _ _ _) hr
  rw [← hp] at h hr
  obtain ⟨b₁, s₂, hb₁, hp₁, h, hr⟩ := h.publishSize hb (by rw [hp]; rfl) hr
  obtain ⟨height, s₃, -, h, hr⟩ := h.ask ((asks_reading hb₁).gathering.optional _ _ _) hr
  obtain ⟨b₂, s₄, hb₂, hp₂, h, hr⟩ := h.publishSize hb₁ (by rw [hp₁, hp]; cases width <;> rfl) hr
  obtain ⟨left, s₅, -, h, hr⟩ := h.ask ((asks_reading hb₂).gathering.aliased _ _ _ _) hr
  obtain ⟨right, s₆, -, h, hr⟩ := h.ask ((asks_reading hb₂).gathering.optional _ _ _) hr
  obtain ⟨top, s₇, -, h, hr⟩ := h.ask ((asks_reading hb₂).gathering.aliased _ _ _ _) hr
  obtain ⟨bottom, s₈, -, h, hr⟩ := h.ask ((asks_reading hb₂).gathering.optional _ _ _) hr
  obtain ⟨rotation, s₉, -, h, hr⟩ := h.ask ((asks_reading hb₂).gathering.optional _ _ _) hr
  obtain ⟨x, s₁₀, hx, h, hr⟩ := h.ask ((asks_reading hb₂).gathering.span _ _ _ _) hr
  obtain ⟨y, s₁₁, hy, h, hr⟩ := h.ask ((asks_reading hb₂).gathering.span _ _ _ _) hr
  -- The sizes that have been published are those of the extents.
  have hm := Shape.sizes_within left right width top bottom height (Shape.orZero rotation)
  rw [← Shape.span_eq hx, ← Shape.span_eq hy, ← hp, ← hp₁, ← hp₂] at hm
  exact h.finish hb₂ hm (fun b hb => (asks_reading hb).check (Shape.isCheck_rect ..)) hr

end Placing

/-- A shape of one of the usual kinds is realized soundly. -/
theorem sound_realizer {done : List String} {id : String} {s s' : Journaled Registry}
    {kind : String} {run : Realizer} (hk : Shape.kinds.get? kind = some run)
    (h : Placing done id [] s) {props : Members} {out : Builder × Members}
    (hr : run { id := .text id } props s = (.ok out, s')) : Sound done (done ++ [id]) s' := by
  simp only [Shape.kinds, Table.get?] at hk
  split_ifs at hk <;> cases hk
  · exact h.rect rfl rfl hr
  · exact h.circle rfl hr
  · exact h.dot rfl hr
  · exact h.line rfl hr

end AnchorLayout
