import AnchorLayout.Proofs.Journal.Survey
import AnchorLayout.Proofs.Shape.Reading

/-!
# The answers that a pass relies on

While a pass runs, all answers that its shapes have been given stay true, and
they are about shapes that were there when the question was asked (`Sound`). A
shape asks, warns and publishes: asking and warning keep the published anchors
as they are (`Asks`), and publishing may replace those of the shape at hand by
others that agree with them (`Placing`).
-/

namespace AnchorLayout

open AnchorLayout.Action

/-- An answer is true in the registry `r`, and it is that to a question of one
    of the shapes `ids`, of which it names only itself and those before it. -/
structure Answered.Holds (a : Answered) (ids : List String) (r : Registry) : Prop where
  answer : r.answer a.question = .ok a.answer
  shapes : ∀ id ∈ a.question.shapes, id ∈ ids.take (a.shape + 1)
  self : ∀ id, a.question.self? = some id → (ids[a.shape]?).map ShapeId.text = some id

/-- What is true of a traced pass in which the shapes `done` are realized and
    no others than `ids` have anchors. -/
structure Sound (done ids : List String) (s : Journaled Registry) : Prop where
  traced : s.journal.threshold = some .debug
  idle : s.journal.survey.pending = none
  realized : s.journal.survey.realized = done.length
  keys : s.state.shapes.keys = done.map ShapeId.text
  records : s.state.records.map (·.id) = done.map ShapeId.text
  distinct : done.Nodup
  known : ∀ id, s.state.Has id → id ∈ ids
  holds : ∀ a ∈ s.journal.survey.answered, a.Holds ids s.state

namespace Answered.Holds

variable {a : Answered} {ids : List String} {r r' : Registry}

/-- Answers stay when anchors are added. -/
theorem extend (h : a.Holds ids r) (hr : r.Extends r') : a.Holds ids r' :=
  { h with answer := hr.answer h.answer }

/-- Answers stay when shapes are added. -/
theorem append (h : a.Holds ids r) (rest : List String) : a.Holds (ids ++ rest) r where
  answer := h.answer
  shapes id hid := by
    rw [List.take_append]
    exact List.mem_append_left _ (h.shapes id hid)
  self id hid := by
    obtain ⟨t, ht, rfl⟩ := Option.map_eq_some_iff.1 (h.self id hid)
    rw [List.getElem?_append_left (List.getElem?_eq_some_iff.1 ht).1, ht]
    rfl

end Answered.Holds

namespace Sound

variable {done ids : List String} {s s' : Journaled Registry}

/-- What is true of a pass stays when anchors are added and true answers are
    given. -/
theorem advance (h : Sound done ids s) (hj : s'.journal.threshold = s.journal.threshold)
    (hi : s'.journal.survey.pending = none)
    (hn : s'.journal.survey.realized = s.journal.survey.realized)
    (hs : s'.state.shapes = s.state.shapes) (hr : s.state.Extends s'.state)
    (hk : ∀ id, s'.state.Has id → id ∈ ids)
    (ha : ∀ a ∈ s'.journal.survey.answered,
      a ∈ s.journal.survey.answered ∨ a.Holds ids s'.state) : Sound done ids s' where
  traced := hj.trans h.traced
  idle := hi
  realized := hn.trans h.realized
  keys := by rw [hs, h.keys]
  records := by rw [Registry.records, hs]; exact h.records
  distinct := h.distinct
  known := hk
  holds a hmem := (ha a hmem).elim (fun hold => (h.holds a hold).extend hr) id

/-- What is true of a pass stays when anchors are added and no question is
    asked. -/
theorem extend (h : Sound done ids s) (hj : s'.journal.threshold = s.journal.threshold)
    (hv : s'.journal.survey = s.journal.survey) (hs : s'.state.shapes = s.state.shapes)
    (hr : s.state.Extends s'.state) (hk : ∀ id, s'.state.Has id → id ∈ ids) :
    Sound done ids s' :=
  h.advance hj (hv ▸ h.idle) (hv ▸ rfl) hs hr hk fun _ ha => .inl (hv ▸ ha)

/-- What is true of a pass stays when an event is noted down that tells nothing
    of a question. -/
theorem write (h : Sound done ids s) {e : Event} (he : s.journal.survey.add e = s.journal.survey) :
    Sound done ids ⟨s.state, s.journal.write e⟩ :=
  h.extend (Journal.threshold_write ..) ((Journal.survey_write h.traced e).trans he) rfl
    (Registry.extends_of_anchors_eq rfl) h.known

/-- The next shape may have anchors too. -/
theorem append (h : Sound done ids s) (rest : List String) : Sound done (ids ++ rest) s :=
  { h with
    known := fun id hid => List.mem_append_left _ (h.known id hid)
    holds := fun a ha => (h.holds a ha).append rest }

end Sound

/-! ## Warnings -/

/-- Nothing changes but the diagnostics, and no question is asked. -/
structure Mute (s s' : Journaled Registry) : Prop where
  anchors : s'.state.anchors = s.state.anchors
  shapes : s'.state.shapes = s.state.shapes
  threshold : s'.journal.threshold = s.journal.threshold
  survey : s.journal.threshold = some .debug → s'.journal.survey = s.journal.survey

instance : IsPreorder (Journaled Registry) Mute where
  refl _ := ⟨rfl, rfl, rfl, fun _ => rfl⟩
  trans _ _ _ h h' := ⟨h'.anchors.trans h.anchors, h'.shapes.trans h.shapes,
    h'.threshold.trans h.threshold,
    fun ht => (h'.survey (h.threshold.trans ht)).trans (h.survey ht)⟩

theorem mute_report (d : Diagnostic) : Along Mute (Registry.report d) := by
  intro s x s' h
  cases h
  exact ⟨rfl, rfl, Journal.threshold_write .., fun ht => Journal.survey_write ht _⟩

theorem mute_warnAll (id : ShapeId) (messages : List String) :
    Along Mute (Registry.warnAll id messages) := by
  induction messages with
  | nil => exact along_pure ()
  | cons message rest ih => exact (mute_report _).bind fun _ => ih

theorem mute_checkBounds (id : ShapeId) (bounds : Bounds) :
    Along Mute (Registry.checkBounds id bounds) := by
  refine along_read.bind fun r => ?_
  cases r.viewBox with
  | none => exact along_pure ()
  | some v => exact mute_warnAll id _

theorem Sound.mute {done ids : List String} {s s' : Journaled Registry} (h : Sound done ids s)
    (hm : Mute s s') : Sound done ids s' := by
  refine h.extend hm.threshold (hm.survey h.traced) hm.shapes
    (Registry.extends_of_anchors_eq hm.anchors) fun id hid => h.known id ?_
  rwa [Registry.Has, ← hm.anchors]

/-! ## Questions -/

variable {done : List String} {id : String}

/-- The shape `id`, which is the next after `done`, changes no anchors, and the
    answers that it is given are true. -/
structure Asks (done : List String) (id : String) (s s' : Journaled Registry) : Prop where
  anchors : s'.state.anchors = s.state.anchors
  sound : Sound done (done ++ [id]) s → Sound done (done ++ [id]) s'

instance : IsPreorder (Journaled Registry) (Asks done id) where
  refl _ := ⟨rfl, fun h => h⟩
  trans _ _ _ h h' := ⟨h'.anchors.trans h.anchors, fun hs => h'.sound (h.sound hs)⟩

/-- What is true of a pass stays when the shape at hand is given an answer. -/
theorem Sound.answer {s s' : Journaled Registry} (h : Sound done (done ++ [id]) s) {q : Question}
    {a : Argument} (hself : ∀ i, q.self? = some i → i = .text id)
    (ha : s.state.answer q = .ok a) (hj : s'.journal.threshold = s.journal.threshold)
    (hv : s'.journal.survey = { s.journal.survey with
      answered := s.journal.survey.answered ++ [⟨s.journal.survey.realized, q, a⟩] })
    (hs : s'.state.shapes = s.state.shapes) (hr : s'.state.anchors = s.state.anchors) :
    Sound done (done ++ [id]) s' := by
  have he := Registry.extends_of_anchors_eq hr
  refine h.advance hj (by rw [hv, h.idle]) (by rw [hv]) hs he (fun i hi => ?_) fun b hb => ?_
  · refine h.known i ?_
    rwa [Registry.Has, ← hr]
  · rw [hv] at hb
    refine (List.mem_append.1 hb).imp_right fun hnew => ?_
    -- The new answer: all that it names has anchors by now.
    cases List.mem_singleton.1 hnew
    refine ⟨he.answer ha, fun i hi => ?_, fun i hi => ?_⟩
    · rw [h.realized, List.take_of_length_le (by simp)]
      exact h.known i (Registry.has_of_answer ha hi)
    · rw [h.realized, hself i hi]
      simp

section

variable {α : Type} {t : Tracing} {args : List Argument} {named : List (String × Argument)}
  {result : α → Argument} {body : Action Registry α} {q : Question}

/-- A call that answers a question is surveyed with the question and the
    answer. -/
theorem survey_call {s s' : Journaled Registry} {x : α} (ht : s.journal.threshold = some .debug)
    (hq : Question.ofCall? t args named = some q) (hb : Along Mute body)
    (h : t.call args named result body s = (.ok x, s')) :
    s'.journal.survey = { s.journal.survey with
      pending := none
      answered := s.journal.survey.answered ++ [⟨s.journal.survey.realized, q, result x⟩] } := by
  rw [call_apply, if_pos (Journal.accepts_of_debug ht _)] at h
  split at h
  · next x₁ s₁ hbody =>
    cases h
    have hm := hb hbody
    -- The question is pending while the body
    -- runs, and answered by the event after it.
    have ht₁ := (Journal.threshold_write s.journal (.entered t args named)).trans ht
    rw [Journal.survey_write (hm.threshold.trans ht₁), hm.survey ht₁, Journal.survey_write ht]
    simp only [Survey.add, hq]
  · cases h

/-- A traced call that answers a question of the shape at hand. -/
theorem asks_call (hq : Question.ofCall? t args named = some q)
    (hself : ∀ i, q.self? = some i → i = .text id)
    (hb : Ensures body fun s x s' => Mute s s' ∧ s.state.answer q = .ok (result x)) :
    Along (Asks done id) (t.call args named result body) := by
  have hmute : Along Mute body := fun s x s' h => (hb h).1
  intro s x s' h
  have hv := fun ht => survey_call ht hq hmute h
  rw [call_apply] at h
  split_ifs at h
  · split at h
    · next x₁ s₁ hbody =>
      cases h
      obtain ⟨hm, ha⟩ := hb hbody
      refine ⟨hm.anchors, fun hs => hs.answer hself ha ?_ ?_ hm.shapes hm.anchors⟩
      · rw [Journal.threshold_write, hm.threshold, Journal.threshold_write]
      · rw [hv hs.traced]
        simp only [hs.idle]
    · cases h
  · obtain ⟨hm, -⟩ := hb h
    exact ⟨hm.anchors, fun hs => hs.mute hm⟩

end

theorem asks_resolve (text : String) :
    Along (Asks done id) (Registry.resolve text (.byName (.text id))) := by
  refine asks_call (q := .value text (some (.text id))) rfl
    (fun i hi => (Option.some.inj hi).symm) fun s x s' h => ?_
  rw [read_bind_apply, ofExcept_apply] at h
  obtain ⟨hx, rfl⟩ := Prod.mk.inj h
  exact ⟨refl s, except_bind_iff.2 ⟨x, hx, rfl⟩⟩

theorem asks_resolvePoint (text : String) :
    Along (Asks done id) (Registry.resolvePoint text) := by
  refine asks_call (q := .point text) rfl nofun fun s p s' h => ?_
  rw [read_bind_apply, ofExcept_apply] at h
  obtain ⟨hp, rfl⟩ := Prod.mk.inj h
  exact ⟨refl s, except_bind_iff.2 ⟨p, hp, rfl⟩⟩

theorem asks_resolveOnAxis (text axis property : String) :
    Along (Asks done id)
      (Registry.resolveOnAxis text axis property (.text id) (.byName (.text id))) := by
  refine asks_call (q := .value text (some (.text id))) rfl
    (fun i hi => (Option.some.inj hi).symm) fun s x s' h => ?_
  rcases hk : Axis.ofName? axis with _ | known
  · rw [hk] at h
    cases h
  · rw [hk] at h
    obtain ⟨e, he, h⟩ := ofExcept_bind_eq_ok.1 h
    rw [read_bind_apply] at h
    obtain ⟨_, s₁, hw, h⟩ := bind_eq_ok.1 h
    rw [read_bind_apply, ofExcept_apply] at h
    obtain ⟨hx, rfl⟩ := Prod.mk.inj h
    -- The value is that in the registry after
    -- the warnings, which has the same anchors.
    have hm := mute_warnAll _ _ hw
    refine ⟨hm, except_bind_iff.2 ⟨x, except_bind_iff.2 ⟨e, he, ?_⟩, rfl⟩⟩
    exact (Registry.extends_of_anchors_eq hm.anchors.symm).evaluate hx

theorem Asks.of_mute {s s' : Journaled Registry} (hm : Mute s s') : Asks done id s s' :=
  ⟨hm.anchors, fun hs => hs.mute hm⟩

/-- What a shape does besides publishing anchors. -/
theorem asks_reading {i : ShapeId} (hi : i = .text id) :
    Reading (fun ⦃_⦄ a => Along (Asks done id) a) (fun _ => True) i := by
  subst hi
  exact {
    pure := along_pure
    throw := ensures_throw
    bind := Along.bind
    report := fun _ _ _ _ h => .of_mute (mute_report _ h)
    checkBounds := fun _ _ _ _ h => .of_mute (mute_checkBounds _ _ h)
    resolve := fun text _ => asks_resolve text
    resolveOnAxis := fun text axis property _ => asks_resolveOnAxis text axis property
    resolvePoint := fun text _ => asks_resolvePoint text }

end AnchorLayout
