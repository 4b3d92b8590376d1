import AnchorLayout.Proofs.Pass.Placing
import AnchorLayout.Proofs.Pass.Independence

/-!
# A pass is a fixed point of its own questions

When a pass is through, all that its shapes were told on the way is true of the
registry that it leaves, although each was told it by the registry of that
moment (`runPass_fixedPoint`). No shape overwrites the anchors of another, since
no two have the same id, and none takes back what it has published itself, so
an answer once given stays.
-/

namespace AnchorLayout

open AnchorLayout.Action

namespace Pass

variable {done : List String} {id : String} {p p' : Progress} {d : ShapeSpec}
  {s s' : Journaled Registry}

/-- A shape is recorded. -/
theorem sound_record (h : Sound done (done ++ [id]) s) (hid : id ∉ done) {kind : String}
    {record : ShapeRecord} (hr : record.id = .text id) :
    Sound (done ++ [id]) (done ++ [id])
      ⟨{ s.state with shapes := s.state.shapes.insert (.text id) record },
        s.journal.write (.realized kind (.text id))⟩ := by
  have hv : (s.journal.write (.realized kind (.text id))).survey =
      { s.journal.survey with realized := s.journal.survey.realized + 1 } :=
    Journal.survey_write h.traced _
  -- The record goes to the end, since none has been kept under the id.
  have hs : s.state.shapes.insert (.text id) record = s.state.shapes ++ [(.text id, record)] := by
    refine Table.insert_of_get?_eq_none record (Table.get?_text_eq_none ?_)
    rw [h.keys]
    simpa using hid
  exact {
    traced := (Journal.threshold_write ..).trans h.traced
    idle := by rw [hv, h.idle]
    realized := by rw [hv, h.realized, List.length_append]; rfl
    keys := by rw [hs, Table.keys, List.map_append, ← Table.keys, h.keys, List.map_append]; rfl
    records := by
      have hrec := h.records
      rw [Registry.records] at hrec ⊢
      rw [hs, List.map_append, List.map_append, hrec, List.map_append]
      exact congrArg (_ ++ [·]) hr
    distinct := List.nodup_append.2 ⟨h.distinct, List.nodup_singleton id, by
      rintro i hi _ hid' rfl
      exact hid (List.mem_singleton.1 hid' ▸ hi)⟩
    known := h.known
    holds := fun a ha => by
      rw [hv] at ha
      exact (h.holds a ha).extend (Registry.extends_of_anchors_eq rfl) }

/-- A shape that is realized under a new id joins those that are. -/
theorem sound_realize {kind : String} {run : Realizer} (hk : Shape.kinds.get? kind = some run)
    (h : Sound done done s) (hid : id ∉ done) {autoId : Bool} {props : Members} {u : Unit}
    (hr : realize run kind (.text id) autoId props s = (.ok u, s')) :
    Sound (done ++ [id]) (done ++ [id]) s' := by
  -- The id is new, so the shape has no anchors when it is begun.
  have hp : Placing done id [] s := ⟨h.append [id], fun as has => (hid (h.known id ⟨as, has⟩)).elim⟩
  unfold realize at hr
  obtain ⟨⟨b, drawn⟩, s₁, hb, hr⟩ := bind_eq_ok.1 hr
  have h₁ := sound_realizer hk hp hb
  dsimp only at hr
  split_ifs at hr
  · obtain ⟨_, s₂, hs₂, hr⟩ := bind_eq_ok.1 hr
    cases hs₂
    cases hr
    exact sound_record h₁ hid rfl
  · cases hr

theorem sound_step (h : Sound done done s) (hp : p.ids = done.map .text) (hd : d.IsNamed)
    (hr : step Shape.kinds p d s = (.ok p', s')) :
    ∃ id, p'.ids = (done ++ [id]).map .text ∧ Sound (done ++ [id]) (done ++ [id]) s' := by
  rcases step_cases Shape.kinds p d with ⟨e, he⟩ | ⟨run, key, hk, hkey, hnew, he⟩
  · rw [he] at hr
    cases hr
  · obtain ⟨id, hid⟩ := exists_idOf_eq p hd
    rw [idFor_fst, hid] at hkey
    cases hkey
    rw [ids_idFor, hp, ShapeId.contains_map_text] at hnew
    rw [he, idFor_fst, hid] at hr
    obtain ⟨_, s₁, hreal, hr⟩ := bind_eq_ok.1 hr
    cases hr
    refine ⟨id, ?_, sound_realize hk h (by simpa using hnew) hreal⟩
    rw [ids_idFor, hp, List.map_append]
    rfl

theorem sound_steps (h : Sound done done s) (hp : p.ids = done.map .text)
    {shapes : List ShapeSpec} (hd : ∀ d ∈ shapes, d.IsNamed)
    (hr : steps Shape.kinds p shapes s = (.ok p', s')) :
    ∃ ids, ids.length = done.length + shapes.length ∧ Sound ids ids s' := by
  induction shapes generalizing done p s with
  | nil =>
    cases hr
    exact ⟨done, rfl, h⟩
  | cons d rest ih =>
    obtain ⟨p₁, s₁, hs, hr⟩ := bind_eq_ok.1 hr
    obtain ⟨id, hp₁, h₁⟩ := sound_step h hp (hd d List.mem_cons_self) hs
    obtain ⟨ids, hl, h₂⟩ := ih h₁ hp₁ (fun d' hd' => hd d' (List.mem_cons_of_mem d hd')) hr
    refine ⟨ids, ?_, h₂⟩
    rw [hl, List.length_append, List.length_singleton, List.length_cons, Nat.add_assoc,
      Nat.add_comm 1]

/-- A pass begins without shapes. -/
theorem sound_opened (viewBox : Option ViewBox) (r : Registry) {j : Journal}
    (ht : j.threshold = some .debug) (hv : j.survey = {}) : Sound [] [] ⟨r.opened viewBox, j⟩ where
  traced := ht
  idle := by rw [hv]
  realized := by rw [hv]; rfl
  keys := rfl
  records := rfl
  distinct := List.nodup_nil
  known := nofun
  holds := by rw [hv]; nofun

/-- A traced pass that succeeds ends in a state in which all answers of the
    journal are true. -/
theorem sound_runPass {shapes : List ShapeSpec} (hd : ∀ d ∈ shapes, d.IsNamed)
    {viewBox : Option ViewBox} {r : Registry} {records : List ShapeRecord}
    (hr : runPass shapes viewBox ⟨r, { threshold := some .debug }⟩ = (.ok records, s')) :
    ∃ ids, ids.length = shapes.length ∧ Sound ids ids s' ∧ records = s'.state.records := by
  rw [runPass, call_apply, if_pos (Journal.accepts_of_debug rfl _)] at hr
  split at hr
  · next records' s₁ hrun =>
    cases hr
    rw [run_eq] at hrun
    obtain ⟨_, s₂, h₂, hrun⟩ := bind_eq_ok.1 hrun
    cases h₂
    obtain ⟨p, s₃, hsteps, hrun⟩ := bind_eq_ok.1 hrun
    obtain ⟨ids, hl, h⟩ := sound_steps (sound_opened viewBox r rfl rfl) rfl hd hsteps
    rw [read_bind_apply] at hrun
    cases hrun
    have h' := h.write (e := .completed p.ids.length s₃.state.diagnostics.length) rfl
    refine ⟨ids, by simpa using hl, h'.write ?_, rfl⟩
    -- No question is pending when the pass itself is left.
    rw [Survey.add, h'.idle]
  · cases hr

end Pass

/-- After a pass that succeeds, the registry gives every answer again that a
    shape was given on the way. In its questions, `$self` stands for the shape
    itself, and all others that are named come before it. Questions and answers
    are taken from the journal of the same pass when it is traced, which does
    not change the pass. -/
theorem runPass_fixedPoint {shapes : List ShapeSpec} (hd : ∀ d ∈ shapes, d.IsNamed)
    {viewBox : Option ViewBox} {s s' : Journaled Registry} {records : List ShapeRecord}
    (hr : runPass shapes viewBox s = (.ok records, s')) :
    let traced := runPass shapes viewBox ⟨s.state, { threshold := some .debug }⟩
    traced.1 = .ok records ∧ traced.2.state = s'.state ∧ records.length = shapes.length ∧
    ∀ a ∈ traced.2.journal.survey.answered,
      s'.state.answer a.question = .ok a.answer ∧
      (∀ id, a.question.self? = some id → (records[a.shape]?).map (·.id) = some id) ∧
      ∀ id ∈ a.question.shapes,
        (∃ record ∈ records.take (a.shape + 1), record.id = .text id) ∧
        ∀ record ∈ records.drop (a.shape + 1), record.id ≠ .text id := by
  -- The traced pass ends with the same records in the same registry.
  obtain ⟨j, htraced⟩ := (transparent_runPass shapes viewBox).rerun hr { threshold := some .debug }
  obtain ⟨ids, hl, h, hrec⟩ := Pass.sound_runPass hd htraced
  have hids : records.map (·.id) = ids.map .text := hrec ▸ h.records
  rw [htraced]
  refine ⟨rfl, rfl, ?_, fun a ha => ?_⟩
  · rw [← hl, ← List.length_map (f := (·.id)), hids, List.length_map]
  · obtain ⟨hanswer, hshapes, hself⟩ := h.holds a ha
    refine ⟨hanswer, fun id hid => ?_, fun id hid => ⟨?_, fun record hrecord he => ?_⟩⟩
    · rw [← List.getElem?_map, hids, List.getElem?_map]
      exact hself id hid
    · have hmem := List.mem_map_of_mem (f := ShapeId.text) (hshapes id hid)
      rw [List.map_take, ← hids, ← List.map_take] at hmem
      exact List.mem_map.1 hmem
    · -- The shapes that come later have other ids.
      have hmem := List.mem_map_of_mem (f := (·.id)) hrecord
      rw [List.map_drop, hids, ← List.map_drop, he] at hmem
      obtain ⟨id', hid', hname⟩ := List.mem_map.1 hmem
      cases hname
      exact List.disjoint_take_drop h.distinct le_rfl (hshapes id hid) hid'

/-- A rectangle whose height is taken from its width, and a line that is placed
    by it. -/
theorem runPass_fixedPoint_line :
    let shapes : List ShapeSpec :=
      [⟨"rect", .text "a", [("width", .text "40"), ("height", .text "$self.width / 2")]⟩,
        ⟨"line", .datum .null 0, [("from", .text "#a.center"), ("x2", .text "#a.right + 10")]⟩]
    let traced := runPass shapes none ⟨{}, { threshold := some .debug }⟩
    (∃ records, traced.1 = .ok records) ∧ traced.2.journal.survey.answered.length = 4 ∧
    ∀ a ∈ traced.2.journal.survey.answered, traced.2.state.answer a.question = .ok a.answer := by
  intro shapes traced
  have hok : traced.1.isOk = true := by decide +kernel
  have hlen : traced.2.journal.survey.answered.length = 4 := by decide +kernel
  obtain ⟨records, hr⟩ : ∃ records, traced.1 = .ok records := by
    cases hc : traced.1 with
    | ok records => exact ⟨records, rfl⟩
    | error e =>
      rw [hc] at hok
      cases hok
  have hd : ∀ d ∈ shapes, d.IsNamed := by
    simp [shapes, ShapeSpec.IsNamed]
  exact ⟨⟨records, hr⟩, hlen, fun a ha =>
    ((runPass_fixedPoint hd (Prod.ext hr rfl)).2.2.2 a ha).1⟩

end AnchorLayout
