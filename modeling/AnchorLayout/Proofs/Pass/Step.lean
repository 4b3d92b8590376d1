import AnchorLayout.Pass
import AnchorLayout.Proofs.Journal.Action
import AnchorLayout.Proofs.Registry.Keys

/-!
# The steps of a pass

A step of a pass refuses a shape, or realizes it under an id that is new
(`Pass.step_cases`). The id is the one that the shape declares, or it is made up
from its kind and the number of such shapes (`ShapeSpec.idAs`, `Pass.idAfter`).
A pass takes its steps one after the other, from a registry without shapes on
(`Pass.run_eq`).
-/

namespace AnchorLayout

open AnchorLayout.Action

/-- The registry in which a pass begins: an empty one, with a new view box if
    there is one. -/
def Registry.opened (viewBox : Option ViewBox) (r : Registry) : Registry :=
  { r.cleared with viewBox := viewBox.or r.viewBox }

namespace Pass

/-- Nothing is done after a failure. -/
theorem throw_bind {σ α β : Type} (e : Failure) (f : α → Action σ β) :
    throw e >>= f = throw e := rfl

/-- The part of a step after the kind of a shape and the id that it goes by are
    known. -/
def accept (run : Realizer) (d : ShapeSpec) (id : ShapeId) (autoId : Bool) (p : Progress) :
    Action Registry Progress := do
  let key ← Action.ofExcept id.asKey
  if p.ids.contains key then throw (.duplicateId id)
  realize run d.kind id autoId d.props
  return { p with ids := p.ids ++ [key] }

/-- A shape under a new id is realized, and its id is remembered. -/
theorem accept_eq {run : Realizer} {d : ShapeSpec} {id key : ShapeId} {autoId : Bool}
    {p : Progress} (hkey : id.asKey = .ok key) (hnew : p.ids.contains key = false) :
    accept run d id autoId p = (do
      realize run d.kind id autoId d.props
      return { p with ids := p.ids ++ [key] }) := by
  rw [accept, hkey]
  change (if p.ids.contains key then _ else _ : Action Registry Progress) = _
  rw [if_neg (by simp [hnew])]

/-- A shape under an id that is known is refused before it is realized. -/
theorem accept_of_contains {run : Realizer} {d : ShapeSpec} {id key : ShapeId} {autoId : Bool}
    {p : Progress} (hkey : id.asKey = .ok key) (hold : p.ids.contains key = true) :
    accept run d id autoId p = throw (.duplicateId id) := by
  rw [accept, hkey]
  change (if p.ids.contains key then _ else _ : Action Registry Progress) = _
  rw [if_pos hold, throw_bind]

theorem accept_cases (run : Realizer) (d : ShapeSpec) (id : ShapeId) (autoId : Bool)
    (p : Progress) :
    (∃ e, accept run d id autoId p = throw e) ∨
    ∃ key, id.asKey = .ok key ∧ p.ids.contains key = false ∧
      accept run d id autoId p = (do
        realize run d.kind id autoId d.props
        return { p with ids := p.ids ++ [key] }) := by
  -- The refusals come before anything is done to the registry.
  cases hkey : id.asKey with
  | error e => exact .inl ⟨e, by rw [accept, hkey]; rfl⟩
  | ok key =>
    by_cases hnew : p.ids.contains key = true
    · exact .inl ⟨.duplicateId id, accept_of_contains hkey hnew⟩
    · rw [Bool.not_eq_true] at hnew
      exact .inr ⟨key, rfl, hnew, accept_eq hkey hnew⟩

/-- Whether a shape is of a kind that there is and has an id that can be asked
    for its truth value is no matter of the shapes before it. -/
theorem step_eq (table : RealizerTable) (d : ShapeSpec) :
    (∃ e, ∀ p, step table p d = throw e) ∨
    ∃ run, table.get? d.kind = some run ∧
      ∀ p, step table p d = accept run d (idFor p d).1 (idFor p d).2.1 (idFor p d).2.2 := by
  unfold step
  split
  · next run hk =>
    dsimp only
    split
    · split_ifs
      · exact .inl ⟨_, fun _ => rfl⟩
      · exact .inr ⟨run, hk, fun _ => rfl⟩
    · exact .inr ⟨run, hk, fun _ => rfl⟩
  · exact .inl ⟨_, fun _ => rfl⟩

/-- A step refuses a shape, or realizes it under a new id. -/
theorem step_cases (table : RealizerTable) (p : Progress) (d : ShapeSpec) :
    (∃ e, step table p d = throw e) ∨
    ∃ run key, table.get? d.kind = some run ∧ (idFor p d).1.asKey = .ok key ∧
      (idFor p d).2.2.ids.contains key = false ∧
      step table p d = (do
        realize run d.kind (idFor p d).1 (idFor p d).2.1 d.props
        return { (idFor p d).2.2 with ids := (idFor p d).2.2.ids ++ [key] }) := by
  rcases step_eq table d with ⟨e, h⟩ | ⟨run, hk, h⟩
  · exact .inl ⟨e, h p⟩
  · rw [h p]
    exact (accept_cases ..).imp_right fun ⟨key, hkey⟩ => ⟨run, key, hk, hkey⟩

/-- A pass over more shapes goes on from what is remembered of the first
    ones. -/
theorem steps_append (table : RealizerTable) (p : Progress) (shapes rest : List ShapeSpec) :
    steps table p (shapes ++ rest) = steps table p shapes >>= fun p => steps table p rest := by
  induction shapes generalizing p with
  | nil => rfl
  | cons d shapes ih =>
    rw [List.cons_append, steps, steps, bind_assoc]
    exact congrArg _ (funext fun p => ih p)

theorem steps_append_eq_ok {table : RealizerTable} {p x : Progress} {shapes rest : List ShapeSpec}
    {s s' : Journaled Registry} :
    steps table p (shapes ++ rest) s = (.ok x, s') ↔
      ∃ p₁ s₁, steps table p shapes s = (.ok p₁, s₁) ∧ steps table p₁ rest s₁ = (.ok x, s') := by
  rw [steps_append, bind_eq_ok]

theorem steps_singleton (table : RealizerTable) (p : Progress) (d : ShapeSpec) :
    steps table p [d] = step table p d :=
  bind_pure _

/-- To empty a registry and to set its view box is one change of it. -/
theorem run_eq (table : RealizerTable) (shapes : List ShapeSpec) (viewBox : Option ViewBox) :
    run table shapes viewBox = (do
      Action.change (Registry.opened viewBox)
      let p ← steps table {} shapes
      let r ← Action.read
      Action.note (.completed p.ids.length r.diagnostics.length)
      return r.records) := by
  cases viewBox <;> rfl

end Pass

/-! ## Ids -/

namespace ShapeSpec

/-- Whether a shape declares an id to go by. An empty one does not count. -/
def declares (d : ShapeSpec) : Bool := d.id.toValue.truth?.getD false

/-- A text that is not empty is an id to go by. -/
theorem declares_of_text {d : ShapeSpec} {name : String} (h : d.id = .text name) (hn : name ≠ "") :
    d.declares = true := by
  simp [declares, h, ShapeId.toValue, Value.truth?, hn]

/-- An empty text counts as no id, and so does null. -/
theorem declares_eq_false {d : ShapeSpec} (h : d.id = .text "" ∨ ∃ mark, d.id = .datum .null mark) :
    d.declares = false := by
  obtain h | ⟨mark, h⟩ := h <;> rw [declares, h] <;> rfl

/-- The id of a shape, where it would be the `n`th of its kind that declares
    none. -/
def idAs (d : ShapeSpec) (n : ℕ) : ShapeId :=
  if d.declares then d.id else .text (d.kind ++ "-" ++ toString n)

/-- A shape whose id is a text, or that has none. -/
def IsNamed (d : ShapeSpec) : Prop :=
  (∃ name, d.id = .text name) ∨ ∃ mark, d.id = .datum .null mark

/-- Such a shape is known by a text, declared or made up. -/
theorem exists_idAs_eq {d : ShapeSpec} (hd : d.IsNamed) (n : ℕ) :
    ∃ name, d.idAs n = .text name := by
  rw [idAs]
  split_ifs with ht
  · rcases hd with ⟨name, hn⟩ | ⟨mark, hn⟩
    · exact ⟨name, hn⟩
    · rw [declares, hn] at ht
      cases ht
  · exact ⟨_, rfl⟩

end ShapeSpec

namespace Pass

/-- The id of a shape in a pass, `before` being the shapes before it. -/
def idAfter (before : List ShapeSpec) (d : ShapeSpec) : ShapeId :=
  d.idAs (before.countP (fun c => !c.declares && c.kind == d.kind) + 1)

/-- The id of a shape that comes next. -/
def Progress.idOf (p : Progress) (d : ShapeSpec) : ShapeId := d.idAs (p.nextCount d.kind)

/-- What is remembered after a shape. -/
def Progress.next (p : Progress) (d : ShapeSpec) : Progress :=
  { (idFor p d).2.2 with ids := p.ids ++ [p.idOf d] }

variable (p : Progress) (d : ShapeSpec)

theorem exists_idOf_eq {d : ShapeSpec} (hd : d.IsNamed) : ∃ name, p.idOf d = .text name :=
  ShapeSpec.exists_idAs_eq hd _

theorem idFor_fst : (idFor p d).1 = p.idOf d := by
  rw [idFor, Progress.idOf, ShapeSpec.idAs, ShapeSpec.declares]
  split_ifs <;> rfl

theorem idFor_autoId : (idFor p d).2.1 = !d.declares := by
  rw [idFor, ShapeSpec.declares]
  split_ifs with h <;> simp [h]

theorem ids_idFor : (idFor p d).2.2.ids = p.ids := by
  rw [idFor]
  split_ifs <;> rfl

@[simp] theorem ids_next : (p.next d).ids = p.ids ++ [p.idOf d] := rfl

/-- Shapes that declare no id are counted by kind. -/
@[simp] theorem nextCount_next (kind : String) :
    (p.next d).nextCount kind =
      p.nextCount kind + if !d.declares && d.kind == kind then 1 else 0 := by
  change (idFor p d).2.2.nextCount kind = _
  rw [idFor, ShapeSpec.declares]
  split_ifs with ht hc hc
  · simp [ht] at hc
  · rfl
  · obtain rfl : d.kind = kind := by simpa using (Bool.and_eq_true_iff.1 hc).2
    simp [Progress.nextCount]
  · have hne : d.kind ≠ kind := by
      rintro rfl
      simp [ht] at hc
    simp [Progress.nextCount, Table.get?_insert_of_ne _ _ hne]

/-- A shape that has been realized once would be realized the same way after
    other shapes, as long as its id there is not that of one of them. -/
theorem exists_run_of_step {table : RealizerTable} {p : Progress} {d : ShapeSpec} {x : Progress}
    {s s' : Journaled Registry} (h : step table p d s = (.ok x, s')) :
    ∃ run, table.get? d.kind = some run ∧ ∀ p x s s',
      step table p d s = (.ok x, s') ↔
        (p.idOf d).asKey = .ok (p.idOf d) ∧
        p.ids.contains (p.idOf d) = false ∧ x = p.next d ∧
        realize run d.kind (p.idOf d) (!d.declares) d.props s = (.ok (), s') := by
  rcases step_eq table d with ⟨e, he⟩ | ⟨run, hk, he⟩
  · rw [he] at h
    cases h
  · refine ⟨run, hk, fun p x s s' => ?_⟩
    rw [he, idFor_fst, idFor_autoId]
    constructor
    · intro h
      rcases accept_cases run d (p.idOf d) (!d.declares) (idFor p d).2.2 with
        ⟨e, he⟩ | ⟨key, hkey, hnew, he⟩
      · rw [he] at h
        cases h
      · obtain rfl := ShapeId.eq_of_asKey hkey
        rw [he] at h
        obtain ⟨_, s₁, hs₁, h⟩ := bind_eq_ok.1 h
        cases h
        rw [ids_idFor] at hnew ⊢
        exact ⟨hkey, hnew, rfl, hs₁⟩
    · rintro ⟨hkey, hnew, rfl, h⟩
      rw [accept_eq hkey (by rwa [ids_idFor]), ids_idFor]
      exact bind_eq_ok.2 ⟨(), s', h, rfl⟩

/-! ## What is remembered of shapes -/

/-- What is remembered after all of the shapes. -/
def Progress.after (p : Progress) (shapes : List ShapeSpec) : Progress :=
  shapes.foldl Progress.next p

variable {p}

/-- What is remembered of shapes that have been realized depends on their
    declarations only. -/
theorem progress_of_steps {table : RealizerTable} {shapes : List ShapeSpec} {x : Progress}
    {s s' : Journaled Registry} (h : steps table p shapes s = (.ok x, s')) :
    x = p.after shapes := by
  induction shapes generalizing p s with
  | nil =>
    cases h
    rfl
  | cons d shapes ih =>
    obtain ⟨p₁, s₁, hs₁, h⟩ := bind_eq_ok.1 h
    obtain ⟨run, -, hrun⟩ := exists_run_of_step hs₁
    obtain ⟨-, -, rfl, -⟩ := (hrun _ _ _ _).1 hs₁
    exact ih h

theorem nextCount_after (shapes : List ShapeSpec) (kind : String) :
    (p.after shapes).nextCount kind =
      p.nextCount kind + shapes.countP fun d => !d.declares && d.kind == kind := by
  induction shapes generalizing p with
  | nil => rfl
  | cons d shapes ih =>
    change ((p.next d).after shapes).nextCount kind = _
    rw [ih, nextCount_next, List.countP_cons]
    omega

/-- What has been remembered once stays so. -/
theorem ids_prefix_after (shapes : List ShapeSpec) : p.ids <+: (p.after shapes).ids := by
  induction shapes generalizing p with
  | nil => exact List.prefix_rfl
  | cons d shapes ih => exact (List.prefix_append _ _).trans (ih (p := p.next d))

theorem idAfter_eq (before : List ShapeSpec) :
    idAfter before d = (Progress.after {} before).idOf d := by
  rw [Progress.idOf, nextCount_after, idAfter, Nat.add_comm]
  rfl

/-- The id of each shape is remembered. -/
theorem idAfter_mem (before after : List ShapeSpec) :
    idAfter before d ∈ (Progress.after {} (before ++ d :: after)).ids := by
  rw [idAfter_eq, Progress.after, List.foldl_append]
  refine (ids_prefix_after (p := (Progress.after {} before).next d) after).subset ?_
  simp

end Pass

end AnchorLayout
