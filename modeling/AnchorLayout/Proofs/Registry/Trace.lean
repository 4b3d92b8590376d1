import AnchorLayout.Proofs.Registry.Operating

/-!
# Traces

Where events of debugging are written, what is done to a registry leaves a trace
in the journal: its calls one after the other, each with what it notes down
between its two ends, and other events beside them (`Registry.Trace`). None of
these calls makes another. If one of them fails, then so does whatever has made
it, and nothing more is noted down (`Registry.IsTraced`).

That holds of every question and of whatever a shape or a pass is put together
from (`Registry.driving_isTraced`).
-/

namespace AnchorLayout

open AnchorLayout.Action

/-! ## Journals that go on -/

/-- A journal with more events. -/
def Journal.extended (j : Journal) (es : List Event) : Journal :=
  { j with events := j.events ++ es }

namespace Journal

variable {j : Journal}

@[simp] theorem threshold_extended (es : List Event) :
    (j.extended es).threshold = j.threshold := rfl

@[simp] theorem extended_nil : j.extended [] = j := by
  rw [extended, List.append_nil]

@[simp] theorem extended_extended (es es' : List Event) :
    (j.extended es).extended es' = j.extended (es ++ es') := by
  rw [extended, extended, extended, List.append_assoc]

/-- A journal that takes in events of debugging writes whatever is noted
    down. -/
theorem write_of_debug (hj : j.threshold = some .debug) (e : Event) :
    j.write e = j.extended [e] := by
  rw [write, if_pos (accepts_of_debug hj _), extended]

end Journal

/-- The tracing of the call that an event tells of, if it tells of one. -/
def Event.tracing? : Event → Option Tracing
  | .entered t _ _ | .left t _ | .raised t _ => some t
  | _ => none

/-- The event that tells of the end of a call. -/
def Tracing.closing {α : Type} (t : Tracing) (result : α → Argument) : Except Failure α → Event
  | .ok x => .left t (result x)
  | .error e => .raised t e

/-! ## Calls that fail -/

namespace Action

variable {σ α β : Type} {t : Tracing} {e : Failure}

/-- A call stands in the journal between its two ends. -/
theorem call_of_debug {s : Journaled σ} (hs : s.journal.threshold = some .debug) (t : Tracing)
    {args : List Argument} {named : List (String × Argument)} {body : Action σ α}
    {r : Except Failure α} {s₁ : Journaled σ} {es : List Event}
    (hbody : body { s with journal := s.journal.write (.entered t args named) } = (r, s₁))
    (hes : s₁.journal = (s.journal.write (.entered t args named)).extended es)
    (result : α → Argument) :
    ∃ s', t.call args named result body s = (r, s') ∧
      s'.journal = s.journal.extended (.entered t args named :: (es ++ [t.closing result r])) := by
  have hs₁ : s₁.journal.threshold = some .debug := by
    rw [hes]
    exact (Journal.threshold_write _ _).trans hs
  rw [Journal.write_of_debug hs, Journal.extended_extended] at hes
  rw [call_apply, if_pos (Journal.accepts_of_debug hs _), hbody]
  cases r with
  | error e | ok x =>
    refine ⟨_, rfl, ?_⟩
    dsimp only
    rw [Journal.write_of_debug hs₁, hes, Journal.extended_extended]
    rfl

/-- While an action is run from a state, a call that is traced as `t` fails
    with `e`, and nothing handles that. What is run before only adds to the
    journal. -/
inductive RaisedIn (t : Tracing) (e : Failure) :
    ∀ {α : Type}, Action σ α → Journaled σ → Prop where
  | call {α : Type} {body : Action σ α} {s s₁ : Journaled σ} (args : List Argument)
      (named : List (String × Argument)) (result : α → Argument) (es : List Event) :
      body { s with journal := s.journal.write (.entered t args named) } = (.error e, s₁) →
      s₁.journal = (s.journal.write (.entered t args named)).extended es →
      RaisedIn t e (t.call args named result body) s
  /-- The call is made by another one. -/
  | within {α : Type} {body : Action σ α} {s : Journaled σ} (t' : Tracing) (args : List Argument)
      (named : List (String × Argument)) (result : α → Argument) :
      RaisedIn t e body { s with journal := s.journal.write (.entered t' args named) } →
      RaisedIn t e (t'.call args named result body) s
  | first {α β : Type} {a : Action σ α} {s : Journaled σ} (f : α → Action σ β) :
      RaisedIn t e a s → RaisedIn t e (a >>= f) s
  | later {α β : Type} {a : Action σ α} {f : α → Action σ β} {s s₁ : Journaled σ} {x : α}
      (es : List Event) :
      a s = (.ok x, s₁) → s₁.journal = s.journal.extended es → RaisedIn t e (f x) s₁ →
      RaisedIn t e (a >>= f) s

/-- Where a call fails, all that has made it fails, and the journal tells of
    it. -/
theorem RaisedIn.exists_raised {a : Action σ α} {s : Journaled σ} (h : RaisedIn t e a s)
    (hs : s.journal.threshold = some .debug) :
    ∃ s' es, a s = (.error e, s') ∧ s'.journal = s.journal.extended es ∧ .raised t e ∈ es := by
  induction h with
  | call args named result es hbody hes =>
    obtain ⟨s', hcall, hs'⟩ := call_of_debug hs t hbody hes result
    exact ⟨s', _, hcall, hs', List.mem_cons_of_mem _ (List.mem_append_right _ List.mem_cons_self)⟩
  | within t' args named result _ ih =>
    obtain ⟨s₁, es, hbody, hes, hmem⟩ := ih ((Journal.threshold_write _ _).trans hs)
    obtain ⟨s', hcall, hs'⟩ := call_of_debug hs t' hbody hes result
    exact ⟨s', _, hcall, hs', List.mem_cons_of_mem _ (List.mem_append_left _ hmem)⟩
  | first f _ ih =>
    obtain ⟨s₁, es, ha, hes, hmem⟩ := ih hs
    exact ⟨s₁, es, by rw [bind_apply, ha], hes, hmem⟩
  | later es ha hes _ ih =>
    rw [hes] at ih
    obtain ⟨s', es', hf, hes', hmem⟩ := ih hs
    refine ⟨s', es ++ es', by rw [bind_apply, ha]; exact hf, ?_, List.mem_append_right _ hmem⟩
    rw [hes', Journal.extended_extended]

/-! ## Actions without calls -/

/-- An action that notes down nothing of calls. -/
def IsQuiet (a : Action σ α) : Prop :=
  ∀ s : Journaled σ, s.journal.threshold = some .debug →
    ∃ es, (a s).2.journal = s.journal.extended es ∧ ∀ x ∈ es, x.tracing? = none

theorem isQuiet_pure (x : α) : IsQuiet (pure x : Action σ α) :=
  fun _ _ => ⟨[], Journal.extended_nil.symm, List.forall_mem_nil _⟩

theorem isQuiet_throw (e : Failure) : IsQuiet (throw e : Action σ α) :=
  fun _ _ => ⟨[], Journal.extended_nil.symm, List.forall_mem_nil _⟩

theorem isQuiet_read : IsQuiet (Action.read : Action σ σ) :=
  fun _ _ => ⟨[], Journal.extended_nil.symm, List.forall_mem_nil _⟩

theorem isQuiet_change (f : σ → σ) : IsQuiet (Action.change f) :=
  fun _ _ => ⟨[], Journal.extended_nil.symm, List.forall_mem_nil _⟩

/-- An event that tells of no call may be noted down. -/
theorem isQuiet_note {x : Event} (hx : x.tracing? = none) :
    IsQuiet (Action.note x : Action σ Unit) :=
  fun _ hs => ⟨[x], Journal.write_of_debug hs x, List.forall_mem_singleton.2 hx⟩

theorem isQuiet_ofExcept (r : Except Failure α) : IsQuiet (Action.ofExcept r : Action σ α) := by
  cases r with
  | ok x => exact isQuiet_pure x
  | error e => exact isQuiet_throw e

/-- What is put together from quiet actions is quiet. -/
theorem IsQuiet.bind {a : Action σ α} {f : α → Action σ β} (ha : IsQuiet a)
    (hf : ∀ x, IsQuiet (f x)) : IsQuiet (a >>= f) := by
  intro s hs
  obtain ⟨es, hes, hquiet⟩ := ha s hs
  rw [bind_apply]
  generalize a s = r at hes ⊢
  obtain ⟨e | x, s₁⟩ := r
  · exact ⟨es, hes, hquiet⟩
  · obtain ⟨es', hes', hquiet'⟩ := hf x s₁ (by rw [hes]; exact hs)
    refine ⟨es ++ es', ?_, List.forall_mem_append.2 ⟨hquiet, hquiet'⟩⟩
    rw [hes', hes, Journal.extended_extended]

/-- A question that is put to the state. -/
theorem isQuiet_ask (f : σ → Except Failure α) :
    IsQuiet (do Action.ofExcept (f (← Action.read)) : Action σ α) :=
  isQuiet_read.bind fun _ => isQuiet_ofExcept _

end Action

namespace Registry

/-- The operations of which the calls are traced. -/
def operations : List String := ["resolve", "resolve_point", "resolve_with_axis_check"]

/-- Calls of operations one after the other, with other events in them and
    beside them. The last one may end with a failure, which is given with its
    operation then. -/
inductive Trace : List Event → Option (String × Failure) → Prop where
  | nil : Trace [] none
  | aside {x : Event} {es : List Event} {o : Option (String × Failure)} :
      x.tracing? = none → Trace es o → Trace (x :: es) o
  | left {op : String} {args : List Argument} {named : List (String × Argument)}
      {asides : List Event} {result : Argument} {es : List Event}
      {o : Option (String × Failure)} :
      op ∈ operations → (∀ x ∈ asides, x.tracing? = none) → Trace es o →
      Trace (.entered (tracing op) args named :: (asides ++ .left (tracing op) result :: es)) o
  | raised {op : String} {args : List Argument} {named : List (String × Argument)}
      {asides : List Event} {e : Failure} :
      op ∈ operations → (∀ x ∈ asides, x.tracing? = none) →
      Trace (.entered (tracing op) args named :: (asides ++ [.raised (tracing op) e]))
        (some (op, e))

namespace Trace

variable {es es' : List Event} {o : Option (String × Failure)}

/-- Other events may come before a trace. -/
theorem asides_append (hes : ∀ x ∈ es, x.tracing? = none) (h : Trace es' o) :
    Trace (es ++ es') o := by
  induction es with
  | nil => exact h
  | cons x es ih =>
    obtain ⟨hx, hes⟩ := List.forall_mem_cons.1 hes
    exact .aside hx (ih hes)

/-- Events that tell of no call are a trace without calls. -/
theorem of_asides (hes : ∀ x ∈ es, x.tracing? = none) : Trace es none := by
  rw [← List.append_nil es]
  exact asides_append hes .nil

/-- A trace goes on as long as no call has failed. -/
theorem append (h : Trace es none) (h' : Trace es' o) : Trace (es ++ es') o := by
  generalize hnone : (none : Option (String × Failure)) = o₁ at h
  induction h with
  | nil => exact h'
  | aside hx _ ih => exact .aside hx (ih hnone)
  | left hop hasides _ ih =>
    rw [List.cons_append, List.append_assoc, List.cons_append]
    exact .left hop hasides (ih hnone)
  | raised => cases hnone

/-- The call that has failed is the last thing that a trace tells of, and the
    only such call. -/
theorem eq_of_raised_mem (h : Trace es o) {t : Tracing} {e : Failure} (he : .raised t e ∈ es) :
    ∃ op before, t = tracing op ∧ o = some (op, e) ∧ es = before ++ [.raised (tracing op) e] := by
  induction h with
  | nil => cases he
  | aside hx _ ih =>
    obtain rfl | he := List.mem_cons.1 he
    · cases hx
    · obtain ⟨op, before, ht, ho, rfl⟩ := ih he
      exact ⟨op, _ :: before, ht, ho, rfl⟩
  | @left op' args named asides result es o _ hasides _ ih =>
    have hes : .raised t e ∈ es := by
      simp only [List.mem_cons, List.mem_append, reduceCtorEq, false_or] at he
      exact he.resolve_left fun ha => by cases hasides _ ha
    obtain ⟨op, before, ht, ho, rfl⟩ := ih hes
    refine ⟨op, .entered (tracing op') args named :: (asides ++ .left (tracing op') result ::
      before), ht, ho, ?_⟩
    rw [List.cons_append, List.append_assoc, List.cons_append]
  | @raised op args named asides e' _ hasides =>
    have hlast : Event.raised t e = .raised (tracing op) e' := by
      simp only [List.mem_cons, List.mem_append, reduceCtorEq, false_or, List.not_mem_nil,
        or_false] at he
      exact he.resolve_left fun ha => by cases hasides _ ha
    cases hlast
    exact ⟨op, .entered (tracing op) args named :: asides, rfl, rfl, rfl⟩

end Trace

/-! ## What is traced -/

variable {α β : Type}

/-- What an action notes down is a trace. If the last call of that has failed,
    the action fails for that very reason. -/
def IsTraced (a : Action Registry α) : Prop :=
  ∀ s : Journaled Registry, s.journal.threshold = some .debug →
    ∃ es o, (a s).2.journal = s.journal.extended es ∧ Trace es o ∧
      ∀ op e, o = some (op, e) → (a s).1 = .error e ∧ RaisedIn (tracing op) e a s

/-- An action without calls leaves a trace that has none. -/
theorem isTraced_of_isQuiet {a : Action Registry α} (ha : IsQuiet a) : IsTraced a := by
  intro s hs
  obtain ⟨es, hes, hquiet⟩ := ha s hs
  exact ⟨es, none, hes, .of_asides hquiet, nofun⟩

/-- The second part of a sequence goes on with the trace of the first, if no
    call has failed there. -/
theorem IsTraced.bind {a : Action Registry α} {f : α → Action Registry β} (ha : IsTraced a)
    (hf : ∀ x, IsTraced (f x)) : IsTraced (a >>= f) := by
  intro s hs
  obtain ⟨es, o, hes, htrace, hfailed⟩ := ha s hs
  rcases hr : a s with ⟨e | x, s₁⟩ <;> rw [hr] at hes hfailed <;> rw [bind_apply, hr]
  · refine ⟨es, o, hes, htrace, fun op e' ho => ?_⟩
    obtain ⟨he, hraised⟩ := hfailed op e' ho
    cases he
    exact ⟨rfl, .first f hraised⟩
  · -- No call has failed so far, and the second part goes on with the trace.
    obtain rfl : o = none := by
      cases o with
      | none => rfl
      | some p => cases (hfailed p.1 p.2 rfl).1
    obtain ⟨es', o', hes', htrace', hfailed'⟩ := hf x s₁ (by rw [hes]; exact hs)
    refine ⟨es ++ es', o', ?_, htrace.append htrace', fun op e ho =>
      (hfailed' op e ho).imp_right fun h => .later es hr hes h⟩
    rw [← Journal.extended_extended, ← hes]
    exact hes'

/-- A call of an operation that makes no calls of its own. -/
theorem isTraced_call {op : String} (hop : op ∈ operations) {body : Action Registry α}
    (hb : IsQuiet body) (args : List Argument) (named : List (String × Argument))
    (result : α → Argument) : IsTraced ((tracing op).call args named result body) := by
  intro s hs
  obtain ⟨asides, hasides, hquiet⟩ := hb
    { s with journal := s.journal.write (.entered (tracing op) args named) }
    ((Journal.threshold_write _ _).trans hs)
  rcases hr : body { s with journal := s.journal.write (.entered (tracing op) args named) } with
    ⟨r, s₁⟩
  rw [hr] at hasides
  obtain ⟨s', hcall, hs'⟩ := call_of_debug hs (tracing op) hr hasides result
  rw [hcall]
  cases r with
  | error e =>
    refine ⟨_, some (op, e), hs', .raised hop hquiet, fun op' e' ho => ?_⟩
    cases ho
    exact ⟨rfl, .call args named result asides hr hasides⟩
  | ok x => exact ⟨_, none, hs', .left hop hquiet .nil, nofun⟩

/-! ## Operations -/

theorem isQuiet_report (d : Diagnostic) : IsQuiet (report d) :=
  (isQuiet_change _).bind fun _ => isQuiet_note rfl

/-- Warnings are no calls that are traced. -/
theorem isQuiet_warnAll (id : ShapeId) (messages : List String) :
    IsQuiet (warnAll id messages) := by
  induction messages with
  | nil => exact isQuiet_pure ()
  | cons message rest ih => exact (isQuiet_report _).bind fun _ => ih

theorem isQuiet_checkBounds (id : ShapeId) (b : Bounds) : IsQuiet (checkBounds id b) := by
  refine isQuiet_read.bind fun r => ?_
  cases r.viewBox with
  | none => exact isQuiet_pure ()
  | some v => exact isQuiet_warnAll id _

theorem isQuiet_register (id : ShapeId) (members : Members) : IsQuiet (register id members) :=
  (isQuiet_ofExcept _).bind fun _ => (isQuiet_ofExcept _).bind fun _ =>
    (isQuiet_change _).bind fun _ => isQuiet_note rfl

theorem isQuiet_registerShape (id : ShapeId) (record : ShapeRecord) :
    IsQuiet (registerShape id record) :=
  (isQuiet_ofExcept _).bind fun _ => isQuiet_change _

theorem isTraced_resolve (text : String) (self : SelfArgument) : IsTraced (resolve text self) :=
  isTraced_call (by decide) (isQuiet_ask _) _ _ _

theorem isTraced_resolvePoint (text : String) : IsTraced (resolvePoint text) :=
  isTraced_call (by decide) (isQuiet_ask _) _ _ _

/-- The warnings of a question are noted down between its two ends. -/
theorem isTraced_resolveOnAxis (text axis property : String) (id : ShapeId)
    (self : SelfArgument) : IsTraced (resolveOnAxis text axis property id self) := by
  refine isTraced_call (by decide) ?_ _ _ _
  cases Axis.ofName? axis with
  | none => exact isQuiet_throw _
  | some known =>
    exact (isQuiet_ofExcept _).bind fun _ => isQuiet_read.bind fun _ =>
      (isQuiet_warnAll _ _).bind fun _ => isQuiet_ask _

/-- Whatever a pass does is traced. -/
theorem driving_isTraced : Driving fun ⦃_⦄ a => IsTraced a where
  pure x := isTraced_of_isQuiet (isQuiet_pure x)
  throw e := isTraced_of_isQuiet (isQuiet_throw e)
  bind := IsTraced.bind
  realizing id :=
    { pure := fun x => isTraced_of_isQuiet (isQuiet_pure x)
      throw := fun e => isTraced_of_isQuiet (isQuiet_throw e)
      bind := IsTraced.bind
      report := fun _ => isTraced_of_isQuiet (isQuiet_report _)
      checkBounds := fun b => isTraced_of_isQuiet (isQuiet_checkBounds id b)
      resolve := fun text _ => isTraced_resolve text _
      resolveOnAxis := fun text axis property _ => isTraced_resolveOnAxis text axis property id _
      resolvePoint := fun text _ => isTraced_resolvePoint text
      register := fun members => isTraced_of_isQuiet (isQuiet_register id members) }
  read := isTraced_of_isQuiet isQuiet_read
  realized _ _ := isTraced_of_isQuiet (isQuiet_note rfl)
  completed _ _ := isTraced_of_isQuiet (isQuiet_note rfl)
  setViewBox _ := isTraced_of_isQuiet (isQuiet_change _)
  reset := isTraced_of_isQuiet (isQuiet_change _)

/-- The recording of a shape is noted down beside the calls. -/
theorem canRecord_isTraced (id : ShapeId) : CanRecord (fun ⦃_⦄ a => IsTraced a) id :=
  fun record => isTraced_of_isQuiet (isQuiet_registerShape id record)

end Registry

end AnchorLayout
