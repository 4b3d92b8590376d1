import AnchorLayout.Expr.Evaluate
import AnchorLayout.Proofs.Journal.Action

/-!
# The course of an evaluation

An expression is evaluated in the postorder of its tree: what comes of the left
operand, of the right operand, and then of the operation itself
(`Expr.postorder`). Numbers wait on a stack until an operation takes the two on
top (`Happens`).

References are looked up by the caller. A lookup may answer in any way, also
depending on the calls that were made before, and it may fail at any of them
(`recording`). So an evaluation either goes through the whole postorder and ends
with the one number that is left, or it ends with the failure of the first step
that fails, and nothing is looked up after that (`evaluate_course`).
-/

namespace AnchorLayout

/-- The word by which a lookup is told of a shape. -/
def Target.word : Target → String
  | .shape id => id
  | .self => "$self"

theorem Operator.ofSymbol?_symbol (op : Operator) :
    Operator.ofSymbol? op.symbol.toString = some op := by
  cases op <;> decide +kernel

namespace Expr

open AnchorLayout.Action

/-! ## Steps -/

/-- A call of a lookup: the id of a shape, or `$self`, and the name of an
    anchor. -/
abbrev Call := String × String

/-- What is done for a node of a tree once its operands are done. -/
inductive Step (ν : Type) where
  /-- A number is taken. -/
  | literal (x : Float)
  /-- A reference is looked up. -/
  | look (call : Call)
  /-- The operation under a symbol is applied. -/
  | operate (symbol : String)
  /-- A datum is met that is no expression. -/
  | foreign (datum : ν)

/-- The steps for the nodes of a tree, in postorder. -/
def postorder {ν : Type} : Expr ν → List (Step ν)
  | .literal x => [.literal x]
  | .ref id anchor => [.look (id, anchor)]
  | .selfRef anchor => [.look ("$self", anchor)]
  | .binary op l r => l.postorder ++ r.postorder ++ [.operate op.symbol.toString]
  | .unknown symbol l r => l.postorder ++ r.postorder ++ [.operate symbol]
  | .foreign v => [.foreign v]

/-- The call that is made in a step, if one is. -/
def Step.call? {ν : Type} : Step ν → Option Call
  | .look call => some call
  | _ => none

/-- The calls that are made in steps. -/
def calls {ν : Type} (steps : List (Step ν)) : List Call := steps.filterMap Step.call?

/-- A tree in which every operation under the symbol of an operation of
    arithmetic is that operation. -/
def Classified {ν : Type} : Expr ν → Prop
  | .binary _ l r => l.Classified ∧ r.Classified
  | .unknown symbol l r => Operator.ofSymbol? symbol = none ∧ l.Classified ∧ r.Classified
  | _ => True

@[simp] theorem calls_append {ν : Type} (steps steps' : List (Step ν)) :
    calls (steps ++ steps') = calls steps ++ calls steps' := List.filterMap_append

@[simp] theorem calls_singleton {ν : Type} (step : Step ν) : calls [step] = step.call?.toList := by
  rw [calls, List.filterMap_cons]
  cases step.call? <;> rfl

/-- The calls of a whole evaluation are those for the anchors of the tree. -/
theorem map_snd_calls_postorder {ν : Type} (e : Expr ν) :
    (calls e.postorder).map Prod.snd = e.anchors := by
  induction e with
  | literal | ref | selfRef | foreign => rfl
  | binary _ l r ihl ihr | unknown _ l r ihl ihr =>
    rw [postorder, calls_append, calls_append, List.map_append, List.map_append, ihl, ihr]
    exact List.append_nil _

/-! ## Lookups -/

/-- Whoever looks references up. The answer to a call may depend on the calls
    that were made before. -/
abbrev Lookup := List Call → Call → Except Failure Float

/-- Makes a call of a lookup, and keeps it among the calls that were made. -/
def recording (lookup : Lookup) (target : Target) (anchor : String) :
    Action (List Call) Float := do
  let before ← Action.read
  Action.change (· ++ [(target.word, anchor)])
  Action.ofExcept (lookup before (target.word, anchor))

theorem recording_apply (lookup : Lookup) (target : Target) (anchor : String)
    (s : Journaled (List Call)) :
    recording lookup target anchor s = (lookup s.state (target.word, anchor),
      ⟨s.state ++ [(target.word, anchor)], s.journal⟩) := by
  rw [recording, read_bind_apply, bind_apply, change_apply]
  exact ofExcept_apply _ _

/-! ## The course -/

/-- What a step does to the stack, or how it fails, after the calls `before`
    have been made. -/
inductive Happens (lookup : Lookup) (before : List Call) :
    Step Value → List Float → Except Failure (List Float) → Prop where
  | literal {x : Float} {stack : List Float} :
      Happens lookup before (.literal x) stack (.ok (x :: stack))
  | found {call : Call} {x : Float} {stack : List Float} (h : lookup before call = .ok x) :
      Happens lookup before (.look call) stack (.ok (x :: stack))
  | missing {call : Call} {err : Failure} {stack : List Float}
      (h : lookup before call = .error err) :
      Happens lookup before (.look call) stack (.error err)
  | operated {symbol : String} {op : Operator} {left right : Float} {stack : List Float}
      (h : Operator.ofSymbol? symbol = some op) :
      Happens lookup before (.operate symbol) (right :: left :: stack)
        (.ok (op.apply left right :: stack))
  | unknown {symbol : String} {left right : Float} {stack : List Float}
      (h : Operator.ofSymbol? symbol = none) :
      Happens lookup before (.operate symbol) (right :: left :: stack)
        (.error (.notEvaluable (.unknownOperator symbol)))
  | foreign {datum : Value} {stack : List Float} :
      Happens lookup before (.foreign datum) stack
        (.error (.notEvaluable (.notAnExpression datum)))

/-- All of the steps succeed, one after the other, and leave a stack. -/
inductive Reaches (lookup : Lookup) : List (Step Value) → List Float → Prop where
  | start : Reaches lookup [] []
  | step {done : List (Step Value)} {step : Step Value} {stack stack' : List Float}
      (before : Reaches lookup done stack)
      (now : Happens lookup (calls done) step stack (.ok stack')) :
      Reaches lookup (done ++ [step]) stack'

/-- How an evaluation ends that goes through `steps` after the steps `done`,
    which have left `stack`: with a number on top of the stack, or with the
    failure of the first step that fails. Either way it ends with the calls of
    all steps that were taken. -/
inductive Ends (lookup : Lookup) (done steps : List (Step Value)) (stack : List Float) :
    Except Failure Float → List Call → Prop where
  | value {x : Float} (all : Reaches lookup (done ++ steps) (x :: stack)) :
      Ends lookup done steps stack (.ok x) (calls (done ++ steps))
  | failure {before after : List (Step Value)} {step : Step Value} {stack' : List Float}
      {err : Failure} (split : steps = before ++ step :: after)
      (reached : Reaches lookup (done ++ before) stack')
      (fails : Happens lookup (calls (done ++ before)) step stack' (.error err)) :
      Ends lookup done steps stack (.error err) (calls (done ++ before ++ [step]))

variable {lookup : Lookup} {done steps steps' : List (Step Value)} {stack : List Float}

namespace Ends

/-- The last step of an evaluation ends with a number, or it fails. -/
theorem concat {x : Except Failure Float} {stack' : List Float} {step : Step Value}
    (hs : Reaches lookup (done ++ steps) stack')
    (h : Happens lookup (calls (done ++ steps)) step stack' (x.map (· :: stack))) :
    Ends lookup done (steps ++ [step]) stack x (calls (done ++ steps ++ [step])) := by
  cases x with
  | ok x =>
    rw [List.append_assoc]
    exact .value (List.append_assoc .. ▸ hs.step h)
  | error err => exact .failure rfl hs h

/-- A failure is not made up for by later steps. -/
theorem append_of_error {err : Failure} {cs : List Call}
    (h : Ends lookup done steps stack (.error err) cs) (more : List (Step Value)) :
    Ends lookup done (steps ++ more) stack (.error err) cs := by
  cases h with
  | failure split reached fails =>
    rw [split, List.append_assoc, List.cons_append]
    exact .failure rfl reached fails

/-- Steps that fail after others have succeeded. -/
theorem of_error {err : Failure} {cs : List Call} {stack' : List Float}
    (h : Ends lookup (done ++ steps) steps' stack' (.error err) cs) :
    Ends lookup done (steps ++ steps') stack (.error err) cs := by
  cases h with
  | failure split reached fails =>
    rw [List.append_assoc] at reached fails
    rw [split, ← List.append_assoc, List.append_assoc done]
    exact .failure rfl reached fails

end Ends

/-! ## Computations that go through steps -/

/-- A computation that goes through `steps`, after whatever steps it is begun.
    The numbers that these have left stay on the stack below its own. -/
def Follows (lookup : Lookup) (a : Action (List Call) Float) (steps : List (Step Value)) : Prop :=
  ∀ ⦃done stack⦄, Reaches lookup done stack → ∀ j, ∃ x cs,
    a ⟨calls done, j⟩ = (x, ⟨cs, j⟩) ∧ Ends lookup done steps stack x cs

/-- A computation that is a single step. -/
theorem follows_single {a : Action (List Call) Float} {step : Step Value}
    (h : ∀ before j, ∃ x, a ⟨before, j⟩ = (x, ⟨before ++ calls [step], j⟩) ∧
      ∀ stack, Happens lookup before step stack (x.map (· :: stack))) :
    Follows lookup a [step] := by
  intro done stack hd j
  obtain ⟨x, ha, hx⟩ := h (calls done) j
  refine ⟨x, _, ha, ?_⟩
  have hd' : Reaches lookup (done ++ []) stack := (List.append_nil done).symm ▸ hd
  rw [← calls_append]
  simpa using Ends.concat hd' (by simpa using hx stack)

/-- A reference is looked up in a single step. -/
theorem follows_recording (target : Target) (anchor : String) :
    Follows lookup (recording lookup target anchor) [.look (target.word, anchor)] := by
  refine follows_single fun before j => ⟨_, recording_apply lookup target anchor _, fun stack => ?_⟩
  cases h : lookup before (target.word, anchor) with
  | ok x => exact .found h
  | error err => exact .missing h

/-- An operation goes through the steps of its left operand, those of its right
    one, and then its own. -/
theorem Follows.operate {a b : Action (List Call) Float} {symbol : String}
    {f : Float → Float → Except Failure Float} (ha : Follows lookup a steps)
    (hb : Follows lookup b steps')
    (hf : ∀ before left right stack, Happens lookup before (.operate symbol)
      (right :: left :: stack) ((f left right).map (· :: stack))) :
    Follows lookup (do let left ← a; let right ← b; Action.ofExcept (f left right))
      (steps ++ steps' ++ [.operate symbol]) := by
  intro done stack hd j
  obtain ⟨x, cs, hx, hl⟩ := ha hd j
  rw [bind_apply, hx]
  cases x with
  | error err =>
    -- The left operand fails, and nothing else is done.
    exact ⟨_, _, rfl, (hl.append_of_error steps').append_of_error _⟩
  | ok left =>
    cases hl with
    | value hl =>
      obtain ⟨y, cs, hy, hr⟩ := hb hl j
      dsimp only
      rw [bind_apply, hy]
      cases y with
      | error err => exact ⟨_, _, rfl, hr.of_error.append_of_error _⟩
      | ok right =>
        cases hr with
        | value hr =>
          rw [List.append_assoc] at hr ⊢
          have hlast := Ends.concat hr (hf _ left right stack)
          refine ⟨_, _, ofExcept_apply _ _, ?_⟩
          simpa [Step.call?] using hlast

/-- An evaluation goes through the postorder of the tree. -/
theorem follows_evaluate {e : Expr Value} (h : e.Classified) :
    Follows lookup (e.evaluate (fun flaw => throw (.notEvaluable flaw)) (recording lookup))
      e.postorder := by
  induction e with
  | literal x =>
    exact follows_single fun before j => ⟨.ok x, by simp [evaluate, Step.call?],
      fun stack => .literal⟩
  | ref id anchor => exact follows_recording (.shape id) anchor
  | selfRef anchor => exact follows_recording .self anchor
  | binary op l r ihl ihr =>
    exact (ihl h.1).operate (f := fun left right => .ok (op.apply left right)) (ihr h.2)
      fun _ _ _ _ => .operated op.ofSymbol?_symbol
  | unknown symbol l r ihl ihr =>
    exact (ihl h.2.1).operate (f := fun _ _ => .error (.notEvaluable (.unknownOperator symbol)))
      (ihr h.2.2) fun _ _ _ _ => .unknown h.1
  | foreign v =>
    exact follows_single fun before j => ⟨.error (.notEvaluable (.notAnExpression v)),
      by simp [evaluate, Step.call?], fun stack => .foreign⟩

/-- An evaluation takes the steps of the postorder, one after the other, until
    one of them fails. If none does, it ends with the one number that is left,
    and the calls that it has made are those for the anchors of the tree.
    Otherwise it ends with the failure of that step, which tells of a bad value
    if the step is an operation, and of a bad type if it is a datum; and the
    calls that it has made are those of the steps before it and its own. -/
theorem evaluate_course (lookup : Lookup) {e : Expr Value} (h : e.Classified) (j : Journal) :
    let run := e.evaluate (fun flaw => throw (.notEvaluable flaw)) (recording lookup) ⟨[], j⟩
    (∃ x, Reaches lookup e.postorder [x] ∧ run = (.ok x, ⟨calls e.postorder, j⟩) ∧
      (calls e.postorder).map Prod.snd = e.anchors) ∨
    ∃ done step after stack err, e.postorder = done ++ step :: after ∧
      Reaches lookup done stack ∧ Happens lookup (calls done) step stack (.error err) ∧
      run = (.error err, ⟨calls (done ++ [step]), j⟩) ∧
      (∀ symbol, step = .operate symbol → err.category = .value) ∧
      (∀ datum, step = .foreign datum → err.category = .type) := by
  obtain ⟨x, cs, hrun, hends⟩ := follows_evaluate h (.start : Reaches lookup [] []) j
  cases hends with
  | @value x all => exact .inl ⟨x, all, hrun, map_snd_calls_postorder e⟩
  | @failure done after step stack err split reached fails =>
    refine .inr ⟨done, step, after, stack, err, split, reached, fails, hrun, ?_, ?_⟩
    · rintro symbol rfl
      cases fails
      rfl
    · rintro datum rfl
      cases fails
      rfl

/-- A lookup that fails at its second call, of a tree with an operation and a
    datum that would fail after it. -/
theorem evaluate_course_second_call :
    let lookup : Lookup := fun before call =>
      if before.length = 1 then .error (.selfUnknown call.2) else .ok 1
    let e : Expr Value := .binary .add (.ref "a" "left") (.unknown "%" (.selfRef "width")
      (.foreign .null))
    let run := e.evaluate (fun flaw => throw (.notEvaluable flaw)) (recording lookup) ⟨[], {}⟩
    e.Classified ∧
    ((∃ x, Reaches lookup e.postorder [x] ∧ run = (.ok x, ⟨calls e.postorder, {}⟩) ∧
      (calls e.postorder).map Prod.snd = e.anchors) ∨
    ∃ done step after stack err, e.postorder = done ++ step :: after ∧
      Reaches lookup done stack ∧ Happens lookup (calls done) step stack (.error err) ∧
      run = (.error err, ⟨calls (done ++ [step]), {}⟩) ∧
      (∀ symbol, step = .operate symbol → err.category = .value) ∧
      (∀ datum, step = .foreign datum → err.category = .type)) ∧
    run = (.error (.selfUnknown "width"), ⟨[("a", "left"), ("$self", "width")], {}⟩) := by
  have h : (Expr.binary .add (.ref "a" "left") (.unknown "%" (.selfRef "width")
      (.foreign .null)) : Expr Value).Classified :=
    ⟨trivial, by decide +kernel, trivial, trivial⟩
  exact ⟨h, evaluate_course _ h _, rfl⟩

end Expr

end AnchorLayout
