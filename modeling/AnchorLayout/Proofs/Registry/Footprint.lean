import AnchorLayout.Proofs.Registry.Equivalence
import AnchorLayout.Proofs.Registry.Frame

/-!
# What an expression looks at

The value of an expression is made up of what its references stand for, and so
it depends on the anchors of the shapes that it names and, where it refers to
the shape itself, on those of the shape that it belongs to
(`Registry.evaluate_eq_of_targets`). Each call leaves the anchors of a shape
alone unless it registers the shape (`Registry.Call.get?_anchors_run`). So
whatever calls are made in between, failed ones among them, an expression is
resolved as before, to the same value or with the same failure, if they
register no shape that it looks at (`Registry.Call.resolve_after`).
-/

namespace AnchorLayout

/-! ## References -/

namespace Expr

variable {ν : Type}

/-- The shapes that the references of an expression name, from left to right. -/
def targets : Expr ν → List Target
  | .ref id _ => [.shape id]
  | .selfRef _ => [.self]
  | .binary _ l r => l.targets ++ r.targets
  | .unknown _ l r => l.targets ++ r.targets
  | .literal _ | .foreign _ => []

/-- The value of an expression is told by what its own references are looked up
    as. -/
theorem evaluate_congr {m : Type → Type} [Monad m] {flawed : Flaw ν → m Float}
    {lookup lookup' : Target → String → m Float} {e : Expr ν}
    (h : ∀ t ∈ e.targets, lookup t = lookup' t) :
    e.evaluate flawed lookup = e.evaluate flawed lookup' := by
  induction e with
  | literal x => rfl
  | ref id anchor => exact congrFun (h _ List.mem_cons_self) anchor
  | selfRef anchor => exact congrFun (h _ List.mem_cons_self) anchor
  | binary op l r ihl ihr | unknown op l r ihl ihr =>
    obtain ⟨hl, hr⟩ := List.forall_mem_append.1 h
    rw [evaluate, evaluate, ihl hl, ihr hr]
  | foreign v => rfl

end Expr

/-- The id of the shape that a reference names, `self` being the shape that the
    expression belongs to. -/
def Target.id? (self : Option ShapeId) : Target → Option ShapeId
  | .shape id => some (.text id)
  | .self => self

/-- Whether an expression that belongs to the shape `self` looks at the anchors
    that are kept under an id. -/
def Expr.LooksAt {ν : Type} (e : Expr ν) (self : Option ShapeId) (id : ShapeId) : Prop :=
  ∃ t ∈ e.targets, ∃ named, t.id? self = some named ∧ (id == named) = true

namespace Registry

variable {r r' : Registry} {self : Option ShapeId}

theorem scalar_congr {t : Target}
    (h : ∀ id, t.id? self = some id → r.anchors.get? id = r'.anchors.get? id) :
    r.scalar self t = r'.scalar self t := by
  funext name
  cases t with
  | shape id =>
    change r.number _ _ = r'.number _ _
    rw [number, number, anchor_congr (h (.text id) rfl)]
  | self =>
    cases self with
    | none => rfl
    | some id =>
      change r.number _ _ = r'.number _ _
      rw [number, number, anchor_congr (h id rfl)]

/-- The value of an expression is told by the anchors of the shapes that it
    names. -/
theorem evaluate_eq_of_targets {e : Expr Value}
    (h : ∀ t ∈ e.targets, ∀ id, t.id? self = some id → r.anchors.get? id = r'.anchors.get? id) :
    r.evaluate self e = r'.evaluate self e :=
  Expr.evaluate_congr fun t ht => scalar_congr (h t ht)

/-! ## Calls -/

namespace Call

/-- A call leaves the anchors under an id alone, unless it registers the id. -/
theorem get?_anchors_run (c : Call) (s : Journaled Registry) {id : ShapeId}
    (h : ∀ key members, c = register key members → (key == id) = false) :
    (c.run s).2.state.anchors.get? id = s.state.anchors.get? id := by
  by_cases hc : ∃ key members, c = register key members
  · obtain ⟨key, members, rfl⟩ := hc
    change (Registry.register key members s).2.state.anchors.get? id = _
    obtain ⟨e, he⟩ | ⟨as, -, hkey, hdoes⟩ := register_cases key members
    · rw [he]
      rfl
    · obtain ⟨j, hj⟩ := hdoes s
      rw [hj]
      exact Table.get?_insert_of_beq_eq_false _ as hkey (h key members rfl)
  · rw [(effects_run c s).frame.anchors fun key members hmade => hc ⟨key, members, hmade.symm⟩]

/-- Calls leave the anchors under an id alone, unless one of them registers the
    id. -/
theorem get?_anchors_after (cs : List Call) (s : Journaled Registry) {id : ShapeId}
    (h : ∀ key members, register key members ∈ cs → (key == id) = false) :
    (after cs s).state.anchors.get? id = s.state.anchors.get? id := by
  induction cs generalizing s with
  | nil => rfl
  | cons c cs ih =>
    have hrest := ih (c.run s).2 fun key members hmem =>
      h key members (List.mem_cons_of_mem c hmem)
    have hfirst := get?_anchors_run c s fun key members hc =>
      h key members (hc ▸ List.mem_cons_self)
    exact hrest.trans hfirst

/-- An expression is resolved to the same value, or with the same failure,
    whatever calls have been made in between, if none of them registers a shape
    that it looks at. -/
theorem resolve_after (text : String) (self : SelfArgument) (cs : List Call)
    (s : Journaled Registry)
    (h : ∀ e, Expr.parse (ν := Value) text = .ok e → ∀ id members, register id members ∈ cs →
      ¬e.LooksAt self.id? id) :
    (Registry.resolve text self (after cs s)).1 = (Registry.resolve text self s).1 := by
  rw [resolve_fst, resolve_fst, valueOf, valueOf]
  rw [expression]
  cases hp : Expr.parse (ν := Value) text with
  | error e => rfl
  | ok e =>
    refine evaluate_eq_of_targets fun t ht named hnamed => get?_anchors_after cs s ?_
    intro id members hmem
    rw [Bool.eq_false_iff]
    exact fun hid => h e hp id members hmem ⟨t, ht, named, hnamed, hid⟩

/-- An expression that belongs to the shape of the number one, before and after
    others have been registered: one whose id is a truth value, though not the
    one that equals the number, and one whose anchors are refused. -/
theorem resolve_after_numbered :
    let s : Journaled Registry := ⟨{ anchors := [(.text "a", [("x", .number 3)]),
      (.datum (.int 1) 0, [("w", .number 2)])] }, {}⟩
    let self : SelfArgument := .byName (.datum (.int 1) 0)
    let cs : List Call := [.register (.datum (.bool false) 0) [("w", .float 7)],
      .register (.text "b") [("x", .text "a")], .setViewBox none,
      .addDiagnostic "error" (.text "a") "moved"]
    Expr.parse (ν := Value) "#a.x*$self.w" = .ok (.binary .mul (.ref "a" "x") (.selfRef "w")) ∧
    (Registry.resolve "#a.x*$self.w" self s).1 = .ok (3 * 2) ∧
    (Registry.resolve "#a.x*$self.w" self (after cs s)).1 =
      (Registry.resolve "#a.x*$self.w" self s).1 := by
  intro s self cs
  have hscan : Token.scan "#a.x*$self.w" =
      .ok [⟨.ref "a" "x", 0⟩, ⟨.operator .mul, 4⟩, ⟨.selfRef "w", 5⟩] := by cbv
  have hparse : Expr.parse (ν := Value) "#a.x*$self.w" =
      .ok (.binary .mul (.ref "a" "x") (.selfRef "w")) := by
    rw [Expr.parse, hscan]
    rfl
  refine ⟨hparse, ?_, resolve_after "#a.x*$self.w" self cs s ?_⟩
  · have hw : s.state.number (.datum (.int 1) 0) "w" = .ok 2 :=
      number_eq_ok.2 (anchor_eq_ok.2 ⟨_, rfl, if_pos (ShapeId.beq_self rfl), rfl⟩)
    rw [resolve_fst, valueOf, expression, hparse]
    change (do let y ← s.state.number (.datum (.int 1) 0) "w"; pure (3 * y)) = _
    rw [hw]
    rfl
  · -- Of the two ids that are registered, neither is `a` nor the number one.
    intro e he id members hmem
    obtain rfl := Except.ok.inj (hparse.symm.trans he)
    have hid : id = .datum (.bool false) 0 ∨ id = .text "b" := by
      simp only [cs, List.mem_cons, List.not_mem_nil, reduceCtorEq, or_false,
        register.injEq] at hmem
      exact hmem.imp (·.1) (·.1)
    rintro ⟨t, ht, named, hnamed, hsame⟩
    have ht : t = .shape "a" ∨ t = .self := by simpa [Expr.targets] using ht
    obtain rfl | rfl := ht <;> cases hnamed <;> obtain rfl | rfl := hid
    · cases hsame
    · exact absurd hsame (by decide)
    · cases (Value.same_iff_of_integer? (v := .bool false) rfl).1 hsame
    · cases hsame

end Call

end Registry

end AnchorLayout
