import AnchorLayout.Proofs.Pass.Independence
import AnchorLayout.Proofs.Session.Commands

/-!
# Traces change nothing

Whether calls are traced is seen in the journal and nowhere else. What a
session does is the same whatever is noted down (`Session.outcomes_congr`):
every command ends with the same answer or the same failure, in the same state.
And a call that is traced runs its function once, with the arguments that it is
given (`Tracing.traced_counted_apply`), as one that is not.
-/

namespace AnchorLayout

open AnchorLayout.Action

/-! ## Sessions -/

namespace Session

theorem serving_transparent :
    Serving (fun ⦃_⦄ a => Transparent a) (fun ⦃_⦄ a => Transparent a) where
  pure := agrees_pure
  throw := agrees_throw
  bind := Agrees.bind
  read := transparent_read
  change f _ := transparent_change f
  renew _ := transparent_change _
  onRegistry ha := ha.zoom _ _
  onAged _ ha := ha.zoom _ _

/-- No command looks at the journal. -/
theorem transparent_perform {c : Command} (hc : c.ThroughBuilder) : Transparent (perform c) := by
  refine serving_transparent.perform Registry.operating_transparent ?_
  cases c with
  | registerShape id record => exact fun _ => Registry.canRecord_transparent _
  | pass shapes viewBox table =>
    exact ⟨fun _ _ _ _ => Registry.canRecord_transparent _, hc⟩
  | scene data => exact fun _ _ _ _ _ _ => Registry.canRecord_transparent _
  | _ => trivial

/-- What becomes of a session, command by command: the answer or the failure,
    and the session afterwards. -/
def outcomes : List Command → Journaled Session → List (Except Failure Answer × Session)
  | [], _ => []
  | c :: rest, s => ((perform c s).1, (perform c s).2.state) :: outcomes rest (perform c s).2

/-- So sessions that are the same but for their journals stay so. -/
theorem outcomes_congr {cs : List Command} (hcs : ∀ c ∈ cs, c.ThroughBuilder)
    {s s' : Journaled Session} (h : s.state = s'.state) : outcomes cs s = outcomes cs s' := by
  induction cs generalizing s s' with
  | nil => rfl
  | cons c rest ih =>
    obtain ⟨hc, hrest⟩ := List.forall_mem_cons.1 hcs
    obtain ⟨hr, hs⟩ := transparent_perform hc h
    rw [outcomes, outcomes, hr, hs, ih hrest hs]

end Session

/-! ## Calls -/

namespace Tracing

/-- The arguments of a call, given by place and by name. -/
abbrev Arguments := List Argument × List (String × Argument)

variable {σ α : Type}

/-- A function whose calls are traced. -/
def traced (t : Tracing) (result : α → Argument) (f : Arguments → Action σ α) (x : Arguments) :
    Action σ α :=
  t.call x.1 x.2 result (f x)

/-- A function that keeps a list of the calls that are made of it, beside the
    state that it works on. -/
def counted (f : Arguments → Action σ α) (x : Arguments) : Action (σ × List Arguments) α := do
  Action.change fun s => (s.1, s.2 ++ [x])
  Action.zoom Prod.fst (fun s part => (part, s.2)) (f x)

theorem counted_apply (f : Arguments → Action σ α) (x : Arguments) (s : σ) (calls : List Arguments)
    (j : Journal) :
    counted f x ⟨(s, calls), j⟩ =
      ((f x ⟨s, j⟩).1, ⟨((f x ⟨s, j⟩).2.state, calls ++ [x]), (f x ⟨s, j⟩).2.journal⟩) := rfl

/-- The journal in which the function of a call begins. -/
def begun (t : Tracing) (x : Arguments) (j : Journal) : Journal :=
  if j.accepts .debug then j.write (.entered t x.1 x.2) else j

/-- The function of a traced call is run once, be the call noted down or
    not. -/
theorem traced_counted_apply (t : Tracing) (result : α → Argument) (f : Arguments → Action σ α)
    (x : Arguments) (s : σ) (calls : List Arguments) (j : Journal) :
    (t.traced result (counted f) x ⟨(s, calls), j⟩).1 = (f x ⟨s, t.begun x j⟩).1 ∧
      (t.traced result (counted f) x ⟨(s, calls), j⟩).2.state =
        ((f x ⟨s, t.begun x j⟩).2.state, calls ++ [x]) := by
  rw [traced, call_apply, begun]
  dsimp only
  split_ifs
  · rw [counted_apply]
    generalize f x _ = u
    obtain ⟨e | y, s₁⟩ := u <;> exact ⟨rfl, rfl⟩
  · exact ⟨rfl, rfl⟩

end Tracing

/-- Tracing changes nothing. A session ends every command with the same answer
    or the same failure, in the same state, whatever its journal takes in. And
    a function whose calls are traced is run once for each of them, with the
    same arguments, whether events of debugging are written or not; what it
    gives, or its failure, and the state that it leaves are those of the
    call. -/
theorem tracing_transparent :
    (∀ cs : List Session.Command, (∀ c ∈ cs, c.ThroughBuilder) → ∀ (s : Session) (j j' : Journal),
      Session.outcomes cs ⟨s, j⟩ = Session.outcomes cs ⟨s, j'⟩) ∧
    ∀ {σ α : Type} (t : Tracing) (result : α → Argument) (f : Tracing.Arguments → Action σ α)
      (x : Tracing.Arguments) (s : σ) (calls : List Tracing.Arguments) (j : Journal),
      let u := t.traced result (Tracing.counted f) x ⟨(s, calls), j⟩
      u.1 = (f x ⟨s, t.begun x j⟩).1 ∧
        u.2.state = ((f x ⟨s, t.begun x j⟩).2.state, calls ++ [x]) :=
  ⟨fun _ hcs _ _ _ => Session.outcomes_congr hcs rfl, Tracing.traced_counted_apply⟩

/-- A session with a pass over a kind of its own and questions that fail, with
    and without a trace. -/
theorem tracing_transparent_tick :
    let tick : Realizer := fun b props => do
      let x ← b.value ((props.get? "at").getD (.int 0)) (some "x") (some "at")
      return (← b.publish [("at", .float x)], [])
    let cs : List Session.Command :=
      [.pass [⟨"tick", .text "a", [("at", .text "2 * 3")]⟩] none (some [("tick", tick)]),
        .resolve "#a.at + 1" none, .resolve "#a.at +" none, .resolvePoint "#a.at", .wholeState]
    let traced := Session.outcomes cs ⟨{}, { threshold := some .debug }⟩
    traced.map (·.1.isOk) = [true, true, false, false, true] ∧
      traced = Session.outcomes cs ⟨{}, {}⟩ := by
  intro tick cs traced
  have htick : RealizerTable.ThroughBuilder [("tick", tick)] := by
    intro kind run hk
    rw [Table.get?] at hk
    split_ifs at hk <;> cases hk
    exact fun C b props h =>
      h.bind (h.gathering.value _ _ _) fun x => h.publish_bind fun _ _ => h.pure _
  refine ⟨by decide +kernel, tracing_transparent.1 cs (fun c hc => ?_) {} _ _⟩
  simp only [cs, List.mem_cons, List.not_mem_nil, or_false] at hc
  rcases hc with rfl | rfl | rfl | rfl | rfl
  · rintro table ⟨⟩
    exact htick
  all_goals trivial

end AnchorLayout
