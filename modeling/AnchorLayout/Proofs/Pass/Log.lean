import AnchorLayout.Proofs.Registry.Trace

/-!
# The log of a pass

Where events of debugging are written, the log of a pass begins with a line
that tells that it is entered and ends with one that tells how it ends. Between
these two the lines on calls of the registry come in pairs: what is entered
ends before anything else is entered (`Registry.WellBracketed`). If a call
fails, its line is the last but one, and the last line gives the same reason
(`runPass_isLogged`).

All of this is said of the texts of the lines. They are told apart by how they
begin, so of two beginnings neither must be the beginning of the other
(`Apart`); the rest is read off the trace (`Registry.Trace`).
-/

namespace AnchorLayout

open AnchorLayout.Action

/-! ## Lines -/

/-- Whether a line begins with a text. -/
def beginsWith (head line : String) : Bool := head.toList.isPrefixOf line.toList

/-- A line begins with its head. -/
theorem beginsWith_append (head rest : String) : beginsWith head (head ++ rest) = true := by
  rw [beginsWith, String.toList_append]
  exact List.isPrefixOf_iff_prefix.2 (List.prefix_append _ _)

/-- Two texts of which neither begins with the other. -/
def Apart (head head' : String) : Prop :=
  beginsWith head head' = false ∧ beginsWith head' head = false

instance (head head' : String) : Decidable (Apart head head') :=
  inferInstanceAs (Decidable (_ ∧ _))

/-- No line begins with both of them. -/
theorem Apart.beginsWith_append {head head' : String} (h : Apart head head') (rest : String) :
    beginsWith head (head' ++ rest) = false := by
  obtain ⟨h, h'⟩ := h
  rw [beginsWith, ← Bool.not_eq_true, List.isPrefixOf_iff_prefix] at h h' ⊢
  rw [String.toList_append]
  intro hrest
  exact (List.prefix_or_prefix_of_prefix hrest (List.prefix_append _ _)).elim h h'

namespace Registry

/-- How the lines begin that tell of calls of an operation. -/
def enteredHead (op : String) : String := "Entering AnchorRegistry." ++ op ++ "("
def leftHead (op : String) : String := "Exiting AnchorRegistry." ++ op ++ " -> "
def raisedHead (op : String) : String := "AnchorRegistry." ++ op ++ " raised "

/-- Whether a line tells that an operation is entered. -/
def enters (op line : String) : Bool := beginsWith (enteredHead op) line

/-- Whether a line tells that an operation ends, with a result or with a
    failure. -/
def ends (op line : String) : Bool :=
  beginsWith (leftHead op) line || beginsWith (raisedHead op) line

/-- Whether a line tells that some operation is entered. -/
def isEntering (line : String) : Bool := operations.any (enters · line)

/-- Whether a line tells that some operation ends. -/
def isEnding (line : String) : Bool := operations.any (ends · line)

/-- The lines that tell of the end of an operation, up to the first one that
    tells that an operation is entered. -/
def endings (lines : List String) : List String :=
  (lines.takeWhile fun line => !isEntering line).filter isEnding

/-- After each line that tells that an operation is entered, and before the
    next such line, just one tells of an end, and that of the same
    operation. -/
def Matched (lines : List String) : Prop :=
  ∀ op ∈ operations, ∀ opening after, opening :: after <:+ lines → enters op opening = true →
    ∃ closing, endings after = [closing] ∧ ends op closing = true

/-- Lines of which those that tell of operations come in pairs. -/
structure WellBracketed (lines : List String) : Prop where
  unopened : endings lines = []
  matched : Matched lines

section

variable {op line opening closing : String} {asides lines : List String}

/-- What tells that one of the operations is entered tells that some operation
    is. -/
theorem isEntering_of_enters (hop : op ∈ operations) (h : enters op line = true) :
    isEntering line = true :=
  List.any_eq_true.2 ⟨op, hop, h⟩

theorem isEnding_of_ends (hop : op ∈ operations) (h : ends op line = true) :
    isEnding line = true :=
  List.any_eq_true.2 ⟨op, hop, h⟩

/-- No end is looked for beyond the next line on a call. -/
theorem endings_cons_of_isEntering (h : isEntering line = true) : endings (line :: lines) = [] := by
  rw [endings, List.takeWhile_cons_of_neg (by simp [h]), List.filter_nil]

theorem endings_cons_of_isEnding (hline : isEntering line = false) (h : isEnding line = true) :
    endings (line :: lines) = line :: endings lines := by
  rw [endings, List.takeWhile_cons_of_pos (by simp [hline]), List.filter_cons_of_pos h, endings]

/-- A line that tells of no operation. -/
def IsAside (line : String) : Prop := isEntering line = false ∧ isEnding line = false

theorem endings_append_of_isAside (h : ∀ line ∈ asides, IsAside line) :
    endings (asides ++ lines) = endings lines := by
  induction asides with
  | nil => rfl
  | cons line asides ih =>
    obtain ⟨⟨hentering, hending⟩, hasides⟩ := List.forall_mem_cons.1 h
    rw [List.cons_append, endings, List.takeWhile_cons_of_pos (by simp [hentering]),
      List.filter_cons_of_neg (by simp [hending])]
    exact ih hasides

theorem matched_nil : Matched [] := by
  intro op _ opening after h
  cases List.eq_nil_of_suffix_nil h

/-- Lines before which stands another one. -/
theorem Matched.cons (hline : ∀ op ∈ operations, enters op line = true →
      ∃ closing, endings lines = [closing] ∧ ends op closing = true)
    (h : Matched lines) : Matched (line :: lines) := by
  intro op hop opening after hafter hopening
  obtain heq | hafter := List.suffix_cons_iff.1 hafter
  · cases heq
    exact hline op hop hopening
  · exact h op hop opening after hafter hopening

/-- Lines that tell of no call may come first. -/
theorem Matched.append (hlines : ∀ line ∈ asides, isEntering line = false) (h : Matched lines) :
    Matched (asides ++ lines) := by
  induction asides with
  | nil => exact h
  | cons line asides ih =>
    obtain ⟨hline, hasides⟩ := List.forall_mem_cons.1 hlines
    refine .cons (fun op hop henters => ?_) (ih hasides)
    rw [isEntering_of_enters hop henters] at hline
    cases hline

theorem wellBracketed_nil : WellBracketed [] := ⟨rfl, matched_nil⟩

/-- A line that tells of no call leaves the others well bracketed. -/
theorem WellBracketed.aside (hline : IsAside line) (h : WellBracketed lines) :
    WellBracketed (line :: lines) := by
  have hasides : ∀ l ∈ [line], IsAside l := List.forall_mem_singleton.2 hline
  exact ⟨(endings_append_of_isAside hasides).trans h.unopened,
    .append (fun l hl => (hasides l hl).1) h.matched⟩

/-- An operation that is entered and ends, with other lines between its two
    ends. -/
theorem WellBracketed.pair (hop : op ∈ operations) (hopening : enters op opening = true)
    (honly : ∀ op' ∈ operations, enters op' opening = true → op' = op)
    (hasides : ∀ line ∈ asides, IsAside line) (hclosing : ends op closing = true)
    (hcloses : isEntering closing = false) (h : WellBracketed lines) :
    WellBracketed (opening :: (asides ++ closing :: lines)) := by
  refine ⟨endings_cons_of_isEntering (isEntering_of_enters hop hopening), ?_⟩
  have hrest : Matched (closing :: lines) :=
    .append (List.forall_mem_singleton.2 hcloses) h.matched
  refine .cons (fun op' hop' hopening' => ⟨closing, ?_, ?_⟩)
    (.append (fun line hline => (hasides line hline).1) hrest)
  · rw [endings_append_of_isAside hasides,
      endings_cons_of_isEnding hcloses (isEnding_of_ends hop hclosing), h.unopened]
  · rw [honly op' hop' hopening']
    exact hclosing

end

/-! ## What lines tell -/

/-- How the lines begin that do not tell of calls. -/
def asideHeads : List String :=
  ["Registered ", "Diagnostic ", "Realized ", "Pass complete: ", "Loading scene from ",
    "Pass failed: ", "Could not evaluate "]

/-- An event that tells of no call is told by a line that begins like none on a
    call. -/
theorem exists_head_of_aside {x : Event} (hx : x.tracing? = none) :
    ∃ head ∈ asideHeads, ∃ rest, x.message = head ++ rest := by
  cases x with
  | entered | left | raised => cases hx
  | registered count id =>
    refine ⟨"Registered ", by decide, toString count ++ (" anchor(s) for " ++ id.plainText), ?_⟩
    change "Registered " ++ toString count ++ " anchor(s) for " ++ id.plainText = _
    simp only [String.append_assoc]
  | diagnosed d => exact ⟨"Diagnostic ", by decide, d.text, rfl⟩
  | realized kind id =>
    refine ⟨"Realized ", by decide, kind ++ (" " ++ id.plainText), ?_⟩
    change "Realized " ++ kind ++ " " ++ id.plainText = _
    simp only [String.append_assoc]
  | completed shapes diagnostics =>
    refine ⟨"Pass complete: ", by decide, toString shapes ++ (" shape(s), " ++
      (toString diagnostics ++ " diagnostic(s)")), ?_⟩
    change "Pass complete: " ++ toString shapes ++ " shape(s), " ++ toString diagnostics ++
      " diagnostic(s)" = _
    simp only [String.append_assoc]
  | loading path => exact ⟨"Loading scene from ", by decide, path, rfl⟩
  | passFailed e => exact ⟨"Pass failed: ", by decide, e.message, rfl⟩
  | notEvaluated text e =>
    refine ⟨"Could not evaluate ", by decide, Text.quote text ++ (": " ++ e.message), ?_⟩
    change "Could not evaluate " ++ Text.quote text ++ ": " ++ e.message = _
    simp only [String.append_assoc]

theorem message_entered (op : String) (args : List Argument) (named : List (String × Argument)) :
    (Event.entered (tracing op) args named).message =
      enteredHead op ++ (Argument.summaries (args.drop 1) named ++ ")") := by
  have hhead : "Entering " ++ ("AnchorRegistry." ++ op) ++ "(" = enteredHead op := by
    rw [← String.append_assoc]
    rfl
  change "Entering " ++ ("AnchorRegistry." ++ op) ++ "(" ++
    Argument.summaries (args.drop 1) named ++ ")" = _
  rw [hhead, String.append_assoc]

theorem message_left (op : String) (result : Argument) :
    (Event.left (tracing op) result).message = leftHead op ++ result.summary := by
  have hhead : "Exiting " ++ ("AnchorRegistry." ++ op) ++ " -> " = leftHead op := by
    rw [← String.append_assoc]
    rfl
  change "Exiting " ++ ("AnchorRegistry." ++ op) ++ (" -> " ++ result.summary) = _
  rw [← String.append_assoc, hhead]

theorem message_raised (op : String) (e : Failure) :
    (Event.raised (tracing op) e).message =
      raisedHead op ++ (e.category.name ++ ": " ++ e.message) := by
  change raisedHead op ++ e.category.name ++ ": " ++ e.message = _
  simp only [String.append_assoc]

/-- How the line begins that tells of an event of a trace. -/
inductive Head : Event → String → Prop where
  | aside {x : Event} {head : String} : x.tracing? = none → head ∈ asideHeads → Head x head
  | entered {op : String} (args : List Argument) (named : List (String × Argument)) :
      op ∈ operations → Head (.entered (tracing op) args named) (enteredHead op)
  | left {op : String} (result : Argument) :
      op ∈ operations → Head (.left (tracing op) result) (leftHead op)
  | raised {op : String} (e : Failure) :
      op ∈ operations → Head (.raised (tracing op) e) (raisedHead op)

/-- Every line of a trace begins in one of these ways. -/
theorem Trace.exists_head {es : List Event} {o : Option (String × Failure)} (h : Trace es o)
    {x : Event} (hx : x ∈ es) : ∃ head, Head x head ∧ ∃ rest, x.message = head ++ rest := by
  have haside : ∀ {x : Event}, x.tracing? = none →
      ∃ head, Head x head ∧ ∃ rest, x.message = head ++ rest := fun hx =>
    have ⟨head, hhead, hrest⟩ := exists_head_of_aside hx
    ⟨head, .aside hx hhead, hrest⟩
  induction h with
  | nil => cases hx
  | aside hy _ ih =>
    obtain rfl | hx := List.mem_cons.1 hx
    · exact haside hy
    · exact ih hx
  | left hop hasides _ ih =>
    simp only [List.mem_cons, List.mem_append] at hx
    obtain rfl | hx | rfl | hx := hx
    · exact ⟨_, .entered _ _ hop, _, message_entered _ _ _⟩
    · exact haside (hasides x hx)
    · exact ⟨_, .left _ hop, _, message_left _ _⟩
    · exact ih hx
  | raised hop hasides =>
    simp only [List.mem_cons, List.mem_append, List.not_mem_nil, or_false] at hx
    obtain rfl | hx | rfl := hx
    · exact ⟨_, .entered _ _ hop, _, message_entered _ _ _⟩
    · exact haside (hasides x hx)
    · exact ⟨_, .raised _ hop, _, message_raised _ _⟩

/-- Lines on calls are told apart from all others by how they begin. -/
theorem apart_aside : ∀ op ∈ operations, ∀ head ∈ asideHeads,
    Apart (enteredHead op) head ∧ Apart (leftHead op) head ∧ Apart (raisedHead op) head := by
  decide +kernel

/-- A line on the one end of a call is not taken for one on the other end. -/
theorem apart_ends : ∀ op ∈ operations, ∀ op' ∈ operations,
    Apart (enteredHead op) (leftHead op') ∧ Apart (enteredHead op) (raisedHead op') ∧
      Apart (raisedHead op) (enteredHead op') ∧ Apart (raisedHead op) (leftHead op') := by
  decide +kernel

/-- Nor are two operations taken for each other. -/
theorem eq_or_apart : ∀ op ∈ operations, ∀ op' ∈ operations,
    op = op' ∨
      Apart (enteredHead op) (enteredHead op') ∧ Apart (raisedHead op) (raisedHead op') := by
  decide +kernel

/-- A line that tells of no call is not taken for one that does. -/
theorem isAside_message {x : Event} (hx : x.tracing? = none) : IsAside x.message := by
  obtain ⟨head, hhead, rest, hx⟩ := exists_head_of_aside hx
  rw [IsAside, isEntering, isEnding, List.any_eq_false, List.any_eq_false, hx]
  constructor <;> intro op hop <;>
    obtain ⟨hentered, hleft, hraised⟩ := apart_aside op hop head hhead
  · rw [enters, hentered.beginsWith_append]
    exact Bool.false_ne_true
  · rw [ends, hleft.beginsWith_append, hraised.beginsWith_append]
    exact Bool.false_ne_true

/-- From the line on a call that is entered its operation can be told. -/
theorem eq_of_enters_entered {op op' : String} (hop : op ∈ operations) (hop' : op' ∈ operations)
    {args : List Argument} {named : List (String × Argument)}
    (h : enters op' (Event.entered (tracing op) args named).message = true) : op' = op := by
  obtain heq | ⟨hapart, -⟩ := eq_or_apart op' hop' op hop
  · exact heq
  · rw [message_entered, enters, hapart.beginsWith_append] at h
    cases h

theorem isEntering_left {op : String} (hop : op ∈ operations) (result : Argument) :
    isEntering (Event.left (tracing op) result).message = false := by
  rw [isEntering, List.any_eq_false, message_left]
  intro op' hop'
  rw [enters, (apart_ends op' hop' op hop).1.beginsWith_append]
  exact Bool.false_ne_true

theorem isEntering_raised {op : String} (hop : op ∈ operations) (e : Failure) :
    isEntering (Event.raised (tracing op) e).message = false := by
  rw [isEntering, List.any_eq_false, message_raised]
  intro op' hop'
  rw [enters, (apart_ends op' hop' op hop).2.1.beginsWith_append]
  exact Bool.false_ne_true

/-- The lines of a trace. -/
theorem Trace.wellBracketed {es : List Event} {o : Option (String × Failure)} (h : Trace es o) :
    WellBracketed (es.map Event.message) := by
  induction h with
  | nil => exact wellBracketed_nil
  | aside hx _ ih => exact ih.aside (isAside_message hx)
  | left hop hasides _ ih =>
    rw [List.map_cons, List.map_append, List.map_cons]
    refine .pair hop ?_ (fun op' hop' => eq_of_enters_entered hop hop')
      (List.forall_mem_map.2 fun x hx => isAside_message (hasides x hx)) ?_
      (isEntering_left hop _) ih
    · rw [message_entered]
      exact beginsWith_append _ _
    · rw [message_left, ends, beginsWith_append, Bool.true_or]
  | raised hop hasides =>
    rw [List.map_cons, List.map_append, List.map_singleton]
    refine .pair hop ?_ (fun op' hop' => eq_of_enters_entered hop hop')
      (List.forall_mem_map.2 fun x hx => isAside_message (hasides x hx)) ?_
      (isEntering_raised hop _) wellBracketed_nil
    · rw [message_entered]
      exact beginsWith_append _ _
    · rw [message_raised, ends, beginsWith_append, Bool.or_true]

/-- A line of a trace that tells of a failure is that of a call that has
    failed. -/
theorem Trace.exists_raised_of_beginsWith {es : List Event} {o : Option (String × Failure)}
    (h : Trace es o) {x : Event} (hx : x ∈ es) {op : String} (hop : op ∈ operations)
    (hline : beginsWith (raisedHead op) x.message = true) :
    ∃ e, x = .raised (tracing op) e := by
  obtain ⟨head, hhead, rest, hmessage⟩ := h.exists_head hx
  rw [hmessage] at hline
  cases hhead with
  | aside _ hhead =>
    cases ((apart_aside op hop head hhead).2.2.beginsWith_append rest).symm.trans hline
  | entered args named hop' =>
    cases ((apart_ends op hop _ hop').2.2.1.beginsWith_append rest).symm.trans hline
  | left result hop' =>
    cases ((apart_ends op hop _ hop').2.2.2.beginsWith_append rest).symm.trans hline
  | raised e hop' =>
    obtain rfl | ⟨-, hraised⟩ := eq_or_apart op hop _ hop'
    · exact ⟨e, rfl⟩
    · cases (hraised.beginsWith_append rest).symm.trans hline

end Registry

/-! ## The log of a pass -/

namespace Pass

open Registry

/-- The last line of the log of a pass. -/
def closingLine {α : Type} : Except Failure α → String
  | .ok _ => "Exiting run_pass"
  | .error e => "run_pass raised " ++ (e.category.name ++ ": " ++ e.message)

theorem message_closing {α : Type} (result : α → Argument) (r : Except Failure α) :
    (Pass.tracing.closing result r).message = closingLine r := by
  cases r with
  | ok x => rfl
  | error e =>
    change "run_pass raised " ++ e.category.name ++ ": " ++ e.message =
      "run_pass raised " ++ (e.category.name ++ ": " ++ e.message)
    simp only [String.append_assoc]

/-- How the lines begin that a pass adds on itself. -/
def heads : List String := ["Entering run_pass(", "Exiting run_pass", "run_pass raised "]

/-- No line on a pass begins like one of its trace. -/
theorem apart_heads : ∀ own ∈ heads, (∀ head ∈ asideHeads, Apart own head) ∧
    ∀ op ∈ operations, Apart own (enteredHead op) ∧ Apart own (leftHead op) ∧
      Apart own (raisedHead op) := by
  decide +kernel

/-- No line of a trace is one on the pass. -/
theorem beginsWith_head_eq_false {es : List Event} {o : Option (String × Failure)}
    (h : Trace es o) {x : Event} (hx : x ∈ es) {own : String} (hown : own ∈ heads) :
    beginsWith own x.message = false := by
  obtain ⟨hasides, hcalls⟩ := apart_heads own hown
  obtain ⟨head, hhead, rest, hmessage⟩ := h.exists_head hx
  rw [hmessage]
  cases hhead with
  | aside _ hhead => exact (hasides head hhead).beginsWith_append rest
  | entered args named hop => exact (hcalls _ hop).1.beginsWith_append rest
  | left result hop => exact (hcalls _ hop).2.1.beginsWith_append rest
  | raised e hop => exact (hcalls _ hop).2.2.beginsWith_append rest

/-- What a pass adds to a log begins and ends with a line on the pass itself,
    of which there is no other, and the lines between them are well bracketed.
    If a call fails and the pass with it, then the last of these gives the
    operation and the reason; no other line tells of a call that has failed. -/
structure IsLogged (a : Action Registry (List ShapeRecord)) (s : Journaled Registry)
    (between : List String) : Prop where
  lines : ∃ args events, (a s).2.journal.events = s.journal.events ++ events ∧
    events.map Event.message = ("Entering run_pass(" ++ (Argument.summaries args [] ++ ")")) ::
      (between ++ [closingLine (a s).1])
  own : ∀ head ∈ heads, ∀ line ∈ between, beginsWith head line = false
  calls : WellBracketed between
  fails : ∀ op e, RaisedIn (Registry.tracing op) e a s →
    (a s).1 = .error e ∧ ∃ before, between =
      before ++ [raisedHead op ++ (e.category.name ++ ": " ++ e.message)]
  failed : ∀ op ∈ operations, ∀ line ∈ between, beginsWith (raisedHead op) line = true →
    ∃ e, RaisedIn (Registry.tracing op) e a s

/-- What is traced is logged between the two lines on the pass. -/
theorem exists_isLogged {body : Action Registry (List ShapeRecord)} (hbody : IsTraced body)
    (args : List Argument) {s : Journaled Registry} (hs : s.journal.threshold = some .debug) :
    ∃ between, IsLogged (Pass.tracing.call args [] (fun _ => .value .null) body) s between := by
  obtain ⟨es, o, hes, htrace, hfailed⟩ := hbody
    { s with journal := s.journal.write (.entered Pass.tracing args []) }
    ((Journal.threshold_write _ _).trans hs)
  rcases hr : body { s with journal := s.journal.write (.entered Pass.tracing args []) } with
    ⟨r, s₁⟩
  rw [hr] at hes
  obtain ⟨s', hcall, hs'⟩ := call_of_debug hs Pass.tracing hr hes fun _ => .value .null
  refine ⟨es.map Event.message, ?_, fun head hhead => ?_, htrace.wellBracketed,
    fun op e hraised => ?_, fun op hop line hline hhead => ?_⟩
  · refine ⟨args, _, by rw [hcall, hs']; rfl, ?_⟩
    have hopening : (Event.entered Pass.tracing args []).message =
        "Entering run_pass(" ++ (Argument.summaries args [] ++ ")") := by
      change "Entering run_pass(" ++ Argument.summaries args [] ++ ")" = _
      rw [String.append_assoc]
    rw [hcall, List.map_cons, List.map_append, List.map_singleton, message_closing, hopening]
  · exact List.forall_mem_map.2 fun x hx => beginsWith_head_eq_false htrace hx hhead
  · obtain ⟨s'', es', hcall', hs'', hmem⟩ := hraised.exists_raised hs
    rw [hcall] at hcall' ⊢
    cases hcall'
    have hes' := List.append_cancel_left (congrArg Journal.events (hs''.symm.trans hs'))
    simp only [hes', List.mem_cons, List.mem_append, List.not_mem_nil, or_false] at hmem
    obtain hopening | hmem | hclosing := hmem
    · cases hopening
    · obtain ⟨op', before, ht, -, hes⟩ := htrace.eq_of_raised_mem hmem
      refine ⟨rfl, before.map Event.message, ?_⟩
      rw [hes, ← ht, List.map_append, List.map_singleton, message_raised]
    · -- The pass itself is no operation: its first argument is not left out.
      have hskip := congrArg (fun x : Event => x.tracing?.map Tracing.skipFirst) hclosing
      cases hskip
  · obtain ⟨x, hx, rfl⟩ := List.mem_map.1 hline
    obtain ⟨e, rfl⟩ := htrace.exists_raised_of_beginsWith hx hop hhead
    obtain ⟨op', -, ht, ho, -⟩ := htrace.eq_of_raised_mem hx
    rw [ht]
    exact ⟨e, .within _ _ _ _ (hfailed op' e ho).2⟩

end Pass

/-- Where events of debugging are written, the log of a pass is well bracketed,
    whatever its shapes and however it ends. -/
theorem runPass_isLogged (shapes : List ShapeSpec) (viewBox : Option ViewBox)
    {s : Journaled Registry} (hs : s.journal.threshold = some .debug) :
    (∃ between, Pass.IsLogged (runPass shapes viewBox) s between) ∧
      ∀ table : Option RealizerTable, (∀ t ∈ table, RealizerTable.ThroughBuilder t) →
        ∃ between, Pass.IsLogged (runPassWith shapes viewBox table) s between := by
  have hrun : ∀ table, RealizerTable.ThroughBuilder table →
      Registry.IsTraced (Pass.run table shapes viewBox) := fun table ht =>
    Registry.driving_isTraced.run ht (fun _ _ _ => Registry.canRecord_isTraced _) viewBox
  exact ⟨Pass.exists_isLogged (hrun _ throughBuilder_kinds) _ hs,
    fun table ht => Pass.exists_isLogged (hrun _ (throughBuilder_getD ht)) _ hs⟩

/-- A pass over a dot with an empty expression, whose log ends with the lines
    that tell so, and the same pass with the usual realizers given as a
    table. -/
theorem runPass_isLogged_empty_expression :
    let shapes : List ShapeSpec := [⟨"point", .text "p", [("x", .text "")]⟩]
    let s : Journaled Registry := ⟨{}, ⟨some .debug, []⟩⟩
    s.journal.threshold = some .debug ∧
      (∃ before, Pass.IsLogged (runPass shapes none) s
        (before ++ ["AnchorRegistry.resolve_with_axis_check raised ExprSyntaxError: " ++
          "[pos 0] empty expression"])) ∧
      (runPass shapes none s).1 = .error (.misread ⟨0, .emptyText⟩) ∧
      ∃ between, Pass.IsLogged (runPassWith shapes none (some Shape.kinds)) s between := by
  intro shapes s
  have hempty : Registry.expression "" = .error (.misread ⟨0, .emptyText⟩) := by cbv
  have hstep : Pass.step Shape.kinds {} ⟨"point", .text "p", [("x", .text "")]⟩ = (do
      Pass.realize Shape.dot "point" (.text "p") false [("x", .text "")]
      return { ids := [.text "p"] }) := rfl
  have hraised : RaisedIn (Registry.tracing "resolve_with_axis_check")
      (.misread ⟨0, .emptyText⟩) (runPass shapes none) s := by
    refine .within _ _ _ _ ?_
    rw [Pass.run_eq]
    refine .later [] rfl Journal.extended_nil.symm (.first _ ?_)
    rw [Pass.steps_singleton, hstep]
    refine .first _ (.first _ (.first _ (.first _ ?_)))
    change RaisedIn _ _ (Registry.resolveOnAxis "" "x" "x" (.text "p") (.byName (.text "p"))) _
    refine @RaisedIn.call _ _ _ _ _ _ ?fails _ _ _ [] ?body ?journal
    case body =>
      rw [hempty]
      rfl
    case journal => exact Journal.extended_nil.symm
  obtain ⟨⟨between, h⟩, htable⟩ := runPass_isLogged shapes none (s := s) rfl
  obtain ⟨hr, before, rfl⟩ := h.fails _ _ hraised
  have hkinds : ∀ t ∈ some Shape.kinds, RealizerTable.ThroughBuilder t := by
    rintro t ⟨⟩
    exact throughBuilder_kinds
  exact ⟨rfl, ⟨before, h⟩, hr, htable _ hkinds⟩

end AnchorLayout
