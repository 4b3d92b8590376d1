import AnchorLayout.Proofs.Pass.Growth

/-!
# Neighbours that do not refer to each other

Two shapes that stand next to each other can change places if neither names the
other (`runPass_exchange`). A shape does the same whether another one that it
does not name has been realized or not (`Pass.realize_beside`), and it leaves
that one alone (`Pass.sameBut_of_realize`). So after both of them the
registries are the same but for the order in which they were recorded, which no
later shape can tell (`Registry.respects_alike`).
-/

namespace AnchorLayout

open AnchorLayout.Action

namespace Registry

variable {name : String} {old old' : List Diagnostic} {r r' r'' : Registry}

/-- The registries are the same, but for the shape `name` and the
    diagnostics. -/
structure SameBut (name : String) (r r' : Registry) : Prop where
  config : r.config = r'.config
  viewBox : r.viewBox = r'.viewBox
  anchors : r.anchors.erase (.text name) = r'.anchors.erase (.text name)
  shapes : r.shapes.erase (.text name) = r'.shapes.erase (.text name)

namespace SameBut

theorem symm (h : SameBut name r r') : SameBut name r' r :=
  ⟨h.config.symm, h.viewBox.symm, h.anchors.symm, h.shapes.symm⟩

theorem trans (h : SameBut name r r') (h' : SameBut name r' r'') : SameBut name r r'' :=
  ⟨h.config.trans h'.config, h.viewBox.trans h'.viewBox, h.anchors.trans h'.anchors,
    h.shapes.trans h'.shapes⟩

end SameBut

/-- The registries are the same but for the shape `name`, and the same
    diagnostics have been added to those of old. -/
structure Beside (name : String) (old old' : List Diagnostic) (r r' : Registry) : Prop
    extends SameBut name r r' where
  diagnostics : ∃ new, r.diagnostics = old ++ new ∧ r'.diagnostics = old' ++ new

theorem SameBut.beside (h : SameBut name r r') : Beside name r.diagnostics r'.diagnostics r r' :=
  ⟨h, [], (List.append_nil _).symm, (List.append_nil _).symm⟩

/-- The registries are the same but for the order of their entries, and the
    same diagnostics have been added to those of old. Only the shape `name` may
    have another place. -/
structure Alike (name : String) (old old' : List Diagnostic) (r r' : Registry) : Prop
    extends Beside name old old' r r' where
  ownAnchors : r.anchors.get? (.text name) = r'.anchors.get? (.text name)
  ownShape : r.shapes.get? (.text name) = r'.shapes.get? (.text name)

theorem Alike.get?_anchors (h : Alike name old old' r r') (id : ShapeId) :
    r.anchors.get? id = r'.anchors.get? id := by
  by_cases hid : id = .text name
  · rw [hid, h.ownAnchors]
  · exact Table.get?_eq_of_erase_eq h.anchors hid

theorem Alike.get?_shapes (h : Alike name old old' r r') (id : ShapeId) :
    r.shapes.get? id = r'.shapes.get? id := by
  by_cases hid : id = .text name
  · rw [hid, h.ownShape]
  · exact Table.get?_eq_of_erase_eq h.shapes hid

theorem respects_beside (id : ShapeId) :
    Respects (Beside name old old')
      (fun q => (∀ n ∈ q.shapes, n ≠ name) ∧ q.self? ≠ some (.text name)) id where
  answer h hT := by
    refine answer_congr (fun i hi => ?_) fun n hn => ?_
    · exact Table.get?_eq_of_erase_eq h.anchors fun he => hT.2 (he ▸ hi)
    · exact Table.get?_eq_of_erase_eq h.anchors fun he => hT.1 n hn (ShapeId.text.inj he)
  warned {r r'} messages h := by
    obtain ⟨new, hnew, hnew'⟩ := h.diagnostics
    refine ⟨⟨h.config, h.viewBox, h.anchors, h.shapes⟩,
      new ++ (messages r.config r.viewBox).map (⟨.warning, id, ·⟩), ?_, ?_⟩
    · rw [warned, hnew, List.append_assoc]
    · rw [warned, hnew', List.append_assoc, h.config, h.viewBox]
  published as h :=
    ⟨⟨h.config, h.viewBox, Table.erase_insert_congr h.anchors id as, h.shapes⟩, h.diagnostics⟩
  recorded record h :=
    ⟨⟨h.config, h.viewBox, h.anchors, Table.erase_insert_congr h.shapes id record⟩, h.diagnostics⟩

/-- Whatever is asked, and by whom, alike registries have the same answer. -/
theorem respects_alike (id : ShapeId) : Respects (Alike name old old') (fun _ => True) id where
  answer h _ := answer_congr (fun i _ => h.get?_anchors i) fun n _ => h.get?_anchors (.text n)
  warned messages h :=
    ⟨(respects_beside id).warned messages h.toBeside, h.ownAnchors, h.ownShape⟩
  published as h := ⟨(respects_beside id).published as h.toBeside,
    Table.get?_text_insert_congr h.ownAnchors id as, h.ownShape⟩
  recorded record h := ⟨(respects_beside id).recorded record h.toBeside, h.ownAnchors,
    Table.get?_text_insert_congr h.ownShape id record⟩

end Registry

namespace Pass

/-! ## One shape beside another -/

section

variable {d : ShapeSpec} {run : Realizer} {autoId : Bool} {name other : String}
  {s s' t : Journaled Registry}

/-- A shape that is realized leaves all others as they are. -/
theorem sameBut_of_realize (hk : Shape.kinds.get? d.kind = some run)
    (h : realize run d.kind (.text name) autoId d.props s = (.ok (), s')) :
    Registry.SameBut name s.state s'.state := by
  obtain ⟨r, j, hr, ⟨e, he⟩ | ⟨record, -, he⟩⟩ := realize_cases hk name autoId d.props s
  · rw [he] at h
    cases h
  · rw [he] at h
    cases h
    refine ⟨hr.config.symm, hr.viewBox.symm, hr.anchors.symm, ?_⟩
    rw [Registry.recorded, Table.erase_insert_text, hr.shapes]

/-- A shape does the same whatever has become of another one that it does not
    name. -/
theorem realize_beside (hk : Shape.kinds.get? d.kind = some run) (hne : name ≠ other)
    (hT : ∀ q ∈ d.questions (.text name), ∀ n ∈ q.shapes, n ≠ other)
    (h : realize run d.kind (.text name) autoId d.props s = (.ok (), s'))
    (hst : Registry.SameBut other s.state t.state) :
    ∃ t', realize run d.kind (.text name) autoId d.props t = (.ok (), t') ∧
      Registry.Beside other s.state.diagnostics t.state.diagnostics s'.state t'.state := by
  refine (agrees_realize hk (Registry.respects_beside _) autoId fun q hq => ⟨hT q hq, ?_⟩).rerun h
    hst.beside
  -- Where `$self` stands for a shape at all, it is the one that asks.
  intro hself
  cases Question.isOf_of_mem_ofShape d.kind d.props q hq _ hself
  exact hne rfl

end

/-! ## Two shapes -/

section

variable {p q : ShapeSpec} {runP runQ : Realizer} {autoP autoQ : Bool} {a b : String}
  {s₀ s₁ s₂ : Journaled Registry}

/-- Two shapes that do not name each other can change places. -/
theorem realize_exchange (hkp : Shape.kinds.get? p.kind = some runP)
    (hkq : Shape.kinds.get? q.kind = some runQ) (hne : a ≠ b)
    (hpq : ∀ x ∈ p.questions (.text a), ∀ n ∈ x.shapes, n ≠ b)
    (hqp : ∀ x ∈ q.questions (.text b), ∀ n ∈ x.shapes, n ≠ a)
    (hp : realize runP p.kind (.text a) autoP p.props s₀ = (.ok (), s₁))
    (hq : realize runQ q.kind (.text b) autoQ q.props s₁ = (.ok (), s₂)) :
    ∃ t₁ t₂, realize runQ q.kind (.text b) autoQ q.props s₀ = (.ok (), t₁) ∧
      realize runP p.kind (.text a) autoP p.props t₁ = (.ok (), t₂) ∧
      Registry.Alike a s₂.state.diagnostics t₂.state.diagnostics s₂.state t₂.state ∧
      ∃ ofP ofQ, s₁.state.diagnostics = s₀.state.diagnostics ++ ofP ∧
        t₁.state.diagnostics = s₀.state.diagnostics ++ ofQ ∧
        s₂.state.diagnostics = s₀.state.diagnostics ++ ofP ++ ofQ ∧
        t₂.state.diagnostics = s₀.state.diagnostics ++ ofQ ++ ofP := by
  have hab : ShapeId.text a ≠ .text b := fun h => hne (ShapeId.text.inj h)
  have hp' := sameBut_of_realize hkp hp
  have hq' := sameBut_of_realize hkq hq
  -- The second shape does the same before the
  -- first one, and the first one after the second.
  obtain ⟨t₁, hq₁, hst₁⟩ := realize_beside hkq hne.symm hqp hq hp'.symm
  obtain ⟨t₂, hp₂, hst₂⟩ := realize_beside hkp hne hpq hp (sameBut_of_realize hkq hq₁)
  obtain ⟨ofQ, hs₂, ht₁⟩ := hst₁.diagnostics
  obtain ⟨ofP, hs₁, ht₂⟩ := hst₂.diagnostics
  refine ⟨t₁, t₂, hq₁, hp₂, ⟨(hst₁.trans (sameBut_of_realize hkp hp₂)).beside, ?_, ?_⟩,
    ofP, ofQ, hs₁, ht₁, by rw [hs₂, hs₁], by rw [ht₂, ht₁]⟩
  -- What the first shape has published is left
  -- alone by the second one, and it is the same.
  · exact (Table.get?_eq_of_erase_eq hq'.anchors hab).symm.trans
      (Table.get?_eq_of_erase_eq hst₂.anchors hab)
  · exact (Table.get?_eq_of_erase_eq hq'.shapes hab).symm.trans
      (Table.get?_eq_of_erase_eq hst₂.shapes hab)

end

/-! ## What is remembered of them -/

/-- The same is remembered, but for the order. -/
structure Progress.Alike (p p' : Progress) : Prop where
  nextCount : ∀ kind, p.nextCount kind = p'.nextCount kind
  contains : ∀ id, p.ids.contains id = p'.ids.contains id

namespace Progress

variable {u u' : Progress} {p q d : ShapeSpec}

theorem Alike.idOf_eq (h : u.Alike u') (d : ShapeSpec) : u.idOf d = u'.idOf d :=
  congrArg d.idAs (h.nextCount d.kind)

/-- What is remembered of shapes stays alike as more shapes come. -/
theorem Alike.next (h : u.Alike u') (d : ShapeSpec) : (u.next d).Alike (u'.next d) where
  nextCount kind := by rw [nextCount_next, nextCount_next, h.nextCount]
  contains id := by
    rw [ids_next, ids_next, List.contains_append, List.contains_append, h.contains, h.idOf_eq]

/-- Of two shapes of which one at least declares its id, the second has the
    same id without the first. -/
theorem idOf_next (h : p.declares = true ∨ q.declares = true) : (u.next p).idOf q = u.idOf q := by
  rw [idOf, idOf]
  rcases h with h | h
  · rw [nextCount_next, h, Bool.not_true, Bool.false_and, if_neg Bool.false_ne_true, Nat.add_zero]
  · rw [ShapeSpec.idAs, ShapeSpec.idAs, if_pos h, if_pos h]

theorem alike_exchange (h : p.declares = true ∨ q.declares = true) :
    ((u.next p).next q).Alike ((u.next q).next p) where
  nextCount kind := by
    simp only [nextCount_next]
    exact Nat.add_right_comm ..
  contains id := by
    rw [ids_next, ids_next, idOf_next h, ids_next, ids_next, idOf_next h.symm]
    simp only [List.contains_append]
    exact Bool.or_right_comm ..

end Progress

/-- Two steps for shapes that do not name each other can be exchanged. -/
theorem step_exchange {u u₁ u₂ : Progress} {p q : ShapeSpec} {a b : String}
    {s₀ s₁ s₂ : Journaled Registry} (hdec : p.declares = true ∨ q.declares = true)
    (ha : u.idOf p = .text a) (hb : u.idOf q = .text b)
    (hpq : ∀ x ∈ p.questions (.text a), ∀ n ∈ x.shapes, n ≠ b)
    (hqp : ∀ x ∈ q.questions (.text b), ∀ n ∈ x.shapes, n ≠ a)
    (hp : step Shape.kinds u p s₀ = (.ok u₁, s₁)) (hq : step Shape.kinds u₁ q s₁ = (.ok u₂, s₂)) :
    ∃ t₁ t₂, step Shape.kinds u q s₀ = (.ok (u.next q), t₁) ∧
      step Shape.kinds (u.next q) p t₁ = (.ok ((u.next q).next p), t₂) ∧
      u₂.Alike ((u.next q).next p) ∧
      Registry.Alike a s₂.state.diagnostics t₂.state.diagnostics s₂.state t₂.state ∧
      ∃ ofP ofQ, s₁.state.diagnostics = s₀.state.diagnostics ++ ofP ∧
        t₁.state.diagnostics = s₀.state.diagnostics ++ ofQ ∧
        s₂.state.diagnostics = s₀.state.diagnostics ++ ofP ++ ofQ ∧
        t₂.state.diagnostics = s₀.state.diagnostics ++ ofQ ++ ofP := by
  obtain ⟨runP, hkp, hrunP⟩ := exists_run_of_step hp
  obtain ⟨-, hnewP, rfl, hrealP⟩ := (hrunP _ _ _ _).1 hp
  obtain ⟨runQ, hkq, hrunQ⟩ := exists_run_of_step hq
  obtain ⟨-, hnewQ, rfl, hrealQ⟩ := (hrunQ _ _ _ _).1 hq
  rw [ha] at hnewP hrealP
  rw [Progress.idOf_next hdec, hb] at hnewQ hrealQ
  rw [← Bool.not_eq_true, ShapeId.contains_text] at hnewP hnewQ
  rw [ids_next, ha, List.mem_append, List.mem_singleton, not_or] at hnewQ
  obtain ⟨hnewQ, hne⟩ := hnewQ
  obtain ⟨t₁, t₂, hq₁, hp₂, halike, hdiagnostics⟩ := realize_exchange hkp hkq
    (fun h => hne (congrArg ShapeId.text h.symm)) hpq hqp hrealP hrealQ
  refine ⟨t₁, t₂, (hrunQ _ _ _ _).2 ⟨?_, ?_, rfl, ?_⟩, (hrunP _ _ _ _).2 ⟨?_, ?_, rfl, ?_⟩,
    Progress.alike_exchange hdec, halike, hdiagnostics⟩
  · rw [hb, ShapeId.asKey_text]
  · rwa [hb, ← Bool.not_eq_true, ShapeId.contains_text]
  · rwa [hb]
  · rw [Progress.idOf_next hdec.symm, ha, ShapeId.asKey_text]
  · rw [Progress.idOf_next hdec.symm, ha, ← Bool.not_eq_true, ShapeId.contains_text, ids_next, hb,
      List.mem_append, List.mem_singleton, not_or]
    exact ⟨hnewP, fun h => hne h.symm⟩
  · rwa [Progress.idOf_next hdec.symm, ha]

/-! ## The shapes after them -/

section

variable {R : Registry → Registry → Prop} {u u' x : Progress} {s s' t : Journaled Registry}

/-- A shape after them is realized in the same way. -/
theorem step_alike (hR : ∀ id, Registry.Respects R (fun _ => True) id) (hu : u.Alike u')
    (hst : R s.state t.state) {d : ShapeSpec} (h : step Shape.kinds u d s = (.ok x, s')) :
    ∃ t', step Shape.kinds u' d t = (.ok (u'.next d), t') ∧ x.Alike (u'.next d) ∧
      R s'.state t'.state := by
  obtain ⟨run, hk, hrun⟩ := exists_run_of_step h
  obtain ⟨hkey, hnew, rfl, hreal⟩ := (hrun _ _ _ _).1 h
  rw [hu.idOf_eq] at hkey hnew hreal
  rw [hu.contains] at hnew
  obtain ⟨t', ht', hst'⟩ := (agrees_realize hk (hR _) _ fun _ _ => trivial).rerun hreal hst
  exact ⟨t', (hrun _ _ _ _).2 ⟨hkey, hnew, rfl, ht'⟩, hu.next d, hst'⟩

theorem steps_alike (hR : ∀ id, Registry.Respects R (fun _ => True) id) (hu : u.Alike u')
    (hst : R s.state t.state) {shapes : List ShapeSpec}
    (h : steps Shape.kinds u shapes s = (.ok x, s')) :
    ∃ x' t', steps Shape.kinds u' shapes t = (.ok x', t') ∧ R s'.state t'.state := by
  induction shapes generalizing u u' s t with
  | nil =>
    cases h
    exact ⟨u', t, rfl, hst⟩
  | cons d rest ih =>
    obtain ⟨u₁, s₁, hs₁, h⟩ := bind_eq_ok.1 h
    obtain ⟨t₁, ht₁, hu₁, hst₁⟩ := step_alike hR hu hst hs₁
    obtain ⟨x', t', ht', hst'⟩ := ih hu₁ hst₁ h
    exact ⟨x', t', bind_eq_ok.2 ⟨_, t₁, ht₁, ht'⟩, hst'⟩

end

end Pass

/-- Two neighbours with different declared ids that do not name each other can
    change places. If a pass succeeds in which `p` stands before `q`, so does
    the one in which `q` stands before `p`; it leaves each shape with the same
    anchors and the same record; and the diagnostics of `p` and those of `q`,
    which are those that each adds to the shapes before both, change places
    too. -/
theorem runPass_exchange {before after : List ShapeSpec} {p q : ShapeSpec} {a b : String}
    (hp : p.id = .text a) (hq : q.id = .text b) (hne : a ≠ b)
    (hpq : ∀ x ∈ p.questions (Pass.idAfter before p), ∀ name ∈ x.shapes,
      .text name ≠ Pass.idAfter before q)
    (hqp : ∀ x ∈ q.questions (Pass.idAfter before q), ∀ name ∈ x.shapes,
      .text name ≠ Pass.idAfter before p)
    {viewBox : Option ViewBox} {s : Journaled Registry} {records : List ShapeRecord}
    (hr : (runPass (before ++ [p, q] ++ after) viewBox s).1 = .ok records) :
    let one := runPass (before ++ [p, q] ++ after) viewBox s
    let other := runPass (before ++ [q, p] ++ after) viewBox s
    (∃ records', other.1 = .ok records') ∧
    (∀ id, other.2.state.anchorsOf id = one.2.state.anchorsOf id) ∧
    (∀ id, other.2.state.shapes.get? id = one.2.state.shapes.get? id) ∧
    ∃ first ofP ofQ rest,
      (runPass before viewBox s).2.state.diagnostics = first ∧
      (runPass (before ++ [p]) viewBox s).2.state.diagnostics = first ++ ofP ∧
      (runPass (before ++ [q]) viewBox s).2.state.diagnostics = first ++ ofQ ∧
      one.2.state.diagnostics = first ++ ofP ++ ofQ ++ rest ∧
      other.2.state.diagnostics = first ++ ofQ ++ ofP ++ rest := by
  intro one other
  -- The pass, step by step: the shapes before, the two, and the shapes after.
  obtain ⟨x, s₃, hone⟩ := exists_steps_of_runPass hr
  obtain ⟨u₂, s₂, h, hafter⟩ := Pass.steps_append_eq_ok.1 hone
  obtain ⟨u, s₀, hbefore, h⟩ := Pass.steps_append_eq_ok.1 h
  obtain ⟨u₁, s₁, hstepP, hstepQ⟩ := bind_eq_ok.1 h
  rw [Pass.steps_singleton] at hstepQ
  -- One of the two ids at least is not empty.
  have hdec : p.declares = true ∨ q.declares = true := by
    by_cases ha : a = ""
    · exact .inr (ShapeSpec.declares_of_text hq fun hb => hne (ha.trans hb.symm))
    · exact .inl (ShapeSpec.declares_of_text hp ha)
  rw [Pass.idAfter_eq, Pass.idAfter_eq, ← Pass.progress_of_steps hbefore] at hpq hqp
  obtain ⟨a', ha⟩ := Pass.exists_idOf_eq u (.inl ⟨a, hp⟩)
  obtain ⟨b', hb⟩ := Pass.exists_idOf_eq u (.inl ⟨b, hq⟩)
  rw [ha, hb] at hpq hqp
  obtain ⟨t₁, t₂, hstepQ', hstepP', hu, halike, ofP, ofQ, hs₁, ht₁, hs₂, ht₂⟩ :=
    Pass.step_exchange hdec ha hb (fun x hx n hn he => hpq x hx n hn (congrArg _ he))
      (fun x hx n hn he => hqp x hx n hn (congrArg _ he)) hstepP hstepQ
  -- The shapes after the two cannot tell the registries apart.
  obtain ⟨x', t₃, hafter', hend⟩ := Pass.steps_alike Registry.respects_alike hu halike hafter
  obtain ⟨rest, hs₃, ht₃⟩ := hend.diagnostics
  -- The other pass and the shorter ones are put together from these steps.
  have hbeforeP := Pass.steps_append_eq_ok.2
    ⟨u, s₀, hbefore, (congrFun (Pass.steps_singleton ..) _).trans hstepP⟩
  have hbeforeQ := Pass.steps_append_eq_ok.2
    ⟨u, s₀, hbefore, (congrFun (Pass.steps_singleton ..) _).trans hstepQ'⟩
  have hpair : Pass.steps Shape.kinds u [q, p] s₀ = (.ok ((u.next q).next p), t₂) :=
    bind_eq_ok.2 ⟨_, t₁, hstepQ', (congrFun (Pass.steps_singleton ..) _).trans hstepP'⟩
  have hother := Pass.steps_append_eq_ok.2
    ⟨_, t₂, Pass.steps_append_eq_ok.2 ⟨u, s₀, hbefore, hpair⟩, hafter'⟩
  obtain ⟨-, hs⟩ := runPass_of_steps hone
  obtain ⟨hr', ht⟩ := runPass_of_steps hother
  refine ⟨⟨_, hr'⟩, fun id => ?_, fun id => ?_, s₀.state.diagnostics, ofP, ofQ, rest, ?_, ?_, ?_,
    ?_, ?_⟩
  · rw [ht, hs]
    exact Registry.anchorsOf_congr (hend.get?_anchors id).symm
  · rw [ht, hs]
    exact (hend.get?_shapes id).symm
  · rw [(runPass_of_steps hbefore).2]
  · rw [(runPass_of_steps hbeforeP).2, hs₁]
  · rw [(runPass_of_steps hbeforeQ).2, ht₁]
  · rw [hs, hs₃, hs₂]
  · rw [ht, ht₃, ht₂]

/-- A circle and a line that are placed by the same rectangle, and a rectangle
    after them. -/
theorem runPass_exchange_circle :
    let before : List ShapeSpec := [⟨"rect", .text "base", [("width", .text "40")]⟩]
    let p : ShapeSpec := ⟨"circle", .text "a", [("r", .text "#base.width / 4")]⟩
    let q : ShapeSpec := ⟨"line", .text "b", [("from", .text "#base.center"), ("x2", .int 3)]⟩
    let after : List ShapeSpec := [⟨"rect", .datum .null 0, [("width", .text "#a.r + #b.length")]⟩]
    let one := runPass (before ++ [p, q] ++ after) none ⟨{}, {}⟩
    let other := runPass (before ++ [q, p] ++ after) none ⟨{}, {}⟩
    one.1.isOk = true ∧ (∃ records, other.1 = .ok records) ∧
    ∀ id, other.2.state.anchorsOf id = one.2.state.anchorsOf id := by
  intro before p q after one other
  have hok : one.1.isOk = true := by decide +kernel
  obtain ⟨records, hr⟩ := exists_eq_ok_of_isOk hok
  have hp : ∀ x ∈ p.questions (.text "a"), x.shapes = ["base"] := by
    have hq : p.questions (.text "a") = [.value "#base.width / 4" (some (.text "a"))] := by rfl
    have hs : Question.shapes (.value "#base.width / 4" (some (.text "a"))) = ["base"] := by
      decide +kernel
    simp [hq, hs]
  have hq : ∀ x ∈ q.questions (.text "b"), x.shapes = ["base"] := by
    have hq : q.questions (.text "b") = [.point "#base.center"] := by rfl
    have hs : Question.shapes (.point "#base.center") = ["base"] := by decide +kernel
    simp [hq, hs]
  obtain ⟨hother, hanchors, -⟩ := @runPass_exchange before after p q "a" "b" rfl rfl (by decide)
    (fun x hx n hn he => by
      rw [hp x hx] at hn
      obtain rfl := List.mem_singleton.1 hn
      exact absurd (ShapeId.text.inj (he : ShapeId.text "base" = .text "b")) (by decide))
    (fun x hx n hn he => by
      rw [hq x hx] at hn
      obtain rfl := List.mem_singleton.1 hn
      exact absurd (ShapeId.text.inj (he : ShapeId.text "base" = .text "a")) (by decide))
    none ⟨{}, {}⟩ records hr
  exact ⟨hok, hother, hanchors⟩

end AnchorLayout
