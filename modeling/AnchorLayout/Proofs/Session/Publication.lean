import AnchorLayout.Proofs.Pass.History
import AnchorLayout.Proofs.Session.Commands

/-!
# The last publication wins

Whatever a session has done, its registry holds for each name the anchors that
were published last and for each shape the record that was made last
(`lastPublication_wins`). Each command adds to the history of the registry what
comes of it (`Session.Adds`):

* to register or to publish anchors adds these if the command does not fail, and
  nothing if it does;
* to record a shape adds its record;
* to forget all, and to replace the registry, adds that all is forgotten;
* a shape that is realized adds what its realizer publishes;
* a pass adds that all is forgotten, and then what its shapes add;
* other commands add nothing, whether they fail or not.

What a builder publishes counts for the registry of the session as long as that
is the registry for which the builder was made (`Session.publication`).
-/

namespace AnchorLayout

open AnchorLayout.Action

theorem ShapeSpec.IsNamed.marked {d : ShapeSpec} (hd : d.IsNamed) (mark : ℕ) :
    (d.marked mark).IsNamed := by
  rcases hd with ⟨name, hn⟩ | ⟨mark₀, hn⟩
  · exact .inl ⟨name, by rw [ShapeSpec.marked, hn]; rfl⟩
  · exact .inr ⟨mark, by rw [ShapeSpec.marked, hn]; rfl⟩

namespace Session

/-- A command that records shapes under texts only, declared or made up. -/
def Command.IsNamed : Command → Prop
  | .registerShape id _ => ∃ name, id = .text name
  | .pass shapes _ _ => ∀ d ∈ shapes, d.IsNamed
  | .scene data => ∀ scene, Scene.ofValue data = .ok scene → ∀ d ∈ scene.shapes, d.IsNamed
  | _ => True

/-! ## What commands add -/

/-- What is published for the registry of a session by a builder: nothing if the
    registry has been replaced since the builder was made. -/
def publication (name : String) (members : Members) (s : Session) : Registry.History :=
  match s.builders.get? name with
  | some (b, age) => if age < s.replaced.length then [] else [.published b.id members]
  | none => []

/-- A command that is there to publish anchors. -/
def Command.IsPublication : Command → Prop
  | .register _ _ | .publishPartial _ _ | .publish _ _ => True
  | _ => False

/-- What a command adds to the history of the registry of a session. -/
inductive Adds : Command → Journaled Session → Registry.History → Prop where
  | registered {id : ShapeId} {members : Members} {s : Journaled Session} :
      (perform (.register id members) s).1.isOk = true →
        Adds (.register id members) s [.published (id.marked s.state.marks) members]
  | publishedPartial {name : String} {members : Members} {s : Journaled Session} :
      (perform (.publishPartial name members) s).1.isOk = true →
        Adds (.publishPartial name members) s (s.state.publication name members)
  | published {name : String} {members : Members} {s : Journaled Session} :
      (perform (.publish name members) s).1.isOk = true →
        Adds (.publish name members) s (s.state.publication name members)
  /-- What is published in part is not published. -/
  | refused {c : Command} {s : Journaled Session} :
      c.IsPublication → (perform c s).1.isOk = false → Adds c s []
  | recorded {name : String} {record : ShapeRecord} {s : Journaled Session} :
      Adds (.registerShape (.text name) record) s [.recorded name record]
  | cleared {s : Journaled Session} : Adds .reset s [.cleared]
  | renewed {config : Option AxisConfig} {s : Journaled Session} :
      Adds (.newRegistry config) s [.cleared]
  | realized {kind : String} {id : ShapeId} {props : Members} {run : Realizer}
      {s : Journaled Session} {h : Registry.History} :
      Shape.kinds.get? kind = some run →
      Makes Registry.Step (run { id := id.marked s.state.marks } props)
        ⟨s.state.registry, s.journal⟩ h → Adds (.realize kind id props) s h
  /-- There is nothing to realize a shape by that is of no kind. -/
  | unknown {kind : String} {id : ShapeId} {props : Members} {s : Journaled Session} :
      Shape.kinds.get? kind = none → Adds (.realize kind id props) s []
  | pass {shapes received : List ShapeSpec} {viewBox : Option ViewBox}
      {table : Option RealizerTable} {s : Journaled Session} {h : Registry.History} :
      (receiveShapes shapes s).1 = .ok received →
      Pass.Adds (table.getD Shape.kinds) {} received ⟨s.state.registry.opened viewBox, {}⟩ h →
        Adds (.pass shapes viewBox table) s (.cleared :: h)
  | scene {data : Value} {scene : Scene} {received : List ShapeSpec} {s : Journaled Session}
      {h : Registry.History} :
      Scene.ofValue data = .ok scene → (receiveShapes scene.shapes s).1 = .ok received →
      Pass.Adds Shape.kinds {} received ⟨s.state.registry.opened scene.viewBox, {}⟩ h →
        Adds (.scene data) s (.cleared :: h)
  /-- No pass is begun over data that are no scene. -/
  | unread {data : Value} {e : Failure} {s : Journaled Session} :
      Scene.ofValue data = .error e → Adds (.scene data) s []
  | kept {c : Command} {s : Journaled Session} : c.Keeps → Adds c s []

/-- Shapes stay named as their ids come in. -/
theorem receiveShapes_isNamed {shapes : List ShapeSpec} (hnamed : ∀ d ∈ shapes, d.IsNamed)
    (s : Journaled Session) :
    ∃ received, (receiveShapes shapes s).1 = .ok received ∧ ∀ d ∈ received, d.IsNamed := by
  obtain ⟨received, marks, hs, hmarked⟩ := receiveShapes_apply shapes s
  refine ⟨received, by rw [hs], fun d' hd' => ?_⟩
  obtain ⟨d, hd, mark, rfl⟩ := hmarked d' hd'
  exact (hnamed d hd).marked mark

/-- Every command adds something to the history, if only nothing. -/
theorem exists_adds {c : Command} (hn : c.IsNamed) (ht : c.ThroughBuilder)
    (s : Journaled Session) : ∃ h, Adds c s h := by
  cases c with
  | register id members =>
    cases hs : (perform (.register id members) s).1.isOk
    · exact ⟨_, .refused trivial hs⟩
    · exact ⟨_, .registered hs⟩
  | publishPartial name members =>
    cases hs : (perform (.publishPartial name members) s).1.isOk
    · exact ⟨_, .refused trivial hs⟩
    · exact ⟨_, .publishedPartial hs⟩
  | publish name members =>
    cases hs : (perform (.publish name members) s).1.isOk
    · exact ⟨_, .refused trivial hs⟩
    · exact ⟨_, .published hs⟩
  | registerShape id record =>
    obtain ⟨name, rfl⟩ := hn
    exact ⟨_, .recorded⟩
  | reset => exact ⟨_, .cleared⟩
  | newRegistry config => exact ⟨_, .renewed⟩
  | realize kind id props =>
    cases hk : Shape.kinds.get? kind with
    | none => exact ⟨_, .unknown hk⟩
    | some run =>
      obtain ⟨h, hm⟩ := throughBuilder_kinds.made hk (id.marked s.state.marks) props
        ⟨s.state.registry, s.journal⟩
      exact ⟨h, .realized hk hm⟩
  | pass shapes viewBox table =>
    obtain ⟨received, hs, hnamed⟩ := receiveShapes_isNamed hn s
    obtain ⟨h, hh⟩ := Pass.exists_adds (throughBuilder_getD ht) hnamed {}
      ⟨s.state.registry.opened viewBox, {}⟩
    exact ⟨_, .pass hs hh⟩
  | scene data =>
    cases hscene : Scene.ofValue data with
    | error e => exact ⟨_, .unread hscene⟩
    | ok scene =>
      obtain ⟨received, hs, hnamed⟩ := receiveShapes_isNamed (hn scene hscene) s
      obtain ⟨h, hh⟩ := Pass.exists_adds throughBuilder_kinds hnamed {}
        ⟨s.state.registry.opened scene.viewBox, {}⟩
      exact ⟨_, .scene hscene hs hh⟩
  | _ => exact ⟨_, .kept trivial⟩

/-! ## What the registry holds -/

theorem isOk_map {ε α β : Type} (a : Except ε α) (f : α → β) : (a.map f).isOk = a.isOk := by
  cases a <;> rfl

/-- An answer comes from the registry, after ids have come in. -/
theorem answer_apply {α β : Type} {a : Action Session β} {x : β} {marks : ℕ}
    {s : Journaled Session} (ha : a s = (.ok x, ⟨{ s.state with marks }, s.journal⟩))
    (f : β → Action Registry α) (g : α → Answer) :
    let t := f x ⟨s.state.registry, s.journal⟩
    let u := (do return g (← onRegistry (f (← a))) : Action Session Answer) s
    u.1 = t.1.map g ∧ u.2.state.registry = t.2.state := by
  intro t u
  simp only [u, t]
  rw [bind_apply, ha]
  dsimp only
  rw [bind_apply, onRegistry, zoom_apply]
  generalize f x ⟨s.state.registry, s.journal⟩ = t
  obtain ⟨e | y, r⟩ := t <;> exact ⟨rfl, rfl⟩

/-- That a builder is changed is not seen by the registry. -/
theorem changeBuilder_apply (name : String) (f : Builder → Action Registry Builder)
    (s : Journaled Session) :
    let t := onBuilder name f s
    let u := (do changeBuilder name f; return .nothing : Action Session Answer) s
    u.1 = t.1.map (fun _ => .nothing) ∧ u.2.state.registry = t.2.state.registry := by
  intro t u
  simp only [u, t, changeBuilder, bind_assoc]
  rw [bind_apply]
  generalize onBuilder name f s = t
  obtain ⟨e | b, s₁⟩ := t
  · exact ⟨rfl, rfl⟩
  · refine ⟨rfl, ?_⟩
    dsimp only
    rw [bind_apply, change_apply]
    dsimp only
    split <;> rfl

/-- The registry holds the same anchors and shapes as before. -/
def KeepsShapes (s s' : Session) : Prop := Registry.KeepsShapes s.registry s'.registry

instance : IsPreorder Session KeepsShapes where
  refl s := refl s.registry
  trans _ _ _ h h' := IsTrans.trans (r := Registry.KeepsShapes) _ _ _ h h'

theorem attending_frames :
    Attending (fun ⦃_⦄ a => Frames Registry.KeepsShapes a) (fun ⦃_⦄ a => Frames KeepsShapes a) where
  pure := frames_pure
  throw := frames_throw
  bind := Frames.bind
  read s := refl s.state
  change f hf s := by
    rw [change_apply, KeepsShapes, (hf s.state).1]
    exact refl s.state.registry
  onRegistry ha s := ha ⟨s.state.registry, s.journal⟩
  onAged age ha s := by
    rw [zoom_apply, KeepsShapes, setRegistryOf]
    split_ifs with hage
    · exact refl s.state.registry
    · rw [registryOf, if_neg hage]
      exact ha ⟨s.state.registry, s.journal⟩

/-- What a builder is asked to publish is published, or the call fails and the
    registry of the session holds what it held. -/
theorem onBuilder_tells {c : Builder.Call} {members : Members} (hc : c.members? = some members)
    (name : String) {s : Journaled Session} {h : Registry.History}
    (ht : h.Tells s.state.registry) :
    let u := onBuilder name (fun b => c.run b) s
    (u.1.isOk = true →
      Registry.History.Tells (h ++ s.state.publication name members) u.2.state.registry) ∧
    (u.1.isOk = false → h.Tells u.2.state.registry) := by
  intro u
  cases hb : s.state.builders.get? name with
  | none =>
    have hu : u = (.error (.missingKey name), s) := by
      simp only [u]
      rw [onBuilder, read_bind_apply, hb]
      rfl
    rw [hu]
    exact ⟨nofun, fun _ => ht⟩
  | some p =>
    obtain ⟨b, age⟩ := p
    have hset (r : Registry) : (s.state.setRegistryOf age r).registry =
        if age < s.state.replaced.length then s.state.registry else r := by
      rw [setRegistryOf]
      split_ifs <;> rfl
    simp only [u]
    rw [onBuilder, read_bind_apply, hb]
    dsimp only
    rw [zoom_apply]
    obtain ⟨e, hrun⟩ | ⟨as, j, has, -, hrun⟩ :=
      Builder.Call.run_of_members?_eq_some (b := b) hc ⟨s.state.registryOf age, s.journal⟩
    · rw [hrun]
      refine ⟨nofun, fun _ => ?_⟩
      dsimp only
      rw [hset, registryOf]
      split_ifs <;> exact ht
    · rw [hrun]
      refine ⟨fun _ => ?_, nofun⟩
      dsimp only
      rw [hset, publication, hb]
      dsimp only
      split_ifs with hage
      · rwa [List.append_nil]
      · rw [registryOf, if_neg hage]
        exact ht.published has

/-- So it is with the commands to publish. -/
theorem changeBuilder_tells {c : Builder.Call} {members : Members} (hc : c.members? = some members)
    (name : String) {s : Journaled Session} {h : Registry.History}
    (ht : h.Tells s.state.registry) :
    let u := (do
      changeBuilder name (fun b => c.run b)
      return .nothing : Action Session Answer) s
    (u.1.isOk = true →
      Registry.History.Tells (h ++ s.state.publication name members) u.2.state.registry) ∧
    (u.1.isOk = false → h.Tells u.2.state.registry) := by
  intro u
  obtain ⟨hanswer, hregistry⟩ := changeBuilder_apply name (fun b => c.run b) s
  rw [hanswer, hregistry, isOk_map]
  exact onBuilder_tells hc name ht

/-- What is registered is published, or the command fails. -/
theorem register_tells (id : ShapeId) (members : Members) {s : Journaled Session}
    {h : Registry.History} (ht : h.Tells s.state.registry) :
    let u := perform (.register id members) s
    (u.1.isOk = true → Registry.History.Tells
      (h ++ [.published (id.marked s.state.marks) members]) u.2.state.registry) ∧
    (u.1.isOk = false → h.Tells u.2.state.registry) := by
  intro u
  obtain ⟨marks, hid⟩ := receive_apply id s
  obtain ⟨hanswer, hregistry⟩ := answer_apply hid (Registry.register · members) fun _ => .nothing
  change u.1 = _ at hanswer
  change u.2.state.registry = _ at hregistry
  rw [hanswer, hregistry, isOk_map]
  obtain ⟨e, he⟩ | ⟨as, has, -, hdoes⟩ :=
    Registry.register_cases (id.marked s.state.marks) members
  · rw [he]
    exact ⟨nofun, fun _ => ht⟩
  · obtain ⟨j, hj⟩ := hdoes ⟨s.state.registry, s.journal⟩
    rw [hj]
    exact ⟨fun _ => ht.published (Registry.publishes_of_ofMembers has), nofun⟩

/-- A shape that is realized by itself leaves the registry as its realizer
    does. -/
theorem realizeShape_state {kind : String} {run : Realizer} (hk : Shape.kinds.get? kind = some run)
    (id : ShapeId) (props : Members) (s : Journaled Registry) :
    (realizeShape kind id props s).2.state = (run { id } props s).2.state := by
  rw [realizeShape, hk]
  dsimp only
  rw [bind_apply]
  generalize run { id } props s = t
  obtain ⟨e | y, s₁⟩ := t <;> rfl

/-- So does a command to realize one. -/
theorem registry_realize (kind : String) (id : ShapeId) (props : Members) (s : Journaled Session) :
    (perform (.realize kind id props) s).2.state.registry =
      (realizeShape kind (id.marked s.state.marks) props
        ⟨s.state.registry, s.journal⟩).2.state := by
  obtain ⟨marks, hid⟩ := receive_apply id s
  exact (answer_apply hid (realizeShape kind · props) .members).2

/-- A pass leaves the registry of a session as its course does. -/
theorem registry_pass {table : RealizerTable} {viewBox : Option ViewBox}
    {f : List ShapeSpec → Action Registry (List ShapeRecord)}
    (hf : ∀ shapes s, (f shapes s).2.state =
      (Pass.course table shapes (s.state.opened viewBox)).2)
    {shapes received : List ShapeSpec} {s : Journaled Session}
    (hs : (receiveShapes shapes s).1 = .ok received) :
    ((do return .records (← onRegistry (f (← receiveShapes shapes))) :
      Action Session Answer) s).2.state.registry =
        (Pass.course table received (s.state.registry.opened viewBox)).2 := by
  obtain ⟨received', marks, hreceived, -⟩ := receiveShapes_apply shapes s
  obtain rfl := Except.ok.inj ((congrArg (·.1) hreceived).symm.trans hs)
  rw [(answer_apply hreceived f .records).2]
  exact hf received' ⟨s.state.registry, s.journal⟩

/-- A command keeps to what the history tells. -/
theorem Adds.tells {c : Command} {s : Journaled Session} {h h₀ : Registry.History}
    (hc : Adds c s h) (hthrough : c.ThroughBuilder) (ht : h₀.Tells s.state.registry) :
    Registry.History.Tells (h₀ ++ h) (perform c s).2.state.registry := by
  cases hc with
  | @registered id members s hok => exact (register_tells id members ht).1 hok
  | @publishedPartial name members s hok =>
    exact (changeBuilder_tells (c := .publishPartial members) rfl name ht).1 hok
  | @published name members s hok =>
    exact (changeBuilder_tells (c := .publish members) rfl name ht).1 hok
  | @refused c s hpub hno =>
    rw [List.append_nil]
    cases c with
    | register id members => exact (register_tells id members ht).2 hno
    | publishPartial name members =>
      exact (changeBuilder_tells (c := .publishPartial members) rfl name ht).2 hno
    | publish name members =>
      exact (changeBuilder_tells (c := .publish members) rfl name ht).2 hno
    | _ => cases hpub
  | @recorded name record s => exact ht.recorded name record
  | cleared | renewed => exact .of_empty (Registry.History.recent_cleared h₀) rfl rfl
  | @realized kind id props run s h hk hm =>
    rw [registry_realize, realizeShape_state hk]
    exact Registry.tells_of_makes hm ht
  | @unknown kind id props s hk =>
    rw [List.append_nil, registry_realize, realizeShape, hk]
    exact ht
  | @pass shapes received viewBox table s h hs hh =>
    have hregistry := registry_pass (f := (runPassWith · viewBox table))
      (fun shapes s => (runPassWith_eq_course hthrough shapes viewBox s).2) hs
    exact hregistry ▸ hh.tells_course h₀
  | @scene data scene received s h hscene hs hh =>
    have hregistry := registry_pass (f := (runPass · scene.viewBox))
      (fun shapes s => (runPass_eq_course shapes scene.viewBox s).2) hs
    rw [perform, hscene]
    exact hregistry ▸ hh.tells_course h₀
  | @unread data e s hscene =>
    rw [List.append_nil, perform, hscene]
    exact ht
  | @kept c s hc =>
    rw [List.append_nil]
    have hkept := attending_frames.perform Registry.keeping_frames hc s
    exact ht.of_same hkept.1 hkept.2

/-! ## Histories -/

/-- The session after commands have been carried out, some of which may have
    failed. -/
def after : List Command → Journaled Session → Journaled Session
  | [], s => s
  | c :: rest, s => after rest (perform c s).2

/-- The changes that commands make, one after the other, in the registry of a
    session. -/
inductive HasHistory : List Command → Journaled Session → Registry.History → Prop where
  | nil (s : Journaled Session) : HasHistory [] s []
  | cons {c : Command} {rest : List Command} {s : Journaled Session} {h h' : Registry.History} :
      Adds c s h → HasHistory rest (perform c s).2 h' → HasHistory (c :: rest) s (h ++ h')

theorem exists_hasHistory {cs : List Command} (hnamed : ∀ c ∈ cs, c.IsNamed)
    (hthrough : ∀ c ∈ cs, c.ThroughBuilder) (s : Journaled Session) : ∃ h, HasHistory cs s h := by
  induction cs generalizing s with
  | nil => exact ⟨[], .nil s⟩
  | cons c rest ih =>
    obtain ⟨hn, hnamed⟩ := List.forall_mem_cons.1 hnamed
    obtain ⟨ht, hthrough⟩ := List.forall_mem_cons.1 hthrough
    obtain ⟨h, hc⟩ := exists_adds hn ht s
    obtain ⟨h', hh'⟩ := ih hnamed hthrough (perform c s).2
    exact ⟨h ++ h', .cons hc hh'⟩

/-- What the history tells stays right, command by command. -/
theorem HasHistory.tells {cs : List Command} {s : Journaled Session} {h h₀ : Registry.History}
    (hh : HasHistory cs s h) (hthrough : ∀ c ∈ cs, c.ThroughBuilder)
    (ht : h₀.Tells s.state.registry) :
    Registry.History.Tells (h₀ ++ h) (after cs s).state.registry := by
  induction hh generalizing h₀ with
  | nil s =>
    rw [List.append_nil]
    exact ht
  | cons hc _ ih =>
    obtain ⟨hthrough, hrest⟩ := List.forall_mem_cons.1 hthrough
    rw [← List.append_assoc]
    exact ih hrest (hc.tells hthrough ht)

/-! ## Questions -/

theorem perform_anchorsFor (name : String) (s : Journaled Session) :
    (perform (.anchorsFor (.text name)) s).1 =
      match s.state.registry.anchors.get? (.text name) with
      | some as => .ok (.anchors as)
      | none => .error (.noAnchors (.text name)) := by
  have hask : Registry.anchorsFor (.text name) ⟨s.state.registry, s.journal⟩ =
      (s.state.registry.anchorsOf (.text name), ⟨s.state.registry, s.journal⟩) := by
    rw [Registry.anchorsFor, read_bind_apply, ofExcept_apply]
  have hkept : s.state.registry.anchorsOf (.text name) =
      match s.state.registry.anchors.get? (.text name) with
      | some as => .ok as
      | none => .error (.noAnchors (.text name)) := rfl
  change ((onRegistry (Registry.anchorsFor (.text name)) >>= fun as =>
    pure (.anchors as) : Action Session Answer) s).1 = _
  rw [bind_apply, onRegistry, zoom_apply, hask, hkept]
  cases s.state.registry.anchors.get? (.text name) <;> rfl

theorem perform_records (s : Journaled Session) :
    (perform .records s).1 = .ok (.records s.state.registry.records) := rfl

/-- The last publication wins. A session begins with a registry that holds
    nothing and carries out commands, which may fail and which record shapes
    under texts. It has a history, which has in it all that has been published
    without a failure; and as any of its histories has it, the anchors of a
    name are in the end those that were published for it last, as a whole, and
    to ask for them is a failure if none have been published since all was
    forgotten. Of the shapes the records that were made last are listed, in the
    order of the first records since then. -/
theorem lastPublication_wins {cs : List Command} (hnamed : ∀ c ∈ cs, c.IsNamed)
    (hthrough : ∀ c ∈ cs, c.ThroughBuilder) {s : Session} (hanchors : s.registry.anchors = [])
    (hshapes : s.registry.shapes = []) (j : Journal) :
    (∃ h, HasHistory cs ⟨s, j⟩ h) ∧ ∀ h, HasHistory cs ⟨s, j⟩ h →
      (∀ name,
        (∀ members, h.lastPublished name = some members →
          ∃ as, (perform (.anchorsFor (.text name)) (after cs ⟨s, j⟩)).1 = .ok (.anchors as) ∧
            Registry.Publishes (.text name) members as) ∧
        (h.lastPublished name = none →
          (perform (.anchorsFor (.text name)) (after cs ⟨s, j⟩)).1 =
            .error (.noAnchors (.text name)))) ∧
      (perform .records (after cs ⟨s, j⟩)).1 =
        .ok (.records (h.names.filterMap h.lastRecorded)) := by
  refine ⟨exists_hasHistory hnamed hthrough ⟨s, j⟩, fun h hh => ?_⟩
  have hbegin : Registry.History.Tells [] (⟨s, j⟩ : Journaled Session).state.registry :=
    .of_empty rfl hanchors hshapes
  have ht : h.Tells (after cs ⟨s, j⟩).state.registry := hh.tells hthrough hbegin
  refine ⟨fun name => ?_, by rw [perform_records, ht.records]⟩
  have hname := ht.anchors name
  rw [perform_anchorsFor]
  generalize h.lastPublished name = published at hname ⊢
  generalize (after cs ⟨s, j⟩).state.registry.anchors.get? (.text name) = held at hname ⊢
  cases hname with
  | some has => exact ⟨fun members hm => ⟨_, rfl, Option.some.inj hm ▸ has⟩, nofun⟩
  | none => exact ⟨nofun, fun _ => rfl⟩

/-- A pass over a dot forgets the anchors that have been registered before. A
    builder that is older than the pass then publishes some anchors, and all,
    and is refused others; and a shape is recorded twice. -/
theorem lastPublication_wins_refused :
    let shape (kind name : String) : ShapeRecord := ⟨kind, .text name, false, []⟩
    let cs : List Command :=
      [.register (.text "a") [("x", .int 1)], .newBuilder "b" (.text "a"),
        .pass [⟨"point", .text "p", []⟩] none none,
        .publishPartial "b" [("y", .int 2)],
        .publish "b" [("y", .int 2), ("z", .tuple [.int 3, .int 4])],
        .publish "b" [("v", .int 5), ("w", .text "?")],
        .registerShape (.text "c") (shape "point" "c"),
        .registerShape (.text "a") (shape "point" "a"),
        .registerShape (.text "c") (shape "line" "c")]
    let s := after cs ⟨{}, {}⟩
    (∃ as, (perform (.anchorsFor (.text "a")) s).1 = .ok (.anchors as) ∧
      Registry.Publishes (.text "a") [("y", .int 2), ("z", .tuple [.int 3, .int 4])] as) ∧
    (∃ as, (perform (.anchorsFor (.text "p")) s).1 = .ok (.anchors as) ∧
      Registry.Publishes (.text "p") (Shape.dotAnchors 0 0) as) ∧
    (perform (.anchorsFor (.text "c")) s).1 = .error (.noAnchors (.text "c")) ∧
    (perform .records s).1 = .ok (.records
      [⟨"point", .text "p", false, [("cx", .float 0), ("cy", .float 0)]⟩, shape "line" "c",
        shape "point" "a"]) := by
  intro shape cs s
  have hcs : ∀ c ∈ cs, c.IsNamed ∧ c.ThroughBuilder := by
    intro c hc
    simp only [cs, List.mem_cons, List.not_mem_nil, or_false] at hc
    rcases hc with rfl | rfl | rfl | rfl | rfl | rfl | rfl | rfl | rfl
    case inr.inr.inl => exact ⟨fun d hd => .inl ⟨"p", by rw [List.mem_singleton.1 hd]⟩, nofun⟩
    all_goals exact ⟨by first | trivial | exact ⟨_, rfl⟩, trivial⟩
  -- The dot asks for its coordinates, publishes its anchors and is checked.
  have hdot : Makes Registry.Step (Shape.dot { id := .text "p" } []) ⟨{}, {}⟩
      (List.flatten [[], [], [.published (.text "p") (Shape.dotAnchors 0 0)], []]) := by
    have hreading := Registry.keeping_frames.reading (.text "p")
    have hasks (name : String) : Frames Registry.KeepsShapes
        (({ id := .text "p" } : Builder).optional [] [name] (some name)) :=
      Asking.optional (b := { id := .text "p" }) hreading.gathering.toAsking _ _ _
    exact .bind (.step (.kept (hasks "x"))) rfl <| .bind (.step (.kept (hasks "y"))) rfl <|
      .bind (.step (.published (c := .publish (Shape.dotAnchors 0 0)) rfl rfl)) rfl <|
      .bind (.step (.kept (hreading.checkBounds _))) rfl (.pure _ _)
  have hpass : Pass.Adds Shape.kinds {} [⟨"point", .text "p", []⟩] ⟨{}, {}⟩
      [.published (.text "p") (Shape.dotAnchors 0 0),
        .recorded "p" ⟨"point", .text "p", false, [("cx", .float 0), ("cy", .float 0)]⟩] :=
    .realized (h := [.published (.text "p") (Shape.dotAnchors 0 0)]) rfl rfl rfl hdot rfl
      (.nil _ _)
  have hh : HasHistory cs ⟨{}, {}⟩ (List.flatten
      [[.published (.text "a") [("x", .int 1)]], [],
        [.cleared, .published (.text "p") (Shape.dotAnchors 0 0),
          .recorded "p" ⟨"point", .text "p", false, [("cx", .float 0), ("cy", .float 0)]⟩],
        [.published (.text "a") [("y", .int 2)]],
        [.published (.text "a") [("y", .int 2), ("z", .tuple [.int 3, .int 4])]], [],
        [.recorded "c" (shape "point" "c")], [.recorded "a" (shape "point" "a")],
        [.recorded "c" (shape "line" "c")]]) :=
    .cons (.registered (by decide +kernel)) <| .cons (.kept trivial) <| .cons (.pass rfl hpass) <|
      .cons (.publishedPartial (by decide +kernel)) <| .cons (.published (by decide +kernel)) <|
      .cons (.refused trivial (by decide +kernel)) <| .cons .recorded <| .cons .recorded <|
      .cons .recorded <| .nil _
  obtain ⟨hname, hrecords⟩ := (lastPublication_wins (fun c hc => (hcs c hc).1)
    (fun c hc => (hcs c hc).2) rfl rfl {}).2 _ hh
  exact ⟨(hname "a").1 _ rfl, (hname "p").1 _ rfl, (hname "c").2 rfl, hrecords⟩

end Session

end AnchorLayout
