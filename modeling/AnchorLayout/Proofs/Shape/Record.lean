import AnchorLayout.Proofs.Shape.Realization

/-!
# What a shape is drawn with

The anchors of a shape tell the attributes that it is drawn with
(`Shape.attributes`). To these are added the properties that do not place it.
They are handed on as they are, also where they go by the name of an attribute,
unless this is the name of a property that places the shape (`Shape.exposed`).
-/

namespace AnchorLayout

open AnchorLayout.Action

/-! ## Tables -/

namespace Table

variable {κ α : Type} [BEq κ] [LawfulBEq κ] {k : κ}

/-- Entries that are written over a table hide those of the table. -/
theorem get?_merge (t : Table κ α) {new : Table κ α} (hkeys : new.keys.Nodup) :
    (t.merge new).get? k = (new.get? k).or (t.get? k) := by
  induction new generalizing t with
  | nil => rfl
  | cons e new ih =>
    obtain ⟨he, hnew⟩ := List.nodup_cons.1 hkeys
    change ((t.insert e.1 e.2).merge new).get? k = _
    rw [ih _ hnew, get?]
    by_cases hk : e.1 = k
    · have hnone : Table.get? new k = none := by
        cases h : Table.get? new k with
        | none => rfl
        | some a => exact absurd (List.mem_map_of_mem (mem_of_get? h)) (hk ▸ he)
      rw [hnone, if_pos (beq_iff_eq.2 hk), hk, get?_insert_self]
      rfl
    · rw [if_neg (mt beq_iff_eq.1 hk), get?_insert_of_ne _ _ hk]

theorem get?_filter (t : Table κ α) (p : κ → Bool) :
    get? (t.filter fun e => p e.1) k = if p k then t.get? k else none := by
  induction t with
  | nil => simp
  | cons e t ih =>
    by_cases hk : e.1 = k
    · subst hk
      by_cases hp : p e.1 = true <;> simp_all [get?]
    · by_cases hp : p e.1 = true <;> simp_all [get?]

end Table

/-! ## Attributes -/

namespace Anchors

/-- An anchor that is a number. -/
def number? (as : Anchors) (name : String) : Option Float :=
  match Table.get? as name with
  | some (.number x) => some x
  | _ => none

/-- An anchor that is a point. -/
def point? (as : Anchors) (name : String) : Option Point :=
  match Table.get? as name with
  | some (.point p) => some p
  | _ => none

end Anchors

namespace Shape

/-- The rotation that a rectangle is drawn with: about its centre, and none by
    a zero angle. -/
def transform? (as : Anchors) : Option Value := do
  let rotation ← as.number? "rotation"
  let center ← as.point? "center"
  if isTurned rotation then
    some (.text ("rotate(" ++ Decimal.plain rotation ++ ", " ++ Decimal.plain center.x ++ ", " ++
      Decimal.plain center.y ++ ")"))
  else none

/-- The attributes of a shape of a kind that are numbers, each with the anchor
    that it is. -/
def lengths : String → List (String × String)
  | "rect" => [("x", "left"), ("y", "top"), ("width", "width"), ("height", "height")]
  | "circle" => [("cx", "centerX"), ("cy", "centerY"), ("r", "r")]
  | "point" => [("cx", "x"), ("cy", "y")]
  | "line" => [("x1", "startX"), ("y1", "startY"), ("x2", "endX"), ("y2", "endY")]
  | _ => []

/-- The attributes of a shape of a kind, as its anchors tell them. -/
def attributes (kind : String) (as : Anchors) : Members :=
  (lengths kind).filterMap (fun l => (as.number? l.2).map fun x => (l.1, .float x)) ++
    if kind = "rect" then (transform? as).toList.map fun v => ("transform", v) else []

/-- The names that the attributes of a shape of a kind can have. -/
def attributeNames : String → List String
  | "rect" => ["x", "y", "width", "height", "transform"]
  | kind => (lengths kind).map Prod.fst

/-- Those of them that are not the name of a property that places a shape of
    the kind. -/
def exposed : String → List String
  | "rect" => ["transform"]
  | "circle" => ["cx", "cy"]
  | "point" => ["cx", "cy"]
  | _ => []

/-- What is drawn agrees with the anchors of the shape. -/
def Faithful (kind : String) (as : Anchors) (drawn : Members) : Prop :=
  ∀ name ∈ attributeNames kind, drawn.get? name = (attributes kind as).get? name

variable {kind : String} {run : Realizer} {id : ShapeId} {props : Members}
  {s s' : Journaled Registry}

/-- A property that is not part of the geometry is drawn as it is given. -/
theorem get?_withOthers (drawn : Members) (hprops : Table.keys props |>.Nodup)
    (geometry : List String) (name : String) :
    (withOthers drawn props geometry).get? name =
      if name ∈ geometry then drawn.get? name
      else (props.get? name).or (drawn.get? name) := by
  rw [withOthers, Table.get?_merge _ (hprops.sublist (List.filter_sublist.map _)),
    Table.get?_filter props fun n => !geometry.contains n]
  by_cases h : name ∈ geometry <;> simp [h]

/-- The attributes of a shape are those that its anchors tell. -/
theorem drawn_eq {i : Inputs} {as : Anchors} (h : Anchors.ofMembers id i.anchors = .ok as) :
    i.drawn = attributes i.kind as := by
  cases i with
  | rect left right width top bottom height rotation =>
    cases h
    -- Both have a transformation unless the angle is zero.
    cases ht : isTurned (orZero rotation) <;>
      simp [Inputs.drawn, Inputs.kind, rectDrawn, attributes, lengths, transform?, Anchors.number?,
        Anchors.point?, Table.get?, ht]
  | circle | dot | line =>
    cases h
    rfl

theorem kind_cases {kind : String} (hk : kinds.get? kind = some run) :
    kind = "rect" ∨ kind = "circle" ∨ kind = "point" ∨ kind = "line" := by
  simp only [kinds, Table.get?, beq_iff_eq] at hk
  grind

theorem exposed_eq {kind : String} (hk : kinds.get? kind = some run) :
    exposed kind = (attributeNames kind).filter fun name => name ∉ geometry kind := by
  obtain rfl | rfl | rfl | rfl := kind_cases hk <;> decide

/-- Exposed is what a shape is drawn with and its geometry does not name. -/
theorem mem_exposed {kind : String} (hk : kinds.get? kind = some run) (name : String) :
    name ∈ exposed kind ↔ name ∈ attributeNames kind ∧ name ∉ geometry kind := by
  rw [exposed_eq hk, List.mem_filter, decide_eq_true_eq]

theorem mem_attributeNames {as : Anchors} {name : String} {v : Value}
    (h : (name, v) ∈ attributes kind as) : name ∈ attributeNames kind := by
  rw [attributes, List.mem_append] at h
  have hlengths : ∀ l ∈ lengths kind, l.1 ∈ attributeNames kind := by
    unfold attributeNames
    split
    · decide
    · exact fun l => List.mem_map_of_mem
  obtain h | h := h
  · obtain ⟨l, hl, h⟩ := List.mem_filterMap.1 h
    obtain ⟨_, -, h⟩ := Option.map_eq_some_iff.1 h
    cases h
    exact hlengths l hl
  · split_ifs at h with hrect
    · obtain ⟨_, -, h⟩ := List.mem_map.1 h
      cases h
      subst hrect
      decide
    · cases h

theorem get?_attributes_of_notMem {as : Anchors} {name : String} (h : name ∉ attributeNames kind) :
    (attributes kind as).get? name = none := by
  cases hv : (attributes kind as).get? name with
  | none => rfl
  | some v => exact absurd (mem_attributeNames (Table.mem_of_get? hv)) h

/-- A shape that is realized is drawn with the attributes that its final
    anchors tell, and with all other properties as they are; of the properties
    that place it none is handed on. But a property that has the name of an
    attribute and does not place the shape takes the place of this attribute:
    the transformation of a rectangle, and the centre of a circle and of a dot.
    What is drawn agrees with the anchors exactly if there is no such property,
    or each is no other than the attribute. -/
theorem record_faithful_iff (hk : kinds.get? kind = some run) (hprops : Table.keys props |>.Nodup)
    {out : Builder × Members} (h : run { id } props s = (.ok out, s')) :
    ∃ as, s'.state.anchorsOf id = .ok as ∧
      (∀ name, out.2.get? name =
        if name ∈ geometry kind then (attributes kind as).get? name
        else (props.get? name).or ((attributes kind as).get? name)) ∧
      (∀ name ∈ geometry kind, name ∉ attributeNames kind → out.2.get? name = none) ∧
      (Faithful kind as out.2 ↔ ∀ name ∈ exposed kind,
        props.get? name = none ∨ props.get? name = (attributes kind as).get? name) := by
  obtain ⟨i, hi⟩ := exists_realized hk h
  obtain ⟨as, has, has'⟩ := hi.anchors
  have hdrawn : ∀ name, out.2.get? name =
      if name ∈ geometry kind then (attributes kind as).get? name
      else (props.get? name).or ((attributes kind as).get? name) := by
    intro name
    rw [hi.out, get?_withOthers _ hprops, drawn_eq has, hi.ofKind]
  refine ⟨as, has', hdrawn, fun name hg hname => ?_, ?_⟩
  · rw [hdrawn, if_pos hg, get?_attributes_of_notMem hname]
  constructor
  · intro hf name hname
    obtain ⟨hname, hg⟩ := (mem_exposed hk name).1 hname
    have := hf name hname
    rw [hdrawn, if_neg hg] at this
    cases hp : props.get? name with
    | none => exact .inl rfl
    | some v => exact .inr (by rw [← this, hp]; rfl)
  · intro he name hname
    rw [hdrawn]
    split_ifs with hg
    · rfl
    · obtain hp | hp := he name ((mem_exposed hk name).2 ⟨hname, hg⟩)
      · rw [hp, Option.none_or]
      · rw [hp, Option.or_self]

/-- A rectangle that is turned, with a transformation and a class of its own. -/
theorem record_faithful_iff_turned :
    let props : Members := [("rotation", .int 90), ("transform", .text "none"), ("right", .int 3),
      ("class", .text "x")]
    let t := rect { id := .text "a" } props ⟨{}, {}⟩
    (Table.keys props).Nodup ∧ ∃ out as, t = (.ok out, t.2) ∧
      t.2.state.anchorsOf (.text "a") = .ok as ∧
      (out.2.get? "transform" = some (.text "none") ∧ out.2.get? "right" = none ∧
        out.2.get? "class" = some (.text "x")) ∧
      (Faithful "rect" as out.2 ↔ ∀ name ∈ exposed "rect", props.get? name = none ∨
        props.get? name = (attributes "rect" as).get? name) := by
  intro props t
  have hprops : (Table.keys props).Nodup := by decide
  obtain ⟨out, hout⟩ := exists_eq_ok_of_isOk (x := t.1) (by decide +kernel)
  have ht : t = (.ok out, t.2) := Prod.ext hout rfl
  obtain ⟨as, has, hdrawn, hplaced, hf⟩ :=
    record_faithful_iff (show kinds.get? "rect" = _ from rfl) hprops ht
  exact ⟨hprops, out, as, ht, has, ⟨hdrawn "transform", hplaced "right" (by decide) (by decide),
    hdrawn "class"⟩, hf⟩

/-- A circle with a centre and a property that has the name of an attribute. -/
theorem record_unfaithful :
    ∃ out s' as,
      circle { id := .text "c" } [("centerX", .int 5), ("cx", .text "#a.left")] ⟨{}, {}⟩ =
        (.ok out, s') ∧
      s'.state.anchorsOf (.text "c") = .ok as ∧ as.number? "centerX" = some 5 ∧
      out.2.get? "cx" = some (.text "#a.left") ∧ ¬ Faithful "circle" as out.2 := by
  refine ⟨_, _, _, rfl, rfl, rfl, rfl, fun h => ?_⟩
  have := h "cx" (by decide)
  cases this

end Shape

end AnchorLayout
