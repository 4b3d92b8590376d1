import AnchorLayout.Scene
import Mathlib

/-!
# Declared shapes as data

A shape is declared by a mapping of its properties, in their order, among which
stand its kind and, if it has one, its id (`ShapeSpec.Encodes`). Where they
stand is no matter: a scene that lists such mappings has the shapes that they
declare (`Scene.shapesFrom_of_encodes`). A scene that lists anything else is
refused, with the place of the first entry that declares no shape
(`Scene.shapesFrom_refused`).
-/

namespace AnchorLayout

/-! ## Entries among others -/

namespace Table

variable {κ α : Type} [BEq κ] [LawfulBEq κ] {t t' : Table κ α} {j k : κ} {a : α}

/-- The second table is the first one with an entry more, at any place. -/
def InsertedIn (e : κ × α) (t t' : Table κ α) : Prop :=
  ∃ before after, t = before ++ after ∧ t' = before ++ e :: after

theorem get?_eq_none_of_notMem (hk : k ∉ t.keys) : t.get? k = none := by
  induction t with
  | nil => rfl
  | cons e t ih =>
    rw [keys, List.map_cons, List.mem_cons, not_or] at hk
    rw [get?, if_neg (by simpa using Ne.symm hk.1)]
    exact ih hk.2

theorem erase_of_notMem (hk : k ∉ t.keys) : t.erase k = t := by
  refine List.filter_eq_self.2 fun e he => ?_
  have hne : e.1 ≠ k := fun h => hk (h ▸ List.mem_map_of_mem he)
  simpa using hne

namespace InsertedIn

/-- What is written among other entries is found. -/
theorem get?_self (h : InsertedIn (k, a) t t') (hk : k ∉ t.keys) : t'.get? k = some a := by
  obtain ⟨before, after, rfl, rfl⟩ := h
  induction before with
  | nil => simp [get?]
  | cons e before ih =>
    rw [List.cons_append, keys, List.map_cons, List.mem_cons, not_or] at hk
    rw [List.cons_append, get?, if_neg (by simpa using Ne.symm hk.1)]
    exact ih hk.2

/-- The other entries are found as before. -/
theorem get?_of_ne (h : InsertedIn (j, a) t t') (hne : j ≠ k) : t'.get? k = t.get? k := by
  obtain ⟨before, after, rfl, rfl⟩ := h
  induction before with
  | nil => simp [get?, hne]
  | cons e before ih => rw [List.cons_append, List.cons_append, get?, get?, ih]

/-- The new entry is taken out again. -/
theorem erase_self (h : InsertedIn (k, a) t t') (hk : k ∉ t.keys) : t'.erase k = t := by
  have herase := erase_of_notMem hk
  obtain ⟨before, after, rfl, rfl⟩ := h
  rw [erase, List.filter_append, List.filter_cons_of_neg (by simp), ← List.filter_append]
  exact herase

/-- Another entry is taken out of the table with the new one as it is out of
    that without it. -/
theorem erase_of_ne (h : InsertedIn (j, a) t t') (hne : j ≠ k) :
    InsertedIn (j, a) (t.erase k) (t'.erase k) := by
  obtain ⟨before, after, rfl, rfl⟩ := h
  refine ⟨before.filter fun e => !(e.1 == k), after.filter fun e => !(e.1 == k),
    List.filter_append .., ?_⟩
  rw [erase, List.filter_append, List.filter_cons_of_pos (by simpa using hne)]

end InsertedIn

end Table

/-! ## The mapping of a shape -/

namespace ShapeSpec

/-- A shape that a mapping can declare: its properties leave the names `type`
    and `id` to its kind and its id, and its id is a datum without a mark. -/
structure Declarable (d : ShapeSpec) : Prop where
  type_notMem : "type" ∉ Table.keys d.props
  id_notMem : "id" ∉ Table.keys d.props
  unmarked : d.id = .ofDatum d.id.toValue

/-- A datum that declares a shape: a mapping of its properties in their order,
    with its kind and, if it has an id, with that at any places among them. -/
inductive Encodes (d : ShapeSpec) : Value → Prop
  | unnamed {members : Members} (hid : d.id.toValue = .null)
      (ht : Table.InsertedIn ("type", .text d.kind) d.props members) : Encodes d (.mapping members)
  | named {typed members : Members} (hid : d.id.toValue ≠ .null)
      (ht : Table.InsertedIn ("type", .text d.kind) d.props typed)
      (hi : Table.InsertedIn ("id", d.id.toValue) typed members) : Encodes d (.mapping members)

end ShapeSpec

namespace Scene

open ShapeSpec

/-- A shape is read back from any mapping that encodes it, wherever this
    stands. -/
theorem shape_of_encodes {d : ShapeSpec} {v : Value} (hd : d.Declarable) (h : Encodes d v)
    (index : ℕ) : shape index v = .ok d := by
  have hshape : ∀ {members props : Members}, members.get? "type" = some (.text d.kind) →
      members.erase "type" = props → (props.get? "id").getD .null = d.id.toValue →
      props.erase "id" = d.props → shape index (.mapping members) = .ok d := by
    rintro members props htype rfl hid hprops
    simp only [shape, htype, hid, hprops, ← hd.unmarked]
  cases h with
  | unnamed hid ht =>
    refine hshape (ht.get?_self hd.type_notMem) (ht.erase_self hd.type_notMem) ?_
      (Table.erase_of_notMem hd.id_notMem)
    rw [Table.get?_eq_none_of_notMem hd.id_notMem, hid]
    rfl
  | named hid ht hi =>
    -- The kind is taken out first, and the id out of what is left.
    have hprops := ht.erase_self hd.type_notMem
    have hi' := hi.erase_of_ne (k := "type") (by decide)
    rw [hprops] at hi'
    refine hshape ?_ rfl ?_ (hi'.erase_self hd.id_notMem)
    · rw [hi.get?_of_ne (by decide), ht.get?_self hd.type_notMem]
    · rw [hi'.get?_self hd.id_notMem, Option.getD_some]

/-- So are the shapes of a list. -/
theorem shapesFrom_of_encodes {specs : List ShapeSpec} {entries : List Value}
    (hspecs : ∀ d ∈ specs, d.Declarable) (h : List.Forall₂ Encodes specs entries) (index : ℕ) :
    shapesFrom index entries = .ok specs := by
  induction h generalizing index with
  | nil => rfl
  | cons hv _ ih =>
    obtain ⟨hd, hrest⟩ := List.forall_mem_cons.1 hspecs
    rw [shapesFrom, shape_of_encodes hd hv, ih hrest]
    rfl

/-! ## Data that declare no shape -/

/-- A datum declares a shape if it is a mapping with a text for its kind. -/
def Declares (v : Value) : Prop :=
  ∃ members kind, v = .mapping members ∧ Table.get? members "type" = some (.text kind)

/-- What is said of a datum at a place of a scene that declares no shape. -/
def refusal (index : ℕ) : Value → Failure
  | .mapping _ => .shapeWithoutKind index
  | v => .shapeNotMapping index v

/-- A mapping declares a shape if its kind is a text; nothing else is
    required. -/
theorem shape_of_declares {v : Value} (h : Declares v) (index : ℕ) :
    ∃ d, shape index v = .ok d := by
  obtain ⟨members, kind, rfl, hkind⟩ := h
  rw [shape, hkind]
  exact ⟨_, rfl⟩

/-- All else is refused. -/
theorem shape_of_not_declares {v : Value} (h : ¬ Declares v) (index : ℕ) :
    shape index v = .error (refusal index v) := by
  unfold shape
  split
  · next members =>
    split
    · next kind hkind => exact absurd ⟨members, kind, rfl, hkind⟩ h
    · rfl
  · next hv =>
    rw [refusal]
    exact hv

/-- The first entry that declares no shape is refused, whatever comes after
    it. -/
theorem shapesFrom_refused {before : List Value} {v : Value} (hbefore : ∀ u ∈ before, Declares u)
    (hv : ¬ Declares v) (after : List Value) (index : ℕ) :
    shapesFrom index (before ++ v :: after) = .error (refusal (index + before.length) v) := by
  induction before generalizing index with
  | nil =>
    rw [List.nil_append, shapesFrom, shape_of_not_declares hv]
    rfl
  | cons u before ih =>
    obtain ⟨hu, hbefore⟩ := List.forall_mem_cons.1 hbefore
    obtain ⟨d, hd⟩ := shape_of_declares hu index
    rw [List.cons_append, shapesFrom, hd, ih hbefore, List.length_cons, Nat.add_right_comm,
      Nat.add_assoc]
    rfl

theorem refusal_eq (index : ℕ) (v : Value) :
    refusal index v = .shapeWithoutKind index ∨ refusal index v = .shapeNotMapping index v := by
  cases v with
  | mapping members => exact .inl rfl
  | _ => exact .inr rfl

theorem category_refusal (index : ℕ) (v : Value) : (refusal index v).category = .value := by
  obtain h | h := refusal_eq index v <;> rw [h] <;> rfl

/-- A refusal names the place of the entry. -/
theorem exists_message_refusal (index : ℕ) (v : Value) :
    ∃ rest, (refusal index v).message = "shape #" ++ toString index ++ " " ++ rest := by
  -- Both messages go on with a blank behind the place.
  have hkind : " has no \"type\"" = " " ++ "has no \"type\"" := by decide
  have hmapping : " must be an object, got " = " " ++ "must be an object, got " := by decide
  obtain h | h := refusal_eq index v
  · refine ⟨"has no \"type\"", ?_⟩
    calc (refusal index v).message
        = "shape #" ++ toString index ++ " has no \"type\"" := by rw [h]; rfl
      _ = "shape #" ++ toString index ++ (" " ++ "has no \"type\"") := congrArg _ hkind
      _ = "shape #" ++ toString index ++ " " ++ "has no \"type\"" := String.append_assoc.symm
  · refine ⟨"must be an object, got " ++ v.display, ?_⟩
    calc (refusal index v).message
        = "shape #" ++ toString index ++ " must be an object, got " ++ v.display := by rw [h]; rfl
      _ = "shape #" ++ toString index ++ (" " ++ "must be an object, got ") ++ v.display :=
          congrArg (fun t => "shape #" ++ toString index ++ t ++ v.display) hmapping
      _ = "shape #" ++ toString index ++ " " ++ ("must be an object, got " ++ v.display) := by
          rw [← String.append_assoc, String.append_assoc]

/-! ## Scenes -/

/-- The scene that lists data as its shapes. -/
def listing (entries : List Value) : Value := .mapping [("shapes", .list entries)]

theorem ofValue_listing (entries : List Value) :
    ofValue (listing entries) = (shapesFrom 0 entries).map (⟨·, none⟩) := by
  change (do return Scene.mk (← shapesFrom 0 entries) none) = _
  cases shapesFrom 0 entries <;> rfl

/-- Reading a scene undoes its encoding. A scene that lists mappings of
    declared shapes has these shapes, in their order and with their properties
    in theirs, wherever the kinds and the ids stand in the mappings. And a
    scene that lists a datum which is no mapping, or which has no text for its
    kind, is refused with the place of the first such datum, whatever follows
    it. -/
theorem ofValue_encoded :
    (∀ specs entries, (∀ d ∈ specs, d.Declarable) → List.Forall₂ Encodes specs entries →
      ofValue (listing entries) = .ok ⟨specs, none⟩) ∧
    ∀ before v after, (∀ u ∈ before, Declares u) → ¬ Declares v →
      ∃ e rest, ofValue (listing (before ++ v :: after)) = .error e ∧ e.category = .value ∧
        e.message = "shape #" ++ toString before.length ++ " " ++ rest := by
  refine ⟨fun specs entries hspecs h => ?_, fun before v after hbefore hv => ?_⟩
  · rw [ofValue_listing, shapesFrom_of_encodes hspecs h]
    rfl
  · obtain ⟨rest, hrest⟩ := exists_message_refusal before.length v
    refine ⟨refusal before.length v, rest, ?_, category_refusal .., hrest⟩
    rw [ofValue_listing, shapesFrom_refused hbefore hv, Nat.zero_add]
    rfl

/-- A rectangle and a dot without an id, both with their kinds in the middle of
    their properties. If a mapping without a kind and a null follow them, the
    mapping is refused. -/
theorem ofValue_encoded_rect :
    let specs : List ShapeSpec :=
      [⟨"rect", .text "a", [("width", .int 3), ("x", .text "#b.x"), ("left", .null)]⟩,
        ⟨"point", .datum .null 0, [("y", .float 2), ("x", .bool true)]⟩]
    let entries : List Value :=
      [.mapping [("width", .int 3), ("id", .text "a"), ("x", .text "#b.x"), ("type", .text "rect"),
          ("left", .null)],
        .mapping [("y", .float 2), ("type", .text "point"), ("x", .bool true)]]
    ofValue (listing entries) = .ok ⟨specs, none⟩ ∧
    ∃ e rest, ofValue (listing (entries ++ .mapping [("type", .int 1)] :: [.null])) = .error e ∧
      e.category = .value ∧ e.message = "shape #" ++ toString 2 ++ " " ++ rest := by
  intro specs entries
  have hspecs : ∀ d ∈ specs, d.Declarable :=
    List.forall_mem_cons.2 ⟨⟨by decide, by decide, rfl⟩,
      List.forall_mem_singleton.2 ⟨by decide, by decide, rfl⟩⟩
  have hentries : List.Forall₂ Encodes specs entries :=
    .cons (.named nofun ⟨[("width", .int 3), ("x", .text "#b.x")], [("left", .null)], rfl, rfl⟩
        ⟨[("width", .int 3)], _, rfl, rfl⟩)
      (.cons (.unnamed rfl ⟨[("y", .float 2)], _, rfl, rfl⟩) .nil)
  have hdeclares : ∀ u ∈ entries, Declares u :=
    List.forall_mem_cons.2 ⟨⟨_, _, rfl, rfl⟩, List.forall_mem_singleton.2 ⟨_, _, rfl, rfl⟩⟩
  have hbad : ¬ Declares (.mapping [("type", .int 1)]) := by
    rintro ⟨_, _, ⟨⟩, ⟨⟩⟩
  exact ⟨ofValue_encoded.1 specs entries hspecs hentries,
    ofValue_encoded.2 entries _ [.null] hdeclares hbad⟩

end Scene

end AnchorLayout
