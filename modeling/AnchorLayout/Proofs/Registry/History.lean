import AnchorLayout.Proofs.Registry.Effects

/-!
# The history of a registry

Three operations change what a registry knows of shapes: anchors are published,
shapes are recorded, and all is forgotten. The history of a registry lists these
changes as they are made. It tells what the registry holds
(`Registry.History.Tells`), and goes on telling it as the list grows by the
changes that the registry undergoes:

* under each name the anchors that were published last, as a whole;
* the shapes in the order in which they were recorded first, each with its last
  record.

Both begin anew when all is forgotten.
-/

namespace AnchorLayout

open AnchorLayout.Action

section

variable {names : List String} {name : String}

theorem eraseDups_concat_of_mem (h : name ∈ names) :
    (names ++ [name]).eraseDups = names.eraseDups := by
  simp [List.eraseDups_append, List.removeAll, h]

theorem eraseDups_concat_of_notMem (h : name ∉ names) :
    (names ++ [name]).eraseDups = names.eraseDups ++ [name] := by
  simp [List.eraseDups_append, List.removeAll, List.eraseDups_cons, h]

end

namespace Registry

/-- A change of what a registry knows of shapes. -/
inductive Change where
  /-- Data are published as the anchors of a shape, in the place of all that it
      had. -/
  | published (id : ShapeId) (members : Members)
  /-- A shape is recorded. -/
  | recorded (name : String) (record : ShapeRecord)
  /-- All shapes and anchors are forgotten. -/
  | cleared

namespace Change

def isCleared : Change → Bool
  | cleared => true
  | _ => false

/-- What a change publishes for a name. -/
def published? (name : String) : Change → Option Members
  | published (.text id) members => if id = name then some members else none
  | _ => none

/-- The name that a change records a shape under. -/
def name? : Change → Option String
  | recorded name _ => some name
  | _ => none

/-- What a change records under a name. -/
def recorded? (name : String) : Change → Option ShapeRecord
  | recorded id record => if id = name then some record else none
  | _ => none

end Change

/-- The changes of a registry, in the order in which they are made. -/
abbrev History := List Change

namespace History

/-- The changes since all was forgotten last. -/
def recent (h : History) : History := h.rtakeWhile (!·.isCleared)

/-- What has been published last for a name. -/
def lastPublished (h : History) (name : String) : Option Members :=
  (h.recent.filterMap (·.published? name)).getLast?

/-- What has been recorded last under a name. -/
def lastRecorded (h : History) (name : String) : Option ShapeRecord :=
  (h.recent.filterMap (·.recorded? name)).getLast?

/-- The names under which shapes have been recorded, in the order of their
    first records. -/
def names (h : History) : List String := (h.recent.filterMap (·.name?)).eraseDups

/-! ## Histories that go on -/

section

variable (h : History) (name : String)

/-- Nothing before the last time that all was forgotten is recent. -/
theorem recent_cleared : History.recent (h ++ [.cleared]) = [] :=
  List.rtakeWhile_concat_neg _ _ _ nofun

theorem recent_published (id : ShapeId) (members : Members) :
    History.recent (h ++ [.published id members]) = h.recent ++ [.published id members] :=
  List.rtakeWhile_concat_pos _ _ _ rfl

theorem recent_recorded (record : ShapeRecord) :
    History.recent (h ++ [.recorded name record]) = h.recent ++ [.recorded name record] :=
  List.rtakeWhile_concat_pos _ _ _ rfl

/-- What is published takes the place of all that was published before. -/
theorem lastPublished_published_self (members : Members) :
    History.lastPublished (h ++ [.published (.text name) members]) name = some members := by
  simp [lastPublished, recent_published, Change.published?]

/-- What is published for one shape leaves the anchors of the others. -/
theorem lastPublished_published_of_ne {id : ShapeId} (members : Members) (hid : id ≠ .text name) :
    History.lastPublished (h ++ [.published id members]) name = h.lastPublished name := by
  have hnone : Change.published? name (.published id members) = none := by
    cases id with
    | text other => exact if_neg fun he => hid (congrArg ShapeId.text he)
    | datum v mark => rfl
  simp [lastPublished, recent_published, hnone]

/-- To record a shape publishes nothing. -/
theorem lastPublished_recorded (other : String) (record : ShapeRecord) :
    History.lastPublished (h ++ [.recorded other record]) name = h.lastPublished name := by
  simp [lastPublished, recent_recorded, Change.published?]

/-- A record takes the place of the one before. -/
theorem lastRecorded_recorded_self (record : ShapeRecord) :
    History.lastRecorded (h ++ [.recorded name record]) name = some record := by
  simp [lastRecorded, recent_recorded, Change.recorded?]

theorem lastRecorded_recorded_of_ne {other : String} (record : ShapeRecord) (hne : other ≠ name) :
    History.lastRecorded (h ++ [.recorded other record]) name = h.lastRecorded name := by
  simp [lastRecorded, recent_recorded, Change.recorded?, hne]

/-- To publish anchors records nothing. -/
theorem lastRecorded_published (id : ShapeId) (members : Members) :
    History.lastRecorded (h ++ [.published id members]) name = h.lastRecorded name := by
  simp [lastRecorded, recent_published, Change.recorded?]

theorem names_published (id : ShapeId) (members : Members) :
    History.names (h ++ [.published id members]) = h.names := by
  simp [names, recent_published, Change.name?]

/-- A name keeps its place when it is recorded again, and a new one goes to the
    end. -/
theorem names_recorded (record : ShapeRecord) :
    History.names (h ++ [.recorded name record]) =
      if name ∈ h.names then h.names else h.names ++ [name] := by
  have hmem : name ∈ h.names ↔ name ∈ h.recent.filterMap (·.name?) := List.mem_eraseDups
  rw [names, recent_recorded, List.filterMap_append]
  split_ifs with hname <;> rw [hmem] at hname
  · exact eraseDups_concat_of_mem hname
  · exact eraseDups_concat_of_notMem hname

end

/-- However often a shape is recorded, it is named once. -/
theorem nodup_names (h : History) : h.names.Nodup := by
  induction h using List.reverseRecOn with
  | nil => exact List.nodup_nil
  | append_singleton h c ih =>
    cases c with
    | published id members => rwa [names_published]
    | recorded name record =>
      rw [names_recorded]
      split_ifs with hmem
      · exact ih
      · exact List.nodup_append_comm.1 (List.nodup_cons.2 ⟨hmem, ih⟩)
    | cleared =>
      rw [names, recent_cleared]
      exact List.nodup_nil

end History

/-! ## What the history tells -/

/-- Anchors that are those of published data: the same names in the same order,
    each with the number or the point that its datum stands for. -/
def Publishes (id : ShapeId) (members : Members) (as : Anchors) : Prop :=
  List.Forall₂ (fun m a => a.1 = m.1 ∧ Anchor.ofValue id m.1 m.2 = .ok a.2) members as

/-- The anchors that a registry makes of data are those of the data. -/
theorem publishes_of_ofMembers {id : ShapeId} {members : Members} {as : Anchors}
    (h : Anchors.ofMembers id members = .ok as) : Publishes id members as := by
  induction members generalizing as with
  | nil =>
    cases h
    exact .nil
  | cons m rest ih =>
    obtain ⟨a, ha, h⟩ := except_bind_iff.1 h
    obtain ⟨as', has, h⟩ := except_bind_iff.1 h
    cases h
    exact .cons ⟨rfl, ha⟩ (ih has)

/-- A registry holds what its history tells. -/
structure History.Tells (h : History) (r : Registry) : Prop where
  anchors : ∀ name, Option.Rel (Publishes (.text name)) (h.lastPublished name)
    (r.anchors.get? (.text name))
  keys : r.shapes.keys = h.names.map .text
  shapes : ∀ name, r.shapes.get? (.text name) = h.lastRecorded name

namespace History.Tells

variable {h : History} {r : Registry}

/-- Where nothing is recent, the registry holds nothing. -/
theorem of_empty {h : History} (hh : h.recent = []) (hanchors : r.anchors = [])
    (hshapes : r.shapes = []) : h.Tells r where
  anchors name := by
    rw [hanchors, lastPublished, hh]
    exact .none
  keys := by
    rw [hshapes, names, hh]
    rfl
  shapes name := by
    rw [hshapes, lastRecorded, hh]
    rfl

/-- A registry that publishes holds what the longer history tells. -/
theorem published (ht : h.Tells r) {id : ShapeId} {members : Members} {as : Anchors}
    (has : Publishes id members as) :
    History.Tells (h ++ [.published id members]) (r.published id as) where
  anchors name := by
    by_cases hid : id = .text name
    · subst hid
      rw [lastPublished_published_self, Registry.published, Table.get?_insert_text]
      exact .some has
    · rw [lastPublished_published_of_ne h name members hid, Registry.published,
        Table.get?_text_insert_of_ne as hid]
      exact ht.anchors name
  keys := by
    rw [names_published]
    exact ht.keys
  shapes name := by
    rw [lastRecorded_published]
    exact ht.shapes name

/-- So does one that records a shape under a text. -/
theorem recorded (ht : h.Tells r) (name : String) (record : ShapeRecord) :
    History.Tells (h ++ [.recorded name record]) (r.recorded (.text name) record) where
  anchors other := by
    rw [lastPublished_recorded]
    exact ht.anchors other
  keys := by
    have hmem : .text name ∈ r.shapes.keys ↔ name ∈ h.names := by
      rw [ht.keys, List.mem_map]
      simp
    rw [names_recorded]
    split_ifs with hname
    · exact (Table.keys_insert_of_text_mem record (hmem.2 hname)).trans ht.keys
    · rw [List.map_append, ← ht.keys]
      exact Table.keys_insert_of_text_notMem record fun h => hname (hmem.1 h)
  shapes other := by
    by_cases hne : name = other
    · subst hne
      rw [lastRecorded_recorded_self]
      exact Table.get?_insert_text record
    · rw [lastRecorded_recorded_of_ne h other record hne, ← ht.shapes other]
      exact Table.get?_insert_text_of_ne record fun he => hne (ShapeId.text.inj he).symm

/-- Nothing but the diagnostics, the view box and the configuration has
    changed. -/
theorem of_same (ht : h.Tells r) {r' : Registry} (hanchors : r'.anchors = r.anchors)
    (hshapes : r'.shapes = r.shapes) : h.Tells r' where
  anchors name := hanchors ▸ ht.anchors name
  keys := hshapes ▸ ht.keys
  shapes name := hshapes ▸ ht.shapes name

/-- The records of a registry are the last ones, in the order of the first
    ones. -/
theorem records (ht : h.Tells r) : r.records = h.names.filterMap h.lastRecorded := by
  rw [Registry.records, Table.map_snd_eq_filterMap_get? ht.keys h.nodup_names]
  exact List.filterMap_congr fun name _ => ht.shapes name

end History.Tells

end Registry

end AnchorLayout
