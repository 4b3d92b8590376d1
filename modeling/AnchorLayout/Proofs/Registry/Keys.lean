import AnchorLayout.Failure
import Mathlib

/-!
# Ids as keys

The keys of the tables of a registry are ids, which are not told apart by their
values alone. Among them a text is the same as itself only. So what is written
under a text changes no other entry, and tables that are the same but for a text
(`Table.erase`) stay so when the same is written to both of them
(`Table.erase_insert_congr`).
-/

namespace AnchorLayout

/-- A text is the same as itself only, although other data may be the same as
    each other. -/
theorem ShapeId.beq_text {id : ShapeId} {s : String} : (id == .text s) = true ↔ id = .text s := by
  cases id with
  | text t =>
    change (t == s) = true ↔ _
    rw [beq_iff_eq, ShapeId.text.injEq]
  | datum v mark => exact ⟨Bool.noConfusion, fun h => by cases h⟩

theorem ShapeId.text_beq {id : ShapeId} {s : String} : (.text s == id) = true ↔ id = .text s := by
  cases id with
  | text t =>
    change (s == t) = true ↔ _
    rw [beq_iff_eq, ShapeId.text.injEq, eq_comm]
  | datum v mark => exact ⟨Bool.noConfusion, fun h => by cases h⟩

theorem ShapeId.contains_text {ids : List ShapeId} {s : String} :
    ids.contains (.text s) = true ↔ .text s ∈ ids := by
  rw [List.contains_iff_exists_mem_beq]
  constructor
  · rintro ⟨id, hid, h⟩
    rwa [← text_beq.1 h]
  · exact fun h => ⟨_, h, text_beq.2 rfl⟩

/-- An id that can be a key is its own key. -/
theorem ShapeId.eq_of_asKey {id key : ShapeId} (h : id.asKey = .ok key) : key = id := by
  rw [asKey] at h
  split at h <;> cases h
  rfl

theorem ShapeId.contains_map_text {ids : List String} {s : String} :
    (ids.map ShapeId.text).contains (.text s) = ids.contains s := by
  induction ids with
  | nil => rfl
  | cons t ids ih =>
    rw [List.map_cons, List.contains_cons, List.contains_cons, ih]
    rfl

namespace Table

/-- A key without an entry goes to the end. -/
theorem insert_of_get?_eq_none {κ α : Type} [BEq κ] {t : Table κ α} {k : κ} (a : α)
    (h : t.get? k = none) : t.insert k a = t ++ [(k, a)] := by
  induction t with
  | nil => rfl
  | cons e t ih =>
    rw [get?] at h
    split_ifs at h with he
    rw [insert, if_neg he, ih h, List.cons_append]

section

variable {κ α : Type} [BEq κ] {k : κ}

/-- What is written under a key that is the same as itself is found there. -/
theorem get?_insert_of_beq (t : Table κ α) (a : α) (hk : (k == k) = true) :
    (t.insert k a).get? k = some a := by
  induction t with
  | nil => simp [insert, get?, hk]
  | cons e t ih =>
    by_cases he : (e.1 == k) = true
    · simp [insert, get?, he]
    · simp [insert, get?, he, ih]

/-- What an entry is replaced by is replaced by a later one. -/
theorem insert_insert (t : Table κ α) (a b : α) (hk : (k == k) = true) :
    (t.insert k a).insert k b = t.insert k b := by
  induction t with
  | nil => simp [insert, hk]
  | cons e t ih =>
    by_cases he : (e.1 == k) = true
    · simp [insert, he]
    · simp [insert, he, ih]

end

section

variable {κ α : Type} [BEq κ] [LawfulBEq κ] {t : Table κ α} {k : κ} {a : α}

/-- An entry of a table with different keys is found. -/
theorem get?_of_mem (hkeys : t.keys.Nodup) (h : (k, a) ∈ t) : t.get? k = some a := by
  induction t with
  | nil => cases h
  | cons e t ih =>
    obtain ⟨hnew, hkeys⟩ := List.nodup_cons.1 hkeys
    obtain rfl | h := List.mem_cons.1 h
    · exact if_pos (beq_self_eq_true k)
    · have hne : ¬ (e.1 == k) = true := fun he =>
        hnew ((beq_iff_eq.1 he : e.1 = k) ▸ List.mem_map_of_mem h)
      rw [get?, if_neg hne]
      exact ih hkeys h

theorem mem_of_get? (h : t.get? k = some a) : (k, a) ∈ t := by
  induction t with
  | nil => cases h
  | cons e t ih =>
    rw [get?] at h
    split_ifs at h with he
    · cases h
      exact List.mem_cons.2 (.inl (Prod.ext (beq_iff_eq.1 he).symm rfl))
    · exact List.mem_cons_of_mem _ (ih h)

end

variable {α : Type} {t : Table ShapeId α} {s : String}

/-! ## Tables with texts among their keys -/

theorem get?_text_eq_none (h : ShapeId.text s ∉ t.keys) : t.get? (.text s) = none := by
  induction t with
  | nil => rfl
  | cons e t ih =>
    rw [keys, List.map_cons, List.mem_cons, not_or] at h
    rw [get?, if_neg fun he => h.1 (ShapeId.beq_text.1 he).symm]
    exact ih h.2

theorem get?_insert_text (a : α) : (t.insert (.text s) a).get? (.text s) = some a := by
  induction t with
  | nil => rw [insert, get?, if_pos (ShapeId.beq_text.2 rfl)]
  | cons e t ih =>
    rw [insert]
    split_ifs with he
    · rw [get?, if_pos he]
    · rw [get?, if_neg he, ih]

/-- What is written under a text is found there only. -/
theorem get?_insert_text_of_ne (a : α) {id : ShapeId} (h : id ≠ .text s) :
    (t.insert (.text s) a).get? id = t.get? id := by
  -- A text is the same as itself only, so a key that is the same as `s` is not the
  -- same as `id`.
  have key : ∀ {k : ShapeId}, (k == .text s) = true → ¬(k == id) = true := by
    intro k hk
    rw [ShapeId.beq_text.1 hk]
    cases id with
    | text s' => exact fun hid => h (ShapeId.beq_text.1 hid).symm
    | datum v mark => exact Bool.noConfusion
  induction t with
  | nil => exact if_neg (key (ShapeId.beq_text.2 rfl))
  | cons e t ih =>
    rw [insert]
    split_ifs with he
    · rw [get?, get?, if_neg (key he), if_neg (key he)]
    · rw [get?, get?, ih]

/-- Nor does anything else that is written change what is kept under a text. -/
theorem get?_text_insert_of_ne (a : α) {id : ShapeId} (h : id ≠ .text s) :
    (t.insert id a).get? (.text s) = t.get? (.text s) := by
  induction t with
  | nil => exact if_neg (mt ShapeId.beq_text.1 h)
  | cons e t ih =>
    rw [insert]
    split_ifs with he
    · -- What is written over is not the entry of the text.
      have hne : ¬(e.1 == .text s) = true := fun hs =>
        h (ShapeId.text_beq.1 (ShapeId.beq_text.1 hs ▸ he))
      rw [get?, get?, if_neg hne, if_neg hne]
    · rw [get?, get?, ih]

/-- A text that has an entry keeps its place among the keys. -/
theorem keys_insert_of_text_mem (a : α) (h : .text s ∈ t.keys) :
    (t.insert (.text s) a).keys = t.keys := by
  induction t with
  | nil => cases h
  | cons e t ih =>
    rw [insert]
    split_ifs with he
    · rfl
    · have hmem : .text s ∈ Table.keys t :=
        (List.mem_cons.1 h).resolve_left fun hs => he (ShapeId.beq_text.2 hs.symm)
      exact congrArg (e.1 :: ·) (ih hmem)

theorem keys_insert_of_text_notMem (a : α) (h : .text s ∉ t.keys) :
    (t.insert (.text s) a).keys = t.keys ++ [.text s] := by
  rw [insert_of_get?_eq_none a (get?_text_eq_none h), keys, List.map_append]
  rfl

/-- What is kept under different texts can be looked up one by one. -/
theorem map_snd_eq_filterMap_get? {names : List String} (hkeys : t.keys = names.map .text)
    (hnames : names.Nodup) : t.map Prod.snd = names.filterMap fun name => t.get? (.text name) := by
  induction t generalizing names with
  | nil => rw [List.map_eq_nil_iff.1 hkeys.symm, List.map_nil, List.filterMap_nil]
  | cons e t ih =>
    obtain ⟨name, rest, rfl, he, hrest⟩ := List.map_eq_cons_iff.1 hkeys.symm
    obtain ⟨hnew, hnodup⟩ := List.nodup_cons.1 hnames
    -- The other names are not the first one, so they are looked up in the rest.
    have htail : rest.filterMap (fun n => Table.get? (e :: t) (.text n)) =
        rest.filterMap fun n => Table.get? t (.text n) := by
      refine List.filterMap_congr fun n hn => ?_
      rw [get?, if_neg]
      intro hbeq
      rw [ShapeId.beq_text, ← he, ShapeId.text.injEq] at hbeq
      exact hnew (hbeq ▸ hn)
    have hhead : Table.get? (e :: t) (.text name) = some e.2 := by
      rw [get?, if_pos (ShapeId.beq_text.2 he.symm)]
    rw [List.map_cons, List.filterMap_cons, hhead, htail, ih hrest.symm hnodup]

/-! ## Tables without the entry of a text -/

theorem erase_cons_text {e : ShapeId × α} (h : e.1 = .text s) :
    Table.erase (e :: t) (.text s) = t.erase (.text s) :=
  List.filter_cons_of_neg (by simp [ShapeId.beq_text.2 h])

theorem erase_cons_of_ne {e : ShapeId × α} (h : e.1 ≠ .text s) :
    Table.erase (e :: t) (.text s) = e :: t.erase (.text s) :=
  List.filter_cons_of_pos (by simpa using mt ShapeId.beq_text.1 h)

/-- To take out the entry of a text leaves the other entries. -/
theorem get?_erase_text {id : ShapeId} (h : id ≠ .text s) :
    (t.erase (.text s)).get? id = t.get? id := by
  induction t with
  | nil => rfl
  | cons e t ih =>
    by_cases he : e.1 = .text s
    · rw [erase_cons_text he, get?, if_neg fun hid => h (ShapeId.text_beq.1 (he ▸ hid)), ih]
    · rw [erase_cons_of_ne he, get?, get?, ih]

theorem erase_insert_text (a : α) : (t.insert (.text s) a).erase (.text s) = t.erase (.text s) := by
  induction t with
  | nil => exact erase_cons_text rfl
  | cons e t ih =>
    rw [insert]
    by_cases he : e.1 = .text s
    · rw [if_pos (ShapeId.beq_text.2 he), erase_cons_text he]
      exact erase_cons_text he
    · rw [if_neg (mt ShapeId.beq_text.1 he), erase_cons_of_ne he, erase_cons_of_ne he, ih]

/-- It makes no difference whether the entry of a text is taken out before or
    after another is written. -/
theorem erase_insert_of_ne (a : α) {id : ShapeId} (h : id ≠ .text s) :
    (t.insert id a).erase (.text s) = (t.erase (.text s)).insert id a := by
  induction t with
  | nil => exact erase_cons_of_ne h
  | cons e t ih =>
    by_cases he : e.1 = .text s
    · -- The entry of the text goes, and it is not the one that `id` is written to.
      rw [insert, if_neg fun hid => h (ShapeId.text_beq.1 (he ▸ hid)), erase_cons_text he,
        erase_cons_text he, ih]
    · rw [erase_cons_of_ne he, insert, insert]
      split_ifs
      · exact erase_cons_of_ne he
      · rw [erase_cons_of_ne he, ih]

variable {t' : Table ShapeId α}

/-- Tables that are the same but for a text have the same other entries. -/
theorem get?_eq_of_erase_eq (h : t.erase (.text s) = t'.erase (.text s)) {id : ShapeId}
    (hid : id ≠ .text s) : t.get? id = t'.get? id := by
  rw [← get?_erase_text hid, h, get?_erase_text hid]

theorem get?_text_insert_congr (h : t.get? (.text s) = t'.get? (.text s)) (id : ShapeId) (a : α) :
    (t.insert id a).get? (.text s) = (t'.insert id a).get? (.text s) := by
  by_cases hid : id = .text s
  · rw [hid, get?_insert_text, get?_insert_text]
  · rw [get?_text_insert_of_ne a hid, get?_text_insert_of_ne a hid, h]

/-- Tables that are the same but for a text stay so, whatever is written to
    both of them. -/
theorem erase_insert_congr (h : t.erase (.text s) = t'.erase (.text s)) (id : ShapeId) (a : α) :
    (t.insert id a).erase (.text s) = (t'.insert id a).erase (.text s) := by
  by_cases hid : id = .text s
  · rw [hid, erase_insert_text, erase_insert_text, h]
  · rw [erase_insert_of_ne a hid, erase_insert_of_ne a hid, h]

end Table

end AnchorLayout
