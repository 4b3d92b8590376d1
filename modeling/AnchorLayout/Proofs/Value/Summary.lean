import AnchorLayout.Value.Points
import AnchorLayout.Value.Summary
import Mathlib

/-!
# How long the texts in a log get

The text that stands for a datum in a log is cut at every turn, save for one:
of a mapping the first members are summed up one by one, each with its whole
key and with a text of its own. So there is no bound for the texts of all data
(`Value.not_summary_bounded`). What is not bounded is what the keys take up
(`Value.keyLength`): the texts of some data have a bound if and only if that
has one for them (`Value.summary_bounded_iff`).
-/

namespace AnchorLayout

/-! ## Joined texts -/

theorem length_commaJoin_le (ts : List String) :
    (commaJoin ts).length ≤ (ts.map fun t => t.length + 2).sum := by
  induction ts with
  | nil => simp [commaJoin]
  | cons t ts ih =>
    cases ts with
    | nil => simp [commaJoin]
    | cons u ts =>
      have hcomma : ", ".length = 2 := by decide
      rw [commaJoin, String.intercalate_cons_cons, ← commaJoin, String.length_append,
        String.length_append, hcomma, List.map_cons, List.sum_cons]
      omega

theorem sum_length_le_commaJoin (ts : List String) :
    (ts.map String.length).sum ≤ (commaJoin ts).length := by
  induction ts with
  | nil => simp [commaJoin]
  | cons t ts ih =>
    cases ts with
    | nil => simp [commaJoin]
    | cons u ts =>
      rw [commaJoin, String.intercalate_cons_cons, ← commaJoin, String.length_append,
        String.length_append, List.map_cons, List.sum_cons]
      omega

/-- Some texts of a bounded length. -/
theorem length_commaJoin_le_mul {ts : List String} {n : ℕ} (h : ∀ t ∈ ts, t.length ≤ n) :
    (commaJoin ts).length ≤ ts.length * (n + 2) := by
  refine (length_commaJoin_le ts).trans ?_
  have hsum := List.sum_le_card_nsmul (ts.map fun t => t.length + 2) (n + 2) (by
    simp only [List.mem_map, forall_exists_index, and_imp, forall_apply_eq_imp_iff₂,
      add_le_add_iff_right]
    exact h)
  rwa [List.length_map, smul_eq_mul] at hsum

namespace Value

/-- A pair of brackets and a comma at most are added. -/
theorem length_tupleText_le (ts : List String) :
    (tupleText ts).length ≤ (commaJoin ts).length + 3 := by
  have hopen : "(".length = 1 := rfl
  unfold tupleText
  split
  · next t =>
    have hclose : ",)".length = 2 := rfl
    have hjoin : commaJoin [t] = t := String.intercalate_singleton
    rw [hjoin, String.length_append, String.length_append]
    omega
  · have hclose : ")".length = 1 := rfl
    rw [String.length_append, String.length_append]
    omega

/-! ## What is cut -/

/-- What is left out in the middle is told by three points, which the limit has
    room for. -/
theorem length_elide_le {limit : ℕ} (hlimit : 3 ≤ limit) (cs : List Char) :
    (elide limit cs).length ≤ limit := by
  unfold elide
  split_ifs with h
  · exact h
  · simp only [List.length_append, List.length_cons, List.length_take, List.length_drop]
    omega

theorem length_elideText_le {limit : ℕ} (hlimit : 3 ≤ limit) (s : String) :
    (elideText limit s).length ≤ limit := by
  rw [elideText, String.length_ofList]
  exact length_elide_le hlimit _

theorem length_lastChars_le (n : ℕ) (cs : List Char) : (lastChars n cs).length ≤ n := by
  unfold lastChars
  split_ifs <;> rw [List.length_drop] <;> omega

theorem length_elideQuoted_le (s : String) : (elideQuoted s).length ≤ textLimit := by
  unfold elideQuoted
  extract_lets cs head left right ends
  split_ifs with h
  · rwa [String.length_ofList]
  · have hsum : left + (right + 3) = textLimit := rfl
    have hlast := length_lastChars_le right ends
    simp only [String.length_ofList, List.length_append, List.length_cons, List.length_take]
    omega

/-- However many items there are, a fixed number of them is shown, and one sign
    for the rest. -/
theorem length_shown_le (ts : List String) : (shown ts).length ≤ shownItems + 1 := by
  unfold shown
  split_ifs with h
  · exact h.trans (Nat.le_succ _)
  · simp only [List.length_append, List.length_take, List.length_singleton]
    omega

theorem mem_shown {ts : List String} {t : String} (h : t ∈ shown ts) : t ∈ ts ∨ t = "..." := by
  unfold shown at h
  split_ifs at h
  · exact .inl h
  · exact (List.mem_append.1 h).imp List.mem_of_mem_take List.mem_singleton.1

/-- The most characters of a datum with collections shown down to `depth`
    levels. -/
def briefBound : ℕ → ℕ
  | 0 => 120
  | depth + 1 => (shownItems + 1) * (briefBound depth + 124) + 3

theorem le_briefBound (depth : ℕ) : 120 ≤ briefBound depth := by
  induction depth with
  | zero => exact le_rfl
  | succ depth ih =>
    rw [briefBound, shownItems]
    omega

/-- What is shown of a collection has room for three more characters. -/
theorem length_commaJoin_shown_le {depth : ℕ} {ts : List String}
    (h : ∀ t ∈ ts, t.length ≤ briefBound depth + 122) :
    (commaJoin (shown ts)).length + 3 ≤ briefBound (depth + 1) := by
  have hshown : ∀ t ∈ shown ts, t.length ≤ briefBound depth + 122 := by
    intro t ht
    obtain ht | rfl := mem_shown ht
    · exact h t ht
    · exact le_trans (by decide) (Nat.le_add_left _ _)
  rw [briefBound]
  exact Nat.add_le_add_right ((length_commaJoin_le_mul hshown).trans
    (Nat.mul_le_mul_right _ (length_shown_le ts))) 3

theorem briefItems_eq_map (depth : ℕ) (vs : List Value) :
    briefItems depth vs = vs.map (brief depth) := by
  induction vs with
  | nil => rfl
  | cons v vs ih => rw [briefItems, ih, List.map_cons]

theorem briefMembers_eq_map (depth : ℕ) (ms : List (String × Value)) :
    briefMembers depth ms =
      ms.map fun m => (m.1, elideQuoted m.1 ++ ": " ++ brief depth m.2) := by
  induction ms with
  | nil => rfl
  | cons m ms ih => rw [briefMembers, ih, List.map_cons]

section Collections

variable {depth : ℕ} (h : ∀ v, (brief depth v).length ≤ briefBound depth)

include h

theorem length_shown_briefItems_le (vs : List Value) :
    (commaJoin (shown (briefItems depth vs))).length + 3 ≤ briefBound (depth + 1) := by
  refine length_commaJoin_shown_le ?_
  rw [briefItems_eq_map]
  exact List.forall_mem_map.2 fun v _ => Nat.le_add_right_of_le (h v)

/-- Of a mapping in a collection the keys are cut as well. -/
theorem length_shown_briefMembers_le (ms : List (String × Value))
    (le : String × String → String × String → Bool) :
    (commaJoin (shown (((briefMembers depth ms).mergeSort le).map fun m => m.2))).length + 3 ≤
      briefBound (depth + 1) := by
  refine length_commaJoin_shown_le ?_
  rw [briefMembers_eq_map]
  refine List.forall_mem_map.2 fun entry hentry => ?_
  obtain ⟨m, -, rfl⟩ := List.mem_map.1 (List.mem_mergeSort.1 hentry)
  have hkey := length_elideQuoted_le m.1
  have hcolon : ": ".length = 2 := rfl
  have hm := h m.2
  rw [String.length_append, String.length_append]
  rw [textLimit] at hkey
  omega

end Collections

/-- A datum inside of another is shown within a bound for its depth. -/
theorem length_brief_le (depth : ℕ) (v : Value) : (brief depth v).length ≤ briefBound depth := by
  induction depth using Nat.strong_induction_on generalizing v with
  | _ depth ih =>
    have hsign : ∀ n ≤ 120, n ≤ briefBound depth := fun n hn => hn.trans (le_briefBound depth)
    cases v with
    | text s => exact hsign _ (length_elideQuoted_le s)
    | int n => exact hsign _ ((length_elideText_le (by decide) _).trans (by decide))
    | list items =>
      match depth, items with
      | _, [] => rw [brief]; exact hsign 2 (by decide)
      | 0, i :: items => rw [brief]; exacts [hsign 5 (by decide), List.cons_ne_nil _ _]
      | depth + 1, i :: items =>
        have hitems := length_shown_briefItems_le (ih depth depth.lt_succ_self) (i :: items)
        have hopen : "[".length = 1 := rfl
        have hclose : "]".length = 1 := rfl
        rw [brief, listText, String.length_append, String.length_append]
        · omega
        · exact List.cons_ne_nil _ _
    | tuple items =>
      match depth, items with
      | _, [] => rw [brief]; exact hsign 2 (by decide)
      | 0, i :: items => rw [brief]; exacts [hsign 5 (by decide), List.cons_ne_nil _ _]
      | depth + 1, i :: items =>
        rw [brief]
        · exact (length_tupleText_le _).trans
            (length_shown_briefItems_le (ih depth depth.lt_succ_self) (i :: items))
        · exact List.cons_ne_nil _ _
    | mapping members =>
      match depth, members with
      | _, [] => rw [brief]; exact hsign 2 (by decide)
      | 0, m :: ms => rw [brief]; exacts [hsign 5 (by decide), List.cons_ne_nil _ _]
      | depth + 1, m :: ms =>
        have hmembers := length_shown_briefMembers_le (ih depth depth.lt_succ_self) (m :: ms)
          fun m n => !decide (n.1 < m.1)
        have hopen : "\x7b".length = 1 := rfl
        have hclose : "\x7d".length = 1 := rfl
        rw [brief, String.length_append, String.length_append]
        · omega
        · exact List.cons_ne_nil _ _
    | _ => exact hsign _ (length_elideText_le (by decide) _)

/-! ## Data of the sizes there are -/

mutual

/-- A datum of which arrays have no more dimensions, and these and mappings no
    more places, than there can be. -/
def Fits : Value → Prop
  | .array shape _ => shape.length ≤ maxDimensions ∧ ∀ n ∈ shape, n < 2 ^ 63
  | .mapping members => members.length < 2 ^ 63 ∧ MembersFit members
  | _ => True

/-- Members with such data. -/
def MembersFit : List (String × Value) → Prop
  | [] => True
  | (_, v) :: ms => v.Fits ∧ MembersFit ms

end

/-- The most characters of a number of places. -/
theorem length_toString_le {n : ℕ} (h : n < 2 ^ 63) : (toString n).length ≤ 19 :=
  Nat.repr_length n 19 (by decide) (h.trans (by decide))

/-- The most characters of a datum that is not a mapping. -/
def leafBound : ℕ := briefBound shownDepth + 9

theorem le_leafBound : 1377 ≤ leafBound := by
  have h := le_briefBound 5
  rw [leafBound, shownDepth, briefBound, shownItems]
  omega

theorem length_arraySummary_le {limits : Limits} {shape : List ℕ} {data : List Float}
    (h : (array shape data).Fits) : (arraySummary limits shape data).length ≤ leafBound := by
  rw [Fits] at h
  unfold arraySummary
  split_ifs
  · have hrows := length_brief_le shownDepth (nest shape data)
    have hopen : "ndarray(".length = 8 := by decide
    have hclose : ")".length = 1 := rfl
    rw [String.length_append, String.length_append, leafBound]
    omega
  · have hshape : ∀ t ∈ shape.map fun n => toString n, t.length ≤ 19 :=
      List.forall_mem_map.2 fun n hn => length_toString_le (h.2 n hn)
    have hjoin := length_commaJoin_le_mul hshape
    have htuple := length_tupleText_le (shape.map fun n => toString n)
    have hopen : "ndarray(shape=".length = 14 := by decide
    have hclose : ", dtype=float64)".length = 16 := by decide
    have hleaf := le_leafBound
    have hdims := h.1
    rw [List.length_map] at hjoin
    rw [maxDimensions] at hdims
    rw [String.length_append, String.length_append]
    omega

/-- A text that is cut ends with a note of that, in fifteen letters. -/
theorem length_truncate_le (limit : ℕ) (s : String) :
    (truncate limit s).length ≤ limit + 15 := by
  unfold truncate
  extract_lets cs kept
  split_ifs with h
  · have hlength : s.length ≤ limit := by exact_mod_cast h
    omega
  · have hnote : "... (truncated)".length = 15 := by decide
    have hkept : kept = limit := if_neg (by omega)
    rw [String.length_append, String.length_ofList, List.length_take]
    omega

/-- What is not a mapping has a text of bounded length. -/
theorem length_summary_le_leafBound {v : Value} (hv : v.Fits) (hmap : ∀ ms, v ≠ .mapping ms) :
    (v.summary {}).length ≤ leafBound := by
  cases v with
  | mapping ms => exact (hmap ms rfl).elim
  | array shape data =>
    rw [summary]
    exact length_arraySummary_le hv
  | _ =>
    rw [summary]
    · exact (length_truncate_le 300 _).trans (le_trans (by decide) le_leafBound)
    · exact fun _ _ => Value.noConfusion
    · exact fun _ => Value.noConfusion

/-! ## What the keys take up -/

mutual

/-- The characters of the keys that the text of a datum shows, with a sign for
    each. -/
def keyLength : Value → ℕ
  | .mapping members => membersKeyLength 6 members
  | _ => 0

/-- The characters of the keys that are shown of `n` members and of their
    data. -/
def membersKeyLength : ℕ → List (String × Value) → ℕ
  | 0, _ => 0
  | _, [] => 0
  | n + 1, (k, v) :: ms => k.length + 1 + v.keyLength + membersKeyLength n ms

end

theorem membersKeyLength_nil (n : ℕ) : membersKeyLength n [] = 0 := by
  cases n <;> rfl

theorem length_summaryMembers (ms : List (String × Value)) :
    (summaryMembers ms).length = ms.length := by
  induction ms with
  | nil => rfl
  | cons m ms ih => rw [summaryMembers, List.length_cons, List.length_cons, ih]

/-- The members that are shown are the first, with the number of the others if
    there are some. -/
theorem fewMembers_eq (ts : List String) :
    fewMembers 6 ts = ts.take 6 ∨
      fewMembers 6 ts = ts.take 6 ++ ["... +" ++ toString (ts.length - 6)] := by
  unfold fewMembers
  split_ifs with h
  · have hlength : ts.length ≤ 6 := by
      obtain hnil | hfew := h
      · exact le_of_eq_of_le (List.length_eq_zero_iff.2 (List.isEmpty_iff.1 hnil)) (by decide)
      · exact_mod_cast hfew
    exact .inl (List.take_of_length_le hlength).symm
  · have hrest : (ts.length : ℤ) - 6 = (ts.length - 6 : ℕ) := by omega
    rw [hrest]
    exact .inr rfl

theorem sum_length_take_le_fewMembers (ts : List String) :
    ((ts.take 6).map String.length).sum ≤ ((fewMembers 6 ts).map String.length).sum := by
  obtain h | h := fewMembers_eq ts
  · rw [h]
  · rw [h, List.map_append, List.sum_append]
    exact Nat.le_add_right _ _

theorem length_commaJoin_fewMembers_le {ts : List String} (h : ts.length < 2 ^ 63) :
    (commaJoin (fewMembers 6 ts)).length ≤ ((ts.take 6).map fun t => t.length + 2).sum + 26 := by
  refine (length_commaJoin_le _).trans ?_
  obtain hfew | hfew := fewMembers_eq ts
  · rw [hfew]
    exact Nat.le_add_right _ _
  · have hcount : (toString (ts.length - 6)).length ≤ 19 :=
      length_toString_le ((Nat.sub_le _ _).trans_lt h)
    have hnote : "... +".length = 5 := by decide
    rw [hfew, List.map_append, List.sum_append, List.map_singleton, List.sum_singleton,
      String.length_append]
    omega

mutual

/-- Each shown key and sign is there. -/
theorem keyLength_le_length_summary (v : Value) : v.keyLength ≤ (v.summary {}).length := by
  cases v with
  | mapping ms =>
    have hshown := (membersKeyLength_le 6 ms).trans (sum_length_take_le_fewMembers _)
    rw [keyLength, summary, String.length_append, String.length_append]
    exact Nat.le_add_right_of_le (Nat.le_add_left_of_le (hshown.trans (sum_length_le_commaJoin _)))
  | _ => exact Nat.zero_le _

theorem membersKeyLength_le (n : ℕ) (ms : List (String × Value)) :
    membersKeyLength n ms ≤ (((summaryMembers ms).take n).map String.length).sum := by
  match n, ms with
  | 0, _ => rw [membersKeyLength]; exact Nat.zero_le _
  | n + 1, [] => exact Nat.zero_le _
  | n + 1, (k, v) :: ms =>
    have hv := keyLength_le_length_summary v
    have hms := membersKeyLength_le n ms
    have hsign : "=".length = 1 := rfl
    rw [membersKeyLength, summaryMembers, List.take_succ_cons, List.map_cons, List.sum_cons,
      String.length_append, String.length_append]
    omega

end

mutual

/-- There is nothing else that grows. -/
theorem length_summary_add_le {v : Value} (hv : v.Fits) :
    (v.summary {}).length + 3 ≤ (leafBound + 3) * (v.keyLength + 1) := by
  cases v with
  | mapping ms =>
    rw [Fits] at hv
    have hshown := sum_summaryMembers_le 6 hv.2
    have hjoin := length_commaJoin_fewMembers_le ((length_summaryMembers ms).trans_lt hv.1)
    have hopen : "\x7b".length = 1 := rfl
    have hclose : "\x7d".length = 1 := rfl
    have hleaf := le_leafBound
    rw [keyLength, summary, String.length_append, String.length_append, Nat.mul_succ]
    change 1 + (commaJoin (fewMembers 6 (summaryMembers ms))).length + 1 + 3 ≤ _
    omega
  | _ =>
    have hleaf := length_summary_le_leafBound hv fun _ => Value.noConfusion
    exact (Nat.add_le_add_right hleaf 3).trans (Nat.le_mul_of_pos_right _ (Nat.succ_pos _))

/-- Each member takes up what its keys do, and a fixed amount beside. -/
theorem sum_summaryMembers_le (n : ℕ) {ms : List (String × Value)} (hms : MembersFit ms) :
    (((summaryMembers ms).take n).map fun t => t.length + 2).sum ≤
      (leafBound + 3) * membersKeyLength n ms := by
  match n, ms with
  | 0, _ => exact Nat.zero_le _
  | n + 1, [] => exact Nat.zero_le _
  | n + 1, (k, v) :: ms =>
    rw [MembersFit] at hms
    have hv := length_summary_add_le hms.1
    have hrest := sum_summaryMembers_le n hms.2
    have hsign : "=".length = 1 := rfl
    have hk : k.length ≤ (leafBound + 3) * k.length := Nat.le_mul_of_pos_left _ (Nat.succ_pos _)
    rw [membersKeyLength, summaryMembers, List.take_succ_cons, List.map_cons, List.sum_cons,
      String.length_append, String.length_append]
    calc k.length + "=".length + (v.summary {}).length + 2 + _
        ≤ (leafBound + 3) * k.length + (leafBound + 3) * (v.keyLength + 1) +
          (leafBound + 3) * membersKeyLength n ms := by omega
      _ = (leafBound + 3) * (k.length + 1 + v.keyLength + membersKeyLength n ms) := by ring

end

/-- The texts of some data have a bound if and only if there is one for what
    the keys take up that they show. -/
theorem summary_bounded_iff {S : Set Value} (hS : ∀ v ∈ S, v.Fits) :
    (∃ N, ∀ v ∈ S, (v.summary {}).length ≤ N) ↔ ∃ N, ∀ v ∈ S, v.keyLength ≤ N := by
  constructor
  · rintro ⟨N, hN⟩
    exact ⟨N, fun v hv => (keyLength_le_length_summary v).trans (hN v hv)⟩
  · rintro ⟨N, hN⟩
    refine ⟨(leafBound + 3) * (N + 1), fun v hv => ?_⟩
    calc (v.summary {}).length
        ≤ (leafBound + 3) * (v.keyLength + 1) :=
          (Nat.le_add_right _ 3).trans (length_summary_add_le (hS v hv))
      _ ≤ (leafBound + 3) * (N + 1) :=
          Nat.mul_le_mul_left _ (Nat.add_le_add_right (hN v hv) 1)

/-- All that are not mappings. -/
theorem summary_bounded_of_not_mapping :
    ∃ N, ∀ v ∈ {v : Value | v.Fits ∧ ∀ ms, v ≠ .mapping ms}, (v.summary {}).length ≤ N := by
  refine (summary_bounded_iff fun v hv => hv.1).2 ⟨0, fun v hv => ?_⟩
  cases v with
  | mapping ms => exact (hv.2 ms rfl).elim
  | _ => exact le_rfl

/-- A datum in `n` mappings, each of which has it as its single member under an
    empty key. -/
def wrapped (v : Value) : ℕ → Value
  | 0 => v
  | n + 1 => .mapping [("", wrapped v n)]

/-- Each mapping around a datum adds the one letter of its key. -/
theorem keyLength_wrapped (v : Value) (n : ℕ) : (v.wrapped n).keyLength = n + v.keyLength := by
  induction n with
  | zero => exact (Nat.zero_add _).symm
  | succ n ih =>
    have hkey : "".length = 0 := rfl
    rw [wrapped, keyLength, membersKeyLength, membersKeyLength_nil, ih, hkey]
    omega

theorem fits_wrapped {v : Value} (hv : v.Fits) (n : ℕ) : (v.wrapped n).Fits := by
  induction n with
  | zero => exact hv
  | succ n ih =>
    rw [wrapped, Fits, MembersFit, MembersFit]
    exact ⟨Nat.one_lt_two_pow (by decide), ih, trivial⟩

/-- There is no bound for the texts of all data: a long key is shown whole, and
    a mapping in mappings is shown at any depth. -/
theorem not_summary_bounded :
    (∀ N, N < (summary {} (.mapping [(String.ofList (List.replicate N 'k'), .null)])).length) ∧
    (∀ N, N < (summary {} (wrapped .null (N + 1))).length) ∧
    ¬ ∃ N, ∀ v : Value, v.Fits → (v.summary {}).length ≤ N := by
  have hdeep : ∀ N, N < (summary {} (wrapped .null (N + 1))).length := by
    intro N
    have h := keyLength_le_length_summary (wrapped .null (N + 1))
    rw [keyLength_wrapped] at h
    omega
  refine ⟨fun N => ?_, hdeep, fun ⟨N, hN⟩ => ?_⟩
  · have h := keyLength_le_length_summary (.mapping [(String.ofList (List.replicate N 'k'), .null)])
    rw [keyLength, membersKeyLength, String.length_ofList, List.length_replicate] at h
    omega
  · have hnull : Fits .null := trivial
    exact (hN _ (fits_wrapped hnull (N + 1))).not_gt (hdeep N)

end Value

end AnchorLayout
