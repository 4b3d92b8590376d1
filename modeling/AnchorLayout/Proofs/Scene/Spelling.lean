import AnchorLayout.ViewBox
import Mathlib

/-!
# The spellings of a view box

A view box is given as a text of four words, as a list or a tuple of the words,
or as a mapping that names them. A text is cut into its words wherever
separators stand, and how many stand there, or at either end, is no matter
(`Text.words_of_spread`). So the spellings of one view box come to the same,
also where a word is no number (`ViewBox.ofValue_spellings`).
-/

namespace AnchorLayout

/-! ## Words -/

namespace Text

variable {separator : Char → Bool}

/-- A word is not empty and has no separators in it. -/
def IsWord (separator : Char → Bool) (w : List Char) : Prop :=
  w ≠ [] ∧ ∀ c ∈ w, separator c = false

/-- A text that is made of words in their order, with separators around them:
    one at least between two words, and any number at either end. -/
inductive Spread (separator : Char → Bool) : List (List Char) → List Char → Prop
  | nil : Spread separator [] []
  | last {w : List Char} : IsWord separator w → Spread separator [w] w
  | word {w : List Char} {c : Char} {ws : List (List Char)} {cs : List Char} :
      IsWord separator w → separator c = true → Spread separator ws cs →
        Spread separator (w :: ws) (w ++ c :: cs)
  | gap {c : Char} {ws : List (List Char)} {cs : List Char} :
      separator c = true → Spread separator ws cs → Spread separator ws (c :: cs)

/-- A run of characters that are no separators is taken in whole. -/
theorem wordsFrom_append {w : List Char} (hw : ∀ c ∈ w, separator c = false)
    (current cs : List Char) :
    wordsFrom separator current (w ++ cs) = wordsFrom separator (w.reverse ++ current) cs := by
  induction w generalizing current with
  | nil => rfl
  | cons c w ih =>
    obtain ⟨hc, hw⟩ := List.forall_mem_cons.1 hw
    rw [List.cons_append, wordsFrom, hc, List.reverse_cons, List.append_assoc]
    exact ih hw (c :: current)

theorem words_of_spread {ws : List (List Char)} {cs : List Char} (h : Spread separator ws cs) :
    words separator cs = ws := by
  rw [words]
  induction h with
  | nil => rfl
  | @last w hw =>
    rw [← List.append_nil w, wordsFrom_append hw.2]
    simp [wordsFrom, hw.1]
  | word hw hc _ ih =>
    rw [wordsFrom_append hw.2, wordsFrom, if_pos hc, ih]
    simp [hw.1]
  | gap hc _ ih =>
    rw [wordsFrom, if_pos hc]
    exact ih

end Text

/-! ## Numbers -/

/-- Of several texts the first that is no number is the error. -/
theorem Value.mapM_toFloat_of_find? {ws : List String} {w : String}
    (h : ws.find? (fun w => (Decimal.readFloat? w).isNone) = some w) :
    (ws.map Value.text).mapM Value.toFloat = .error (.notANumber w) := by
  induction ws with
  | nil => cases h
  | cons v ws ih =>
    rw [List.map_cons, List.mapM_cons, Value.toFloat]
    cases hv : Decimal.readFloat? v with
    | none =>
      obtain rfl : v = w := by simpa [hv] using h
      rfl
    | some x =>
      have hrest : ws.find? (fun w => (Decimal.readFloat? w).isNone) = some w := by
        simpa [hv] using h
      rw [ih hrest]
      rfl

namespace ViewBox

/-- What separates the words of a text: commas and blanks. -/
def isSeparator (c : Char) : Bool := c == ',' || Text.isBlank c

theorem words_of_spread {ws : List String} {text : String}
    (h : Text.Spread isSeparator (ws.map String.toList) text.toList) : words text = ws := by
  change (Text.words isSeparator text.toList).map String.ofList = ws
  rw [Text.words_of_spread h, List.map_map]
  exact List.map_id'' (fun w => String.ofList_toList) ws

/-- The numbers are read in their order before there is a view box. -/
theorem ofNumbers_eq (x y w h : Value) :
    ofNumbers x y w h = (do
      let xs ← [x, y, w, h].mapM Value.toFloat
      return ⟨xs.getD 0 0, xs.getD 1 0, xs.getD 2 0, xs.getD 3 0⟩) := by
  simp only [List.mapM_cons, List.mapM_nil, bind_assoc, pure_bind]
  rfl

/-- A mapping that has four data under the names of a view box, in whatever
    order and beside whatever else. -/
structure NamedIn (members : Members) (minX minY width height : Value) : Prop where
  minX : members.get? "minX" = some minX
  minY : members.get? "minY" = some minY
  width : members.get? "width" = some width
  height : members.get? "height" = some height

theorem ofValue_mapping {members : Members} {x y w h : Value} (hm : NamedIn members x y w h) :
    ofValue (.mapping members) = ofNumbers x y w h := by
  simp only [ofValue, member, hm.minX, hm.minY, hm.width, hm.height]
  rfl

/-- The spellings of a view box agree, whatever its four words are: a text in
    which they stand in their order, apart from each other, the list and the
    tuple of them, and each mapping that has them under the names of a view
    box. It is the view box of the four numbers if all words are numbers, and
    else the first of them that is none is the error. -/
theorem ofValue_spellings {w₁ w₂ w₃ w₄ text : String} {members : Members}
    (htext : Text.Spread isSeparator ([w₁, w₂, w₃, w₄].map String.toList) text.toList)
    (hmembers : NamedIn members (.text w₁) (.text w₂) (.text w₃) (.text w₄)) :
    let outcome := ofValue (.text text)
    ofValue (.list ([w₁, w₂, w₃, w₄].map .text)) = outcome ∧
    ofValue (.tuple ([w₁, w₂, w₃, w₄].map .text)) = outcome ∧
    ofValue (.mapping members) = outcome ∧
    (∀ x y w h, [w₁, w₂, w₃, w₄].map Decimal.readFloat? = [some x, some y, some w, some h] →
      outcome = .ok ⟨x, y, w, h⟩) ∧
    ∀ w, [w₁, w₂, w₃, w₄].find? (fun w => (Decimal.readFloat? w).isNone) = some w →
      outcome = .error (.notANumber w) := by
  intro outcome
  have houtcome : outcome = ofNumbers (.text w₁) (.text w₂) (.text w₃) (.text w₄) := by
    simp only [outcome, ofValue, words_of_spread htext]
  rw [houtcome]
  refine ⟨rfl, rfl, ofValue_mapping hmembers, fun x y w h hread => ?_, fun w hw => ?_⟩
  · simp only [List.map_cons, List.map_nil, List.cons.injEq, and_true] at hread
    obtain ⟨hx, hy, hw, hh⟩ := hread
    simp only [ofNumbers, Value.toFloat, hx, hy, hw, hh]
    rfl
  · have herror : [.text w₁, .text w₂, .text w₃, .text w₄].mapM Value.toFloat =
        .error (.notANumber w) := Value.mapM_toFloat_of_find? hw
    rw [ofNumbers_eq, herror]
    rfl

/-- Four words with all sorts of separators, of which the second is the first
    that is no number. -/
theorem ofValue_spellings_unreadable :
    let text := ",\t1_0,, a\u2003b\n, 1e3 "
    let members : Members := [("height", .text "1e3"), ("minY", .text "a"), ("unit", .text "px"),
      ("minX", .text "1_0"), ("width", .text "b")]
    (Text.Spread isSeparator (["1_0", "a", "b", "1e3"].map String.toList) text.toList ∧
      NamedIn members (.text "1_0") (.text "a") (.text "b") (.text "1e3")) ∧
    ofValue (.text text) = .error (.notANumber "a") ∧
    ofValue (.list (["1_0", "a", "b", "1e3"].map .text)) = ofValue (.text text) ∧
    ofValue (.tuple (["1_0", "a", "b", "1e3"].map .text)) = ofValue (.text text) ∧
    ofValue (.mapping members) = ofValue (.text text) := by
  intro text members
  have hword : ∀ w ∈ [['1', '_', '0'], ['a'], ['b'], ['1', 'e', '3']],
      Text.IsWord isSeparator w := by simp [Text.IsWord, isSeparator, Text.isBlank]
  have hchars : text.toList = [',', '\t', '1', '_', '0', ',', ',', ' ', 'a', '\u2003', 'b', '\n',
    ',', ' ', '1', 'e', '3', ' '] := by cbv
  have hwords : ["1_0", "a", "b", "1e3"].map String.toList =
    [['1', '_', '0'], ['a'], ['b'], ['1', 'e', '3']] := by cbv
  have htext : Text.Spread isSeparator (["1_0", "a", "b", "1e3"].map String.toList)
      text.toList := by
    rw [hchars, hwords]
    exact .gap rfl (.gap rfl (.word (hword _ (by simp)) rfl (.gap rfl (.gap rfl
      (.word (hword _ (by simp)) rfl (.word (hword _ (by simp)) rfl (.gap rfl (.gap rfl
        (.word (hword _ (by simp)) rfl .nil)))))))))
  have hmembers : NamedIn members (.text "1_0") (.text "a") (.text "b") (.text "1e3") :=
    ⟨rfl, rfl, rfl, rfl⟩
  obtain ⟨hlist, htuple, hmapping, -, hbad⟩ := ofValue_spellings htext hmembers
  exact ⟨⟨htext, hmembers⟩, hbad "a" (by decide +kernel), hlist, htuple, hmapping⟩

end ViewBox

end AnchorLayout
