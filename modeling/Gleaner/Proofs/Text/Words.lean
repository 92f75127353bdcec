import Gleaner.Text.Blank

/-!
# Words between blanks

Any text consists of gaps and words in turn: a gap has nothing but blanks, a word has characters
and no blanks, and only the gaps at both ends of the text may be empty. This can be done in one
way only, and `splitWords` finds it. Everything about words follows from one equation,
`splitWords_append`: a blank cuts a text into two parts with words of their own.

* `Text.IsWord`, `Text.AreWords`: a word, and the words of a text;
* `Text.splitWords_eq_iff`: the words that are found are these;
* `Text.areWords_join`: the words of words that are joined by spaces;
* `Text.join_append`: joining some words and then others.
-/

namespace Gleaner.Text

/-- Whether some characters are a word: at least one, and no blank among them. -/
structure IsWord (w : List Char) : Prop where
  ne_nil : w ≠ []
  not_isBlank : ∀ c ∈ w, ¬isBlank c

/-- Whether `ws` are the words of some characters. Behind a word is a blank or the end. -/
inductive AreWords : List Char → List (List Char) → Prop where
  | nil {gap : List Char} : (∀ c ∈ gap, isBlank c) → AreWords gap []
  | cons {gap w rest : List Char} {ws : List (List Char)} : (∀ c ∈ gap, isBlank c) → IsWord w →
    (∀ c ∈ rest.head?, isBlank c) → AreWords rest ws → AreWords (gap ++ (w ++ rest)) (w :: ws)

variable {c : Char} {cs gap w : List Char} {ws : List (List Char)}

theorem AreWords.isWord (h : AreWords cs ws) : ∀ w ∈ ws, IsWord w := by
  induction h with
  | nil => exact nofun
  | cons _ hw _ _ ih => exact List.forall_mem_cons.mpr ⟨hw, ih⟩

/-- A word has its characters from the text. -/
theorem AreWords.subset (h : AreWords cs ws) : ∀ w ∈ ws, w ⊆ cs := by
  induction h with
  | nil => exact nofun
  | cons _ _ _ _ ih =>
    refine List.forall_mem_cons.mpr ⟨?_, fun w hw => ?_⟩
    · exact List.subset_append_of_subset_right _ (List.subset_append_left _ _)
    · exact List.subset_append_of_subset_right _
        (List.subset_append_of_subset_right _ (ih w hw))

/-- A text may start with a word. -/
theorem AreWords.word_append {rest : List Char} (hw : IsWord w)
    (hrest : ∀ c ∈ rest.head?, isBlank c) (h : AreWords rest ws) :
    AreWords (w ++ rest) (w :: ws) := by
  rw [← List.nil_append (w ++ rest)]
  exact .cons nofun hw hrest h

/-- A blank in front belongs to no word. -/
theorem AreWords.blank_cons (hc : isBlank c) (h : AreWords cs ws) : AreWords (c :: cs) ws := by
  cases h with
  | nil hgap => exact .nil (List.forall_mem_cons.mpr ⟨hc, hgap⟩)
  | @cons gap w rest ws hgap hw hrest h =>
    rw [← List.cons_append]
    exact .cons (List.forall_mem_cons.mpr ⟨hc, hgap⟩) hw hrest h

/-- A character that is no blank makes the first word longer, or is a word of its own. -/
theorem AreWords.exists_cons (hc : ¬isBlank c) (h : AreWords cs ws) :
    ∃ ws, AreWords (c :: cs) ws := by
  have hword : IsWord [c] := ⟨List.cons_ne_nil _ _, List.forall_mem_singleton.mpr hc⟩
  cases h with
  | nil hgap =>
    exact ⟨_, .word_append hword (fun d hd => hgap d (List.mem_of_mem_head? hd)) (.nil hgap)⟩
  | @cons gap w rest ws hgap hw hrest h =>
    cases gap with
    | nil =>
      have hlonger : IsWord (c :: w) :=
        ⟨List.cons_ne_nil _ _, List.forall_mem_cons.mpr ⟨hc, hw.not_isBlank⟩⟩
      exact ⟨_, .word_append hlonger hrest h⟩
    | cons d gap =>
      have hd : ∀ c ∈ (d :: gap ++ (w ++ rest)).head?, isBlank c := fun c hc => by
        cases hc
        exact hgap d List.mem_cons_self
      exact ⟨_, .word_append hword hd (.cons hgap hw hrest h)⟩

theorem exists_areWords : ∀ cs : List Char, ∃ ws, AreWords cs ws
  | [] => ⟨[], .nil nofun⟩
  | c :: cs => by
    obtain ⟨ws, h⟩ := exists_areWords cs
    by_cases hc : isBlank c
    · exact ⟨ws, h.blank_cons hc⟩
    · exact h.exists_cons hc

/-! ## The words that are found -/

theorem splitWords_nil : splitWords [] = [] := by decide

theorem splitWords_append (hc : isBlank c) (xs ys : List Char) :
    splitWords (xs ++ c :: ys) = splitWords xs ++ splitWords ys := by
  unfold splitWords
  rw [List.splitOnP_append_cons xs ys hc, List.filter_append]

theorem splitWords_cons (hc : isBlank c) (cs : List Char) : splitWords (c :: cs) = splitWords cs :=
  splitWords_append hc [] cs

theorem splitWords_gap_append (h : ∀ c ∈ gap, isBlank c) (cs : List Char) :
    splitWords (gap ++ cs) = splitWords cs := by
  induction gap with
  | nil => rfl
  | cons c gap ih =>
    obtain ⟨hc, h⟩ := List.forall_mem_cons.mp h
    rw [List.cons_append, splitWords_cons hc, ih h]

theorem IsWord.splitWords_eq (h : IsWord w) : splitWords w = [w] := by
  have hblank : ∀ c ∈ w, isBlank c = false := fun c hc => Bool.not_eq_true _ ▸ h.not_isBlank c hc
  rw [splitWords, List.splitOnP_eq_singleton hblank]
  simp [h.ne_nil]

/-- The words in front of a blank or the end of a text. -/
theorem IsWord.splitWords_append (h : IsWord w) (hcs : ∀ c ∈ cs.head?, isBlank c) :
    splitWords (w ++ cs) = w :: splitWords cs := by
  cases cs with
  | nil => rw [List.append_nil, h.splitWords_eq, splitWords_nil]
  | cons c cs =>
    have hc : isBlank c := hcs c rfl
    rw [Text.splitWords_append hc, h.splitWords_eq, splitWords_cons hc, List.singleton_append]

theorem AreWords.splitWords_eq (h : AreWords cs ws) : splitWords cs = ws := by
  induction h with
  | @nil gap hgap => rw [← gap.append_nil, splitWords_gap_append hgap, splitWords_nil]
  | cons hgap hw hrest _ ih =>
    rw [splitWords_gap_append hgap, hw.splitWords_append hrest, ih]

theorem splitWords_eq_iff : splitWords cs = ws ↔ AreWords cs ws := by
  constructor
  · rintro rfl
    obtain ⟨ws, h⟩ := exists_areWords cs
    rwa [h.splitWords_eq]
  · exact AreWords.splitWords_eq

theorem areWords_splitWords (cs : List Char) : AreWords cs (splitWords cs) :=
  splitWords_eq_iff.mp rfl

/-! ## Words joined by spaces -/

theorem areWords_join : ∀ {ws : List (List Char)}, (∀ w ∈ ws, IsWord w) →
    AreWords ([' '].intercalate ws) ws
  | [], _ => .nil nofun
  | [w], h => by
    have hw : AreWords (w ++ []) [w] := .word_append (h w List.mem_cons_self) nofun (.nil nofun)
    rw [List.intercalate_singleton]
    rwa [List.append_nil] at hw
  | w :: v :: ws, h => by
    obtain ⟨hw, h⟩ := List.forall_mem_cons.mp h
    have hspace : isBlank ' ' := by decide
    have hrest : AreWords (' ' :: [' '].intercalate (v :: ws)) (v :: ws) :=
      (areWords_join h).blank_cons hspace
    rw [List.intercalate_cons_cons, List.append_assoc]
    exact .word_append hw (fun c hc => by cases hc; exact hspace) hrest

theorem splitWords_join (h : ∀ w ∈ ws, IsWord w) : splitWords ([' '].intercalate ws) = ws :=
  (areWords_join h).splitWords_eq

theorem join_append {ys : List (List Char)} (hys : ys ≠ []) : ∀ {xs : List (List Char)}, xs ≠ [] →
    [' '].intercalate (xs ++ ys) = [' '].intercalate xs ++ ' ' :: [' '].intercalate ys
  | [], hxs => absurd rfl hxs
  | [x], _ => by
    obtain ⟨y, ys, rfl⟩ := List.exists_cons_of_ne_nil hys
    rw [List.singleton_append, List.intercalate_cons_cons, List.intercalate_singleton,
      List.append_assoc, List.singleton_append]
  | x :: x' :: xs, _ => by
    have ih := join_append hys (List.cons_ne_nil x' xs)
    rw [List.cons_append, List.cons_append, List.intercalate_cons_cons, ← List.cons_append, ih,
      List.intercalate_cons_cons, List.append_assoc (x ++ [' '])]

end Gleaner.Text
