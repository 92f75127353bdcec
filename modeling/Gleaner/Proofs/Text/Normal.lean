import Gleaner.Proofs.Fault.Results
import Gleaner.Proofs.Table.Projection
import Gleaner.Proofs.Text.Words

/-!
# Normal texts

The normal form of a text has the words that the text has once its double quotes are gone, with
one space between two of them. So it shows these words and nothing else: two texts have the same
normal form exactly if they have the same words. Quotes go first, since a word may have quotes
inside, and nothing but quotes may stand between two blanks.

* `Text.IsNormal`: no quotes, and spaces only where one space stands between two words;
* `Text.splitWords_normalizeChars`: the words of the normal form;
* `Text.normalize_append`: the normal form of two texts with a space between them;
* `Table.cells_of_project`: the cells of a projected table;
* `Text.normalize_normalForm`: the whole statement.
-/

namespace Gleaner

namespace Text

variable {c : Char} {cs w : List Char} {ws : List (List Char)}

/-- Whether some characters have no double quote among them, and no blank but single spaces with
another character on both sides. -/
structure IsNormal (cs : List Char) : Prop where
  no_quote : '"' ∉ cs
  single : ∀ front c back, cs = front ++ c :: back → isBlank c →
    c = ' ' ∧ (∃ d ∈ front.getLast?, ¬isBlank d) ∧ ∃ d ∈ back.head?, ¬isBlank d

/-! ## Words joined by spaces -/

theorem IsWord.exists_getLast? (h : IsWord w) : ∃ d ∈ w.getLast?, ¬isBlank d :=
  ⟨_, List.getLast?_eq_some_getLast h.ne_nil, h.not_isBlank _ (List.getLast_mem h.ne_nil)⟩

theorem IsWord.exists_head?_join (h : IsWord w) (ws : List (List Char)) :
    ∃ d ∈ ([' '].intercalate (w :: ws)).head?, ¬isBlank d := by
  obtain ⟨d, w, rfl⟩ := List.exists_cons_of_ne_nil h.ne_nil
  refine ⟨d, ?_, h.not_isBlank d List.mem_cons_self⟩
  cases ws with
  | nil => rw [List.intercalate_singleton, List.head?_cons, Option.mem_some]
  | cons v ws => rw [List.intercalate_cons_cons]; rfl

/-- A blank between joined words is a single space. -/
theorem single_join : ∀ {ws : List (List Char)}, (∀ w ∈ ws, IsWord w) →
    ∀ {front back : List Char} {c : Char}, [' '].intercalate ws = front ++ c :: back → isBlank c →
      c = ' ' ∧ (∃ d ∈ front.getLast?, ¬isBlank d) ∧ ∃ d ∈ back.head?, ¬isBlank d
  | [], _, front, back, c, hcut, _ => by
    rw [List.intercalate_nil] at hcut
    cases front <;> cases hcut
  | [w], h, front, back, c, hcut, hc => by
    rw [List.intercalate_singleton] at hcut
    exact absurd hc ((h w List.mem_cons_self).not_isBlank c (by simp [hcut]))
  | w :: v :: ws, h, front, back, c, hcut, hc => by
    obtain ⟨hw, h⟩ := List.forall_mem_cons.mp h
    have hv : IsWord v := h v List.mem_cons_self
    rw [List.intercalate_cons_cons, List.append_assoc, List.singleton_append] at hcut
    rcases List.append_eq_append_iff.mp hcut with ⟨as, rfl, hrest⟩ | ⟨as, rfl, hrest⟩
    · -- The blank stands behind the first word: it is the next space, or a later one.
      cases as with
      | nil =>
        obtain ⟨rfl, rfl⟩ := List.cons.inj hrest
        rw [List.append_nil]
        exact ⟨rfl, hw.exists_getLast?, hv.exists_head?_join ws⟩
      | cons a as =>
        rw [List.cons_append] at hrest
        obtain ⟨rfl, htail⟩ := List.cons.inj hrest
        obtain ⟨hspace, ⟨d, hd, hblank⟩, hback⟩ := single_join h htail hc
        refine ⟨hspace, ⟨d, ?_, hblank⟩, hback⟩
        rw [List.getLast?_append_cons, List.getLast?_cons, Option.mem_def.mp hd]
        rfl
    · cases as with
      | nil =>
        obtain ⟨rfl, rfl⟩ := List.cons.inj hrest
        rw [List.append_nil] at hw
        exact ⟨rfl, hw.exists_getLast?, hv.exists_head?_join ws⟩
      | cons a as =>
        -- It would stand in the first word.
        rw [List.cons_append] at hrest
        obtain ⟨rfl, -⟩ := List.cons.inj hrest
        exact absurd hc (hw.not_isBlank c (by simp))

/-! ## The normal form -/

theorem mem_dropQuotes_iff : c ∈ dropQuotes cs ↔ c ∈ cs ∧ c ≠ '"' := by
  simp [dropQuotes]

theorem isWord_of_mem_splitWords (h : w ∈ splitWords cs) : IsWord w :=
  (areWords_splitWords cs).isWord w h

theorem splitWords_normalizeChars (cs : List Char) :
    splitWords (normalizeChars cs) = splitWords (dropQuotes cs) :=
  splitWords_join fun _ => isWord_of_mem_splitWords

/-- Nothing but spaces comes in between when words are joined. -/
theorem mem_of_mem_join : ∀ {ws : List (List Char)}, c ∈ [' '].intercalate ws →
    c = ' ' ∨ ∃ w ∈ ws, c ∈ w
  | [], h => absurd h List.not_mem_nil
  | [w], h => by
    rw [List.intercalate_singleton] at h
    exact .inr ⟨w, List.mem_cons_self, h⟩
  | w :: v :: ws, h => by
    rw [List.intercalate_cons_cons, List.append_assoc, List.singleton_append, List.mem_append,
      List.mem_cons] at h
    obtain hw | hspace | hrest := h
    · exact .inr ⟨w, List.mem_cons_self, hw⟩
    · exact .inl hspace
    · exact (mem_of_mem_join hrest).imp_right fun ⟨u, hu, hc⟩ => ⟨u, List.mem_cons_of_mem _ hu, hc⟩

theorem isNormal_normalizeChars (cs : List Char) : IsNormal (normalizeChars cs) where
  no_quote hquote := by
    rcases mem_of_mem_join hquote with h | ⟨w, hw, hmem⟩
    · cases h
    · exact (mem_dropQuotes_iff.mp ((areWords_splitWords _).subset w hw hmem)).2 rfl
  single _ _ _ := single_join fun _ => isWord_of_mem_splitWords

theorem dropQuotes_of_not_mem (h : '"' ∉ cs) : dropQuotes cs = cs :=
  List.filter_eq_self.mpr fun c hc => by
    simpa using ne_of_mem_of_not_mem hc h

theorem normalizeChars_normalizeChars (cs : List Char) :
    normalizeChars (normalizeChars cs) = normalizeChars cs := by
  rw [normalizeChars, dropQuotes_of_not_mem (isNormal_normalizeChars cs).no_quote,
    splitWords_normalizeChars]
  rfl

theorem normalizeChars_eq_iff {cs ds : List Char} : normalizeChars cs = normalizeChars ds ↔
    splitWords (dropQuotes cs) = splitWords (dropQuotes ds) := by
  refine ⟨fun h => ?_, fun h => congrArg [' '].intercalate h⟩
  rw [← splitWords_normalizeChars cs, ← splitWords_normalizeChars ds, h]

theorem normalizeChars_eq_nil_iff : normalizeChars cs = [] ↔ splitWords (dropQuotes cs) = [] := by
  refine ⟨fun h => ?_, fun h => ?_⟩
  · rw [← splitWords_normalizeChars, h, splitWords_nil]
  · rw [normalizeChars, h, List.intercalate_nil]

/-- The normal form of two texts with a space between them. -/
theorem normalizeChars_append (cs ds : List Char) :
    normalizeChars (cs ++ ' ' :: ds) =
      if normalizeChars cs = [] then normalizeChars ds
      else if normalizeChars ds = [] then normalizeChars cs
      else normalizeChars cs ++ ' ' :: normalizeChars ds := by
  have hwords : splitWords (dropQuotes (cs ++ ' ' :: ds)) =
      splitWords (dropQuotes cs) ++ splitWords (dropQuotes ds) := by
    rw [dropQuotes, List.filter_append, List.filter_cons_of_pos (by decide)]
    exact splitWords_append (by decide) _ _
  by_cases hcs : normalizeChars cs = []
  · rw [if_pos hcs, normalizeChars, hwords, normalizeChars_eq_nil_iff.mp hcs, List.nil_append]
    rfl
  · rw [if_neg hcs]
    by_cases hds : normalizeChars ds = []
    · rw [if_pos hds, normalizeChars, hwords, normalizeChars_eq_nil_iff.mp hds, List.append_nil]
      rfl
    · rw [if_neg hds, normalizeChars, hwords]
      exact join_append (mt normalizeChars_eq_nil_iff.mpr hds)
        (mt normalizeChars_eq_nil_iff.mpr hcs)

/-- In a normal text, spaces are the only blanks. -/
theorem IsNormal.eq_space (h : IsNormal cs) (hc : c ∈ cs) (hblank : isBlank c) : c = ' ' := by
  obtain ⟨front, back, hcut⟩ := List.append_of_mem hc
  exact (h.single front c back hcut hblank).1

theorem normalize_eq_iff {s t : String} :
    normalize s = normalize t ↔ normalizeChars s.toList = normalizeChars t.toList :=
  String.ofList_inj

theorem normalize_eq_empty_iff {s : String} : normalize s = "" ↔ normalizeChars s.toList = [] :=
  String.ofList_inj

theorem normalize_normalize (s : String) : normalize (normalize s) = normalize s := by
  rw [normalize_eq_iff, normalize, String.toList_ofList, normalizeChars_normalizeChars]

/-- Texts have the same normal form exactly if they have the same words. -/
theorem normalize_eq_iff_areWords {s t : String} : normalize s = normalize t ↔
    ∃ ws, AreWords (dropQuotes s.toList) ws ∧ AreWords (dropQuotes t.toList) ws := by
  rw [normalize_eq_iff, normalizeChars_eq_iff]
  simp only [← splitWords_eq_iff]
  exact ⟨fun h => ⟨_, h, rfl⟩, fun ⟨_, hs, ht⟩ => hs.trans ht.symm⟩

theorem normalize_append (s t : String) :
    normalize (s ++ " " ++ t) =
      if normalize s = "" then normalize t
      else if normalize t = "" then normalize s
      else normalize s ++ " " ++ normalize t := by
  have htoList : (s ++ " " ++ t).toList = s.toList ++ ' ' :: t.toList := by simp
  have happend := normalizeChars_append s.toList t.toList
  rw [normalize, htoList, happend]
  simp only [normalize_eq_empty_iff]
  split
  · rfl
  · split
    · rfl
    · exact String.toList_inj.mp (by simp [normalize])

end Text

/-! ## Cells -/

namespace Table

variable {d : Document} {source : NodeId} {filter : Filter} {constants : List (String × String)}
  {enforce : Option Nat} {t : Table}

/-- A header cell has underscores where the normal form has spaces. -/
theorem not_isBlank_of_mem_headerCell {s : String} {c : Char} (hc : c ∈ (headerCell s).toList) :
    ¬Text.isBlank c := by
  rw [headerCell, String.toList_ofList] at hc
  obtain ⟨b, hb, rfl⟩ := List.mem_map.mp hc
  by_cases hspace : b = ' '
  · rw [if_pos hspace]
    decide
  · rw [if_neg hspace]
    exact fun hblank => hspace ((Text.isNormal_normalizeChars s.toList).eq_space hb hblank)

/-- The cells that a projection takes from a document: behind the names of the constants there are
texts without blanks in the header, and behind their values normal texts in each row. -/
theorem cells_of_project (h : project d source filter constants enforce = .ok t) :
    (∃ cells, t.header = constants.map (·.1) ++ cells ∧
      ∀ s ∈ cells, ∀ c ∈ s.toList, ¬Text.isBlank c) ∧
    ∀ row ∈ t.rows, ∃ cells, row = constants.map (·.2) ++ cells ∧
      ∀ s ∈ cells, Text.normalize s = s := by
  rw [project_eq_map] at h
  obtain ⟨i, -, rfl⟩ := map_eq_ok.mp h
  cases d.findAll i "tr" .any with
  | nil => exact ⟨⟨[], (List.append_nil _).symm, nofun⟩, nofun⟩
  | cons first rest =>
    refine ⟨⟨_, rfl, fun s hs c hc => ?_⟩, fun row hrow => ?_⟩
    · obtain ⟨j, -, rfl⟩ := List.mem_map.mp hs
      exact not_isBlank_of_mem_headerCell hc
    · obtain ⟨tr, -, rfl⟩ := List.mem_map.mp hrow
      refine ⟨_, rfl, fun s hs => ?_⟩
      obtain ⟨j, -, rfl⟩ := List.mem_map.mp hs
      exact Text.normalize_normalize _

end Table

namespace Text

/-- The normal form of a text has no double quotes and no blanks but single spaces between its
words, which are those of the text without its quotes. It is its own normal form. Texts with the
same words have the same one, and no others. For two texts with a space between them it is made of
theirs. Cells that are taken from a document are normal, and those of the header have no blanks. -/
theorem normalize_normalForm :
    (∀ s, IsNormal (normalize s).toList ∧
      ∃ ws, AreWords (dropQuotes s.toList) ws ∧ AreWords (normalize s).toList ws) ∧
    (∀ s, normalize (normalize s) = normalize s) ∧
    (∀ s t, normalize s = normalize t ↔
      ∃ ws, AreWords (dropQuotes s.toList) ws ∧ AreWords (dropQuotes t.toList) ws) ∧
    (∀ s t, normalize (s ++ " " ++ t) =
      if normalize s = "" then normalize t
      else if normalize t = "" then normalize s
      else normalize s ++ " " ++ normalize t) ∧
    ∀ d source filter constants enforce t,
      Table.project d source filter constants enforce = .ok t →
      (∃ cells, t.header = constants.map (·.1) ++ cells ∧
        ∀ s ∈ cells, ∀ c ∈ s.toList, ¬isBlank c) ∧
      ∀ row ∈ t.rows, ∃ cells, row = constants.map (·.2) ++ cells ∧
        ∀ s ∈ cells, normalize s = s := by
  refine ⟨fun s => ?_, normalize_normalize, fun s t => normalize_eq_iff_areWords, normalize_append,
    fun d source filter constants enforce t h => Table.cells_of_project h⟩
  have hnormal := isNormal_normalizeChars s.toList
  rw [normalize, String.toList_ofList]
  exact ⟨hnormal, _, areWords_splitWords _, splitWords_eq_iff.mp (splitWords_normalizeChars _)⟩

/-- The operations for a table whose cells have quotes, line ends and wide spaces in them. -/
def untidyOperations : List Builder.Operation :=
  [.openElement "table" [], .openElement "tr" [], .element "th" [] " Price\n per \"hour\" ", .close,
    .openElement "tr" [], .element "td" [] "\"\" On\u00a0 \" \" Demand"]

/-- What is not taken from the document stays as it is. -/
theorem normalize_normalForm_untidy :
    Table.project (Builder.build untidyOperations) Document.root .any
      [("price unit", " EUR ")] none =
        .ok ⟨["price unit", "Price_per_hour"], [[" EUR ", "On Demand"]]⟩ ∧
    ∀ row ∈ [[" EUR ", "On Demand"]], ∃ cells, row = [" EUR "] ++ cells ∧
      ∀ s ∈ cells, normalize s = s := by
  have hproject : Table.project (Builder.build untidyOperations) Document.root .any
      [("price unit", " EUR ")] none =
        .ok ⟨["price unit", "Price_per_hour"], [[" EUR ", "On Demand"]]⟩ := by decide +kernel
  obtain ⟨-, -, -, -, hcells⟩ := normalize_normalForm
  exact ⟨hproject, (hcells _ _ _ _ _ _ hproject).2⟩

end Text

end Gleaner
