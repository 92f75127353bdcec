import Mathlib.Control.Monad.Basic
import Gleaner.Proofs.Output.Directory

/-!
# Records that are read back

The rules of CSV as RFC 4180 gives them, apart from any writer: a field is plain text
without commas, quotes and ends of lines, or any text in quotes with each quote written
twice; a record is some fields with commas between them; a text is some records, each
with the end of its line, which may be left out at the end of the text. A line ends
with a line feed, with or without a carriage return before it. No record is a header,
and records may differ in length.

* `Csv.IsField`, `Csv.IsRecord`, `Csv.IsText`: how a field, a record and some records
  may be written;
* `Csv.read`: a reader of such texts, one character after the other;
* `Csv.IsText.readFrom`: it reads every text that follows the rules;
* `Csv.isText_text`, `Csv.read_text`: so do the texts of `Csv.text`, which are read
  back as the records that were written. Only a record of no fields is read as one of
  a single empty field;
* `OutputDirectory.save_table`: the file of a table, which is written whatever the
  lengths of its rows are.
-/

namespace Gleaner

namespace Csv

/-! ## The rules -/

/-- A text between quotes, and what it stands for. -/
inductive IsQuoted : List Char → List Char → Prop where
  | nil : IsQuoted [] []
  | char {c : Char} {written cs : List Char} (hc : c ≠ '"') (h : IsQuoted written cs) :
    IsQuoted (c :: written) (c :: cs)
  | quote {written cs : List Char} (h : IsQuoted written cs) :
    IsQuoted ('"' :: '"' :: written) ('"' :: cs)

/-- A field as it is written, and what it stands for. -/
inductive IsField : List Char → List Char → Prop where
  | plain {cs : List Char} (h : ∀ c ∈ cs, c ≠ ',' ∧ c ≠ '"' ∧ c ≠ '\r' ∧ c ≠ '\n') : IsField cs cs
  | quoted {written cs : List Char} (h : IsQuoted written cs) :
    IsField ('"' :: (written ++ ['"'])) cs

/-- A record as it is written, without the end of its line, and its fields. -/
inductive IsRecord : List Char → List String → Prop where
  | single {written cs : List Char} (h : IsField written cs) : IsRecord written [String.ofList cs]
  | cons {first cs written : List Char} {fields : List String} (h : IsField first cs)
    (hs : IsRecord written fields) : IsRecord (first ++ ',' :: written) (String.ofList cs :: fields)

/-- The end of a line. -/
inductive IsLineEnd : List Char → Prop where
  | lf : IsLineEnd ['\n']
  | crlf : IsLineEnd ['\r', '\n']

/-- A text and its records. -/
inductive IsText : List Char → List (List String) → Prop where
  | nil : IsText [] []
  /-- A last line without an end. -/
  | last {written : List Char} {fields : List String} (h : IsRecord written fields)
    (hne : written ≠ []) : IsText written [fields]
  | cons {written lineEnd rest : List Char} {fields : List String} {records : List (List String)}
    (h : IsRecord written fields) (he : IsLineEnd lineEnd) (hs : IsText rest records) :
    IsText (written ++ (lineEnd ++ rest)) (fields :: records)

/-! ## Reading -/

/-- Where a reader stands in a text. -/
inductive Spot where
  /-- Before a record. -/
  | record
  /-- Before a field, after a comma. -/
  | field
  /-- In a plain field. -/
  | plain
  /-- In a field in quotes. -/
  | quoted
  /-- After a quote in such a field, which ends it or is the first half of another quote. -/
  | quote
  /-- After a carriage return, which must be the first half of the end of a line. -/
  | lineEnd
  deriving DecidableEq, Repr

/-- Reads the rest of a text from a spot on, after some fields of a record and some
characters of a field. There is no result if a quote stands in a plain field, if a
field in quotes is not closed or goes on behind its closing quote, and if a carriage
return stands alone. -/
def readFrom (spot : Spot) (fields : List String) (cs : List Char) :
    List Char → Option (List (List String))
  | [] =>
    match spot with
    | .record => some []
    | .quoted | .lineEnd => none
    | .field | .plain | .quote => some [fields ++ [String.ofList cs]]
  | c :: rest =>
    match spot with
    | .quoted =>
      if c = '"' then readFrom .quote fields cs rest
      else readFrom .quoted fields (cs ++ [c]) rest
    | .lineEnd =>
      if c = '\n' then
        (readFrom .record [] [] rest).map ((fields ++ [String.ofList cs]) :: ·)
      else none
    | spot =>
      if c = ',' then readFrom .field (fields ++ [String.ofList cs]) [] rest
      else if c = '\n' then
        (readFrom .record [] [] rest).map ((fields ++ [String.ofList cs]) :: ·)
      else if c = '\r' then readFrom .lineEnd fields cs rest
      else if c = '"' then
        match spot with
        | .plain => none
        | .quote => readFrom .quoted fields (cs ++ ['"']) rest
        | _ => readFrom .quoted fields cs rest
      else if spot = .quote then none
      else readFrom .plain fields (cs ++ [c]) rest

/-- The records of a text. -/
def read (text : String) : Option (List (List String)) :=
  readFrom .record [] [] text.toList

/-- A spot where a field may start. -/
def Spot.Starts (spot : Spot) : Prop :=
  spot = .record ∨ spot = .field

/-- A spot where a field may end. -/
def Spot.Ends (spot : Spot) : Prop :=
  spot ≠ .quoted ∧ spot ≠ .lineEnd

variable {spot : Spot} {fields : List String} {cs : List Char}

theorem Spot.Starts.ends (h : spot.Starts) : spot.Ends := by
  rcases h with rfl | rfl <;> exact ⟨nofun, nofun⟩

theorem readFrom_nil (h : spot.Ends) (hr : spot ≠ .record) :
    readFrom spot fields cs [] = some [fields ++ [String.ofList cs]] := by
  cases spot with
  | record => exact (hr rfl).elim
  | quoted => exact (h.1 rfl).elim
  | lineEnd => exact (h.2 rfl).elim
  | field => rfl
  | plain => rfl
  | quote => rfl

theorem readFrom_comma (h : spot.Ends) (rest : List Char) :
    readFrom spot fields cs (',' :: rest) =
      readFrom .field (fields ++ [String.ofList cs]) [] rest := by
  cases spot with
  | quoted => exact (h.1 rfl).elim
  | lineEnd => exact (h.2 rfl).elim
  | _ => rfl

theorem readFrom_lineEnd {lineEnd : List Char} (h : spot.Ends) (he : IsLineEnd lineEnd)
    (rest : List Char) :
    readFrom spot fields cs (lineEnd ++ rest) =
      (readFrom .record [] [] rest).map ((fields ++ [String.ofList cs]) :: ·) := by
  cases spot with
  | quoted => exact (h.1 rfl).elim
  | lineEnd => exact (h.2 rfl).elim
  | _ => cases he <;> rfl

/-- Plain characters are read into the field. -/
theorem readFrom_plain (h : spot.Starts ∨ spot = .plain)
    (hcs : ∀ c ∈ cs, c ≠ ',' ∧ c ≠ '"' ∧ c ≠ '\r' ∧ c ≠ '\n') (before rest : List Char) :
    readFrom spot fields before (cs ++ rest) =
      readFrom (if cs = [] then spot else .plain) fields (before ++ cs) rest := by
  induction cs generalizing spot before with
  | nil => rw [if_pos rfl, List.append_nil, List.nil_append]
  | cons c cs ih =>
    obtain ⟨hcomma, hquote, hcr, hlf⟩ := hcs c List.mem_cons_self
    have hstep : readFrom spot fields before (c :: (cs ++ rest)) =
        readFrom .plain fields (before ++ [c]) (cs ++ rest) := by
      rcases h with (rfl | rfl) | rfl <;> simp [readFrom, hcomma, hquote, hcr, hlf]
    rw [List.cons_append, hstep, ih (.inr rfl) fun c hc => hcs c (List.mem_cons_of_mem _ hc),
      ite_self, if_neg (List.cons_ne_nil c cs), List.append_assoc, List.singleton_append]

/-- A field in quotes is read up to its closing quote. -/
theorem IsQuoted.readFrom {written : List Char} (h : IsQuoted written cs)
    (before rest : List Char) :
    readFrom .quoted fields before (written ++ '"' :: rest) =
      readFrom .quote fields (before ++ cs) rest := by
  induction h generalizing before with
  | nil =>
    rw [List.append_nil]
    rfl
  | char hc _ ih =>
    rw [List.cons_append, Csv.readFrom, if_neg hc, ih, List.append_assoc]
    rfl
  | @quote written cs _ ih =>
    show Csv.readFrom .quoted fields (before ++ ['"']) (written ++ '"' :: rest) = _
    rw [ih, List.append_assoc]
    rfl

/-- A field is read to a spot where it may end. This is a spot before a record only if
nothing was read. -/
theorem IsField.readFrom {written : List Char} (h : IsField written cs) (hspot : spot.Starts)
    (fields : List String) :
    ∃ after : Spot, after.Ends ∧ (after = .record → spot = .record ∧ written = []) ∧
      ∀ rest, readFrom spot fields [] (written ++ rest) = readFrom after fields cs rest := by
  cases h with
  | plain h =>
    refine ⟨if cs = [] then spot else .plain, ?_, fun he => ?_, readFrom_plain (.inl hspot) h []⟩
    · split
      · exact hspot.ends
      · exact ⟨nofun, nofun⟩
    · split at he
      · exact ⟨he, ‹_›⟩
      · cases he
  | @quoted written _ h =>
    refine ⟨.quote, ⟨nofun, nofun⟩, nofun, fun rest => ?_⟩
    rw [List.cons_append, List.append_assoc]
    rcases hspot with rfl | rfl <;> exact h.readFrom [] rest

/-- A record is read to a spot where its last field may end. -/
theorem IsRecord.readFrom {written : List Char} {record : List String}
    (h : IsRecord written record) (hspot : spot.Starts) (fields : List String) :
    ∃ (after : Spot) (before : List String) (cs : List Char),
      after.Ends ∧ (after = .record → spot = .record ∧ written = []) ∧
      before ++ [String.ofList cs] = fields ++ record ∧
      ∀ rest, readFrom spot fields [] (written ++ rest) = readFrom after before cs rest := by
  induction h generalizing spot fields with
  | @single written cs h =>
    obtain ⟨after, hends, hrecord, hread⟩ := h.readFrom hspot fields
    exact ⟨after, fields, cs, hends, hrecord, rfl, hread⟩
  | @cons first cs written record h _ ih =>
    obtain ⟨after, hends, -, hread⟩ := h.readFrom hspot fields
    obtain ⟨last, before, ds, hlast, hrecord, hbefore, hrest⟩ :=
      ih (.inr rfl) (fields ++ [String.ofList cs])
    refine ⟨last, before, ds, hlast, fun he => ?_, ?_, fun rest => ?_⟩
    · cases (hrecord he).1
    · rw [hbefore, List.append_assoc]
      rfl
    · rw [List.append_assoc, hread, List.cons_append, readFrom_comma hends, hrest]

/-- Every text that follows the rules is read as the records that it stands for. -/
theorem IsText.readFrom {written : List Char} {records : List (List String)}
    (h : IsText written records) : readFrom .record [] [] written = some records := by
  induction h with
  | nil => rfl
  | @last written record h hne =>
    obtain ⟨after, before, cs, hends, hrecord, hfields, hread⟩ := h.readFrom (.inl rfl) []
    have hend := hread []
    rw [List.append_nil, readFrom_nil hends fun he => hne (hrecord he).2, hfields] at hend
    exact hend
  | @cons written lineEnd rest record records h he _ ih =>
    obtain ⟨after, before, cs, hends, -, hfields, hread⟩ := h.readFrom (.inl rfl) []
    rw [hread, readFrom_lineEnd hends he, ih, hfields]
    rfl

/-- Quotes, ends of lines in quotes and elsewhere, and a last line without an end. -/
example : read "a,\"b,\"\"c\"\"\r\n\"\r\n\n,\"\"" =
    some [["a", "b,\"c\"\r\n"], [""], ["", ""]] := by decide

/-! ## Writing -/

theorem isQuoted_doubled : ∀ cs : List Char, IsQuoted (doubled cs) cs
  | [] => .nil
  | c :: cs => by
    have ih := isQuoted_doubled cs
    by_cases hc : c = '"'
    · subst hc
      exact .quote ih
    · have hdoubled : doubled (c :: cs) = c :: doubled cs := by simp [doubled, hc]
      rw [hdoubled]
      exact .char hc ih

theorem isField_field (cs : List Char) : IsField (field cs) cs := by
  unfold field
  split
  · exact .quoted (isQuoted_doubled cs)
  · rename_i h
    refine .plain fun c hc => ?_
    have hspecial : isSpecial c = false := by
      rw [Bool.eq_false_iff]
      exact fun hs => h (List.any_eq_true.mpr ⟨c, hc, hs⟩)
    simpa [isSpecial, not_or, and_assoc] using hspecial

theorem line_cons_cons (f g : String) (fields : List String) :
    line (f :: g :: fields) = field f.toList ++ ',' :: line (g :: fields) := by
  simp [line, List.intercalate]

theorem isRecord_line (f : String) (fields : List String) :
    IsRecord (line (f :: fields)) (f :: fields) := by
  induction fields generalizing f with
  | nil =>
    have h := IsRecord.single (isField_field f.toList)
    rw [String.ofList_toList] at h
    simpa [line, List.intercalate] using h
  | cons g fields ih =>
    have h := IsRecord.cons (isField_field f.toList) (ih g)
    rw [String.ofList_toList] at h
    rw [line_cons_cons]
    exact h

/-- A record as it is read back: there is at least one field in it. -/
def shown (fields : List String) : List String :=
  if fields = [] then [""] else fields

/-- A line is empty only if there is no text in the record. -/
theorem shown_of_line_eq_nil {fields : List String} (h : line fields = []) :
    shown fields = [""] := by
  match fields, h with
  | [], _ => rfl
  | [f], h =>
    have hfield : field f.toList = [] := by simpa [line, List.intercalate] using h
    have hf : f.toList = [] := by
      unfold field at hfield
      split at hfield
      · cases hfield
      · exact hfield
    rw [String.toList_eq_nil_iff.mp hf]
    rfl
  | f :: g :: fields, h =>
    rw [line_cons_cons] at h
    exact absurd h (List.append_ne_nil_of_right_ne_nil _ (List.cons_ne_nil _ _))

/-- What is written of a record follows the rules. -/
theorem exists_isRecord (fields : List String) :
    ∃ written, record fields = written ++ ['\n'] ∧ IsRecord written (shown fields) := by
  unfold record
  by_cases hline : line fields = []
  · refine ⟨['"', '"'], by simp [hline], ?_⟩
    rw [shown_of_line_eq_nil hline]
    exact .single (.quoted .nil)
  · refine ⟨line fields, by simp [hline], ?_⟩
    match fields, hline with
    | [], hline => exact (hline rfl).elim
    | f :: fields, _ => exact isRecord_line f fields

theorem isText_text : ∀ records : List (List String),
    IsText (records.flatMap record) (records.map shown)
  | [] => .nil
  | fields :: records => by
    obtain ⟨written, hwritten, hrecord⟩ := exists_isRecord fields
    rw [List.flatMap_cons, hwritten, List.append_assoc]
    exact .cons hrecord .lf (isText_text records)

/-- Records that were written are read back, in order and field by field. -/
theorem read_text (records : List (List String)) :
    read (text records) = some (records.map shown) := by
  unfold read text
  rw [String.toList_ofList]
  exact (isText_text records).readFrom

end Csv

/-! ## Tables -/

namespace OutputDirectory

/-- Saving a table ends as saving anything else would, whatever its rows are. If it
succeeds, then the file is read back as the header and the rows, in order and cell by
cell, where only a row of no cells comes back as one of a single empty cell. A writer that
is not flexible would fail at the first row that is not as long as the header. -/
theorem save_table (o : OutputDirectory) (s : Save) (t : Table) (disk : Disk) :
    (∀ content : Content, ((o.save Disk.system s (.table t)).run disk).1 =
      ((o.save Disk.system s content).run disk).1) ∧
    (∀ (path : String) (disk' : Disk),
      (o.save Disk.system s (.table t)).run disk = (.ok path, disk') →
      ∃ text, disk'.read? path = .ok text ∧
        Csv.read text = some (Csv.shown t.header :: t.rows.map Csv.shown)) ∧
    ∀ e, ((Csv.Writer.new false).writeAll t.records).1 = .error e ↔ ∃ before row after,
      t.rows = before ++ row :: after ∧ (∀ r ∈ before, r.length = t.header.length) ∧
        row.length ≠ t.header.length ∧ e = ⟨t.header.length, row.length⟩ := by
  refine ⟨o.save_congr s disk (.table t), fun path disk' h => ?_,
    fun e => Csv.Writer.fst_writeAll_new_eq_error_iff⟩
  obtain ⟨-, made, hwrite⟩ := exists_write_of_save h
  rw [Content.encode_table] at hwrite
  exact ⟨_, Disk.read?_of_write hwrite, Csv.read_text t.records⟩

/-- A table with all special characters, a row of no cells and rows of other lengths. -/
def raggedTable : Table :=
  ⟨["a,b", "say \"x\""], [[], ["", " c ", ""], ["line\r\nend"], [""]]⟩

theorem save_table_ragged :
    ∃ (disk : Disk) (text : String),
      (save ⟨"out", "page.html", ""⟩ Disk.system ⟨"t", .csv, false, none⟩
        (.table raggedTable)).run ⟨[], []⟩ = (.ok "out/t.csv", disk) ∧
      disk.read? "out/t.csv" = .ok text ∧
      Csv.read text = some
        [["a,b", "say \"x\""], [""], ["", " c ", ""], ["line\r\nend"], [""]] := by
  have hok : ((save ⟨"out", "page.html", ""⟩ Disk.system ⟨"t", .csv, false, none⟩
      (.table raggedTable)).run ⟨[], []⟩).1 = .ok "out/t.csv" := by decide +kernel
  obtain ⟨text, htext, hread⟩ := (save_table ⟨"out", "page.html", ""⟩ ⟨"t", .csv, false, none⟩
    raggedTable ⟨[], []⟩).2.1 "out/t.csv" _ (Prod.ext hok rfl)
  exact ⟨_, text, Prod.ext hok rfl, htext, hread⟩

end OutputDirectory

end Gleaner
