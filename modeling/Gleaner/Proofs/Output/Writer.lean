import Gleaner.Output.Csv

/-!
# Writers of records

A flexible writer takes records of all lengths. Another one takes those that are as
long as the first one, and stops at the first record that is not.

* `Csv.text`: the text of some records;
* `Writer.writeAll_of_flexible`: a flexible writer writes them all;
* `Writer.fst_writeAll_new_eq_error_iff`: the fault of another writer;
* `Content.encode_table`, `Content.fst_encode`: all content can be written.
-/

namespace Gleaner

namespace Csv

/-- The text of some records. -/
def text (records : List (List String)) : String :=
  String.ofList (records.flatMap record)

namespace Writer

variable {w : Writer} {n : Nat} {fields first : List String} {records rest : List (List String)}
  {e : UnequalLengths}

theorem put_nil (w : Writer) : w.put [] = w := by
  simp [put]

theorem put_put (w : Writer) (cs ds : List Char) : (w.put cs).put ds = w.put (cs ++ ds) := by
  simp [put, String.append_assoc]

theorem writeRecord_of_ok {w' : Writer} (h : w.count fields.length = .ok w') :
    w.writeRecord fields = (.ok (), w'.put (record fields)) := by
  rw [writeRecord, h]

theorem writeRecord_of_error (h : w.count fields.length = .error e) :
    w.writeRecord fields = (.error e, w.put (line fields)) := by
  rw [writeRecord, h]

theorem writeAll_cons_of_ok {w' : Writer} (h : w.writeRecord fields = (.ok (), w'))
    (rest : List (List String)) : w.writeAll (fields :: rest) = w'.writeAll rest := by
  rw [writeAll, h]

theorem writeAll_cons_of_error {w' : Writer} (h : w.writeRecord fields = (.error e, w'))
    (rest : List (List String)) : w.writeAll (fields :: rest) = (.error e, w') := by
  rw [writeAll, h]

/-! ## Flexible writers -/

theorem count_of_flexible (h : w.flexible = true) (n : Nat) : w.count n = .ok w :=
  if_pos h

theorem writeAll_of_flexible (h : w.flexible = true) (records : List (List String)) :
    w.writeAll records = (.ok (), w.put (records.flatMap record)) := by
  induction records generalizing w with
  | nil => exact congrArg _ (put_nil w).symm
  | cons fields rest ih =>
    have hfields := writeRecord_of_ok (count_of_flexible h fields.length)
    have hflexible : (w.put (record fields)).flexible = true := h
    rw [writeAll_cons_of_ok hfields, ih hflexible, put_put, List.flatMap_cons]

/-! ## Writers that are not flexible -/

/-- A writer that goes by a first record of length `n`. -/
structure GoesBy (w : Writer) (n : Nat) : Prop where
  strict : w.flexible = false
  count : w.count? = some n

theorem GoesBy.put (h : w.GoesBy n) (cs : List Char) : (w.put cs).GoesBy n :=
  ⟨h.strict, h.count⟩

theorem GoesBy.writeRecord_of_eq (h : w.GoesBy n) (hn : fields.length = n) :
    w.writeRecord fields = (.ok (), w.put (record fields)) :=
  writeRecord_of_ok (by simp [Writer.count, h.strict, h.count, hn])

theorem GoesBy.writeRecord_of_ne (h : w.GoesBy n) (hn : fields.length ≠ n) :
    w.writeRecord fields = (.error ⟨n, fields.length⟩, w.put (line fields)) :=
  writeRecord_of_error (by simp [Writer.count, h.strict, h.count, hn.symm])

/-- The fault is that of the first record of another length. -/
theorem GoesBy.fst_writeAll_eq_error_iff (h : w.GoesBy n) :
    (w.writeAll records).1 = .error e ↔ ∃ before fields after,
      records = before ++ fields :: after ∧ (∀ r ∈ before, r.length = n) ∧
        fields.length ≠ n ∧ e = ⟨n, fields.length⟩ := by
  induction records generalizing w with
  | nil =>
    refine iff_of_false nofun fun ⟨before, _, _, hrecords, _⟩ => ?_
    cases before <;> cases hrecords
  | cons first rest ih =>
    by_cases hn : first.length = n
    · rw [writeAll_cons_of_ok (h.writeRecord_of_eq hn), ih (h.put _)]
      constructor
      · rintro ⟨before, fields, after, rfl, hbefore, hfields⟩
        exact ⟨first :: before, fields, after, rfl, List.forall_mem_cons.mpr ⟨hn, hbefore⟩, hfields⟩
      · rintro ⟨before, fields, after, hrecords, hbefore, hne, he⟩
        cases before with
        | nil =>
          cases hrecords
          exact (hne hn).elim
        | cons b before =>
          cases hrecords
          exact ⟨before, fields, after, rfl, (List.forall_mem_cons.mp hbefore).2, hne, he⟩
    · rw [writeAll_cons_of_error (h.writeRecord_of_ne hn)]
      constructor
      · intro he
        exact ⟨[], first, rest, rfl, nofun, hn, (Except.error.inj he).symm⟩
      · rintro ⟨before, fields, after, hrecords, hbefore, -, rfl⟩
        cases before with
        | nil =>
          cases hrecords
          rfl
        | cons b before =>
          cases hrecords
          exact (hn (hbefore _ List.mem_cons_self)).elim

/-- A new writer that is not flexible goes by the first record that it is given. -/
theorem fst_writeAll_new_eq_error_iff :
    ((new false).writeAll (first :: rest)).1 = .error e ↔ ∃ before fields after,
      rest = before ++ fields :: after ∧ (∀ r ∈ before, r.length = first.length) ∧
        fields.length ≠ first.length ∧ e = ⟨first.length, fields.length⟩ := by
  have hfirst : (new false).writeRecord first =
      (.ok (), (Writer.mk false (some first.length) "").put (record first)) := rfl
  rw [writeAll_cons_of_ok hfirst]
  exact GoesBy.fst_writeAll_eq_error_iff ⟨rfl, rfl⟩

/-- The fields of the record that is too long are written, and nothing behind them. -/
example : ((new false).writeAll [["a"], ["b"], ["c", "d"], ["e"]]).2 =
    ⟨false, some 1, "a\nb\nc,d"⟩ := by decide

end Writer

end Csv

/-! ## Content -/

namespace Content

theorem encode_table (t : Table) : (table t).encode = (.ok (), Csv.text t.records) := by
  unfold encode
  dsimp only
  rw [Csv.Writer.writeAll_of_flexible rfl]
  exact congrArg (Prod.mk _) String.empty_append

theorem fst_encode (content : Content) : content.encode.1 = .ok () := by
  cases content with
  | table t => rw [encode_table]
  | json j => rfl

end Content

end Gleaner
