import Mathlib.Data.List.Forall2
import Gleaner.Flow.Reading
import Gleaner.Proofs.Run.Contract

/-!
# What readers of parameters ask for

A reader asks for parameters by their names. It gives the same for any two mappings that have the
same values under these names, and its faults are about them: `Parameters.Reads` says both. It is
closed under all that readers are made of, and each reader has one lemma that says what it asks
for, from `reads_text?` to `reads_update`.

A parameter may be a mapping itself. Its entries are read in their order
(`listsEntries_of_pairs`, `listsEntries_of_columns`).
-/

namespace Gleaner

variable {α β γ : Type}

namespace Parameters

/-! ## Readers that ask for some names -/

/-- Whether a fault says of one of some parameters of an action that it is missing or invalid. -/
inductive IsAbout (action : String) (keys : List String) : Fault → Prop where
  | missing {key : String} : key ∈ keys → IsAbout action keys (.missingParameter action key)
  | invalid {key reason : String} : key ∈ keys →
    IsAbout action keys (.invalidParameter action key reason)

/-- Whether a reader asks for the parameters of some names only: it gives the same where these
have the same values, and its faults are about them. -/
structure Reads (keys : List String) (read : Parameters → Except Fault α) : Prop where
  congr : ∀ p q : Parameters, p.action = q.action → (∀ key ∈ keys, p.get? key = q.get? key) →
    read p = read q
  isAbout : ∀ (p : Parameters) (f : Fault), read p = .error f → IsAbout p.action keys f

section

variable {keys keys' : List String} {key other : String}

theorem IsAbout.mono {action : String} {f : Fault} (h : IsAbout action keys f)
    (hkeys : keys ⊆ keys') : IsAbout action keys' f := by
  cases h with
  | missing hkey => exact .missing (hkeys hkey)
  | invalid hkey => exact .invalid (hkeys hkey)

namespace Reads

variable {read : Parameters → Except Fault α}

theorem mono (h : Reads keys read) (hkeys : keys ⊆ keys') : Reads keys' read where
  congr p q ha hk := h.congr p q ha fun key hkey => hk key (hkeys hkey)
  isAbout p f hf := (h.isAbout p f hf).mono hkeys

theorem bind {next : α → Parameters → Except Fault β} (h : Reads keys read)
    (hnext : ∀ a, Reads keys (next a)) : Reads keys fun p => read p >>= fun a => next a p where
  congr p q ha hk := by
    rw [h.congr p q ha hk]
    exact congrArg (read q >>= ·) (funext fun a => (hnext a).congr p q ha hk)
  isAbout p f hf := by
    rcases hr : read p with e | a <;> rw [hr] at hf
    · cases hf
      exact h.isAbout p f hr
    · exact (hnext a).isAbout p f hf

theorem map (h : Reads keys read) (g : α → β) : Reads keys fun p => (read p).map g where
  congr p q ha hk := congrArg (Except.map g) (h.congr p q ha hk)
  isAbout p f hf := by
    rcases hr : read p with e | a <;> rw [hr] at hf
    · cases hf
      exact h.isAbout p f hr
    · cases hf

end Reads

theorem reads_ok (a : α) : Reads keys fun _ => (.ok a : Except Fault α) where
  congr _ _ _ _ := rfl
  isAbout _ _ h := by cases h

theorem reads_missing (h : key ∈ keys) :
    Reads keys fun p => (.error (p.missing key) : Except Fault α) where
  congr p q ha _ := by rw [missing, missing, ha]
  isAbout p f hf := by
    cases hf
    exact .missing h

theorem reads_invalid (h : key ∈ keys) (reason : String) :
    Reads keys fun p => (.error (p.invalid key reason) : Except Fault α) where
  congr p q ha _ := by rw [invalid, invalid, ha]
  isAbout p f hf := by
    cases hf
    exact .invalid h

/-! ## Readers of one parameter -/

theorem reads_readWith (key reason : String) (f : Yaml → Option α) :
    Reads [key] fun p => p.readWith key reason f where
  congr p q ha hk := by
    unfold readWith invalid
    rw [hk key List.mem_cons_self, ha]
  isAbout p e he := by
    unfold readWith at he
    split at he
    · cases he
    · split at he <;> cases he
      exact .invalid List.mem_cons_self

theorem reads_text? (key : String) : Reads [key] fun p => p.text? key :=
  reads_readWith key _ Yaml.scalarText?

theorem reads_text (key : String) : Reads [key] fun p => p.text key := by
  refine (reads_text? key).bind fun s => ?_
  cases s with
  | some s => exact reads_ok s
  | none => exact reads_missing List.mem_cons_self

theorem reads_operand? (key : String) : Reads [key] fun p => p.operand? key :=
  (reads_text? key).bind fun _ => reads_ok _

theorem reads_integer? (key : String) : Reads [key] fun p => p.integer? key :=
  reads_readWith key _ integerOf?

theorem reads_index? (key : String) : Reads [key] fun p => p.index? key := by
  refine (reads_integer? key).bind fun n => ?_
  rcases n with _ | (n | n) <;> exact reads_ok _

theorem reads_flag? (key : String) : Reads [key] fun p => p.flag? key :=
  reads_readWith key _ flagOf?

theorem reads_entries? (key : String) : Reads [key] fun p => p.entries? key :=
  reads_readWith key _ entriesOf?

theorem reads_pairs (key : String) : Reads [key] fun p => p.pairs key := by
  refine (reads_entries? key).bind fun entries => ?_
  cases entries with
  | none => exact reads_ok []
  | some entries =>
    dsimp only
    cases Yaml.scalarPairs? entries with
    | some pairs => exact reads_ok pairs
    | none => exact reads_invalid List.mem_cons_self _

/-- The levels that a mapping or a path gives, which may be none. -/
def givenLevels (p : Parameters) (key : String) : Except Fault Levels :=
  match p.get? key with
  | none => .error (p.missing key)
  | some (.mapping entries) =>
    match levelPairs? entries with
    | some pairs => .ok (.ofPairs pairs)
    | none => .error (p.invalid key "expected element types mapped to non-negative levels")
  | some _ => (p.text key).map .ofPath

theorem levels_eq (p : Parameters) (key : String) :
    p.levels key = p.givenLevels key >>= fun levels =>
      if levels.isEmpty then .error (p.invalid key "no element types given") else .ok levels := by
  unfold levels givenLevels
  cases p.get? key with
  | none => rfl
  | some v =>
    cases v with
    | mapping entries =>
      dsimp only
      cases levelPairs? entries <;> rfl
    | null | bool | int | double | text | list => rfl

theorem reads_givenLevels (key : String) : Reads [key] fun p => p.givenLevels key where
  congr p q ha hk := by
    unfold givenLevels
    rw [hk key List.mem_cons_self, (reads_text key).congr p q ha hk, missing, missing, invalid,
      invalid, ha]
  isAbout p f hf := by
    unfold givenLevels at hf
    split at hf
    · cases hf
      exact .missing List.mem_cons_self
    · split at hf <;> cases hf
      exact .invalid List.mem_cons_self
    · exact ((reads_text key).map _).isAbout p f hf

theorem reads_levels (key : String) : Reads [key] fun p => p.levels key := by
  simp only [levels_eq]
  refine (reads_givenLevels key).bind fun levels => ?_
  cases levels.isEmpty with
  | true => exact reads_invalid List.mem_cons_self _
  | false => exact reads_ok levels

theorem reads_kindOf (h : key ∈ keys) (spelling : String) :
    Reads keys fun p => p.kindOf key spelling := by
  unfold kindOf
  cases Kind.parse? spelling with
  | some kind => exact reads_ok kind
  | none => exact reads_invalid h _

theorem reads_optionalKind (key : String) : Reads [key] fun p => p.optionalKind key := by
  refine (reads_text? key).bind fun spelling => ?_
  cases spelling with
  | some spelling => exact reads_kindOf List.mem_cons_self spelling
  | none => exact reads_ok Kind.scalar

theorem reads_fileKind : Reads ["fileType"] fileKind := by
  refine (reads_text "fileType").bind fun spelling => ?_
  cases FileKind.parse? spelling with
  | some kind => exact reads_ok kind
  | none => exact reads_invalid List.mem_cons_self _

theorem reads_selection : Reads ["type"] selection := by
  refine (reads_text? "type").bind fun s => ⟨fun p q ha _ => ?_, fun p f hf => ?_⟩
  · simp only [invalid, ha]
  · split at hf <;> cases hf
    exact .invalid List.mem_cons_self

theorem reads_reference (key : String) : Reads [key] fun p => p.reference key := by
  refine (reads_text key).bind fun s => ?_
  cases Operand.parse s <;> exact reads_ok _

/-! ## Readers of several parameters -/

theorem reads_filter : Reads ["id", "class"] filter := by
  refine ((reads_text? "id").mono (by simp)).bind fun id => ?_
  exact ((reads_text? "class").mono (by simp)).bind fun cls => reads_ok _

theorem reads_columns : Reads ["preDefinedColumns"] columns :=
  (reads_pairs "preDefinedColumns").bind fun _ => reads_ok _

theorem reads_entriesOfEither? (key other : String) :
    Reads [key, other] fun p => p.entriesOfEither? key other := by
  refine ((reads_entries? key).mono (by simp)).bind fun entries => ?_
  cases entries with
  | some entries => exact reads_ok _
  | none => exact (reads_entries? other).mono (by simp)

theorem reads_marker? (key other : String) : Reads [key, other] fun p => p.marker? key other := by
  refine (reads_entriesOfEither? key other).bind fun entries => ?_
  cases entries with
  | none => exact reads_ok none
  | some entries =>
    dsimp only
    cases markerOf entries with
    | ok m => exact reads_ok _
    | error reason => exact reads_invalid List.mem_cons_self reason

theorem reads_nodeQuery : Reads ["type", "HTMLtype", "id", "class", "exclude"] nodeQuery := by
  refine (reads_selection.mono (by simp)).bind fun selection => ?_
  refine ((reads_text "HTMLtype").mono (by simp)).bind fun nodeType => ?_
  refine (reads_filter.mono (by simp)).bind fun filter => ?_
  exact ((reads_pairs "exclude").mono (by simp)).bind fun exclude => reads_ok _

theorem reads_tableQuery :
    Reads ["id", "class", "preDefinedColumns", "numOfColumnToEnforce"] tableQuery := by
  refine (reads_filter.mono (by simp)).bind fun filter => ?_
  refine (reads_columns.mono (by simp)).bind fun columns => ?_
  exact ((reads_index? "numOfColumnToEnforce").mono (by simp)).bind fun enforce => reads_ok _

theorem reads_treeQuery : Reads ["treeRelations", "startingPoint", "StartintPoint", "endingPoint",
    "EndingPoint", "saveToVar"] treeQuery := by
  refine ((reads_levels "treeRelations").mono (by simp)).bind fun levels => ?_
  refine ((reads_marker? "startingPoint" "StartintPoint").mono (by simp)).bind fun start => ?_
  refine ((reads_marker? "endingPoint" "EndingPoint").mono (by simp)).bind fun stop => ?_
  exact ((reads_text? "saveToVar").mono (by simp)).bind fun saveTo => reads_ok _

theorem reads_branchQuery : Reads ["idxOfHtmlTable", "preDefinedColumns"] branchQuery := by
  refine ((reads_index? "idxOfHtmlTable").mono (by simp)).bind fun tableIndex => ?_
  exact (reads_columns.mono (by simp)).bind fun columns => reads_ok _

theorem reads_save : Reads ["to", "fileType", "longName", "dir"] save := by
  refine (reads_fileKind.mono (by simp)).bind fun kind => ?_
  refine ((reads_text "to").mono (by simp)).bind fun name => ?_
  refine ((reads_flag? "longName").mono (by simp)).bind fun longName => ?_
  exact ((reads_text? "dir").mono (by simp)).bind fun dir => reads_ok _

theorem reads_update : Reads ["varName", "varType", "varKey", "varValue"] update := by
  refine ((reads_text "varType").mono (by simp)).bind fun spelling => ?_
  refine (reads_kindOf (by simp) spelling).bind fun kind => ?_
  refine ((reads_operand? "varKey").mono (by simp)).bind fun key => ?_
  by_cases h : kind = .mapping ∧ key.isNone
  · simp only [if_pos h]
    exact reads_missing (by simp)
  · simp only [if_neg h]
    refine ((reads_text "varName").mono (by simp)).bind fun name => ?_
    exact ((reads_operand? "varValue").mono (by simp)).bind fun value => reads_ok _

end

/-! ## Entries in order -/

/-- Whether some results come of the entries of the mapping that a parameter is, one by one and in
the same order: of no entries, if the parameter is left out. -/
def ListsEntries (p : Parameters) (key : String) (R : Yaml × Yaml → γ → Prop)
    (results : List γ) : Prop :=
  ∃ entries, (p.get? key = some (.mapping entries) ∨ p.get? key = none ∧ entries = []) ∧
    List.Forall₂ R entries results

/-- Whether a pair is the key and the value of an entry, both as text. -/
def IsPair (entry : Yaml × Yaml) (pair : String × String) : Prop :=
  entry.1.scalarText? = some pair.1 ∧ entry.2.scalarText? = some pair.2

/-- Whether a column has the key of an entry as its name, and the reference that its value is. -/
def IsColumn (entry : Yaml × Yaml) (c : Column) : Prop :=
  entry.1.scalarText? = some c.name ∧
    ∃ raw, entry.2.scalarText? = some raw ∧ c.source = .parse raw

theorem forall₂_isPair : ∀ {entries : List (Yaml × Yaml)} {pairs : List (String × String)},
    Yaml.scalarPairs? entries = some pairs → List.Forall₂ IsPair entries pairs
  | [], _, h => by
    cases h
    exact .nil
  | (k, v) :: rest, _, h => by
    obtain ⟨name, hname, h⟩ := Option.bind_eq_some_iff.mp h
    obtain ⟨value, hvalue, h⟩ := Option.bind_eq_some_iff.mp h
    obtain ⟨pairs, hpairs, h⟩ := Option.bind_eq_some_iff.mp h
    cases h
    exact .cons ⟨hname, hvalue⟩ (forall₂_isPair hpairs)

variable {p : Parameters} {key : String}

theorem get?_of_entries? {entries : List (Yaml × Yaml)} (h : p.entries? key = .ok (some entries)) :
    p.get? key = some (.mapping entries) := by
  unfold entries? readWith at h
  split at h
  · cases h
  · rename_i v hv
    cases v with
    | mapping entries' =>
      cases h
      exact hv
    | null | bool | int | double | text | list => cases h

theorem get?_of_entries?_none (h : p.entries? key = .ok none) : p.get? key = none := by
  unfold entries? readWith at h
  split at h
  · assumption
  · split at h <;> cases h

theorem listsEntries_of_pairs {pairs : List (String × String)} (h : p.pairs key = .ok pairs) :
    p.ListsEntries key IsPair pairs := by
  obtain ⟨entries, hentries, h⟩ := bind_eq_ok.mp h
  cases entries with
  | none =>
    cases h
    exact ⟨[], .inr ⟨get?_of_entries?_none hentries, rfl⟩, .nil⟩
  | some entries =>
    dsimp only at h
    split at h
    · rename_i found hfound
      cases h
      exact ⟨entries, .inl (get?_of_entries? hentries), forall₂_isPair hfound⟩
    · cases h

theorem listsEntries_of_columns {columns : List Column} (h : p.columns = .ok columns) :
    p.ListsEntries "preDefinedColumns" IsColumn columns := by
  obtain ⟨pairs, hpairs, h⟩ := bind_eq_ok.mp h
  cases h
  obtain ⟨entries, hentries, hforall⟩ := listsEntries_of_pairs hpairs
  refine ⟨entries, hentries, List.forall₂_map_right_iff.mpr (hforall.imp ?_)⟩
  exact fun _ _ ⟨hname, hvalue⟩ => ⟨hname, _, hvalue, rfl⟩

end Parameters

end Gleaner
