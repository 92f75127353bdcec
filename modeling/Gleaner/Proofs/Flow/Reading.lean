import Gleaner.Proofs.Flow.Parameters

/-!
# What the reading of an action depends on

What an action is read as, or the fault that this ends with, depends on the parameters that the
action has a name for and that are not null. It depends neither on their order nor on anything
else in the mapping. Only within a parameter that is a mapping itself the order counts: it is the
order of the columns or pairs that are read from it.

* `Action.parameters`: the names of the parameters of an action;
* `Action.parse_reads`: an action is read by a reader that asks for these;
* `Action.isAbout_of_parse`: the faults of reading an action;
* `Action.DependsOnParameters`, `Action.dependsOnParameters`: the whole statement.
-/

namespace Gleaner

/-! ## Mappings -/

namespace Yaml

/-- Whether no text is the key of two entries, as in all mappings. -/
def NamesDiffer (entries : List (Yaml × Yaml)) : Prop :=
  (entries.filterMap (·.1.text?)).Nodup

instance (entries : List (Yaml × Yaml)) : Decidable (NamesDiffer entries) :=
  inferInstanceAs (Decidable (List.Nodup _))

theorem text?_eq_some_iff {k : Yaml} {name : String} : k.text? = some name ↔ k = .text name := by
  cases k <;> simp [text?]

theorem isNull_eq_false_iff {v : Yaml} : v.isNull = false ↔ v ≠ .null := by
  cases v <;> simp [isNull]

theorem NamesDiffer.perm {entries entries' : List (Yaml × Yaml)} (h : NamesDiffer entries)
    (hperm : entries.Perm entries') : NamesDiffer entries' :=
  (hperm.filterMap _).nodup h

theorem NamesDiffer.sublist {entries entries' : List (Yaml × Yaml)} (h : NamesDiffer entries)
    (hsub : entries'.Sublist entries) : NamesDiffer entries' :=
  (hsub.filterMap _).nodup h

/-- The value of a name is that of the one entry that has it. -/
theorem valueAt?_eq_some_iff {name : String} {v : Yaml} {entries : List (Yaml × Yaml)}
    (h : NamesDiffer entries) : valueAt? name entries = some v ↔ (.text name, v) ∈ entries := by
  induction entries with
  | nil => exact iff_of_false nofun List.not_mem_nil
  | cons entry rest ih =>
    obtain ⟨k, w⟩ := entry
    have hrest : NamesDiffer rest := h.sublist (List.sublist_cons_self _ _)
    by_cases hk : k = .text name
    · subst hk
      have hfresh : (.text name, v) ∉ rest := fun hmem =>
        (List.nodup_cons.mp h).1 (List.mem_filterMap.mpr ⟨_, hmem, rfl⟩)
      simp [valueAt?, text?, hfresh, eq_comm]
    · have hne : (k.text? == some name) = false := by simpa [text?_eq_some_iff] using hk
      have hhead : (.text name, v) ≠ (k, w) := fun he => hk (congrArg Prod.fst he).symm
      rw [List.mem_cons, or_iff_right hhead, ← ih hrest, valueAt?, valueAt?,
        List.find?_cons_of_neg (by simp [hne])]

/-- An entry with another key has no part in the value of a name. -/
theorem valueAt?_append_cons_of_ne {name : String} {k : Yaml} (h : k ≠ .text name) (v : Yaml)
    (before after : List (Yaml × Yaml)) :
    valueAt? name (before ++ (k, v) :: after) = valueAt? name (before ++ after) := by
  have hne : (k.text? == some name) = false := by simpa [text?_eq_some_iff] using h
  simp [valueAt?, List.find?_append, hne]

end Yaml

open Yaml (NamesDiffer)

/-- The value of a parameter is that of the one entry that has its name, if it is not null. -/
theorem Parameters.get?_eq_some_iff {p : Parameters} {key : String} {v : Yaml}
    (h : NamesDiffer p.entries) :
    p.get? key = some v ↔ (.text key, v) ∈ p.entries ∧ v ≠ .null := by
  rw [get?, Option.filter_eq_some_iff, Yaml.valueAt?_eq_some_iff h, Bool.not_eq_true',
    Yaml.isNull_eq_false_iff]

/-! ## Actions -/

namespace Action

open Parameters

/-- The names of the parameters of an action. -/
def parameters : String → List String
  | "path" => ["type", "HTMLtype", "id", "class", "exclude"]
  | "table2csv" => ["id", "class", "preDefinedColumns", "numOfColumnToEnforce"]
  | "buildConnectionTree" =>
    ["treeRelations", "startingPoint", "StartintPoint", "endingPoint", "EndingPoint", "saveToVar"]
  | "treeBranch2csv" => ["idxOfHtmlTable", "preDefinedColumns"]
  | "get" => ["value"]
  | "substring" => ["start", "end"]
  | "concat" => ["prefix", "suffix"]
  | "createVar" => ["name", "type", "value"]
  | "saveToFile" => ["to", "fileType", "longName", "dir"]
  | "addToVar" | "removeVar" => ["varName", "varType", "varKey", "varValue"]
  | "getVar" => ["varName"]
  | _ => []

theorem reads_slice : Reads ["start", "end"] fun p => do
    let start ← p.integer? "start"
    let stop ← p.integer? "end"
    return slice start stop := by
  refine ((reads_integer? "start").mono (by simp)).bind fun start => ?_
  exact ((reads_integer? "end").mono (by simp)).bind fun stop => reads_ok _

theorem reads_wrap : Reads ["prefix", "suffix"] fun p => do
    let before := (← p.operand? "prefix").getD (.literal "")
    let after := (← p.operand? "suffix").getD (.literal "")
    return wrap before after := by
  refine ((reads_operand? "prefix").mono (by simp)).bind fun before => ?_
  exact ((reads_operand? "suffix").mono (by simp)).bind fun after => reads_ok _

theorem reads_declare : Reads ["name", "type", "value"] fun p => do
    let kind ← p.optionalKind "type"
    let name ← p.text "name"
    let value ← p.operand? "value"
    return declare name kind value := by
  refine ((reads_optionalKind "type").mono (by simp)).bind fun kind => ?_
  refine ((reads_text "name").mono (by simp)).bind fun name => ?_
  exact ((reads_operand? "value").mono (by simp)).bind fun value => reads_ok _

/-- What is read as an action asks for the parameters of that action only, or its name is not
known at all. -/
theorem parse_reads (name : String) :
    (∃ read, Reads (parameters name) read ∧ ∀ entries, parse name entries = read ⟨name, entries⟩) ∨
      ∀ entries, parse name entries = .error (.unknownAction name) := by
  unfold parse parameters
  split
  · exact .inl ⟨_, reads_nodeQuery.map find, fun _ => rfl⟩
  · exact .inl ⟨_, reads_tableQuery.map table, fun _ => rfl⟩
  · exact .inl ⟨_, reads_treeQuery.map tree, fun _ => rfl⟩
  · exact .inl ⟨_, reads_branchQuery.map branch, fun _ => rfl⟩
  · exact .inl ⟨_, (reads_text "value").map get, fun _ => rfl⟩
  · exact .inl ⟨_, reads_slice, fun _ => rfl⟩
  · exact .inl ⟨_, reads_wrap, fun _ => rfl⟩
  · exact .inl ⟨_, reads_declare, fun _ => rfl⟩
  · exact .inl ⟨_, reads_save.map save, fun _ => rfl⟩
  · exact .inl ⟨_, reads_update.map add, fun _ => rfl⟩
  · exact .inl ⟨_, reads_update.map remove, fun _ => rfl⟩
  · exact .inl ⟨_, (reads_reference "varName").map read, fun _ => rfl⟩
  · by_cases hend : name = "end"
    · subst hend
      exact .inl ⟨_, reads_ok pass, fun _ => rfl⟩
    · -- The name is none of those above, so all branches but the last one are impossible.
      refine .inr fun entries => ?_
      split
      on_goal 14 => rfl
      all_goals contradiction

variable {name : String} {entries entries' : List (Yaml × Yaml)}

theorem parse_congr (h : ∀ key ∈ parameters name,
    Parameters.get? ⟨name, entries⟩ key = Parameters.get? ⟨name, entries'⟩ key) :
    parse name entries = parse name entries' := by
  rcases parse_reads name with ⟨read, hread, hparse⟩ | hnone
  · rw [hparse, hparse]
    exact hread.congr _ _ rfl h
  · rw [hnone, hnone]

/-- A fault of reading an action is that its name is not known, or about one of its parameters. -/
theorem isAbout_of_parse {f : Fault} (h : parse name entries = .error f) :
    f = .unknownAction name ∨ IsAbout name (parameters name) f := by
  rcases parse_reads name with ⟨read, hread, hparse⟩ | hnone
  · rw [hparse] at h
    exact .inr (hread.isAbout _ f h)
  · rw [hnone] at h
    cases h
    exact .inl rfl

/-- Mappings that have the same parameters of an action, null ones apart, are read alike. -/
theorem parse_eq_of_sameParameters (h : NamesDiffer entries) (h' : NamesDiffer entries')
    (hsame : ∀ key ∈ parameters name, ∀ v : Yaml, v ≠ .null →
      ((.text key, v) ∈ entries ↔ (.text key, v) ∈ entries')) :
    parse name entries = parse name entries' := by
  refine parse_congr fun key hkey => Option.ext fun v => ?_
  rw [get?_eq_some_iff h, get?_eq_some_iff h']
  exact and_congr_left fun hv => hsame key hkey v hv

/-- What the reading of an action depends on. -/
structure DependsOnParameters (name : String) : Prop where
  /-- The parameters of the action that are not null determine the outcome, whatever else the
  mapping holds and in whatever order. -/
  same : ∀ {entries entries' : List (Yaml × Yaml)}, NamesDiffer entries → NamesDiffer entries' →
    (∀ key ∈ parameters name, ∀ v : Yaml, v ≠ .null →
      ((.text key, v) ∈ entries ↔ (.text key, v) ∈ entries')) →
    parse name entries = parse name entries'
  permuted : ∀ {entries entries' : List (Yaml × Yaml)}, NamesDiffer entries →
    entries.Perm entries' → parse name entries = parse name entries'
  /-- The key is no parameter of the action, or no text at all. -/
  unknown : ∀ (before after : List (Yaml × Yaml)) {k : Yaml} (v : Yaml),
    (∀ key ∈ parameters name, k ≠ .text key) →
      parse name (before ++ (k, v) :: after) = parse name (before ++ after)
  null : ∀ {before after : List (Yaml × Yaml)} {k : Yaml},
    NamesDiffer (before ++ (k, .null) :: after) →
      parse name (before ++ (k, .null) :: after) = parse name (before ++ after)
  /-- The order within a parameter is kept. -/
  exclude : ∀ {entries : List (Yaml × Yaml)} {q : NodeQuery}, parse name entries = .ok (.find q) →
    ListsEntries ⟨name, entries⟩ "exclude" IsPair q.exclude
  tableColumns : ∀ {entries : List (Yaml × Yaml)} {q : TableQuery},
    parse name entries = .ok (.table q) →
      ListsEntries ⟨name, entries⟩ "preDefinedColumns" IsColumn q.columns
  branchColumns : ∀ {entries : List (Yaml × Yaml)} {q : BranchQuery},
    parse name entries = .ok (.branch q) →
      ListsEntries ⟨name, entries⟩ "preDefinedColumns" IsColumn q.columns

theorem listsEntries_exclude {q : NodeQuery} (h : parse name entries = .ok (.find q)) :
    ListsEntries ⟨name, entries⟩ "exclude" IsPair q.exclude := by
  obtain rfl : "path" = name := name_of_parse h
  obtain ⟨q', hq, he⟩ := map_eq_ok.mp h
  cases he
  obtain ⟨selection, -, hq⟩ := bind_eq_ok.mp hq
  obtain ⟨nodeType, -, hq⟩ := bind_eq_ok.mp hq
  obtain ⟨filter, -, hq⟩ := bind_eq_ok.mp hq
  obtain ⟨exclude, hexclude, hq⟩ := bind_eq_ok.mp hq
  cases hq
  exact listsEntries_of_pairs hexclude

theorem listsEntries_tableColumns {q : TableQuery} (h : parse name entries = .ok (.table q)) :
    ListsEntries ⟨name, entries⟩ "preDefinedColumns" IsColumn q.columns := by
  obtain rfl : "table2csv" = name := name_of_parse h
  obtain ⟨q', hq, he⟩ := map_eq_ok.mp h
  cases he
  obtain ⟨filter, -, hq⟩ := bind_eq_ok.mp hq
  obtain ⟨columns, hcolumns, hq⟩ := bind_eq_ok.mp hq
  obtain ⟨enforce, -, hq⟩ := bind_eq_ok.mp hq
  cases hq
  exact listsEntries_of_columns hcolumns

theorem listsEntries_branchColumns {q : BranchQuery} (h : parse name entries = .ok (.branch q)) :
    ListsEntries ⟨name, entries⟩ "preDefinedColumns" IsColumn q.columns := by
  obtain rfl : "treeBranch2csv" = name := name_of_parse h
  obtain ⟨q', hq, he⟩ := map_eq_ok.mp h
  cases he
  obtain ⟨tableIndex, -, hq⟩ := bind_eq_ok.mp hq
  obtain ⟨columns, hcolumns, hq⟩ := bind_eq_ok.mp hq
  cases hq
  exact listsEntries_of_columns hcolumns

/-- The reading of an action depends on its parameters that are not null and on nothing else, be
the outcome an action or a fault. -/
theorem dependsOnParameters (name : String) : DependsOnParameters name where
  same := parse_eq_of_sameParameters
  permuted h hperm :=
    parse_eq_of_sameParameters h (h.perm hperm) fun _ _ _ _ => hperm.mem_iff
  unknown before after k v hk := parse_congr fun key hkey =>
    congrArg (Option.filter _) (Yaml.valueAt?_append_cons_of_ne (hk key hkey) v before after)
  null {before after k} h := by
    have hsub : (before ++ after).Sublist (before ++ (k, .null) :: after) :=
      List.Sublist.append_left (List.sublist_cons_self _ _) before
    refine parse_eq_of_sameParameters h (h.sublist hsub) fun key _ v hv => ?_
    have hne : (Yaml.text key, v) ≠ (k, .null) := fun he => hv (congrArg Prod.snd he)
    rw [List.mem_append, List.mem_cons, or_iff_right hne, List.mem_append]
  exclude := listsEntries_exclude
  tableColumns := listsEntries_tableColumns
  branchColumns := listsEntries_branchColumns

/-- The parameters of a table: two columns, a number of cells, and an id that is null. -/
def offerParameters : List (Yaml × Yaml) :=
  [(.text "id", .null),
    (.text "preDefinedColumns", .mapping [(.text "zone", .text "$zone"), (.text "area", .int 7)]),
    (.text "numOfColumnToEnforce", .text "3")]

/-- The same parameters in another order, without the null one, and with entries that are none of
an action: one has a name of another action, one has no name, one has a name that is spelled in
another way. -/
def otherOfferParameters : List (Yaml × Yaml) :=
  [(.text "numOfColumnToEnforce", .text "3"), (.text "exclude", .list []), (.int 1, .text "id"),
    (.text "preDefinedColumns", .mapping [(.text "zone", .text "$zone"), (.text "area", .int 7)]),
    (.text "Class", .text "price")]

/-- Both are read as the same table, with its columns in the order of the mapping. -/
theorem dependsOnParameters_offers :
    NamesDiffer offerParameters ∧ NamesDiffer otherOfferParameters ∧
      ∃ q, parse "table2csv" offerParameters = .ok (.table q) ∧
        parse "table2csv" otherOfferParameters = .ok (.table q) ∧
        q.columns = [⟨"zone", .var "zone"⟩, ⟨"area", .literal "7"⟩] ∧ q.enforce = some 3 ∧
        ListsEntries ⟨"table2csv", otherOfferParameters⟩ "preDefinedColumns" IsColumn q.columns := by
  have hnames : NamesDiffer offerParameters := by decide
  have hnames' : NamesDiffer otherOfferParameters := by decide
  have hsame := (dependsOnParameters "table2csv").same hnames hnames' (by
    simp +contextual [parameters, offerParameters, otherOfferParameters])
  have hread : parse "table2csv" offerParameters = .ok (.table ⟨.any,
      [⟨"zone", .var "zone"⟩, ⟨"area", .literal "7"⟩], some 3⟩) := by decide +kernel
  refine ⟨hnames, hnames', _, hread, hsame.symm.trans hread, rfl, rfl, ?_⟩
  exact (dependsOnParameters "table2csv").tableColumns (hsame.symm.trans hread)

end Action

end Gleaner
