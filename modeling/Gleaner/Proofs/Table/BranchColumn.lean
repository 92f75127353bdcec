import Mathlib.Data.List.TakeWhile
import Gleaner.Proofs.Run.Contract
import Gleaner.Proofs.Text.Numeral

/-!
# Columns that stand for a node of a branch

A fixed column whose text has a marker `[N]` in it takes its value from the node of a
branch that has the number `N`, and a number outside the branch is a fault. This is so
for all markers that can be read as an index: those in digits of ASCII, with a number of
64 bits. A marker in digits of another script, or with a larger number, is passed over,
and the column shows its text as it is.

* `Column.IsFirstMarker`: the leftmost marker of a text, with `Column.isFirstMarker_iff`:
  it is the one that is found;
* `Column.branchIndex?_of_isFirstMarker`: the index of a column;
* `Table.ofBranch_of_isFirstMarker`: what such a column comes to in a projection.
-/

namespace Gleaner

namespace Column

open Text

/-! ## The leftmost marker -/

/-- Whether digits in brackets stand in a text after some characters. -/
structure HasMarker (cs before digits : List Char) : Prop where
  split : ∃ after, cs = before ++ '[' :: (digits ++ ']' :: after)
  digits_ne_nil : digits ≠ []
  isDecimalDigit : ∀ c ∈ digits, isDecimalDigit c

/-- Whether a text has markers, and the first one has these digits. -/
def IsFirstMarker (cs digits : List Char) : Prop :=
  ∃ before, HasMarker cs before digits ∧
    ∀ before' digits', HasMarker cs before' digits' → before.length ≤ before'.length

theorem hasMarker_cons_iff {b c : Char} {cs before digits : List Char} :
    HasMarker (c :: cs) (b :: before) digits ↔ b = c ∧ HasMarker cs before digits := by
  constructor
  · rintro ⟨⟨after, hsplit⟩, hne, hdigits⟩
    obtain ⟨rfl, rfl⟩ := List.cons.inj hsplit
    exact ⟨rfl, ⟨after, rfl⟩, hne, hdigits⟩
  · rintro ⟨rfl, ⟨after, rfl⟩, hne, hdigits⟩
    exact ⟨⟨after, rfl⟩, hne, hdigits⟩

/-- A marker at the front of a text is told by the digits after the first character and by
what stands behind them. -/
theorem hasMarker_nil_iff {c : Char} {cs digits : List Char} :
    HasMarker (c :: cs) [] digits ↔ digits = cs.takeWhile Text.isDecimalDigit ∧
      c = '[' ∧ digits ≠ [] ∧ (cs.drop digits.length).head? = some ']' := by
  constructor
  · rintro ⟨⟨after, hsplit⟩, hne, hdigits⟩
    obtain ⟨rfl, rfl⟩ := List.cons.inj hsplit
    refine ⟨?_, rfl, hne, ?_⟩
    · rw [List.takeWhile_append_of_pos hdigits, List.takeWhile_cons_of_neg (by decide),
        List.append_nil]
    · rw [List.drop_left, List.head?_cons]
  · rintro ⟨hdigits, rfl, hne, hbehind⟩
    obtain ⟨rest, hrest⟩ : digits <+: cs := hdigits ▸ List.takeWhile_prefix _
    rw [← hrest, List.drop_left, List.head?_eq_some_iff] at hbehind
    obtain ⟨after, rfl⟩ := hbehind
    refine ⟨⟨after, by rw [← hrest]; rfl⟩, hne, fun x hx => ?_⟩
    exact List.mem_takeWhile_imp (hdigits ▸ hx)

/-- The first marker is the one that is found. -/
theorem isFirstMarker_iff {digits : List Char} :
    ∀ {cs : List Char}, IsFirstMarker cs digits ↔ markerDigits? cs = some digits
  | [] => by
    refine iff_of_false ?_ nofun
    rintro ⟨before, ⟨⟨after, hsplit⟩, -, -⟩, -⟩
    exact absurd hsplit.symm (by simp)
  | c :: cs => by
    unfold markerDigits?
    dsimp only
    split
    · rename_i hfront
      have hmarker := hasMarker_nil_iff.mpr ⟨rfl, hfront⟩
      constructor
      · rintro ⟨before, hbefore, hfirst⟩
        obtain rfl := List.eq_nil_of_length_eq_zero (Nat.le_zero.mp (hfirst [] _ hmarker))
        exact congrArg some (hasMarker_nil_iff.mp hbefore).1.symm
      · intro h
        cases h
        exact ⟨[], hmarker, fun _ _ _ => Nat.zero_le _⟩
    · rename_i hfront
      have hnil (digits : List Char) : ¬HasMarker (c :: cs) [] digits := by
        intro h
        obtain ⟨rfl, h⟩ := hasMarker_nil_iff.mp h
        exact hfront h
      rw [← isFirstMarker_iff]
      constructor
      · rintro ⟨before, hbefore, hfirst⟩
        cases before with
        | nil => exact absurd hbefore (hnil _)
        | cons b before =>
          obtain ⟨rfl, h⟩ := hasMarker_cons_iff.mp hbefore
          exact ⟨before, h, fun before' digits' h' =>
            Nat.le_of_succ_le_succ (hfirst (b :: before') _ (hasMarker_cons_iff.mpr ⟨rfl, h'⟩))⟩
      · rintro ⟨before, hbefore, hfirst⟩
        refine ⟨c :: before, hasMarker_cons_iff.mpr ⟨rfl, hbefore⟩, fun before' digits' h => ?_⟩
        cases before' with
        | nil => exact absurd h (hnil _)
        | cons b before' =>
          exact Nat.succ_le_succ (hfirst _ _ (hasMarker_cons_iff.mp h).2)

/-- The index of a column with a marker, if its digits can be read as one. -/
theorem branchIndex?_of_isFirstMarker {c : Column} {text : String} {digits : List Char}
    (hsource : c.source = .literal text) (h : IsFirstMarker text.toList digits) :
    c.branchIndex? = if IsIndex digits then some (digitsValue digits) else none := by
  obtain ⟨before, hbefore, -⟩ := id h
  unfold branchIndex? markerIndex?
  rw [hsource]
  dsimp only
  rw [isFirstMarker_iff.mp h, Option.bind_some,
    unsignedIn?_ten hbefore.digits_ne_nil hbefore.isDecimalDigit]

end Column

namespace Table

variable {d : Document} {s s' : Store} {branch : List NodeId} {tableIndex : Option Nat}
  {before after : List Column} {found constants : List (String × String)} {c : Column} {v : String}
  {t : Table}

/-! ## Columns in a row -/

theorem branchValues_cons_of_ok (h : branchValue d s branch c = (.ok v, s')) (rest : List Column) :
    branchValues d s branch (c :: rest) =
      ((branchValues d s' branch rest).1.map ((c.name, v) :: ·), (branchValues d s' branch rest).2) := by
  rw [branchValues, h]

theorem branchValues_cons_of_error {f : Fault} (h : branchValue d s branch c = (.error f, s'))
    (rest : List Column) : branchValues d s branch (c :: rest) = (.error f, s') := by
  rw [branchValues, h]

/-- Columns that are resolved give one constant each, and the columns after them go on with
the store that they leave. -/
theorem branchValues_append :
    ∀ {before : List Column} {s : Store} {found : List (String × String)},
      branchValues d s branch before = (.ok found, s') →
        found.length = before.length ∧ ∀ rest, branchValues d s branch (before ++ rest) =
          ((branchValues d s' branch rest).1.map (found ++ ·), (branchValues d s' branch rest).2)
  | [], _, _, h => by
    cases h
    refine ⟨rfl, fun rest => ?_⟩
    rw [List.nil_append]
    rcases branchValues d s' branch rest with ⟨_ | _, _⟩ <;> rfl
  | c :: before, s, found, h => by
    rcases hc : branchValue d s branch c with ⟨f | v, s₁⟩
    · rw [branchValues_cons_of_error hc] at h
      cases h
    · rw [branchValues_cons_of_ok hc] at h
      obtain ⟨hok, hstore⟩ := Prod.ext_iff.mp h
      obtain ⟨others, hothers, rfl⟩ := map_eq_ok.mp hok
      obtain ⟨hlength, happend⟩ := branchValues_append (Prod.ext hothers hstore)
      refine ⟨congrArg (· + 1) hlength, fun rest => ?_⟩
      rw [List.cons_append, branchValues_cons_of_ok hc, happend]
      rcases branchValues d s' branch rest with ⟨_ | _, _⟩ <;> rfl

/-! ## Constants in front -/

theorem constants_of_project {source : NodeId} {filter : Filter} {enforce : Option Nat}
    (h : project d source filter constants enforce = .ok t) :
    constants.map (·.1) <+: t.header ∧ ∀ row ∈ t.rows, constants.map (·.2) <+: row := by
  obtain ⟨table, -, h⟩ := bind_eq_ok.mp h
  dsimp only at h
  split at h
  · cases h
    exact ⟨List.prefix_refl _, nofun⟩
  · cases h
    refine ⟨List.prefix_append _ _, fun row hrow => ?_⟩
    obtain ⟨i, -, rfl⟩ := List.mem_map.mp hrow
    exact List.prefix_append _ _

/-- The names of the constants are the first cells of the header, and their values those of
each row. -/
theorem constants_of_ofBranchWith (h : ofBranchWith d branch tableIndex constants = .ok t) :
    constants.map (·.1) <+: t.header ∧ ∀ row ∈ t.rows, constants.map (·.2) <+: row := by
  cases tableIndex with
  | none =>
    cases h
    exact ⟨List.prefix_append _ _, List.forall_mem_singleton.mpr (List.prefix_append _ _)⟩
  | some index =>
    obtain ⟨i, -, h⟩ := bind_eq_ok.mp h
    split at h
    · exact constants_of_project h
    · cases h

/-- A cell with others before it stands at the place of their number. -/
theorem getElem?_length_of_map {α β : Type} {xs ys : List β} {x : β} {cells : List α} {g : β → α}
    (h : (xs ++ x :: ys).map g <+: cells) : cells[xs.length]? = some (g x) := by
  obtain ⟨rest, rfl⟩ := h
  rw [List.map_append, List.append_assoc, List.getElem?_append_right (by rw [List.length_map]),
    List.length_map, Nat.sub_self]
  rfl

/-! ## The value of a column -/

/-- Whether a column, with others before and after it, has a value for a branch: it is the
constant of the column, and the cell below the name of the column in every row of a table
that is projected. The columns before it have given `found` and left the store `s'`. -/
structure HasColumn (d : Document) (s : Store) (branch : List NodeId) (before : List Column)
    (found : List (String × String)) (s' : Store) (c : Column) (after : List Column) (v : String) :
    Prop where
  constants : branchValues d s branch (before ++ c :: after) =
    ((branchValues d s' branch after).1.map fun others => found ++ (c.name, v) :: others,
      (branchValues d s' branch after).2)
  cells : ∀ tableIndex t, (ofBranch d s branch tableIndex (before ++ c :: after)).1 = .ok t →
    t.header[before.length]? = some c.name ∧ ∀ row ∈ t.rows, row[before.length]? = some v

theorem hasColumn_of_branchValue (hreach : branchValues d s branch before = (.ok found, s'))
    (h : branchValue d s' branch c = (.ok v, s')) (after : List Column) :
    HasColumn d s branch before found s' c after v := by
  obtain ⟨hlength, happend⟩ := branchValues_append hreach
  have hconstants : branchValues d s branch (before ++ c :: after) =
      ((branchValues d s' branch after).1.map fun others => found ++ (c.name, v) :: others,
        (branchValues d s' branch after).2) := by
    rw [happend, branchValues_cons_of_ok h]
    rcases branchValues d s' branch after with ⟨_ | _, _⟩ <;> rfl
  refine ⟨hconstants, fun tableIndex t ht => ?_⟩
  unfold ofBranch at ht
  rw [hconstants] at ht
  obtain ⟨constants, hok, ht⟩ := bind_eq_ok.mp ht
  obtain ⟨others, -, rfl⟩ := map_eq_ok.mp hok
  obtain ⟨hheader, hrows⟩ := constants_of_ofBranchWith ht
  rw [← hlength]
  exact ⟨getElem?_length_of_map hheader, fun row hrow => getElem?_length_of_map (hrows row hrow)⟩

theorem ofBranch_of_branchValue_error (hreach : branchValues d s branch before = (.ok found, s'))
    {f : Fault} (h : branchValue d s' branch c = (.error f, s')) (tableIndex : Option Nat)
    (after : List Column) :
    ofBranch d s branch tableIndex (before ++ c :: after) = (.error f, s') := by
  unfold ofBranch
  rw [(branchValues_append hreach).2, branchValues_cons_of_error h]
  rfl

/-- A column with a marker, once the columns before it are resolved. If the digits of its
first marker can be read as an index, the column shows the text of the branch's node of that
number in normal form, and if there is no such node, that is the fault of the projection. The
store is what the columns before it left. If the digits cannot be read as an index, the
column shows its own text. -/
theorem ofBranch_of_isFirstMarker {text : String} {digits : List Char}
    (hsource : c.source = .literal text) (hmarker : Column.IsFirstMarker text.toList digits)
    (hreach : branchValues d s branch before = (.ok found, s')) (after : List Column) :
    (Text.IsIndex digits →
      (∀ i, branch[Text.digitsValue digits]? = some i →
        HasColumn d s branch before found s' c after (Text.normalize (d.text i))) ∧
      (branch.length ≤ Text.digitsValue digits → ∀ tableIndex,
        ofBranch d s branch tableIndex (before ++ c :: after) =
          (.error (.columnOutOfRange c.name (Text.digitsValue digits) branch.length), s'))) ∧
    (¬Text.IsIndex digits → HasColumn d s branch before found s' c after text) := by
  have hindex := Column.branchIndex?_of_isFirstMarker hsource hmarker
  refine ⟨fun hread => ?_, fun hread => hasColumn_of_branchValue hreach ?_ after⟩
  · rw [if_pos hread] at hindex
    refine ⟨fun i hi => hasColumn_of_branchValue hreach ?_ after, fun hlength tableIndex => ?_⟩
    · simp only [branchValue, hindex, nodeOf, hi]
      rfl
    · refine ofBranch_of_branchValue_error hreach ?_ tableIndex after
      simp only [branchValue, hindex, nodeOf, List.getElem?_eq_none hlength]
      rfl
  · rw [if_neg hread] at hindex
    simp only [branchValue, hindex, Column.resolve, hsource]
    rfl

/-- A page of one section. -/
def sectionPage : Document :=
  ((Builder.empty.element "h2" [] "Compute").element "div" [] " \"t2\"  micro ").finish

/-- A queue whose first element a column takes out. -/
def sectionStore : Store :=
  ⟨[("providers", ⟨.list, .list [.text "aws", .text "gcp"]⟩)]⟩

/-- The second marker of the text is not looked at, and the zero does not count. -/
theorem ofBranch_two_markers :
    Column.IsFirstMarker "see [01], not [9]".toList ['0', '1'] ∧
      HasColumn sectionPage sectionStore [1, 3] [⟨"provider", .pop "providers"⟩]
        [("provider", "aws")] ⟨[("providers", ⟨.list, .list [.text "gcp"]⟩)]⟩
        ⟨"size", .literal "see [01], not [9]"⟩ [] "t2 micro" := by
  have hmarker : Column.IsFirstMarker "see [01], not [9]".toList ['0', '1'] :=
    Column.isFirstMarker_iff.mpr (by decide)
  have hreach : branchValues sectionPage sectionStore [1, 3] [⟨"provider", .pop "providers"⟩] =
      (.ok [("provider", "aws")], ⟨[("providers", ⟨.list, .list [.text "gcp"]⟩)]⟩) := by
    decide +kernel
  have htext : Text.normalize (sectionPage.text 3) = "t2 micro" := by decide +kernel
  have hcolumn := ofBranch_of_isFirstMarker (c := ⟨"size", .literal "see [01], not [9]"⟩) rfl
    hmarker hreach []
  refine ⟨hmarker, ?_⟩
  rw [← htext]
  exact (hcolumn.1 (by decide)).1 3 rfl

/-- The number of the marker has more than 64 bits. It is no node of the branch, but the cell
shows the text of the column. -/
theorem ofBranch_large_marker :
    Column.IsFirstMarker "[18446744073709551616]".toList "18446744073709551616".toList ∧
      Text.digitsValue "18446744073709551616".toList = 18446744073709551616 ∧
      ofBranch sectionPage .empty [1, 3] none [⟨"size", .literal "[18446744073709551616]"⟩] =
        (.ok ⟨["size", "h2", "div"], [["[18446744073709551616]", "Compute", "t2 micro"]]⟩,
          .empty) := by
  refine ⟨Column.isFirstMarker_iff.mpr ?_, ?_, ?_⟩ <;> decide +kernel

end Table

end Gleaner
