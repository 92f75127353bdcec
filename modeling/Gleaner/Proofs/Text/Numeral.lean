import Mathlib.Logic.Basic
import Gleaner.Text.DecimalDigit
import Gleaner.Text.Numeral

/-!
# Numerals and the numbers that they write

Decimal digits of any script write a number, but only those of ASCII are read, and only
if the number has 64 bits at most. The numeral of a number is made of such digits, and
is read as that number.

* `Text.digitsValue`: the number that digits of any script write;
* `Text.digitsFrom?_ten`, `Text.unsignedIn?_ten`: which digits are read, and as what;
* `Text.unsigned?_numeral`: reading the numeral of a number.
-/

namespace Gleaner.Text

/-! ## Numbers in digits of any script -/

/-- The value of a decimal digit. Each run of digits goes from zero to nine, or does so
several times. -/
def digitValue (c : Char) : Nat :=
  match decimalDigitRuns.find? fun (first, count) => first ≤ c.toNat && c.toNat < first + count with
  | some (first, _) => (c.toNat - first) % 10
  | none => 0

/-- The number that decimal digits write after digits that are worth `n`, the most
significant first. -/
def digitsValueFrom (n : Nat) (ds : List Char) : Nat :=
  ds.foldl (fun n c => 10 * n + digitValue c) n

/-- The number that decimal digits write. -/
def digitsValue (ds : List Char) : Nat :=
  digitsValueFrom 0 ds

/-- Whether a character is a digit of ASCII. -/
def IsAsciiDigit (c : Char) : Prop :=
  '0' ≤ c ∧ c ≤ '9'

instance : DecidablePred IsAsciiDigit := fun _ => inferInstanceAs (Decidable (_ ∧ _))

/-- Whether all characters are digits of ASCII. -/
def AreAsciiDigits (ds : List Char) : Prop :=
  ∀ c ∈ ds, IsAsciiDigit c

instance : DecidablePred AreAsciiDigits := fun ds => List.decidableBAll IsAsciiDigit ds

theorem areAsciiDigits_cons {c : Char} {ds : List Char} :
    AreAsciiDigits (c :: ds) ↔ IsAsciiDigit c ∧ AreAsciiDigits ds :=
  List.forall_mem_cons

example : digitValue '7' = 7 ∧ digitValue '\u0663' = 3 ∧ digitValue (Char.ofNat 0x1D7E0) = 8 := by
  decide

theorem digitValue_of_isAsciiDigit {c : Char} (h : IsAsciiDigit c) :
    digitValue c = c.toNat - 48 := by
  have hbounds : 48 ≤ c.toNat ∧ c.toNat ≤ 57 := h
  have hrun : decimalDigitRuns.find?
      (fun (first, count) => first ≤ c.toNat && c.toNat < first + count) = some (48, 10) := by
    rw [decimalDigitRuns, List.find?_cons_of_pos]
    simp only [Bool.and_eq_true, decide_eq_true_eq]
    omega
  simp only [digitValue, hrun]
  omega

theorem digit?_of_isAsciiDigit {c : Char} (h : IsAsciiDigit c) :
    digit? c = some (digitValue c) ∧ digitValue c < 10 := by
  have hbounds : 48 ≤ c.toNat ∧ c.toNat ≤ 57 := h
  rw [digitValue_of_isAsciiDigit h]
  exact ⟨if_pos h, by omega⟩

/-- What is no digit of ASCII is worth nothing, or at least ten. -/
theorem le_of_digit? {c : Char} {k : Nat} (h : ¬IsAsciiDigit c) (hk : digit? c = some k) :
    10 ≤ k := by
  unfold digit? at hk
  repeat' split at hk
  · exact absurd ‹_› h
  · cases hk
    exact Nat.le_add_left ..
  · cases hk
    exact Nat.le_add_left ..
  · cases hk

/-- Only digits of ASCII are read, and as the number that they write. -/
theorem digitsFrom?_ten (ds : List Char) (n : Nat) : digitsFrom? 10 n ds =
    if AreAsciiDigits ds then some (digitsValueFrom n ds) else none := by
  induction ds generalizing n with
  | nil => rfl
  | cons c ds ih =>
    unfold digitsFrom?
    by_cases hc : IsAsciiDigit c
    · obtain ⟨hdigit, hlt⟩ := digit?_of_isAsciiDigit hc
      rw [hdigit]
      dsimp only
      rw [if_pos hlt, ih]
      exact if_congr (areAsciiDigits_cons.trans (and_iff_right hc)).symm rfl rfl
    · rw [if_neg fun h => hc (areAsciiDigits_cons.mp h).1]
      split
      · rename_i k hk
        exact if_neg (Nat.not_lt_of_le (le_of_digit? hc hk))
      · rfl

/-- Whether some digits can be read as an index. -/
def IsIndex (ds : List Char) : Prop :=
  AreAsciiDigits ds ∧ digitsValue ds < wordSize

instance : DecidablePred IsIndex := fun _ => inferInstanceAs (Decidable (_ ∧ _))

theorem unsignedIn?_ten {ds : List Char} (hne : ds ≠ []) (h : ∀ c ∈ ds, isDecimalDigit c) :
    unsignedIn? 10 ds = if IsIndex ds then some (digitsValue ds) else none := by
  have hsign : ∀ rest, ds ≠ '+' :: rest := by
    rintro rest rfl
    exact absurd (h '+' List.mem_cons_self) (by decide)
  have hread : digits? 10 ds =
      if AreAsciiDigits ds then some (digitsValue ds) else none := by
    rw [digits?, if_neg (by simpa using hne), digitsFrom?_ten]
    rfl
  unfold unsignedIn?
  dsimp only
  split
  · exact absurd rfl (hsign _)
  · rw [hread]
    by_cases hascii : AreAsciiDigits ds
    · rw [if_pos hascii, Option.filter_some]
      refine if_congr ?_ rfl rfl
      rw [decide_eq_true_iff]
      exact (and_iff_right hascii).symm
    · rw [if_neg hascii, if_neg fun hindex => hascii hindex.1]
      rfl

/-! ## The numeral of a number -/

theorem isDecimalDigit_of_isAsciiDigit {c : Char} (h : IsAsciiDigit c) : isDecimalDigit c := by
  have hbounds : 48 ≤ c.toNat ∧ c.toNat ≤ 57 := h
  rw [isDecimalDigit, decimalDigitRuns, List.any_cons, Bool.or_eq_true]
  refine .inl ?_
  simp only [Bool.and_eq_true, decide_eq_true_eq]
  omega

theorem areAsciiDigits_toDigits (n : Nat) : AreAsciiDigits (Nat.toDigits 10 n) := by
  intro c hc
  have hdigit : c.isDigit := Nat.isDigit_of_mem_toDigits (by decide) (by decide) hc
  exact Char.isDigit_iff_toNat.mp hdigit

theorem isAsciiDigit_of_mem_numeral {c : Char} {n : Nat} (h : c ∈ (numeral n).toList) :
    IsAsciiDigit c := by
  rw [numeral, String.toList_ofList] at h
  exact areAsciiDigits_toDigits n c h

theorem digitsValueFrom_eq_ofDigitChars {ds : List Char} (h : AreAsciiDigits ds) (n : Nat) :
    digitsValueFrom n ds = Nat.ofDigitChars 10 ds n := by
  induction ds generalizing n with
  | nil => rfl
  | cons c ds ih =>
    obtain ⟨hc, hds⟩ := areAsciiDigits_cons.mp h
    calc
      digitsValueFrom n (c :: ds) = digitsValueFrom (10 * n + digitValue c) ds := rfl
      _ = Nat.ofDigitChars 10 ds (10 * n + (c.toNat - 48)) := by
        rw [ih hds, digitValue_of_isAsciiDigit hc]
      _ = Nat.ofDigitChars 10 (c :: ds) n := Nat.ofDigitChars_cons.symm

theorem digitsValue_toDigits (n : Nat) : digitsValue (Nat.toDigits 10 n) = n :=
  (digitsValueFrom_eq_ofDigitChars (areAsciiDigits_toDigits n) 0).trans
    Nat.ofDigitChars_ten_toDigits

/-- The numeral of a number of 64 bits is read as that number, and that of a larger one is
not read. -/
theorem unsigned?_numeral (n : Nat) :
    unsigned? (numeral n) = if n < wordSize then some n else none := by
  have hdigits := areAsciiDigits_toDigits n
  have hindex : IsIndex (Nat.toDigits 10 n) ↔ n < wordSize := by
    rw [IsIndex, digitsValue_toDigits]
    exact and_iff_right hdigits
  rw [unsigned?, numeral, String.toList_ofList,
    unsignedIn?_ten Nat.toDigits_ne_nil fun c hc => isDecimalDigit_of_isAsciiDigit (hdigits c hc),
    digitsValue_toDigits]
  exact if_congr hindex rfl rfl

end Gleaner.Text
