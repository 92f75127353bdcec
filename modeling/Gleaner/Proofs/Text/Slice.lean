import Gleaner.Flow.Reading
import Gleaner.Markup.Event
import Gleaner.Proofs.Fault.Results
import Gleaner.Proofs.Run.Outcome

/-!
# Slices by places

A slice has the characters whose places lie between two bounds. An offset below zero is counted
from the end of the text, and a bound outside the text is moved to its nearer end. Offsets are
signed words of 64 bits. They go into one sum only, that of the length of the text and an offset
below zero, which is smaller than the length and no word is too small for it.

* `Text.bound`: the bound of an offset, which is the place of it (`Text.place_eq_bound`);
* `Text.IsCut`: the characters between two bounds, with `Text.isCut_slice`;
* `Text.wordBound`: a bound computed in words, with `Text.toInt_wordBound`;
* `Action.exists_words_of_parse`: the offsets of a slice that is read are words;
* `Action.slice_by_places`: the statement for the action.
-/

namespace Gleaner

namespace Text

/-! ## Bounds -/

/-- The bound that an offset sets in a text of a length. -/
def bound (length offset : Int) : Int :=
  max 0 (min length (if offset < 0 then length + offset else offset))

theorem place_eq_bound (length : Nat) (offset : Int) :
    (place length offset : Int) = bound length offset := by
  unfold place bound
  dsimp only
  split <;> omega

/-- Whether a text has the characters of another one whose places are from `a` on and below `b`,
in order. -/
def IsCut (s : String) (a b : Int) (t : String) : Prop :=
  t.toList = (s.toList.zipIdx.filter fun p => a ≤ p.2 ∧ p.2 < b).map (·.1)

/-- The characters between two places, counted from `n` on. -/
theorem map_filter_zipIdx (a b : Int) : ∀ (cs : List Char) (n : Nat),
    ((cs.zipIdx n).filter fun p => a ≤ p.2 ∧ p.2 < b).map (·.1) =
      (cs.take (b - n).toNat).drop (a - n).toNat
  | [], n => by simp
  | c :: cs, n => by
    have ih := map_filter_zipIdx a b cs (n + 1)
    rw [List.zipIdx_cons, List.filter_cons]
    by_cases hb : (n : Int) < b
    · have hstop : (b - n).toNat = (b - (n + 1 : Nat)).toNat + 1 := by omega
      rw [hstop, List.take_succ_cons]
      by_cases ha : (n : Int) < a
      · have hstart : (a - n).toNat = (a - (n + 1 : Nat)).toNat + 1 := by omega
        rw [if_neg (by simp; omega), hstart, List.drop_succ_cons, ih]
      · have hstart : (a - n).toNat = 0 := by omega
        have hstart' : (a - (n + 1 : Nat)).toNat = 0 := by omega
        rw [if_pos (by simp; omega), List.map_cons, ih, hstart, hstart', List.drop_zero,
          List.drop_zero]
    · have hstop : (b - n).toNat = 0 := by omega
      have hstop' : (b - (n + 1 : Nat)).toNat = 0 := by omega
      rw [if_neg (by simp; omega), ih, hstop, hstop', List.take_zero, List.take_zero,
        List.drop_nil, List.drop_nil]

/-- The bound that an offset sets in a text, where no offset sets the bound `otherwise`. -/
def boundOr (s : String) (otherwise : Int) (offset : Option Int) : Int :=
  (offset.map (bound s.length)).getD otherwise

theorem isCut_slice (s : String) (start stop : Option Int) :
    IsCut s (boundOr s 0 start) (boundOr s s.length stop) (slice s start stop) := by
  have hstart : ((start.map (place s.length)).getD 0 : Int) = boundOr s 0 start := by
    cases start with
    | none => rfl
    | some k => exact place_eq_bound s.length k
  have hstop : ((stop.map (place s.length)).getD s.length : Int) = boundOr s s.length stop := by
    cases stop with
    | none => rfl
    | some k => exact place_eq_bound s.length k
  rw [IsCut, map_filter_zipIdx, slice, sliceChars, String.toList_ofList, String.length_toList,
    ← hstart, ← hstop]
  rfl

theorem IsCut.eq_empty {s t : String} {a b : Int} (h : IsCut s a b t) (hle : b ≤ a) : t = "" := by
  have hnone : (s.toList.zipIdx.filter fun p => a ≤ p.2 ∧ p.2 < b) = [] := by
    refine List.filter_eq_nil_iff.mpr fun p _ hp => ?_
    have := of_decide_eq_true hp
    omega
  rw [IsCut, hnone] at h
  exact String.toList_eq_nil_iff.mp h

/-- What a slice up to an offset leaves out is the slice from it on. -/
theorem slice_append_slice (s : String) (k : Int) :
    slice s none (some k) ++ slice s (some k) none = s := by
  rw [slice, slice, ← String.ofList_append]
  change String.ofList (s.toList.take (place s.toList.length k) ++
    (s.toList.take s.toList.length).drop (place s.toList.length k)) = s
  rw [List.take_length, List.take_append_drop, String.ofList_toList]

/-! ## Words -/

/-- The bound of an offset, computed in words: the sum could wrap around. -/
def wordBound (length offset : Int64) : Int64 :=
  let fromStart := if offset < 0 then length + offset else offset
  if fromStart < 0 then 0 else if length < fromStart then length else fromStart

theorem lt_zero_iff {k : Int64} : k < 0 ↔ k.toInt < 0 :=
  Int64.lt_iff_toInt_lt

/-- The sum of the length and an offset below zero is a word. -/
theorem toInt_add_of_lt_zero {length offset : Int64} (hlength : 0 ≤ length.toInt)
    (hoffset : offset < 0) : (length + offset).toInt = length.toInt + offset.toInt := by
  have hneg : offset.toInt < 0 := lt_zero_iff.mp hoffset
  have hlow : -2 ^ 63 ≤ offset.toInt := offset.le_toInt
  have hhigh : length.toInt < 2 ^ 63 := length.toInt_lt
  rw [Int64.toInt_add, Int.bmod_eq_of_le (by omega) (by omega)]

theorem toInt_wordBound {length : Int64} (hlength : 0 ≤ length.toInt) (offset : Int64) :
    (wordBound length offset).toInt = bound length.toInt offset.toInt := by
  have hfrom : (if offset < 0 then length + offset else offset).toInt =
      if offset.toInt < 0 then length.toInt + offset.toInt else offset.toInt := by
    by_cases hoffset : offset < 0
    · rw [if_pos hoffset, if_pos (lt_zero_iff.mp hoffset), toInt_add_of_lt_zero hlength hoffset]
    · rw [if_neg hoffset, if_neg (mt lt_zero_iff.mpr hoffset)]
  rw [wordBound, bound, ← hfrom]
  generalize (if offset < 0 then length + offset else offset) = fromStart
  by_cases hlow : fromStart < 0
  · have hneg : fromStart.toInt < 0 := lt_zero_iff.mp hlow
    rw [if_pos hlow, Int64.toInt_zero]
    omega
  · have hnonneg : ¬fromStart.toInt < 0 := mt lt_zero_iff.mpr hlow
    rw [if_neg hlow]
    by_cases hhigh : length < fromStart
    · have hlt : length.toInt < fromStart.toInt := Int64.lt_iff_toInt_lt.mp hhigh
      rw [if_pos hhigh]
      omega
    · have hle : ¬length.toInt < fromStart.toInt := mt Int64.lt_iff_toInt_lt.mpr hhigh
      rw [if_neg hhigh]
      omega

theorem isSigned_iff {n : Int} :
    isSigned n ↔ -0x8000000000000000 ≤ n ∧ n < 0x8000000000000000 := by
  have hsize : ((wordSize / 2 : Nat) : Int) = 0x8000000000000000 := by decide
  rw [isSigned, Bool.and_eq_true, decide_eq_true_iff, decide_eq_true_iff, hsize]

/-- A signed number of 64 bits is a word. -/
theorem exists_word_of_isSigned {n : Int} (h : isSigned n) : ∃ k : Int64, k.toInt = n := by
  obtain ⟨hlow, hhigh⟩ := isSigned_iff.mp h
  exact ⟨.ofInt n, Int64.toInt_ofInt_of_le (by omega) (by omega)⟩

theorem isSigned_of_signedIn? {base : Nat} {cs : List Char} {n : Int}
    (h : signedIn? base cs = some n) : isSigned n := by
  have hsize : wordSize / 2 = 0x8000000000000000 := by decide
  unfold signedIn? at h
  rw [hsize] at h
  rw [isSigned_iff]
  split at h
  · obtain ⟨k, hk, rfl⟩ := Option.map_eq_some_iff.mp h
    obtain ⟨digits, hdigits, hdigit⟩ := Option.bind_eq_some_iff.mp hk
    cases hdigit
    have hle := of_decide_eq_true (Option.filter_eq_some_iff.mp hdigits).2
    omega
  all_goals
    obtain ⟨digits, hdigits, rfl⟩ := Option.map_eq_some_iff.mp h
    have hlt := of_decide_eq_true (Option.filter_eq_some_iff.mp hdigits).2
    rw [Int.ofNat_eq_natCast]
    omega

end Text

namespace Parameters

/-- A whole number that is given is a word. -/
theorem exists_word_of_integer? {p : Parameters} {key : String} {n : Option Int}
    (h : p.integer? key = .ok n) : ∃ k : Option Int64, n = k.map (·.toInt) := by
  unfold integer? readWith at h
  split at h
  · cases h
    exact ⟨none, rfl⟩
  · split at h
    · rename_i v _ n hn
      cases h
      have hsigned : Text.isSigned n := by
        unfold integerOf? at hn
        split at hn
        · split at hn <;> cases hn
          assumption
        · exact Text.isSigned_of_signedIn? hn
        · cases hn
      obtain ⟨k, hk⟩ := Text.exists_word_of_isSigned hsigned
      exact ⟨some k, congrArg some hk.symm⟩
    · cases h

end Parameters

namespace Action

/-- The offsets of a slice that is read are words. -/
theorem exists_words_of_parse {entries : List (Yaml × Yaml)} {start stop : Option Int}
    (h : parse "substring" entries = .ok (slice start stop)) :
    ∃ a b : Option Int64, start = a.map (·.toInt) ∧ stop = b.map (·.toInt) := by
  obtain ⟨first, hfirst, h⟩ := bind_eq_ok.mp h
  obtain ⟨second, hsecond, h⟩ := bind_eq_ok.mp h
  cases h
  obtain ⟨a, ha⟩ := Parameters.exists_word_of_integer? hfirst
  obtain ⟨b, hb⟩ := Parameters.exists_word_of_integer? hsecond
  exact ⟨a, b, ha, hb⟩

variable {σ : Type} (e : Setting σ) (m : Machine σ) (s : String)

theorem start_slice (start stop : Option Int) :
    ((slice start stop).apply e (.text s)).start m = (.ok (.text (Text.slice s start stop)), m) :=
  rfl

/-- A slice between two words gives the characters whose places lie between their bounds, and
changes nothing. Bounds are the same if they are computed in words, where no sum wraps around, for a
text whose length is a word. Slices up to an offset and from it on make up the text. -/
theorem slice_by_places :
    (∀ start stop : Option Int64, ∃ t,
      ((slice (start.map (·.toInt)) (stop.map (·.toInt))).apply e (.text s)).start m =
        (.ok (.text t), m) ∧
      Text.IsCut s (Text.boundOr s 0 (start.map (·.toInt)))
        (Text.boundOr s s.length (stop.map (·.toInt))) t ∧
      (Text.boundOr s s.length (stop.map (·.toInt)) ≤ Text.boundOr s 0 (start.map (·.toInt)) →
        t = "")) ∧
    (∀ entries start stop, parse "substring" entries = .ok (slice start stop) →
      ∃ a b : Option Int64, start = a.map (·.toInt) ∧ stop = b.map (·.toInt)) ∧
    (∀ length : Int64, length.toInt = s.length → ∀ k : Int64,
      (k < 0 → (length + k).toInt = length.toInt + k.toInt) ∧
      (Text.wordBound length k).toInt = Text.bound s.length k.toInt) ∧
    ∀ k : Int64, ∃ front back,
      ((slice none (some k.toInt)).apply e (.text s)).start m = (.ok (.text front), m) ∧
      ((slice (some k.toInt) none).apply e (.text s)).start m = (.ok (.text back), m) ∧
      front ++ back = s := by
  refine ⟨fun start stop => ⟨_, start_slice e m s _ _, ?_⟩, ?_, ?_, ?_⟩
  · have hcut := Text.isCut_slice s (start.map (·.toInt)) (stop.map (·.toInt))
    exact ⟨hcut, hcut.eq_empty⟩
  · exact fun entries start stop h => exists_words_of_parse h
  · intro length hlength k
    have hnonneg : 0 ≤ length.toInt := hlength ▸ Int.natCast_nonneg s.length
    exact ⟨Text.toInt_add_of_lt_zero hnonneg, hlength ▸ Text.toInt_wordBound hnonneg k⟩
  · intro k
    exact ⟨_, _, start_slice e m s _ _, start_slice e m s _ _,
      Text.slice_append_slice s k.toInt⟩

/-- The least word of all counts back far beyond the start of the text. -/
theorem slice_by_places_least :
    parse "substring" [(.text "start", .int (-9223372036854775808)), (.text "end", .text " -5 ")] =
      .ok (slice (some (-9223372036854775808)) (some (-5))) ∧
    (∃ a b : Option Int64, some (-9223372036854775808) = a.map (·.toInt) ∧
      some (-5) = b.map (·.toInt)) ∧
    (∃ t, ((slice (some (-9223372036854775808)) (some (-5))).apply
        ⟨.ofEvents [], .listing⟩ (.text "HelloWorld")).start ⟨⟨[]⟩, []⟩ =
          (.ok (.text t), ⟨⟨[]⟩, []⟩) ∧
      Text.IsCut "HelloWorld" 0 5 t) ∧
    (10 + Int64.minValue).toInt = 10 + Int64.minValue.toInt ∧
    (Text.wordBound 10 Int64.minValue).toInt = 0 := by
  obtain ⟨hcut, hparse, hwords, -⟩ :=
    slice_by_places ⟨.ofEvents [], .listing⟩ ⟨⟨[]⟩, []⟩ "HelloWorld"
  obtain ⟨t, ht, hplaces, -⟩ := hcut (some Int64.minValue) (some (-5))
  have hread : parse "substring" [(.text "start", .int (-9223372036854775808)),
      (.text "end", .text " -5 ")] = .ok (slice (some (-9223372036854775808)) (some (-5))) := by
    decide
  obtain ⟨hsum, hbound⟩ := hwords 10 (by decide) Int64.minValue
  exact ⟨hread, hparse _ _ _ hread, ⟨t, ht, hplaces⟩, hsum (by decide), hbound⟩

end Action

end Gleaner
