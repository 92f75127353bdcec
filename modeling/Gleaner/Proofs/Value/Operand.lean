import Gleaner.Value.Operand

/-!
# Operands and their texts

The text of an operand has no braces, while a text with a reference in it may have
some. Reading the text of a parsed operand gives the operand back, unless the body of
the reference has braces of its own around it: these would then be read as the ones
that may stand after the dollar sign. They are there exactly if the parsed text has
two pairs of them.

* `Operand.body?_of_braced`, `Operand.body?_of_bare`: the two forms of a reference;
* `Operand.ofBody?`: the operand of a body, with `Operand.toList_text` for its text;
* `Operand.parse_text_iff`: which references are read back;
* `Operand.parse_intercalate`: a reference read from its name and segments;
* `Operand.parse_text_parse`: the statement for all texts.
-/

namespace Gleaner.Operand

/-! ## Bodies -/

/-- Whether some characters begin and end with a brace and have others between. -/
def IsBraced (cs : List Char) : Prop :=
  ∃ inner, inner ≠ [] ∧ cs = '\x7b' :: (inner ++ ['\x7d'])

/-- What is looked for after an opening brace: a closing one at the end, and more. -/
theorem closed_iff {cs : List Char} :
    (cs.getLast? = some '\x7d' ∧ 1 < cs.length) ↔ ∃ inner, inner ≠ [] ∧ cs = inner ++ ['\x7d'] := by
  constructor
  · rintro ⟨hlast, hlength⟩
    obtain ⟨inner, rfl⟩ := List.getLast?_eq_some_iff.mp hlast
    refine ⟨inner, ?_, rfl⟩
    rintro rfl
    exact absurd hlength (by decide)
  · rintro ⟨inner, hinner, rfl⟩
    refine ⟨List.getLast?_concat, ?_⟩
    rw [List.length_append]
    exact Nat.lt_add_of_pos_left (List.length_pos_iff.mpr hinner)

theorem body?_of_braced {inner : List Char} (h : inner ≠ []) :
    body? ('$' :: '\x7b' :: (inner ++ ['\x7d'])) = some inner := by
  have hclosed := closed_iff.mpr ⟨inner, h, rfl⟩
  simp only [body?, if_pos hclosed, List.dropLast_concat]

theorem body?_of_bare {body : List Char} (h : ¬IsBraced body) : body? ('$' :: body) = some body := by
  simp only [body?]
  split
  · rename_i inner
    refine if_neg fun hclosed => ?_
    obtain ⟨front, hfront, rfl⟩ := closed_iff.mp hclosed
    exact h ⟨front, hfront, rfl⟩
  · rfl

/-- A body stands in braces after the dollar sign, or without any. In the second form
it has no braces around itself, since these would belong to the first form. -/
theorem eq_of_body? {cs body : List Char} (h : body? cs = some body) :
    (body ≠ [] ∧ cs = '$' :: '\x7b' :: (body ++ ['\x7d'])) ∨ (¬IsBraced body ∧ cs = '$' :: body) := by
  have hdollar : ∃ rest, cs = '$' :: rest := by
    unfold body? at h
    split at h
    · exact ⟨_, rfl⟩
    · cases h
  obtain ⟨rest, rfl⟩ := hdollar
  by_cases hrest : IsBraced rest
  · obtain ⟨inner, hinner, rfl⟩ := hrest
    rw [body?_of_braced hinner] at h
    cases h
    exact .inl ⟨hinner, rfl⟩
  · rw [body?_of_bare hrest] at h
    cases h
    exact .inr ⟨hrest, rfl⟩

/-! ## The operand of a body -/

/-- The operand of a reference with a body, if it has a name. -/
def ofBody? (body : List Char) : Option Operand :=
  match (body.splitOn '.').map String.ofList with
  | [] => none
  | name :: segments => if name.isEmpty then none else some (ofSegments name segments)

theorem parse_eq (s : String) : parse s = ((body? s.toList).bind ofBody?).getD (literal s) := by
  unfold parse
  cases body? s.toList with
  | none => rfl
  | some body =>
    dsimp only [Option.bind_some, ofBody?]
    cases (body.splitOn '.').map String.ofList with
    | nil => rfl
    | cons name segments =>
      dsimp only
      split <;> rfl

theorem text_ofSegments (name : String) (segments : List String) :
    (ofSegments name segments).text = "$" ++ ".".intercalate (name :: segments) := by
  unfold ofSegments
  split
  · rw [text, String.intercalate_singleton]
  · rw [text, String.intercalate_cons_cons, String.intercalate_singleton, String.append_assoc,
      String.append_assoc]
    rfl
  · rename_i hsegments _
    rw [text, String.intercalate_cons_of_ne_nil hsegments, String.append_assoc, String.append_assoc,
      String.append_assoc]

/-- The text of the operand of a body is the body after a dollar sign. -/
theorem toList_text {body : List Char} {o : Operand} (h : ofBody? body = some o) :
    o.text.toList = '$' :: body := by
  have htoList : String.toList ∘ String.ofList = id := funext fun _ => String.toList_ofList
  unfold ofBody? at h
  split at h
  · cases h
  · rename_i name segments hsplit
    split at h
    · cases h
    · cases h
      rw [text_ofSegments, ← hsplit, String.toList_append, String.toList_intercalate, List.map_map,
        htoList, List.map_id]
      exact congrArg _ (List.intercalate_splitOn '.')

theorem ofBody?_ne_literal (body : List Char) (s : String) : ofBody? body ≠ some (literal s) := by
  unfold ofBody? ofSegments
  repeat' split
  all_goals nofun

/-- A body that starts with a brace has a name. -/
theorem exists_ofBody?_of_isBraced {body : List Char} (h : IsBraced body) :
    ∃ o, ofBody? body = some o := by
  obtain ⟨inner, -, rfl⟩ := h
  obtain ⟨name, segments, hsplit⟩ :=
    List.exists_cons_of_ne_nil (List.splitOn_ne_nil '.' (inner ++ ['\x7d']))
  have hname : ¬(String.ofList ('\x7b' :: name)).isEmpty := by simp
  refine ⟨ofSegments (String.ofList ('\x7b' :: name)) (segments.map String.ofList), ?_⟩
  unfold ofBody?
  rw [List.splitOn_cons_eq_if_modifyHead, if_neg (by decide), hsplit]
  exact if_neg hname

/-- A reference is read back from its text exactly if its body is not in braces. -/
theorem parse_text_iff {body : List Char} {o : Operand} (h : ofBody? body = some o) :
    parse o.text = o ↔ ¬IsBraced body := by
  rw [parse_eq, toList_text h]
  constructor
  · rintro hparse ⟨inner, hinner, rfl⟩
    rw [body?_of_braced hinner, Option.bind_some] at hparse
    cases hbody : ofBody? inner with
    | none =>
      rw [hbody] at hparse
      exact ofBody?_ne_literal _ _ (h.trans (congrArg some hparse.symm))
    | some o' =>
      -- The same operand would have two bodies of different lengths.
      rw [hbody] at hparse
      obtain rfl : o' = o := hparse
      have hbodies := (toList_text hbody).symm.trans (toList_text h)
      have hlength := congrArg List.length (List.cons.inj hbodies).2
      rw [List.length_cons, List.length_append] at hlength
      omega
  · intro hbare
    rw [body?_of_bare hbare, Option.bind_some, h]
    rfl

/-! ## References from their parts -/

theorem ofBody?_intercalate {name : String} {segments : List String} (hname : name ≠ "")
    (hdots : ∀ part ∈ name :: segments, '.' ∉ part.toList) :
    ofBody? (".".intercalate (name :: segments)).toList = some (ofSegments name segments) := by
  have hofList : String.ofList ∘ String.toList = id := funext fun _ => String.ofList_toList
  have hsplit : (".".intercalate (name :: segments)).toList.splitOn '.' =
      (name :: segments).map String.toList := by
    rw [String.toList_intercalate]
    refine List.splitOn_intercalate '.' (fun part hpart => ?_) (List.cons_ne_nil _ _)
    obtain ⟨s, hs, rfl⟩ := List.mem_map.mp hpart
    exact hdots s hs
  rw [ofBody?, hsplit, List.map_map, hofList, List.map_id]
  exact if_neg (by simpa using hname)

/-- A name and segments without dots are read from the text in which they are joined by
dots. -/
theorem parse_intercalate {name : String} {segments : List String} (hname : name ≠ "")
    (hdots : ∀ part ∈ name :: segments, '.' ∉ part.toList)
    (hbare : ¬IsBraced (".".intercalate (name :: segments)).toList) :
    parse ("$" ++ ".".intercalate (name :: segments)) = ofSegments name segments := by
  rw [← text_ofSegments]
  exact (parse_text_iff (ofBody?_intercalate hname hdots)).mpr hbare

/-! ## All texts -/

theorem body?_two_braces (x : String) :
    body? ("$\x7b\x7b" ++ x ++ "\x7d\x7d").toList = some ('\x7b' :: (x.toList ++ ['\x7d'])) := by
  have hx : ("$\x7b\x7b" ++ x ++ "\x7d\x7d").toList =
      '$' :: '\x7b' :: ('\x7b' :: (x.toList ++ ['\x7d']) ++ ['\x7d']) := by simp
  rw [hx, body?_of_braced (List.cons_ne_nil _ _)]

/-- The body of a text is in braces exactly if the text has two pairs of them. -/
theorem isBraced_iff {s : String} {body : List Char} (h : body? s.toList = some body) :
    IsBraced body ↔ ∃ x, x ≠ "" ∧ s = "$\x7b\x7b" ++ x ++ "\x7d\x7d" := by
  constructor
  · rintro ⟨inner, hinner, rfl⟩
    rcases eq_of_body? h with ⟨-, hs⟩ | ⟨hbare, -⟩
    · refine ⟨String.ofList inner, by simpa using hinner, String.toList_inj.mp ?_⟩
      rw [hs]
      simp
    · exact absurd ⟨inner, hinner, rfl⟩ hbare
  · rintro ⟨x, hx, rfl⟩
    have hinner : x.toList ≠ [] := fun he => hx (String.toList_eq_nil_iff.mp he)
    rw [body?_two_braces] at h
    cases h
    exact ⟨x.toList, hinner, rfl⟩

/-- Reading the text of a parsed operand gives the operand back for all texts but those
with two pairs of braces after the dollar sign, one inside the other, and something in
them. -/
theorem parse_text_parse (s : String) :
    parse (parse s).text = parse s ↔
      ¬∃ x, x ≠ "" ∧ s = "$\x7b\x7b" ++ x ++ "\x7d\x7d" := by
  have hparse := parse_eq s
  cases hbody : body? s.toList with
  | none =>
    rw [hbody, Option.bind_none] at hparse
    rw [hparse]
    refine iff_of_true hparse ?_
    rintro ⟨x, -, rfl⟩
    cases hbody.symm.trans (body?_two_braces x)
  | some body =>
    rw [hbody, Option.bind_some] at hparse
    rw [← isBraced_iff hbody]
    cases hoperand : ofBody? body with
    | none =>
      rw [hoperand] at hparse
      rw [hparse]
      refine iff_of_true hparse fun hbraced => ?_
      obtain ⟨o, ho⟩ := exists_ofBody?_of_isBraced hbraced
      cases hoperand.symm.trans ho
    | some o =>
      rw [hoperand] at hparse
      rw [hparse]
      exact parse_text_iff hoperand

/-- The inner braces are read as the outer ones, and another variable is meant. -/
theorem parse_text_of_two_braces :
    parse "$\x7b\x7ba\x7d\x7d" = .var "\x7ba\x7d" ∧
      (parse "$\x7b\x7ba\x7d\x7d").text = "$\x7ba\x7d" ∧
      parse "$\x7ba\x7d" = .var "a" ∧
      parse (parse "$\x7b\x7ba\x7d\x7d").text ≠ parse "$\x7b\x7ba\x7d\x7d" := by
  decide +kernel

end Gleaner.Operand
