import Mathlib.Data.List.Basic
import Gleaner.Proofs.Output.Directory

/-!
# Where paths lead

A path leads from a place to another one, by its parts alone: `..` goes up a level,
a part that stands for nothing stays, and any other part goes down to a name. A path
that is absolute starts from the root. The root is above itself.

What a path does to a place comes to a route: to climb some levels and then to go
down by some names. So a path leads below the place that it is seen from exactly if
it goes down again by the names of all levels that it leaves, and by one more.

* `Path.resolve`: the place that a path leads to;
* `Path.resolve_join`: a path below another one leads on from where that one leads;
* `Path.route`, `Path.resolve_eq`: the route of a path;
* `Path.isBelow_resolve_iff`: when a path leads below a place.
-/

namespace Gleaner.Path

/-- The place that one more part leads to. -/
def step (place : List String) (part : String) : List String :=
  if part.isEmpty || part == "." then place
  else if part == ".." then place.dropLast
  else place ++ [part]

/-- The place that a path leads to from the place `home`. -/
def resolve (home : List String) (p : String) : List String :=
  (parts p).foldl step (if isAbsolute p then [] else home)

/-- Whether a place is below another one, and not that one itself. -/
def IsBelow (place other : List String) : Prop :=
  ∃ name names, other = place ++ name :: names

variable {place other home : List String} {p q : String}

theorem isBelow_append_iff (front : List String) :
    IsBelow (front ++ place) (front ++ other) ↔ IsBelow place other := by
  unfold IsBelow
  simp only [List.append_assoc, List.append_cancel_left_eq]

theorem isBelow_nil_iff : IsBelow [] other ↔ other ≠ [] := by
  unfold IsBelow
  cases other <;> simp

instance (place other : List String) : Decidable (IsBelow place other) :=
  decidable_of_iff (place <+: other ∧ place ≠ other) <| by
    constructor
    · rintro ⟨⟨names, rfl⟩, hne⟩
      cases names with
      | nil => exact (hne (List.append_nil place).symm).elim
      | cons name names => exact ⟨name, names, rfl⟩
    · rintro ⟨name, names, rfl⟩
      exact ⟨List.prefix_append .., by simp⟩

/-! ## Parts of paths -/

theorem parts_append (p q : String) : parts (p ++ "/" ++ q) = parts p ++ parts q := by
  unfold parts
  rw [String.append_assoc, String.toList_append, String.toList_append, ← List.map_append]
  exact congrArg _ (List.splitOn_append_cons_self p.toList q.toList)

/-- Going along a path that is seen from a directory is going along the path of the
directory first, whatever is done with the parts that count. -/
theorem foldl_parts_lead {β : Type} {f : β → String → β} (hf : ∀ b, f b "" = b)
    (base p : String) (b : β) :
    (parts (lead base ++ p)).foldl f b = (parts p).foldl f ((parts base).foldl f b) := by
  unfold lead
  split
  · rename_i h
    rcases Bool.or_eq_true_iff.mp h with h | h
    · have hempty : (parts base).foldl f b = b := by
        rw [String.isEmpty_iff.mp h]
        exact hf b
      rw [hempty, String.isEmpty_iff.mp h, String.empty_append]
    · -- The slash at the end of the directory is the one that stands between the two.
      obtain ⟨cs, hcs⟩ := List.getLast?_eq_some_iff.mp (beq_iff_eq.mp h)
      have hbase : base = String.ofList cs ++ "/" := by
        rw [← String.toList_inj, hcs, String.toList_append, String.toList_ofList]
        rfl
      have hparts : parts base = parts (String.ofList cs) ++ parts "" := by
        rw [← parts_append, hbase, String.append_empty]
      rw [hparts, List.foldl_append, hbase, parts_append, List.foldl_append]
      exact congrArg (List.foldl f · (parts p)) (hf _).symm
  · rw [parts_append, List.foldl_append]

/-- A path below a directory leads on from where the path of the directory leads. -/
theorem resolve_join (home : List String) (base p : String) :
    resolve home (join base p) = resolve (resolve home base) p := by
  cases hp : isAbsolute p with
  | true =>
    rw [join_of_isAbsolute base hp]
    unfold resolve
    rw [if_pos hp, if_pos hp]
  | false =>
    rw [join_of_relative base hp]
    unfold resolve
    rw [isAbsolute_append _ hp, isAbsolute_lead, foldl_parts_lead (fun _ => rfl), hp]
    rfl

/-! ## Routes -/

/-- A way from a place: up some levels, and then down by some names. -/
structure Route where
  up : Nat
  down : List String
  deriving DecidableEq, Repr

namespace Route

/-- A route with one more part. -/
def step (r : Route) (part : String) : Route :=
  if part.isEmpty || part == "." then r
  else if part == ".." then
    if r.down.isEmpty then ⟨r.up + 1, []⟩ else ⟨r.up, r.down.dropLast⟩
  else ⟨r.up, r.down ++ [part]⟩

/-- The place that a route leads to. -/
def lead (r : Route) (place : List String) : List String :=
  place.take (place.length - r.up) ++ r.down

theorem lead_step (r : Route) (place : List String) (part : String) :
    (r.step part).lead place = Path.step (r.lead place) part := by
  unfold step Path.step lead
  split
  · rfl
  · split
    · cases hdown : r.down with
      | nil =>
        simp only [List.isEmpty_nil, if_true, List.append_nil]
        rw [List.dropLast_eq_take, List.take_take, List.length_take]
        congr 1
        omega
      | cons name names =>
        rw [List.dropLast_append_of_ne_nil (List.cons_ne_nil name names)]
        rfl
    · rw [List.append_assoc]

theorem lead_foldl (parts : List String) (r : Route) (place : List String) :
    (parts.foldl step r).lead place = parts.foldl Path.step (r.lead place) := by
  induction parts generalizing r with
  | nil => rfl
  | cons part parts ih => rw [List.foldl_cons, ih, lead_step, List.foldl_cons]

end Route

/-- The route of a path from where it starts. -/
def route (p : String) : Route :=
  (parts p).foldl Route.step ⟨0, []⟩

/-- A path leads along its route. -/
theorem resolve_eq (home : List String) (p : String) :
    resolve home p = (route p).lead (if isAbsolute p then [] else home) := by
  unfold route resolve
  rw [Route.lead_foldl]
  congr 1
  exact ((List.append_nil _).trans (List.take_length ..)).symm

/-- The names of a place that a path from there leaves: as many as it climbs levels,
and all of them if it is absolute. -/
def levelsLeft (p : String) (place : List String) : List String :=
  if isAbsolute p then place else place.drop (place.length - (route p).up)

/-- A path leads below the place that it is seen from exactly if it goes down by the
names that it left, and then by another one. -/
theorem isBelow_resolve_iff (place : List String) (p : String) :
    IsBelow place (resolve place p) ↔ IsBelow (levelsLeft p place) (route p).down := by
  rw [resolve_eq]
  unfold levelsLeft Route.lead
  cases isAbsolute p with
  | true => simp
  | false =>
    refine Iff.trans ?_ (isBelow_append_iff (place.take (place.length - (route p).up)))
    rw [if_neg Bool.false_ne_true, if_neg Bool.false_ne_true, List.take_append_drop]

/-! ## Paths that only go down -/

/-- A part that is a name. -/
def IsName (part : String) : Prop :=
  part ≠ "" ∧ part ≠ "." ∧ part ≠ ".."

theorem Route.step_of_isName {part : String} (h : IsName part) (r : Route) :
    r.step part = ⟨r.up, r.down ++ [part]⟩ := by
  simp [step, h.1, h.2.1, h.2.2]

theorem Route.up_foldl {parts : List String} (h : ".." ∉ parts) (r : Route) :
    (parts.foldl step r).up = r.up := by
  induction parts generalizing r with
  | nil => rfl
  | cons part parts ih =>
    have hpart : part ≠ ".." := fun he => h (he ▸ List.mem_cons_self)
    rw [List.foldl_cons, ih (fun hm => h (List.mem_cons_of_mem _ hm))]
    unfold step
    split
    · rfl
    · rw [if_neg (by simpa using hpart)]

/-- A path that ends in a name goes down. -/
theorem down_route_ne_nil {before : List String} {name : String} (h : parts p = before ++ [name])
    (hname : IsName name) : (route p).down ≠ [] := by
  unfold route
  rw [h, List.foldl_append, List.foldl_cons, List.foldl_nil, Route.step_of_isName hname]
  exact List.append_ne_nil_of_right_ne_nil _ (List.cons_ne_nil _ _)

/-- What is written behind a list is written behind its last piece. -/
theorem exists_splitOn_append {α : Type} [DecidableEq α] {a : α} {t : List α} (ht : a ∉ t) :
    ∀ xs : List α, ∃ before last, xs.splitOn a = before ++ [last] ∧
      (xs ++ t).splitOn a = before ++ [last ++ t]
  | [] => ⟨[], [], rfl, by
      rw [List.nil_append, List.splitOn_eq_singleton ht]
      rfl⟩
  | x :: xs => by
    obtain ⟨before, last, hxs, hxt⟩ := exists_splitOn_append ht xs
    by_cases hx : x = a
    · subst hx
      refine ⟨[] :: before, last, ?_, ?_⟩
      · exact (List.splitOn_append_cons_self [] xs).trans (congrArg _ hxs)
      · exact (List.splitOn_append_cons_self [] (xs ++ t)).trans (congrArg _ hxt)
    · rw [List.cons_append, List.splitOn_cons_eq_if_modifyHead, List.splitOn_cons_eq_if_modifyHead,
        if_neg (by simpa using hx), if_neg (by simpa using hx), hxs, hxt]
      cases before with
      | nil => exact ⟨[], x :: last, rfl, rfl⟩
      | cons piece before => exact ⟨(x :: piece) :: before, last, rfl, rfl⟩

theorem exists_parts_append (p : String) {t : String} (ht : '/' ∉ t.toList) :
    ∃ before last, parts p = before ++ [last] ∧ parts (p ++ t) = before ++ [last ++ t] := by
  obtain ⟨before, last, hp, hpt⟩ := exists_splitOn_append ht p.toList
  refine ⟨before.map String.ofList, String.ofList last, ?_, ?_⟩
  · rw [parts, hp, List.map_append]
    rfl
  · rw [parts, String.toList_append, hpt, List.map_append, List.map_singleton, String.ofList_append,
      String.ofList_toList]

end Gleaner.Path
