import Gleaner.Flow.Basic

/-!
# Outlines

The outline of a flow has one line for each step, a step before those below it and these before the
steps after it. A line is indented by the depth of its step and shows the name and the mode. From
the outline the flow can be read back but for the parameters of its actions: the lines below a step
go on until one is not indented further than the step is.

* `Flow.Skeleton`, `Flow.skeleton`: a flow without the parameters of its actions;
* `Flow.line_inj`: a line determines the depth, the name and the mode of its step;
* `Flow.skeleton_of_lines_append`: the lines of a flow determine its skeleton, and where they end;
* `Flow.placed`: the steps in the order of their lines, with `Flow.lines_eq_map`;
* `Flow.splitOn_outline`: the lines of an outline;
* `Flow.outline_determines_skeleton`: the whole statement.
-/

namespace Gleaner

/-- The name of an action is a word. -/
theorem Action.name_word (a : Action) :
    a.name.toList ≠ [] ∧ ' ' ∉ a.name.toList ∧ '\n' ∉ a.name.toList := by
  cases a <;> dsimp only [name] <;> decide

namespace Flow

/-! ## Lines -/

/-- What a line shows of a mode. -/
def modeLabel (mode : Mode) : List Char :=
  if mode = .atomic then [] else (" [" ++ mode.name ++ "]").toList

/-- What stands in a line behind its indentation. -/
def label (action : Action) (mode : Mode) : List Char :=
  action.name.toList ++ modeLabel mode

theorem toList_line (depth : Nat) (action : Action) (mode : Mode) :
    (line depth action mode).toList = List.replicate (2 * depth) ' ' ++ label action mode := by
  unfold line label modeLabel
  split <;> simp

variable {action action' : Action} {mode mode' : Mode} {d d' : Nat}

theorem takeWhile_modeLabel (mode : Mode) : (modeLabel mode).takeWhile (· != ' ') = [] := by
  cases mode <;> decide

theorem modeLabel_inj (h : modeLabel mode = modeLabel mode') : mode = mode' := by
  revert h
  cases mode <;> cases mode' <;> decide

/-- A label starts with no blank, and has no end of a line in it. -/
theorem label_plain (action : Action) (mode : Mode) :
    (label action mode).head? ≠ some ' ' ∧ '\n' ∉ label action mode := by
  obtain ⟨hne, hblank, hline⟩ := action.name_word
  have hmode : '\n' ∉ modeLabel mode := by cases mode <;> decide
  constructor
  · obtain ⟨c, rest, hname⟩ := List.exists_cons_of_ne_nil hne
    rw [hname] at hblank
    rw [label, hname]
    exact fun h => hblank (Option.some.inj h ▸ List.mem_cons_self)
  · intro h
    rcases List.mem_append.mp h with h | h
    · exact hline h
    · exact hmode h

theorem label_inj (h : label action mode = label action' mode') :
    action.name = action'.name ∧ mode = mode' := by
  -- The name ends at the first blank.
  have hname (a : Action) (m : Mode) : (label a m).takeWhile (· != ' ') = a.name.toList := by
    have hword : ∀ c ∈ a.name.toList, (c != ' ') = true := fun c hc =>
      bne_iff_ne.mpr fun he => a.name_word.2.1 (he ▸ hc)
    rw [label, List.takeWhile_append_of_pos hword, takeWhile_modeLabel, List.append_nil]
  have hnames : action.name.toList = action'.name.toList := by
    rw [← hname action mode, h, hname]
  unfold label at h
  rw [hnames] at h
  exact ⟨String.toList_inj.mp hnames, modeLabel_inj (List.append_cancel_left h)⟩

theorem replicate_append_inj {α : Type} {c : α} {xs xs' : List α} (hxs : xs.head? ≠ some c)
    (hxs' : xs'.head? ≠ some c) : ∀ {n n' : Nat},
      List.replicate n c ++ xs = List.replicate n' c ++ xs' → n = n' ∧ xs = xs'
  | 0, 0, h => ⟨rfl, h⟩
  | 0, n' + 1, h => (hxs (congrArg List.head? h)).elim
  | n + 1, 0, h => (hxs' (congrArg List.head? h.symm)).elim
  | n + 1, n' + 1, h => by
    obtain ⟨rfl, hrest⟩ := replicate_append_inj hxs hxs' (List.cons.inj h).2
    exact ⟨rfl, hrest⟩

/-- A line determines the depth of its step, its name and its mode. -/
theorem line_inj (h : line d action mode = line d' action' mode') :
    d = d' ∧ action.name = action'.name ∧ mode = mode' := by
  have hlist := congrArg String.toList h
  rw [toList_line, toList_line] at hlist
  obtain ⟨hdepth, hlabel⟩ :=
    replicate_append_inj (label_plain action mode).1 (label_plain action' mode').1 hlist
  exact ⟨by omega, label_inj hlabel⟩

/-! ## Skeletons -/

/-- A flow without the parameters of its actions. -/
inductive Skeleton where
  | nil
  /-- A step with the steps below it, and the steps after it. -/
  | step (name : String) (mode : Mode) (below rest : Skeleton)
  deriving DecidableEq

/-- The names and modes of the steps of a flow, in their places. -/
def skeleton : Flow → Skeleton
  | nil => .nil
  | step action mode below rest => .step action.name mode below.skeleton rest.skeleton

/-- Flows of one skeleton have the same lines. -/
theorem lines_congr {f g : Flow} (d : Nat) (h : f.skeleton = g.skeleton) :
    f.lines d = g.lines d := by
  induction f generalizing g d with
  | nil =>
    cases g with
    | nil => rfl
    | step => cases h
  | step action mode below rest ihBelow ihRest =>
    cases g with
    | nil => cases h
    | step action' mode' below' rest' =>
      obtain ⟨hname, rfl, hbelow, hrest⟩ := Skeleton.step.inj h
      have hline : line d action mode = line d action' mode := by rw [line, line, hname]
      rw [lines, lines, hline, ihBelow (d + 1) hbelow, ihRest d hrest]

/-- Whether some lines do not go on below a depth: the first of them, if there is one, is that of a
step higher up. -/
inductive EndsBelow (d : Nat) : List String → Prop where
  | all : EndsBelow d []
  | higher {d' : Nat} {action : Action} {mode : Mode} {rest : List String} : d' < d →
    EndsBelow d (line d' action mode :: rest)

/-- Behind the lines below a step come those of the steps after it. -/
theorem EndsBelow.lines_append {r : List String} (h : EndsBelow d r) :
    ∀ f : Flow, EndsBelow (d + 1) (f.lines d ++ r)
  | nil => by
    cases h with
    | all => exact .all
    | higher hd => exact .higher (Nat.lt_succ_of_lt hd)
  | step .. => .higher (Nat.lt_succ_self d)

theorem EndsBelow.ne_line_cons {r rest : List String} (h : EndsBelow d r) :
    r ≠ line d action mode :: rest := by
  rintro rfl
  generalize hr : line d action mode :: rest = r at h
  cases h with
  | all => cases hr
  | higher hd =>
    obtain ⟨rfl, -⟩ := line_inj (List.cons.inj hr).1
    exact Nat.lt_irrefl _ hd

/-- The lines of a flow at a depth, with others behind them that do not go on below it, determine
the skeleton of the flow and the other lines. -/
theorem skeleton_of_lines_append : ∀ {f g : Flow} {d : Nat} {r r' : List String},
    EndsBelow d r → EndsBelow d r' → f.lines d ++ r = g.lines d ++ r' →
      f.skeleton = g.skeleton ∧ r = r'
  | nil, nil, _, _, _, _, _, h => ⟨rfl, h⟩
  | nil, step .., _, _, _, hr, _, h => (hr.ne_line_cons h).elim
  | step .., nil, _, _, _, _, hr', h => (hr'.ne_line_cons h.symm).elim
  | step action mode below rest, step action' mode' below' rest', d, r, r', hr, hr', h => by
    simp only [lines, List.cons_append, List.append_assoc, List.cons.injEq] at h
    obtain ⟨-, hname, rfl⟩ := line_inj h.1
    -- What stands behind the lines below is no deeper than the step itself.
    obtain ⟨hbelow, h⟩ :=
      skeleton_of_lines_append (hr.lines_append rest) (hr'.lines_append rest') h.2
    obtain ⟨hrest, h⟩ := skeleton_of_lines_append hr hr' h
    exact ⟨by rw [skeleton, skeleton, hname, hbelow, hrest], h⟩

theorem lines_eq_iff {f g : Flow} : f.lines 0 = g.lines 0 ↔ f.skeleton = g.skeleton := by
  refine ⟨fun h => ?_, lines_congr 0⟩
  have happend : f.lines 0 ++ [] = g.lines 0 ++ [] := by rw [h]
  exact (skeleton_of_lines_append .all .all happend).1

/-! ## Outlines -/

/-- A step of a flow on its own, with the number of steps that it is below. -/
structure Placed where
  depth : Nat
  action : Action
  mode : Mode

/-- The line of a step. -/
def Placed.line (p : Placed) : String :=
  Flow.line p.depth p.action p.mode

/-- The steps of a flow at a depth, each followed by those below it. -/
def placed (d : Nat) : Flow → List Placed
  | nil => []
  | step action mode below rest =>
    ⟨d, action, mode⟩ :: (below.placed (d + 1) ++ rest.placed d)

theorem lines_eq_map : ∀ (f : Flow) (d : Nat), f.lines d = (f.placed d).map Placed.line
  | nil, _ => rfl
  | step action mode below rest, d => by
    rw [lines, placed, List.map_cons, List.map_append, lines_eq_map below, lines_eq_map rest]
    rfl

theorem newline_not_mem_line (d : Nat) (action : Action) (mode : Mode) :
    '\n' ∉ (line d action mode).toList := by
  rw [toList_line, List.mem_append]
  rintro (h | h)
  · cases List.eq_of_mem_replicate h
  · exact (label_plain action mode).2 h

theorem splitOn_join : ∀ {ls : List String}, (∀ l ∈ ls, '\n' ∉ l.toList) →
    (String.join (ls.map (· ++ "\n"))).toList.splitOn '\n' = ls.map String.toList ++ [[]]
  | [], _ => rfl
  | l :: ls, h => by
    obtain ⟨hl, hls⟩ := List.forall_mem_cons.mp h
    have hfirst : ∀ c ∈ l.toList, (c == '\n') = false := fun c hc =>
      beq_eq_false_iff_ne.mpr fun he => hl (he ▸ hc)
    have hcons : (String.join ((l :: ls).map (· ++ "\n"))).toList =
        l.toList ++ '\n' :: (String.join (ls.map (· ++ "\n"))).toList := by
      simp
    rw [hcons, List.splitOn, List.splitOnP_append_cons_of_forall_mem hfirst _ (by rfl)]
    exact congrArg _ (splitOn_join hls)

/-- The outline is the lines of the flow, each with an end of a line behind it. -/
theorem splitOn_outline (f : Flow) :
    f.outline.toList.splitOn '\n' = (f.lines 0).map String.toList ++ [[]] := by
  refine splitOn_join fun l hl => ?_
  rw [lines_eq_map] at hl
  obtain ⟨p, -, rfl⟩ := List.mem_map.mp hl
  exact newline_not_mem_line p.depth p.action p.mode

theorem outline_eq_iff {f g : Flow} : f.outline = g.outline ↔ f.lines 0 = g.lines 0 := by
  refine ⟨fun h => ?_, fun h => by rw [outline, outline, h]⟩
  have hpieces : (f.lines 0).map String.toList ++ [[]] = (g.lines 0).map String.toList ++ [[]] := by
    rw [← splitOn_outline, ← splitOn_outline, h]
  exact (List.map_inj_right fun _ _ => String.toList_inj.mp).mp (List.append_cancel_right hpieces)

/-- Two flows have the same outline exactly if they have the same names and modes in the same
places. An outline has as many lines as the flow has steps, each ended by an end of a line, in the
order of the steps. The line of a step is indented by twice its depth, and nothing else stands in it
but the name and the mode. -/
theorem outline_determines_skeleton :
    (∀ f g : Flow, f.outline = g.outline ↔ f.skeleton = g.skeleton) ∧
      ∀ f : Flow, (f.placed 0).length = f.count ∧
        f.outline.toList.splitOn '\n' = (f.placed 0).map (·.line.toList) ++ [[]] ∧
        ∀ p ∈ f.placed 0,
          p.line.toList = List.replicate (2 * p.depth) ' ' ++ label p.action p.mode ∧
            (label p.action p.mode).head? ≠ some ' ' := by
  refine ⟨fun f g => outline_eq_iff.trans lines_eq_iff, fun f => ⟨?_, ?_, fun p _ => ?_⟩⟩
  · rw [← f.length_lines 0, lines_eq_map, List.length_map]
  · rw [splitOn_outline, lines_eq_map, List.map_map]
    rfl
  · exact ⟨toList_line p.depth p.action p.mode, (label_plain p.action p.mode).1⟩

/-- Steps of which one takes a part of a node. -/
def gettingFlow (part : String) : Flow :=
  step .pass .loop (step (.get part) .atomic nil nil) (step .pass .branches nil nil)

/-- The outline does not show the part. It shows that the last step is not below the one before. -/
theorem outline_determines_skeleton_getting :
    (gettingFlow "text").outline = "end [loop]\n  get\nend [tree-dfs]\n" ∧
      (gettingFlow "text").outline = (gettingFlow "href").outline ∧
      (gettingFlow "text").outline ≠ (step .pass .loop
        (step (.get "text") .atomic nil (step .pass .branches nil nil)) nil).outline ∧
      (⟨1, .get "text", .atomic⟩ : Placed) ∈ (gettingFlow "text").placed 0 ∧
      (Placed.line ⟨1, .get "text", .atomic⟩).toList = [' ', ' '] ++ label (.get "text") .atomic := by
  obtain ⟨hiff, hlines⟩ := outline_determines_skeleton
  have hmem : (⟨1, .get "text", .atomic⟩ : Placed) ∈ (gettingFlow "text").placed 0 :=
    .tail _ (.head _)
  refine ⟨by decide +kernel, (hiff _ _).mpr rfl, fun h => ?_, hmem, ((hlines _).2.2 _ hmem).1⟩
  exact absurd ((hiff _ _).mp h) (by decide)

end Flow

end Gleaner
