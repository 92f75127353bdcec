import Gleaner.Proofs.Run.Flow
import Gleaner.Proofs.Run.Program

/-!
# The programs of flows

Each action and each flow has a program, and the run of the program is the run
of the action or the flow: `Action.run_program`, `Flow.run_program`. The program
of a flow has no sink in it, so a flow asks for the same things whatever becomes
of its outputs.

* `Flow.program`: the program of a flow on a document;
* `Flow.events`, `Flow.writes`: what the run of a flow comes to ask for;
* `Action.MayAsk`: what an action may ask for, all in one place;
* `Flow.asks_program`: a flow asks for nothing but what its actions may ask for.
-/

namespace Gleaner

open Program

variable {σ : Type}

/-! ## Columns -/

namespace Run

variable {α β : Type}

theorem ext {r r' : Run σ α} (h : ∀ m, r.start m = r'.start m) : r = r' :=
  funext h

theorem start_map_onStore (k : α → β) (g : Store → Except Fault α × Store) (m : Machine σ) :
    (k <$> onStore g : Run σ β).start m = ((g m.store).1.map k, ⟨(g m.store).2, m.sink⟩) := by
  have hstart := start_onStore g m
  rcases h : (g m.store).1 with f | a <;> rw [h] at hstart
  · exact start_bind_of_error _ hstart
  · exact start_bind_of_ok _ hstart

end Run

namespace Program

/-- The value of an operand. -/
def resolve (o : Operand) : Program Value :=
  perform (.resolve o)

/-- The value of an operand as the text of a cell. -/
def cell (d : Document) (o : Operand) : Program String := do
  return (← resolve o).cell d

/-- The names and values of some columns, from the first to the last. -/
def columns (value : Column → Program String) : List Column → Program (List (String × String))
  | [] => pure []
  | c :: rest => do
    let text ← value c
    let found ← columns value rest
    return (c.name, text) :: found

/-- The program `body` for each of some values, one after the other. -/
def each (body : Value → Program Value) (last : Value) : List Value → Program Value
  | [] => pure last
  | v :: rest => do
    let last ← body v
    each body last rest

theorem run_done (e : Setting σ) {α : Type} (r : Except Fault α) :
    (done r).run e.host = Run.ofExcept r := rfl

theorem run_resolve (e : Setting σ) (o : Operand) :
    (resolve o).run e.host = Run.resolve e.document o :=
  run_perform e.host (.resolve o)

theorem run_cell (e : Setting σ) (o : Operand) :
    (cell e.document o).run e.host = Action.cellOf e.document o := by
  unfold cell Action.cellOf
  rw [run_bind, run_resolve]
  rfl

theorem run_columnCell (e : Setting σ) (c : Column) :
    (cell e.document c.source).run e.host = Run.onStore (c.resolve e.document) := by
  rw [run_cell]
  exact Run.ext (Run.start_map_onStore _ _)

theorem run_each {e : Setting σ} {body : Value → Program Value} {body' : Value → Run σ Value}
    (h : ∀ v, (body v).run e.host = body' v) :
    ∀ (vs : List Value) (last : Value), (each body last vs).run e.host = Run.each body' last vs
  | [], _ => rfl
  | v :: vs, last => by
    unfold each Run.each
    rw [run_bind, h]
    exact congrArg _ (funext fun last => run_each h vs last)

/-- The columns of a function on the variables that goes from column to column. -/
theorem run_columns {e : Setting σ} {value : Column → Program String}
    {one : Store → Column → Except Fault String × Store}
    {all : Store → List Column → Except Fault (List (String × String)) × Store}
    (hvalue : ∀ c, (value c).run e.host = Run.onStore fun s => one s c)
    (hnil : ∀ s, all s [] = (.ok [], s))
    (herror : ∀ s c rest f s', one s c = (.error f, s') → all s (c :: rest) = (.error f, s'))
    (hok : ∀ s c rest text s', one s c = (.ok text, s') →
      all s (c :: rest) = ((all s' rest).1.map ((c.name, text) :: ·), (all s' rest).2)) :
    ∀ cs : List Column, (columns value cs).run e.host = Run.onStore fun s => all s cs
  | [] => Run.ext fun m => by
    rw [Run.start_onStore, hnil]
    rfl
  | c :: rest => Run.ext fun m => by
    have hrest : (columns value rest).run e.host = Run.onStore fun s => all s rest :=
      run_columns hvalue hnil herror hok rest
    have hrun : (columns value (c :: rest)).run e.host = Run.onStore (fun s => one s c) >>=
        fun text => (fun found => (c.name, text) :: found) <$> Run.onStore fun s => all s rest := by
      rw [← hvalue, ← hrest, columns, run_bind]
      exact congrArg _ (funext fun text => run_bind ..)
    have hstart := Run.start_onStore (fun s => one s c) m
    rw [hrun, Run.start_onStore]
    rcases h : one m.store c with ⟨f | text, s'⟩ <;> rw [h] at hstart
    · rw [Run.start_bind_of_error _ hstart, herror m.store c rest f s' h]
    · rw [Run.start_bind_of_ok _ hstart, Run.start_map_onStore, hok m.store c rest text s' h]

/-- An operation whose answer is of no use. -/
def update (op : Store.Operation) : Program Unit :=
  ask (.perform op) fun _ => pure ()

theorem asks_update {P : Request → Prop} {op : Store.Operation} (h : P (.perform op)) :
    (update op).Asks P :=
  ⟨h, fun _ => trivial⟩

theorem run_update (e : Setting σ) (op : Store.Operation) :
    (update op).run e.host = Run.onStore ((op.change e.document).map fun _ => ()) :=
  Run.ext (Run.start_map_onStore (fun _ => ()) (op.change e.document))

theorem run_declare (e : Setting σ) (name : String) (kind : Kind) (given : Option Value) :
    (perform (.declare name kind given)).run e.host = Run.declare name kind given :=
  run_perform e.host (.declare name kind given)

theorem run_write (e : Setting σ) (saved : Saved) :
    (write saved).run e.host = Run.write e.sink saved.save saved.content := by
  refine Run.ext fun m => ?_
  have htake : e.host.write saved m.sink = e.sink.take saved m.sink := rfl
  unfold Run.write
  rw [Run.start_ofFunction]
  rcases h : e.sink.write saved.save saved.content m.sink with ⟨w | path, state⟩ <;>
    simp only [Sink.take, h] at htake
  · rw [write, start_ask_of_error (Request.answer_write_of_error (congrArg Prod.fst htake)),
      Host.feed, htake]
  · rw [write, start_ask_of_ok (Request.answer_write_of_ok (congrArg Prod.fst htake)), Host.feed,
      htake]
    rfl

theorem run_map (e : Setting σ) {α β : Type} (k : α → β) (p : Program α) :
    (k <$> p).run e.host = p.run e.host >>= fun a => pure (k a) :=
  run_bind e.host p fun a => pure (k a)

end Program

/-! ## Actions -/

namespace Action

/-- The text of a column for a branch. -/
def branchCell (d : Document) (branch : List NodeId) (c : Column) : Program String :=
  match c.branchIndex? with
  | some index => .done ((Table.nodeOf c.name branch index).map (Hierarchy.label d))
  | none => cell d c.source

/-- The value of an operand, or the input where there is none. -/
def valueProgram (input : Value) : Option Operand → Program Value
  | some o => resolve o
  | none => pure input

/-- The key of an update, which must be given, as the text of a cell. -/
def keyProgram (a : Action) (d : Document) (u : Update) : Program String :=
  match u.key with
  | some o => cell d o
  | none => .done (.error (.missingParameter a.name "varKey"))

/-- Adds to a variable: an element, a field, or a new value. -/
def addProgram (a : Action) (d : Document) (input : Value) (u : Update) : Program Unit :=
  match u.kind with
  | .list => do
    let v ← valueProgram input u.value
    update (.append u.name v)
  | .mapping => do
    let key ← a.keyProgram d u
    let v ← valueProgram input u.value
    update (.insert u.name key v)
  | .scalar => do
    let v ← valueProgram input u.value
    update (.set u.name v)

/-- Takes an element or a field out of a variable. -/
def removeProgram (a : Action) (d : Document) (input : Value) (u : Update) : Program Unit :=
  match u.kind with
  | .list => do
    let v ← valueProgram input u.value
    update (.remove u.name v)
  | .mapping => do
    let key ← a.keyProgram d u
    update (.removeKey u.name key)
  | .scalar =>
    .done (.error
      (.typeMismatch ("removeVar on " ++ Fault.inQuotes u.name) "list or dict" Kind.scalar.name))

/-- The program of an action on its input. -/
def program (d : Document) (input : Value) (a : Action) : Program Value :=
  match a with
  | find q => do
    let scope ← .done (a.nodeInput input)
    .done (q.result d scope)
  | table q => do
    let nodes ← .done (tableInput input)
    let constants ← columns (fun c => cell d c.source) q.columns
    .table <$> .done (Table.ofNodes d nodes q.filter constants q.enforce)
  | tree q => do
    let root ← .done (a.nodeInput input)
    let t ← .done (Hierarchy.build d root q.start q.stop q.levels)
    match q.saveTo with
    | some name => perform (.declare name .scalar (some (.hierarchy t)))
    | none => return .hierarchy t
  | branch q => do
    let nodes ← .done (branchInput input)
    let constants ← columns (branchCell d nodes) q.columns
    .table <$> .done (Table.ofBranchWith d nodes q.tableIndex constants)
  | get part => do
    let i ← .done (a.nodeInput input)
    return partOf d i part
  | slice start stop => do
    let s ← .done (a.textInput input)
    return .text (Text.slice s start stop)
  | wrap before after => do
    let s ← .done (a.textInput input)
    let before ← cell d before
    let after ← cell d after
    return .text (before ++ s ++ after)
  | declare name kind value => do
    let given ← match kind, value with
      | .scalar, some o => some <$> resolve o
      | _, _ => pure none
    perform (.declare name kind given)
  | save s => do
    let content ← .done (contentOf d s.kind input)
    write ⟨s, content⟩
    return input
  | add u => do
    a.addProgram d input u
    return input
  | remove u => do
    a.removeProgram d input u
    return input
  | read o => resolve o
  | pass => return input

variable (e : Setting σ) (input : Value)

theorem run_constants (cs : List Column) :
    (columns (fun c => cell e.document c.source) cs).run e.host =
      Run.onStore fun s => Column.resolveAll e.document s cs := by
  refine run_columns (run_columnCell e) (fun s => rfl) (fun s c rest f s' h => ?_)
    (fun s c rest text s' h => ?_) cs
  · rw [Column.resolveAll, h]
  · rw [Column.resolveAll, h]

theorem run_branchCell (branch : List NodeId) (c : Column) :
    (branchCell e.document branch c).run e.host =
      Run.onStore fun s => Table.branchValue e.document s branch c := by
  unfold branchCell Table.branchValue
  cases c.branchIndex? with
  | none => exact run_columnCell e c
  | some index =>
    refine Run.ext fun m => ?_
    dsimp only
    rcases Table.nodeOf c.name branch index with f | i <;> rfl

theorem run_branchConstants (branch : List NodeId) (cs : List Column) :
    (columns (branchCell e.document branch) cs).run e.host =
      Run.onStore fun s => Table.branchValues e.document s branch cs := by
  refine run_columns (run_branchCell e branch) (fun s => rfl) (fun s c rest f s' h => ?_)
    (fun s c rest text s' h => ?_) cs
  · rw [Table.branchValues, h]
  · rw [Table.branchValues, h]

theorem run_valueProgram (o : Option Operand) :
    (valueProgram input o).run e.host = valueOr e.document input o := by
  cases o with
  | none => rfl
  | some o => exact run_resolve e o

theorem run_keyProgram (a : Action) (u : Update) :
    (a.keyProgram e.document u).run e.host = a.keyOf e.document u := by
  unfold keyProgram keyOf
  cases u.key with
  | none => rfl
  | some o => exact run_cell e o

theorem run_addProgram (a : Action) (u : Update) :
    (a.addProgram e.document input u).run e.host = a.addTo e.document input u := by
  unfold addProgram addTo
  cases u.kind <;> simp only [run_bind, run_valueProgram, run_keyProgram, run_update,
    Store.Operation.change, Store.Change.map_map_unit]

theorem run_removeProgram (a : Action) (u : Update) :
    (a.removeProgram e.document input u).run e.host = a.removeFrom e.document input u := by
  unfold removeProgram removeFrom
  cases u.kind with
  | scalar => rfl
  | list | mapping =>
    simp only [run_bind, run_valueProgram, run_keyProgram, run_update, Store.Operation.change,
      Store.Change.map_map_unit]

theorem run_branchTable (branch : List NodeId) (tableIndex : Option Nat) (cs : List Column) :
    ((columns (branchCell e.document branch) cs).run e.host >>= fun constants =>
        (Program.done (Table.ofBranchWith e.document branch tableIndex constants)).run e.host) =
      Run.onStore fun s => Table.ofBranch e.document s branch tableIndex cs := by
  rw [run_branchConstants]
  refine Run.ext fun m => ?_
  have hstart := Run.start_onStore (fun s => Table.branchValues e.document s branch cs) m
  rw [Run.start_onStore]
  unfold Table.ofBranch
  rcases h : (Table.branchValues e.document m.store branch cs).1 with f | constants <;>
    rw [h] at hstart
  · rw [Run.start_bind_of_error _ hstart]
    simp only [h]
    rfl
  · rw [Run.start_bind_of_ok _ hstart]
    simp only [h]
    rfl

/-- The run of the program of an action is the run of the action. -/
theorem run_program (a : Action) : (a.program e.document input).run e.host = a.apply e input := by
  cases a with
  | find | get | slice | pass => simp only [program, apply, run_bind, run_done, run_pure]
  | table q => simp only [program, apply, run_bind, run_done, run_constants, run_map]
  | tree q =>
    simp only [program, apply, run_bind, run_done]
    refine bind_congr fun root => bind_congr fun t => ?_
    cases q.saveTo with
    | none => rfl
    | some name => exact run_declare e name .scalar _
  | branch q =>
    simp only [program, apply, run_bind, run_done, run_map, ← run_branchTable, bind_assoc]
  | wrap before after =>
    simp only [program, apply, run_bind, run_done, run_cell, run_pure]
  | declare name kind value =>
    dsimp only [program, apply]
    cases kind with
    | list | mapping => exact run_declare e name _ none
    | scalar =>
      cases value with
      | none => exact run_declare e name .scalar none
      | some o =>
        have hgiven : (some <$> resolve o).run e.host = some <$> Run.resolve e.document o := by
          rw [run_map, run_resolve]
          rfl
        refine (run_bind e.host _ _).trans ?_
        rw [hgiven]
        exact bind_congr fun given => run_declare e name .scalar given
  | save s => simp only [program, apply, run_bind, run_done, run_write, run_pure]
  | add u => simp only [program, apply, run_bind, run_addProgram, run_pure]
  | remove u => simp only [program, apply, run_bind, run_removeProgram, run_pure]
  | read o => exact run_resolve e o

end Action

/-! ## Flows -/

/-- The program `body` for each input that a mode makes of a value. -/
def Mode.program (mode : Mode) (name : String) (v : Value) (body : Value → Program Value) :
    Program Value :=
  match mode.inputs? v with
  | some inputs => Program.each body .null inputs
  | none => .done (.error (mode.mismatch name v))

theorem Mode.run_program {e : Setting σ} {body : Value → Program Value}
    {body' : Value → Run σ Value} (h : ∀ v, (body v).run e.host = body' v) (mode : Mode)
    (name : String) (v : Value) : (mode.program name v body).run e.host = mode.spread name v body' := by
  unfold Mode.program
  cases hi : mode.inputs? v with
  | none => exact (Mode.spread_of_none hi name body').symm
  | some inputs =>
    rw [Mode.spread_of_some hi]
    exact Program.run_each h inputs .null

namespace Flow

/-- The program of the steps of a flow on the result of the step above them. -/
def programBelow (d : Document) (above last : Value) : Flow → Program Value
  | nil => pure last
  | step action mode below rest => do
    let last ← mode.program action.name above fun input => do
      let v ← action.program d input
      below.programBelow d v v
    rest.programBelow d above last

/-- The program of a flow on the root of the document. -/
def program (d : Document) (f : Flow) : Program Value :=
  f.atTop.programBelow d (.node Document.root) .null

theorem run_programBelow (e : Setting σ) :
    ∀ (f : Flow) (above last : Value),
      (f.programBelow e.document above last).run e.host = f.runBelow e above last
  | nil, _, _ => rfl
  | step action mode below rest, above, last => by
    have hbody (input : Value) : (do
        let v ← action.program e.document input
        below.programBelow e.document v v : Program Value).run e.host = (do
        let v ← action.apply e input
        below.runBelow e v v) := by
      rw [run_bind, Action.run_program]
      exact bind_congr fun v => run_programBelow e below v v
    unfold programBelow runBelow
    rw [run_bind, Mode.run_program hbody]
    exact bind_congr fun last => run_programBelow e rest above last

/-- The run of the program of a flow is the run of the flow. -/
theorem run_program (e : Setting σ) (f : Flow) : (f.program e.document).run e.host = f.run e := by
  unfold program run
  rw [runAll_eq_runBelow, run_programBelow]

/-- The requests that the run of a flow makes from a machine on, in order. -/
def events (e : Host σ) (f : Flow) (m : Machine σ) : List (Event σ) :=
  (f.program e.document).events e m

/-- The writes that the run of a flow makes from a machine on, in order. -/
def writes (e : Host σ) (f : Flow) (m : Machine σ) : List (Write σ) :=
  (f.program e.document).writes e m

end Flow

/-! ## What actions ask for -/

/-- The operands of an action, in the order in which it resolves them. -/
def Action.operands : Action → List Operand
  | table q => q.columns.map (·.source)
  | branch q => q.columns.map (·.source)
  | wrap before after => [before, after]
  | declare _ _ value => value.toList
  | add u | remove u => u.key.toList ++ u.value.toList
  | read o => [o]
  | find _ | tree _ | get _ | slice .. | save _ | pass => []

/-- What an action may ask for: the values of its operands, and one change or
write of its own. -/
inductive Action.MayAsk : Action → Request → Prop where
  | resolve {a : Action} {o : Operand} : o ∈ a.operands → MayAsk a (.perform (.resolve o))
  | declare {name : String} {kind : Kind} {value : Option Operand} {given : Option Value} :
    MayAsk (.declare name kind value) (.perform (.declare name kind given))
  | saveTo {q : TreeQuery} {name : String} {t : Hierarchy} : q.saveTo = some name →
    MayAsk (.tree q) (.perform (.declare name .scalar (some (.hierarchy t))))
  | append {u : Update} {v : Value} : u.kind = .list →
    MayAsk (.add u) (.perform (.append u.name v))
  | insert {u : Update} {key : String} {v : Value} : u.kind = .mapping →
    MayAsk (.add u) (.perform (.insert u.name key v))
  | set {u : Update} {v : Value} : u.kind = .scalar → MayAsk (.add u) (.perform (.set u.name v))
  | remove {u : Update} {v : Value} : u.kind = .list →
    MayAsk (.remove u) (.perform (.remove u.name v))
  | removeKey {u : Update} {key : String} : u.kind = .mapping →
    MayAsk (.remove u) (.perform (.removeKey u.name key))
  | write {s : Save} {content : Content} : MayAsk (.save s) (.write ⟨s, content⟩)

section

variable {P : Request → Prop} {d : Document}

theorem Program.asks_cell {o : Operand} (h : P (.perform (.resolve o))) : (cell d o).Asks P :=
  (asks_perform h).bind fun _ => trivial

theorem Program.asks_columns {value : Column → Program String} :
    ∀ {cs : List Column}, (∀ c ∈ cs, (value c).Asks P) → (columns value cs).Asks P
  | [], _ => trivial
  | c :: _, h => (h c List.mem_cons_self).bind fun _ =>
    (asks_columns fun c hc => h c (List.mem_cons_of_mem _ hc)).bind fun _ => trivial

namespace Action

theorem asks_branchCell {branch : List NodeId} {c : Column} (h : P (.perform (.resolve c.source))) :
    (branchCell d branch c).Asks P := by
  unfold branchCell
  split
  · trivial
  · exact asks_cell h

theorem asks_valueProgram {input : Value} {o : Option Operand}
    (h : ∀ o' ∈ o.toList, P (.perform (.resolve o'))) : (valueProgram input o).Asks P := by
  cases o with
  | none => trivial
  | some o => exact asks_perform (h o (by simp))

theorem asks_keyProgram {a : Action} {u : Update}
    (h : ∀ o ∈ u.key.toList, P (.perform (.resolve o))) : (a.keyProgram d u).Asks P := by
  unfold keyProgram
  split
  · rename_i o ho
    exact asks_cell (h o (by simp [ho]))
  · trivial

/-- The program of an action asks for nothing but what the action may ask for. -/
theorem asks_program (d : Document) (input : Value) (a : Action) :
    (a.program d input).Asks a.MayAsk := by
  have hresolve {o : Operand} (ho : o ∈ a.operands) : a.MayAsk (.perform (.resolve o)) :=
    .resolve ho
  cases a with
  | find | get | slice => exact (asks_done _).bind fun _ => trivial
  | pass => trivial
  | table q =>
    refine (asks_done _).bind fun nodes => (asks_columns fun c hc => ?_).bind fun constants => ?_
    · exact asks_cell (hresolve (List.mem_map_of_mem hc))
    · exact (asks_done _).bind fun t => trivial
  | tree q =>
    refine (asks_done _).bind fun root => (asks_done _).bind fun t => ?_
    cases hq : q.saveTo with
    | none => trivial
    | some name => exact asks_perform (.saveTo hq)
  | branch q =>
    refine (asks_done _).bind fun nodes => (asks_columns fun c hc => ?_).bind fun constants => ?_
    · exact asks_branchCell (hresolve (List.mem_map_of_mem hc))
    · exact (asks_done _).bind fun t => trivial
  | wrap before after =>
    refine (asks_done _).bind fun s => (asks_cell (hresolve ?_)).bind fun _ =>
      (asks_cell (hresolve ?_)).bind fun _ => trivial
    · exact List.mem_cons_self
    · exact List.mem_cons_of_mem _ List.mem_cons_self
  | declare name kind value =>
    have hdeclare (given : Option Value) :
        (perform (.declare name kind given)).Asks (MayAsk (.declare name kind value)) :=
      asks_perform .declare
    cases kind with
    | list | mapping => exact hdeclare none
    | scalar =>
      cases value with
      | none => exact hdeclare none
      | some o =>
        have ho : (some <$> resolve o).Asks (MayAsk (.declare name .scalar (some o))) :=
          (asks_perform (hresolve (List.mem_singleton.mpr rfl))).bind fun _ => trivial
        exact ho.bind hdeclare
  | save s =>
    exact (asks_done _).bind fun content => (asks_write .write).bind fun _ => trivial
  | add u =>
    have hkey : ∀ o ∈ u.key.toList, MayAsk (.add u) (.perform (.resolve o)) := fun o ho =>
      hresolve (List.mem_append_left _ ho)
    have hvalue : ∀ o ∈ u.value.toList, MayAsk (.add u) (.perform (.resolve o)) := fun o ho =>
      hresolve (List.mem_append_right _ ho)
    refine Asks.bind ?_ fun _ => trivial
    unfold addProgram
    cases hk : u.kind with
    | list => exact (asks_valueProgram hvalue).bind fun v => asks_update (.append hk)
    | mapping =>
      exact (asks_keyProgram hkey).bind fun key =>
        (asks_valueProgram hvalue).bind fun v => asks_update (.insert hk)
    | scalar => exact (asks_valueProgram hvalue).bind fun v => asks_update (.set hk)
  | remove u =>
    have hkey : ∀ o ∈ u.key.toList, MayAsk (.remove u) (.perform (.resolve o)) := fun o ho =>
      hresolve (List.mem_append_left _ ho)
    have hvalue : ∀ o ∈ u.value.toList, MayAsk (.remove u) (.perform (.resolve o)) := fun o ho =>
      hresolve (List.mem_append_right _ ho)
    refine Asks.bind ?_ fun _ => trivial
    unfold removeProgram
    cases hk : u.kind with
    | list => exact (asks_valueProgram hvalue).bind fun v => asks_update (.remove hk)
    | mapping => exact (asks_keyProgram hkey).bind fun key => asks_update (.removeKey hk)
    | scalar => trivial
  | read o => exact asks_perform (hresolve (List.mem_singleton.mpr rfl))

end Action

/-! ## What flows ask for -/

theorem Program.asks_each {body : Value → Program Value} (h : ∀ v, (body v).Asks P) :
    ∀ (vs : List Value) (last : Value), (each body last vs).Asks P
  | [], _ => trivial
  | v :: vs, _ => (h v).bind fun last => asks_each h vs last

theorem Mode.asks_program {body : Value → Program Value} (h : ∀ v, (body v).Asks P) (mode : Mode)
    (name : String) (v : Value) : (mode.program name v body).Asks P := by
  unfold Mode.program
  split
  · exact Program.asks_each h _ _
  · trivial

variable {p : Action → Prop}

theorem Flow.asks_programBelow (h : ∀ a, p a → ∀ request, a.MayAsk request → P request) :
    ∀ {f : Flow} {above last : Value}, f.All p → (f.programBelow d above last).Asks P
  | nil, _, _, _ => trivial
  | step action mode below rest, above, _, ⟨haction, hbelow, hrest⟩ => by
    have hbody (input : Value) : (do
        let v ← action.program d input
        below.programBelow d v v : Program Value).Asks P :=
      ((action.asks_program d input).mono (h action haction)).bind fun v =>
        asks_programBelow h hbelow
    exact (mode.asks_program hbody action.name above).bind fun last => asks_programBelow h hrest

/-- A flow asks for nothing but what its actions may ask for. -/
theorem Flow.asks_program (h : ∀ a, p a → ∀ request, a.MayAsk request → P request) {f : Flow}
    (hf : f.All p) : (f.program d).Asks P :=
  asks_programBelow h hf.atTop

end

end Gleaner
