import Mathlib.Logic.Function.Basic
import DbGuard.Osc.Preflight

/-!
# `DbGuard.Osc.Runner`: the statements of a schema change and their failures

`Runner.run` of `osc/runner.py` as far as it creates, renames and drops: preflight, the dry
run, ALGORITHM=INSTANT, the copy path, the swap and `_cleanup_after_failure`. `Server` is what
the server has. A name stands for a table, and a trigger belongs to a table and not to a name,
so it moves with its table in a RENAME. `Book` is what the runner believes: `created_shadow`,
`created_triggers` and `swapped`.

`Phase` is the statement that comes next, in the order of the source. Statements that create,
rename or drop nothing (`Sql.plain`) stand for all of their kind in a row: the settings, the
reads of `load_table`, and the whole copy with its checksums, whose effect on the rows is in
`DbGuard.Osc.Copy`. The progress table is left out.

A statement succeeds, or the server refuses it with an error number and no effect, or the
connection fails (`Move.lose`). Then it took effect or not, and in the second case it can
still do so later (`Move.landOwn`, `Move.landFresh`) until a KILL of its connection succeeds. A
connection that is used again after an interrupted statement runs the next one after it.
`Move.raise` is every other exception, Ctrl-C included.
-/

set_option autoImplicit false

namespace DbGuard.Osc

/-! ### The server -/

/-- `shadow_name`. -/
def shadowName (table : String) : String := shadowPrefix ++ table

/-- `old_name`. -/
def oldName (table : String) : String := oldPrefix ++ table

/-- A statement of the runner, on the tables that it names. -/
inductive Sql
  | plain
  | createTableLike (name : String) (like : String)
  | alterTable (name : String)
  | createTrigger (e : Dml) (on : String)
  | dropTrigger (e : Dml)
  | renameTable (table old shadow : String)
  | dropTableIfExists (name : String)
  | dropTable (name : String)
  | kill
deriving DecidableEq

/-- The tables by their names, and the triggers of the tool with the table of each. Tables are
numbered as they are created. `renamed` is the table that got the name of another one in
the last RENAME. -/
structure Server where
  names : String → Option Nat
  triggers : List (Dml × Nat) := []
  created : Nat
  renamed : Option Nat := none

namespace Server

variable (srv : Server)

/-- The server without the table of a name. Its triggers go with it. -/
def drop (name : String) : Server :=
  { srv with
    names := Function.update srv.names name none
    triggers := srv.triggers.filter fun x => srv.names name ≠ some x.2 }

/-- The triggers of the table that has a name. -/
def triggersOn (name : String) : List Dml :=
  (srv.triggers.filter fun x => srv.names name = some x.2).map (·.1)

/-- What a statement makes of the server. `none` when the server refuses it. -/
def exec : Sql → Option Server
  | .plain | .kill => some srv
  | .createTableLike name like =>
    if (srv.names name).isNone ∧ (srv.names like).isSome then
      some { srv with
        names := Function.update srv.names name (some srv.created)
        created := srv.created + 1 }
    else none
  | .alterTable name => if (srv.names name).isSome then some srv else none
  | .createTrigger e on =>
    match srv.names on with
    | some o =>
      if srv.triggers.any (·.1 = e) then none
      else some { srv with triggers := srv.triggers ++ [(e, o)] }
    | none => none
  | .dropTrigger e => some { srv with triggers := srv.triggers.filter (·.1 ≠ e) }
  | .renameTable table old shadow =>
    if (srv.names table).isSome ∧ (srv.names old).isNone ∧ (srv.names shadow).isSome then
      some { srv with
        names := Function.update (Function.update (Function.update srv.names
          old (srv.names table)) table (srv.names shadow)) shadow none
        renamed := srv.names shadow }
    else none
  | .dropTableIfExists name => some (srv.drop name)
  | .dropTable name => if (srv.names name).isSome then some (srv.drop name) else none

end Server

/-! ### The runner -/

/-- The options that decide the way of a run. `instant` is whether preflight allows
ALGORITHM=INSTANT and the caller too. -/
structure Plan where
  table : String
  dryRun : Bool := false
  instant : Bool := false
  dropOld : Bool := false
  swapAttempts : Nat := 10

/-- What the runner keeps of its progress. -/
structure Book where
  createdShadow : Bool := false
  createdTriggers : List Dml := []
  swapped : Bool := false

/-- `RETRYABLE`. -/
def retryable : List Nat := [1205, 1213]

/-- `INSTANT_REFUSED`. -/
def instantRefused : List Nat := [1845, 1846, 4092]

/-- The statement that comes next. `attempt` counts from 0. The stages from `reconnect` on are
`_cleanup_after_failure`. -/
inductive Stage
  | setup
  | dryCreate
  | dryAlter
  | dryInspect
  | dryDrop
  | instant
  | create
  | alter
  | inspect
  | trigger (e : Dml) (todo : List Dml) (attempt : Nat)
  | copy
  | rename (attempt : Nat)
  | untrigger (e : Dml) (todo : List Dml) (attempt : Nat)
  | verify
  | dropOld
  | finished
  | reconnect
  | kill
  | setLock
  | cleanTrigger (e : Dml) (todo : List Dml)
  | cleanShadow
  | failed
deriving DecidableEq

namespace Stage

/-- The statement of a stage. -/
def sql (table : String) : Stage → Option Sql
  | setup | dryInspect | inspect | copy | verify | reconnect | setLock => some .plain
  | dryCreate | create => some (.createTableLike (shadowName table) table)
  | dryAlter | alter => some (.alterTable (shadowName table))
  | dryDrop | cleanShadow => some (.dropTableIfExists (shadowName table))
  | instant => some (.alterTable table)
  | trigger e _ _ => some (.createTrigger e table)
  | rename _ => some (.renameTable table (oldName table) (shadowName table))
  | untrigger e _ _ | cleanTrigger e _ => some (.dropTrigger e)
  | dropOld => some (.dropTable (oldName table))
  | kill => some .kill
  | finished | failed => none

/-- The stages of `_cleanup_after_failure`. -/
def inCleanup : Stage → Bool
  | reconnect | kill | setLock | cleanTrigger _ _ | cleanShadow | failed => true
  | _ => false

end Stage

/-- A run of the tool. `doubt` is a statement of the run's own connection that failed and can
still take effect, `freshDoubt` the same for the connection of the cleanup. `alive` says that
the own connection can be used, and `usable` that the one of the cleanup can, which is a
`fresh` one or the old one again. -/
structure Runner where
  server : Server
  book : Book := {}
  stage : Stage := .setup
  doubt : Option Sql := none
  freshDoubt : Option Sql := none
  alive : Bool := true
  fresh : Bool := false
  usable : Bool := true

namespace Runner

variable (p : Plan) (s : Runner)

/-- What happens to the next statement, or around it. `ok` has a choice where the source has
one that is not modelled: whether the copy goes on, whether the dry run found errors, and
whether the old connection has an id to kill. -/
inductive Move
  | ok (go : Bool)
  | refuse (code : Nat)
  | lose (landed dead : Bool)
  | raise
  | landOwn
  | landFresh
  | lapseOwn

/-- The next statement can be run: the connection works, and nothing is under way on it. -/
def ready : Bool :=
  if s.stage = .reconnect then true
  else if s.stage.inCleanup then s.usable && (s.fresh || s.doubt.isNone)
  else s.alive

/-- `preflight` and the reads before it find nothing of an earlier run. -/
def clean (srv : Server) : Bool :=
  (srv.names p.table).isSome && (srv.names (shadowName p.table)).isNone &&
    (srv.names (oldName p.table)).isNone && (srv.triggersOn p.table).isEmpty

/-- The first of the triggers that are left to drop, and what comes after them. -/
def cleanNext (b : Book) : List Dml → Stage
  | e :: todo => .cleanTrigger e todo
  | [] => if b.createdShadow && !b.swapped then .cleanShadow else .failed

/-- `_drop_triggers_after_swap` begins. -/
def untriggerAll : Stage := .untrigger .insert [.update, .delete] 0

/-- The way on after a statement that succeeded. -/
def onOk (go : Bool) : Runner :=
  match s.stage with
  | .setup =>
    if clean p s.server then
      { s with stage := if p.dryRun then .dryCreate else if p.instant then .instant else .create }
    else { s with stage := .reconnect }
  | .dryCreate => { s with stage := .dryAlter, book := { s.book with createdShadow := true } }
  | .dryAlter => { s with stage := .dryInspect }
  | .dryInspect => { s with stage := .dryDrop }
  | .dryDrop =>
    { s with
      stage := if go then .finished else .reconnect
      book := { s.book with createdShadow := false } }
  | .instant => { s with stage := .finished }
  | .create => { s with stage := .alter, book := { s.book with createdShadow := true } }
  | .alter => { s with stage := .inspect }
  | .inspect =>
    -- A trigger is recorded before its CREATE is sent.
    { s with
      stage := .trigger .insert [.update, .delete] 0
      book := { s.book with createdTriggers := s.book.createdTriggers ++ [.insert] } }
  | .trigger _ (e :: todo) _ =>
    { s with
      stage := .trigger e todo 0
      book := { s.book with createdTriggers := s.book.createdTriggers ++ [e] } }
  | .trigger _ [] _ => { s with stage := .copy }
  | .copy =>
    -- With no attempts at all `_swap` returns without a RENAME.
    if go then { s with stage := if p.swapAttempts = 0 then untriggerAll else .rename 0 } else s
  | .rename _ => { s with stage := untriggerAll, book := { s.book with swapped := true } }
  | .untrigger _ (e :: todo) _ => { s with stage := .untrigger e todo 0 }
  | .untrigger _ [] _ => { s with stage := .verify }
  | .verify =>
    if (s.server.triggersOn p.table).isEmpty &&
        (s.server.triggersOn (oldName p.table)).isEmpty then
      { s with
        stage := if p.dropOld then .dropOld else .finished
        book := { s.book with createdTriggers := [] } }
    else { s with stage := .reconnect }
  | .dropOld => { s with stage := .finished }
  | .reconnect =>
    { s with stage := if go then .kill else .setLock, fresh := true, usable := true }
  | .kill => { s with stage := .setLock }
  | .setLock => { s with stage := cleanNext s.book s.book.createdTriggers }
  | .cleanTrigger _ todo => { s with stage := cleanNext s.book todo }
  | .cleanShadow => { s with stage := .failed }
  | .finished | .failed => s

/-- The way on after a statement that the server refused with an error number. -/
def onRefuse (code : Nat) : Runner :=
  match s.stage with
  | .instant => { s with stage := if code ∈ instantRefused then .create else .reconnect }
  | .trigger e todo n =>
    { s with stage := if code ∈ retryable ∧ n < 9 then .trigger e todo (n + 1) else .reconnect }
  | .untrigger e todo n =>
    { s with stage := if code ∈ retryable ∧ n < 9 then .untrigger e todo (n + 1) else .reconnect }
  | .rename n =>
    { s with stage := if code = 1205 ∧ n + 1 < p.swapAttempts then .rename (n + 1) else .reconnect }
  | .reconnect => { s with stage := .setLock, usable := s.alive }
  | .kill => { s with stage := .setLock }
  | .setLock | .cleanTrigger _ _ | .cleanShadow => { s with stage := .failed }
  | .finished | .failed => s
  | _ => { s with stage := .reconnect }

/-- The way on after a statement whose connection failed. `q` is the statement if it can
still take effect. -/
def onLose (q : Option Sql) (dead : Bool) : Runner :=
  match s.stage with
  | .reconnect => { s with stage := .setLock, usable := s.alive }
  | .kill => { s with stage := .setLock, usable := !dead }
  | .setLock | .cleanTrigger _ _ | .cleanShadow =>
    if s.fresh then { s with stage := .failed, freshDoubt := q }
    else { s with stage := .failed, doubt := q }
  | .finished | .failed => s
  | _ => { s with stage := .reconnect, doubt := q, alive := !dead }

/-- A statement takes effect. After a KILL the old connection has nothing under way. -/
def take (q : Sql) : Option Runner :=
  (s.server.exec q).map fun server =>
    { s with server, doubt := if q = .kill then none else s.doubt }

/-- One move. -/
def step (s : Runner) : Move → Option Runner
  | .ok go =>
    match s.stage.sql p.table with
    | some q => if s.ready then (s.take q).map (·.onOk p go) else none
    | none => none
  | .refuse code =>
    match s.stage.sql p.table with
    | some _ => some (s.onRefuse p code)
    | none => none
  | .lose landed dead =>
    match s.stage.sql p.table with
    | some q =>
      if s.ready then
        if landed then (s.take q).map (·.onLose none dead) else some (s.onLose (some q) dead)
      else none
    | none => none
  | .raise =>
    match s.stage with
    | .finished | .failed => none
    | stage => some { s with stage := if stage.inCleanup then .failed else .reconnect }
  | .landOwn =>
    match s.doubt with
    | some q => { s with doubt := none }.take q
    | none => none
  | .landFresh =>
    match s.freshDoubt with
    | some q => { s with freshDoubt := none }.take q
    | none => none
  | .lapseOwn => some { s with doubt := none }

end Runner

end DbGuard.Osc
