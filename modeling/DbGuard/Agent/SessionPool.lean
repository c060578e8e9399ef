import DbGuard.Machine
import Mathlib.Logic.Function.Basic

/-!
# `DbGuard.Agent.SessionPool`: the agent's connections to mysqld

`MySQLSession._run` and the pool of `MySQL` in `agent/db.py`. The agent's tasks borrow sessions
with `async with db.session()`, each for as long as its body takes, and anything may happen
between two steps of a body: another task borrows, a fence drops the idle sessions, mysqld
closes a link.

Sessions are numbered in the order in which they are opened. `closed` is a session's own flag
and `lost` that of its connection, which the code reads together. `midway` is not in the code: a
statement was sent and its answer was not read to the end, so the next one would read the wrong
answer. `cut` says that the body has been cancelled in a statement. `idle` has its last element
first. Sessions that callers open with `connect` themselves are never in the pool and are left
out, and so are the texts of the errors.
-/

set_option autoImplicit false

namespace DbGuard

/-- `ACCESS_DENIED`. -/
def accessDenied : Int := 1045

/-- How a statement ends: with an answer, by the timeout, with an error that PyMySQL raises, with
one of the other errors that `_run` turns into a `DbError`, or by what `_run` lets pass, such as a
cancellation. -/
inductive MySQLSession.Outcome
  | answer
  | timeout
  | mysqlError (code : Option Int)
  | broken
  | cancelled
deriving DecidableEq

/-- How a connection attempt ends. -/
inductive MySQL.Opened
  | opened
  | timeout
  | operationalError (code : Option Int)
  | otherError
  | cancelled
deriving DecidableEq

/-- `class MySQLSession`. -/
structure MySQLSession where
  closed : Bool := false
  lost : Bool := false
  midway : Bool := false

/-- A session as `connect` returns it. -/
def MySQLSession.new : MySQLSession where

/-- `MySQLSession.close`. -/
def MySQLSession.close (s : MySQLSession) : MySQLSession := { s with closed := true }

/-- `MySQLSession.closed`. -/
def MySQLSession.isClosed (s : MySQLSession) : Bool := s.closed || s.lost

/-- The error codes on which `_run` closes the session: the client's own, and none. -/
def clientSide : Option Int → Bool
  | none => true
  | some code => code = 0 || 2000 ≤ code

/-- What a statement does to its session. -/
def MySQLSession.run (s : MySQLSession) : MySQLSession.Outcome → MySQLSession
  | .answer => s
  | .timeout | .broken => { s.close with midway := true }
  | .mysqlError code => if clientSide code then { s.close with midway := true } else s
  | .cancelled => { s with midway := true }

/-- A task that uses the pool: not in `session()`, in `connect` with so many credentials left
after this one, in its body, or in a statement of its body. -/
inductive Borrower
  | outside
  | connecting (left : Nat)
  | body (s : Nat) (cut : Bool)
  | statement (s : Nat) (cut : Bool)
deriving DecidableEq

/-- The session that a task has. -/
def Borrower.session : Borrower → Option Nat
  | .outside | .connecting _ => none
  | .body s _ | .statement s _ => some s

/-- Its body was cancelled in a statement. -/
def Borrower.isCut : Borrower → Bool
  | .outside | .connecting _ => false
  | .body _ cut | .statement _ cut => cut

/-- `class MySQL`, with the sessions it has opened, which are those below `opened`, and the tasks
that use it. `fallback` says whether there are second credentials. -/
structure MySQL where
  fallback : Bool
  maxIdle : Nat := 4
  opened : Nat := 0
  session : Nat → MySQLSession := fun _ => .new
  idle : List Nat := []
  tasks : Nat → Borrower := fun _ => .outside

namespace MySQL

/-- `MySQL.__init__`. -/
def new (fallback : Bool) (maxIdle : Nat) : MySQL where
  fallback
  maxIdle

variable (p : MySQL)

/-- What can happen next. `leave u ok` is the end of a body, `ok` if nothing was raised. -/
inductive Move
  | enter (u : Nat)
  | connected (u : Nat) (r : Opened)
  | send (u : Nat)
  | result (u : Nat) (o : MySQLSession.Outcome)
  | leave (u : Nat) (ok : Bool)
  | lose (s : Nat)
  | dropIdle
deriving DecidableEq

/-- Task `u` becomes `b`. -/
def setTask (u : Nat) (b : Borrower) : MySQL := { p with tasks := Function.update p.tasks u b }

/-- Session `s` is changed by `f`. -/
def modifySession (s : Nat) (f : MySQLSession → MySQLSession) : MySQL :=
  { p with session := Function.update p.session s (f (p.session s)) }

/-- Session `s` is closed. -/
def isClosed (s : Nat) : Bool := (p.session s).isClosed

/-- `session()` up to its `yield`, or up to the first connection attempt. Closed sessions are
popped and forgotten. -/
def enter (u : Nat) : MySQL :=
  match p.idle.dropWhile p.isClosed with
  | s :: rest => { p with idle := rest }.setTask u (.body s false)
  | [] => { p with idle := [] }.setTask u (.connecting p.fallback.toNat)

/-- `connect` after an attempt. -/
def connected (u left : Nat) : Opened → MySQL
  | .opened =>
    { p with opened := p.opened + 1, session := Function.update p.session p.opened .new }.setTask u
      (.body p.opened false)
  | .operationalError code =>
    if code = some accessDenied then
      match left with
      | 0 => p.setTask u .outside
      | left + 1 => p.setTask u (.connecting left)
    else p.setTask u .outside
  | .timeout | .otherError | .cancelled => p.setTask u .outside

/-- The `finally` of `session()`. -/
def leave (u s : Nat) (ok : Bool) : MySQL :=
  if ok && !p.isClosed s && p.idle.length < p.maxIdle then
    { p with idle := s :: p.idle }.setTask u .outside
  else (p.modifySession s .close).setTask u .outside

/-- `drop_idle`. -/
def dropIdle : MySQL :=
  { p with
    session := fun s => if s ∈ p.idle then (p.session s).close else p.session s
    idle := [] }

/-- One step. A statement on a closed session raises at once. -/
def step : Move → Option MySQL
  | .enter u => if p.tasks u = .outside then some (p.enter u) else none
  | .connected u r =>
    match p.tasks u with
    | .connecting left => some (p.connected u left r)
    | _ => none
  | .send u =>
    match p.tasks u with
    | .body s cut =>
      some (if p.isClosed s then p else p.setTask u (.statement s cut))
    | _ => none
  | .result u o =>
    match p.tasks u with
    | .statement s cut =>
      some ((p.modifySession s (·.run o)).setTask u (.body s (cut || o = .cancelled)))
    | _ => none
  | .leave u ok =>
    match p.tasks u with
    | .body s _ => some (p.leave u s ok)
    | _ => none
  | .lose s => some (p.modifySession s fun x => { x with lost := true })
  | .dropIdle => some p.dropIdle

end MySQL

end DbGuard
