import DbGuard.Machine
import DbGuard.Agent.Roles

/-!
# `DbGuard.Agent.Sessions`: client sessions that wait for an ack

An agent whose mysqld counts the client sessions in the semi-sync wait. A commit enters it on a
writable mysqld with the source side on, and leaves it with its ack or killed. A
`SET GLOBAL super_read_only=1` queues behind the waiting sessions (the global read lock), and
switching the source side off releases them all. What SHOW STATUS answers is their number, or
no row.
-/

set_option autoImplicit false

namespace DbGuard

namespace Agent

open Coop (Pool Move)

/-- The statement that mysqld executes by a change. -/
def executed (s : Agent) : Update → Option Stmt
  | .execute t _ => (s.calls t).map (·.stmt)
  | .land k => (s.late[k]?).map (·.stmt)
  | _ => none

/-- An agent, and the number of client sessions that wait for an ack. -/
structure Served where
  pool : Pool sig
  waiting : Nat

namespace Served

/-- A move of the agent's tasks or of its environment, or of a session. -/
inductive Turn
  | agent (m : Move sig)
  | enter
  | leave

variable (s : Served)

/-- The mysqld of the agent. -/
def mysqld : Mysqld := s.pool.world.state.mysqld

/-- A commit can enter the wait. -/
def canEnter : Bool := s.mysqld.writable && s.mysqld.sourceEnabled

/-- Whether mysqld can do this now: a SET of super_read_only=1 waits for the sessions, and a
count is their number. -/
def admits : Move sig → Bool
  | .outside u =>
    (s.pool.world.state.executed u != some (.superReadOnly true) || s.waiting == 0) &&
      match u with
      | .execute _ (.waitSessions (some n)) => n == s.waiting
      | _ => true
  | _ => true

/-- The sessions that still wait after a move. -/
def stillWaiting : Move sig → Nat
  | .outside (.boot _) => 0
  | .outside u =>
    if s.pool.world.state.executed u = some (.sourceEnabled false) then 0 else s.waiting
  | _ => s.waiting

/-- One move. -/
def step (node : Node) (s : Served) : Turn → Option Served
  | .agent m =>
    if environment s.pool m && s.admits m then
      (s.pool.fire (body node) m).map fun pool => { pool, waiting := s.stillWaiting m }
    else none
  | .enter => if s.canEnter then some { s with waiting := s.waiting + 1 } else none
  | .leave => if 0 < s.waiting then some { s with waiting := s.waiting - 1 } else none

/-- A booted replica without requests. -/
def start (semisync supervised fenced : Bool) : Served :=
  { pool := Pool.init (init semisync supervised fenced) [], waiting := 0 }

/-- The `SET GLOBAL rpl_semi_sync_source_enabled=0` of configure task `t` is on its way to
mysqld. -/
def switching (p : Pool sig) (t : Nat) : Bool :=
  (match p.world.jobs[t]? with
  | some (.configure _) => true
  | _ => false) &&
  (p.world.state.calls t).any fun c =>
    c.stmt == .sourceEnabled false && c.row.isNone && c.gen == p.world.state.mysqld.gen

/-- The statement that was given up and that mysqld executes by this move. -/
def landed : Move sig → Option Stmt
  | .outside (.land k) => s.pool.world.state.executed (.land k)
  | _ => none

/-- By this move mysqld executes the SET with which a configure switches the source side off,
or a SET to this that was given up. -/
def switchesOff : Turn → Bool
  | .agent (.outside (.execute t _)) => switching s.pool t
  | .agent m => s.landed m == some (.sourceEnabled false)
  | .enter | .leave => false

end Served

end Agent

end DbGuard
