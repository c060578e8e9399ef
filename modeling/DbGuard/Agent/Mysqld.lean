import DbGuard.Model

/-!
# `DbGuard.Agent.Mysqld`: the server under an agent

What the role changes of `agent/core.py` read and set in mysqld: super_read_only, and the two
sides of semi-sync. The semi-sync plugins are installed.

A statement that a task gives up (a timeout, the deadline of the request) has reached the
server or not, and the server may still execute it later. `Call` is a statement on its way. It
belongs to the mysqld that its session was opened to, and a restart loses it, as a KILL of the
session does. A restarted mysqld is read-only with the source side off.
-/

set_option autoImplicit false

namespace DbGuard

/-- A session of the agent: the task that opened it, and how many this had opened with it. -/
structure SessionId where
  task : Nat
  no : Nat
deriving DecidableEq, Repr

/-- The statements of the role changes. `superReadOnly false` is both
`SET GLOBAL super_read_only=0, read_only=0` and `SET GLOBAL super_read_only=0`. -/
inductive Stmt
  | stopReplica
  | resetReplicaAll
  | startReplica
  | stopIoThread
  | startIoThread
  | changeSource (host : Node)
  | replicaEnabled (b : Bool)
  | sourceEnabled (b : Bool)
  | superReadOnly (b : Bool)
  | validDonors (donor : Node)
  | clone (donor : Node)
  | selectSuperReadOnly
  | showSemisync
  | showWaitSessions
  | showReplica
  | selectGtid
  | selectCloneProgress
  | clientThreads
  | kill (id : SessionId)
deriving DecidableEq, Repr

/-- What the agent reads in an answer. `ioRunning` says that the IO thread is `Yes` or
`Connecting`. -/
inductive Row
  | none
  | superReadOnly (b : Bool)
  | semisync (source replica : Bool)
  | waitSessions (n : Option Int)
  | ioRunning (b : Bool)
  | threads (ids : List SessionId)
deriving DecidableEq, Repr

/-- mysqld. `gen` counts its starts, as the supervisor's `generation` does. `killed` are the
sessions that a KILL has ended. -/
structure Mysqld where
  up : Bool := true
  gen : Nat := 1
  superReadOnly : Bool := true
  sourceEnabled : Bool := false
  replicaEnabled : Bool := false
  killed : List SessionId := []
deriving DecidableEq, Repr

namespace Mysqld

variable (m : Mysqld)

/-- What a statement does to what the agent reads. -/
def exec : Stmt → Mysqld
  | .replicaEnabled b => { m with replicaEnabled := b }
  | .sourceEnabled b => { m with sourceEnabled := b }
  | .superReadOnly b => { m with superReadOnly := b }
  | .kill id => { m with killed := id :: m.killed }
  | _ => m

/-- Whether the row is an answer to the statement. -/
def shows : Stmt → Row → Bool
  | .selectSuperReadOnly, row => row = .superReadOnly m.superReadOnly
  | .showSemisync, row => row = .semisync m.sourceEnabled m.replicaEnabled
  | .showWaitSessions, .waitSessions _ => true
  | .showReplica, .ioRunning _ => true
  | .clientThreads, .threads _ => true
  | .showWaitSessions, _ | .showReplica, _ | .clientThreads, _ => false
  | _, row => row = .none

/-- A new mysqld. -/
def boot (replicaEnabled : Bool) : Mysqld :=
  { gen := m.gen + 1, replicaEnabled }

/-- Clients can write. -/
def writable : Bool := m.up && !m.superReadOnly

end Mysqld

/-- A statement that was sent to the mysqld of some generation, and the answer once it is
executed. -/
structure Call where
  gen : Nat
  session : SessionId
  stmt : Stmt
  row : Option Row := none
deriving DecidableEq, Repr

end DbGuard
