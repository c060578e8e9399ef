import DbGuard.Machine
import DbGuard.Agent.Roles

/-!
# `DbGuard.Agent.PrimaryCheck`: the answer of /primary

`_primary_answer` and `refresh_primary_sample` of `agent/core.py`, beside the role changes.
/primary answers from memory: the fence flag, `rebuilding`, and the sample of super_read_only
that the refresher took last.

A sample gets too old at any time (`stale`). `ready` says that the agent has started and that no
wake guard runs. `Sample.window`, `Sample.old` and `Watched.before` are not in the code: they
record what is said of a rebuild. The role gauge is left out.
-/

set_option autoImplicit false

namespace DbGuard

namespace Agent

open Coop (Pool Move)

/-- What the refresher read. `window` says that mysqld was writable under a rebuild then, and
`old` that a task has taken the role lock since. -/
structure Sample where
  superReadOnly : Bool
  window : Bool
  old : Bool := false
deriving DecidableEq, Repr

/-- An agent with its sample, if it has one that is not too old. `before` is what /primary said
last while a task did not hold the role lock, seen from the steps of the agent's tasks. -/
structure Watched where
  pool : Pool sig
  sample : Option Sample := none
  ready : Bool := false
  before : Nat → Bool := fun _ => false

namespace Watched

/-- A move of the agent's tasks or of their environment, a sample, the end of a sample, and the
start of the agent or of a wake guard, or its end. -/
inductive Turn
  | agent (m : Move sig)
  | sample
  | stale
  | ready (b : Bool)

variable (s : Watched)

/-- The agent, between two segments of its tasks. -/
def state : Agent := s.pool.world.state

/-- Neither the fence flag nor the start of the agent nor a wake guard keeps /primary from its
sample. -/
def shown : Bool := !s.state.fenced && s.ready

/-- Whether `_primary_answer` is 200. -/
def primary : Bool := s.shown && !s.state.rebuilding && s.sample.any (!·.superReadOnly)

/-- `refresh_primary_sample`, from a mysqld that answers. -/
def refresh : Watched :=
  { s with
    sample := some
      { superReadOnly := s.state.mysqld.superReadOnly
        window := s.state.rebuilding && s.state.mysqld.writable } }

/-- The agent after a step of its tasks. -/
def moved (pool : Pool sig) : Watched :=
  { s with
    pool
    sample := s.sample.map fun x =>
      { x with
        old := x.old ||
          pool.world.state.holder.isSome && pool.world.state.holder != s.state.holder }
    before := fun t => if s.state.holder = some t then s.before t else s.primary }

/-- One move. -/
def step (node : Node) (s : Watched) : Turn → Option Watched
  | .agent m =>
    if environment s.pool m then (s.pool.fire (body node) m).map s.moved else none
  | .sample => if s.state.mysqld.up then some s.refresh else none
  | .stale => some { s with sample := none }
  | .ready b => some { s with ready := b }

/-- A booted replica without requests. -/
def start (semisync supervised fenced : Bool) : Watched :=
  { pool := Pool.init (init semisync supervised fenced) [] }

end Watched

/-- Task `t` is a rebuild. -/
def isRebuild (jobs : List Job) (t : Nat) : Bool :=
  match jobs[t]? with
  | some (.rebuild _) => true
  | _ => false

/-- Task `t` answers a failure. -/
def refuses (t : Nat) : Coop.Event sig → Bool
  | .issued t' _ (.reply status) _ => t' == t && status != 200
  | _ => false

/-- Task `t` answers a failure in the step from `p` to `p'`. -/
def refused (t : Nat) (p p' : Pool sig) : Bool :=
  (p'.world.log.drop p.world.log.length).any (refuses t)

end Agent

end DbGuard
