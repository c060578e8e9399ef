import DbGuard.Machine
import DbGuard.Agent.Roles

/-!
# `DbGuard.Agent.Clone`: whose data mysqld serves

A remote CLONE copies the donor's data into files of its own, and the next start of mysqld puts
them in place of the node's data (`staged`, `data`). A start before the copy is complete leaves
the old data, and the binary log with it. A link that is lost says nothing about the copy: it
may be complete, or go on, or have died with mysqld.

What a replica thread applies after the start comes from the donor's source and is left out. A
rebuild is named by its task.
-/

set_option autoImplicit false

namespace DbGuard

namespace Agent

open Coop (Pool Move)

/-- How far a rebuild has come: the start of mysqld at which it sent its CLONE, whether it has
read it as done, and whether it has found mysqld responsive since. -/
structure Cloning where
  gen : Nat
  done : Bool := false
  responsive : Bool := false
deriving DecidableEq, Repr

/-- The answers to CLONE that `rebuild` takes for a clone that is done. -/
def readsDone : Except Failure Row → Bool
  | .ok _ => true
  | .error (.db code _) => pendsRestart code
  | .error _ => false

/-- `wait_responsive` is true. -/
def readsTrue : Except Failure Bool → Bool
  | .ok ok => ok
  | .error _ => false

/-- What an event says of rebuild `t`. -/
def Cloning.next (t : Nat) (c : Option Cloning) : Coop.Event sig → Option Cloning
  | .issued t' _ (.sql (.clone _)) s => if t' = t then some { gen := s.mysqld.gen } else c
  | .issued t' _ (.reply _) _ => if t' = t then none else c
  | .answered t' (.sql (.clone _)) a =>
    if t' = t ∧ readsDone a then c.map fun c => { c with done := true, responsive := false }
    else c
  | .answered t' .waitResponsive a =>
    if t' = t ∧ readsTrue a then c.map fun c => { c with responsive := true } else c
  | _ => c

/-- How far rebuild `t` has come, from its CLONE to its answer. -/
def cloning (t : Nat) (log : List (Coop.Event sig)) : Option Cloning :=
  log.foldl (Cloning.next t) none

/-- Rebuild `t` sends its CLONE to the mysqld of this start. -/
def sentClone (t gen : Nat) : Coop.Event sig → Bool
  | .issued t' _ (.sql (.clone _)) s => t' == t && (s.calls t').any (·.gen == gen)
  | _ => false

/-- Task `t` answers 200 in the step from `p` to `p'`. -/
def agreed (t : Nat) (p p' : Pool sig) : Bool :=
  (p'.world.log.drop p.world.log.length).any fun
    | .issued t' _ (.reply 200) _ => t' == t
    | _ => false

/-- A wait raises a `DbError`, or it is cancelled. -/
def raisable {α : Type} : Except Failure α → Bool
  | .ok _ | .error (.db _ _) | .error .deadline => true
  | .error _ => false

/-- The answers of the waits. -/
def Req.raisable : (r : Req) → r.Resp → Bool
  | .sql _, a => Agent.raisable (a : Except Failure Row)
  | .connect, a => Agent.raisable (a : Except Failure Nat)
  | .sample, a | .ownGtid, a | .donorGtid _, a => Agent.raisable (a : Except Failure Unit)
  | .waitExit, a | .waitRestart _, a | .waitResponsive, a =>
    Agent.raisable (a : Except Failure Bool)
  | .reply _, _ => true

/-- Whether the answers are such as waits give. -/
def admits (p : Pool sig) : Move sig → Bool
  | .answer t f =>
    match p.progs t with
    | some (.await r _) => r.raisable (f r)
    | _ => true
  | _ => true

/-- An agent, the rebuild whose copy is complete and waits for the next start, and the one whose
copy mysqld serves. -/
structure Cloned where
  pool : Pool sig
  staged : Option Nat := none
  data : Option Nat := none

namespace Cloned

/-- A move of the agent's tasks or of their environment, or the end of a copy. -/
inductive Turn
  | agent (m : Move sig)
  | copied (t : Nat)

variable (s : Cloned)

/-- The agent, between two segments of its tasks. -/
def state : Agent := s.pool.world.state

/-- A start of mysqld puts the copy in place. -/
def after (pool : Pool sig) : Move sig → Cloned
  | .outside (.boot _) => { pool, staged := none, data := s.staged.or s.data }
  | _ => { s with pool }

/-- One move. -/
def step (node : Node) (s : Cloned) : Turn → Option Cloned
  | .agent m =>
    if environment s.pool m && admits s.pool m then
      (s.pool.fire (body node) m).map fun pool => s.after pool m
    else none
  | .copied t =>
    if s.state.mysqld.up && s.pool.world.log.any (sentClone t s.state.mysqld.gen) then
      some { s with staged := some t }
    else none

/-- A booted replica without requests. -/
def start (semisync supervised fenced : Bool) : Cloned :=
  { pool := Pool.init (init semisync supervised fenced) [] }

end Cloned

end Agent

end DbGuard
