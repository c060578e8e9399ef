import DbGuard.Machine
import DbGuard.Manager

/-!
# `DbGuard.Polls`: what the polls made of a cold start

`_cold_start_check` counts the polls that agree on a cold start. The counter says neither which
node they chose nor for which believed primary. `Polling` is a controller with this history
beside it, one entry for each poll. Ticks run one at a time, so a poll is entered once its tick
has decided: it returns early, or it has the lock.
-/

set_option autoImplicit false

namespace DbGuard

open Coop (Pool Move)

/-- What `cold_start_choice` returned, and for which believed primary. -/
abbrev ColdChoice := Node × ColdStart

/-- Task `t` has got its poll. -/
def hasPoll (t : Nat) (log : List (Coop.Event sig)) : Bool :=
  log.any fun
    | .answered t' (.observe _ _) _ => t' == t
    | _ => false

/-- A tick returns after its poll: the set is halted or its lock is taken. -/
def Ctl.leaves (s : Ctl) : Bool := s.halted || s.lock.owner.isSome

/-- By this move a tick gets its poll and returns. -/
def leftEarly (p : Pool sig) : Move sig → Bool
  | .answer t _ =>
    match p.progs t with
    | some (.await (.observe _ _) _) => p.world.state.leaves
    | _ => false
  | _ => false

/-- The poll of the tick that takes the lock by this move. It takes it at once, or it has
waited for it. -/
def decided (p : Pool sig) : Move sig → Option Views
  | .answer t f =>
    match p.progs t with
    | some (.await (.observe primary ns) _) =>
      if p.world.state.leaves || !p.world.state.lock.waiters.isEmpty then none
      else
        let ans : PollAnswer := f (.observe primary ns)
        some (.ofAnswers ns ans.view)
    | _ => none
  | .wake t =>
    if hasPoll t p.world.log && p.world.state.lock.owner.isNone then
      p.world.state.lastObs.map (·.nodes)
    else none
  | _ => none

/-- What this poll makes `cold_start_choice` return. -/
def Ctl.chosen (s : Ctl) (views : Views) : Option ColdChoice :=
  s.primary.map fun q => (q, coldStartChoice views s.members (some q))

/-- A step of `cold_start` of node `n`, called by a tick. -/
def coldStarts (n : Node) : Coop.Event sig → Bool
  | .issued _ .tick (.promote m) s => m == n && s.op == some .coldStart
  | .issued _ .tick (.repointAll _ m) s => m == n && s.op == some .coldStart
  | _ => false

/-- `cold_start` of node `n` is called in the step from `p` to `p'`. -/
def called (p p' : Pool sig) (n : Node) : Bool :=
  p.world.state.op != some .coldStart &&
    (p'.world.log.drop p.world.log.length).any (coldStarts n)

/-- A controller and what its polls chose, the newest first. `none` is a poll that came to no
choice. -/
structure Polling where
  pool : Pool sig
  polls : List (Option ColdChoice) := []

namespace Polling

variable (s : Polling)

/-- The controller, between two segments of its tasks. -/
def state : Ctl := s.pool.world.state

/-- The entry of a poll. -/
def after (m : Move sig) : List (Option ColdChoice) :=
  if leftEarly s.pool m then none :: s.polls
  else
    match decided s.pool m with
    | some views => s.state.chosen views :: s.polls
    | none => s.polls

/-- One move. -/
def step (cfg : Config) (s : Polling) (m : Move sig) : Option Polling :=
  if environment s.pool m then
    (s.pool.fire (body cfg) m).map fun pool => { pool, polls := s.after m }
  else none

/-- A controller when the manager starts. -/
def start (cfg : Config) : Polling := { pool := Pool.init (Ctl.init cfg) [] }

end Polling

end DbGuard
