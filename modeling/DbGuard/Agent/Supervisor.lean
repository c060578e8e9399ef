import Mathlib.Algebra.Order.Field.Rat
import Mathlib.Data.Rat.Floor
import DbGuard.Machine

/-!
# `DbGuard.Agent.Supervisor`: the loop that restarts mysqld

`MysqldSupervisor` of `agent/supervisor.py`: the loop `_run`, `hold`, `release_hold`, `kill` and
`stop`, and the two places of `agent/core.py` that set and end a hold. The times are exact
rational numbers of seconds.

`Phase` is the await that the loop stands at. `Move.resume` runs the loop to its next await.
`create_subprocess_exec` forks before it awaits anything, so a mysqld is spawned in the move
that comes to it, and `spawns` is whether that succeeds. Every other move can come between any
two of the loop: a call, the exit of mysqld, and the passing of time.

`wait_for` returns when the event was set since it began to wait, also if the event has been
cleared again. `Phase.holding` keeps this as `woken`.
-/

set_option autoImplicit false

namespace DbGuard

/-- `RESTART_EXIT_CODE`. -/
def Supervisor.restartExitCode : Int := 16

/-- The settings of `MysqldSupervisor`, in seconds. -/
structure SupervisorSettings where
  minBackoff : ℚ := 1 / 2
  maxBackoff : ℚ := 5

/-- The signals that matter to `kill`. -/
inductive Supervisor.Signal
  | sigkill
  | other
deriving DecidableEq

/-- The await that the loop stands at: not started, in `create_subprocess_exec`, in the
`_notify` after a start, in `proc.wait`, in the `_notify` after an exit, in `_wait_hold`, in a
backoff sleep, or finished. -/
inductive Supervisor.Phase
  | created
  | spawning
  | starting
  | running
  | exited (rc : Int) (ran : ℚ)
  | holding (deadline : ℚ) (woken : Bool)
  | sleeping (deadline : ℚ)
  | finished
deriving DecidableEq

/-- `MysqldSupervisor` and the mysqld that was spawned last. `child` is its return code, if there
is one and it has exited. `spawned` counts the processes. `proc` of the source is this mysqld,
but for the await in `create_subprocess_exec`, where it is an older one that has exited. -/
structure Supervisor where
  now : ℚ
  phase : Supervisor.Phase := .created
  child : Option (Option Int) := none
  spawned : Nat := 0
  started : ℚ := 0
  backoff : ℚ
  generation : Nat := 0
  restarts : Nat := 0
  stopping : Bool := false
  immediate : Bool := false
  holdUntil : Option ℚ := none
  holdRelease : Bool := false
deriving DecidableEq

/-- What can happen next. -/
inductive Supervisor.Move
  | advance (seconds : ℚ)
  | exit (rc : Int)
  | hold (seconds : ℚ)
  | releaseHold
  | kill (sig : Supervisor.Signal)
  | stop
  | cancel
  | resume (spawns : Bool)
deriving DecidableEq

/-- `round(x, 3)`: to the nearest thousandth, and to the even one of two. -/
def Supervisor.roundMs (x : ℚ) : ℚ :=
  let n := ⌊x * 1000⌋
  let rest := x * 1000 - n
  (if rest < 1 / 2 ∨ rest = 1 / 2 ∧ n % 2 = 0 then n else n + 1) / 1000

namespace Supervisor

variable (c : SupervisorSettings) (s : Supervisor)

/-- `__init__`. -/
def start (now : ℚ) : Supervisor := { now := now, backoff := c.minBackoff }

/-- `alive`. -/
def alive : Bool := s.phase ≠ .spawning && s.child == some none

/-- `held`. -/
def held : Bool := s.holdUntil.isSome

/-- `hold_remaining_s`. -/
def holdRemaining : ℚ :=
  match s.holdUntil with
  | none => 0
  | some holdEnd => roundMs (max 0 (holdEnd - s.now))

/-! ### The calls -/

/-- `hold`. -/
def hold (seconds : ℚ) : Supervisor :=
  if 0 < seconds then { s with holdRelease := false, holdUntil := some (s.now + seconds) } else s

/-- `_hold_release.set()`. -/
def setRelease : Supervisor :=
  { s with
    holdRelease := true
    phase := match s.phase with
      | .holding deadline _ => .holding deadline true
      | phase => phase }

/-- `release_hold`. -/
def releaseHold : Supervisor := if s.held then s.setRelease else s

/-- `kill`. What the signal does to mysqld is another move. -/
def kill (sig : Signal) : Supervisor :=
  if s.alive ∧ sig = .sigkill then { s with immediate := true } else s

/-- The first steps of `stop`. -/
def stop : Supervisor := { s with stopping := true }.setRelease

/-! ### The loop -/

/-- The head of the loop and the spawn. -/
def head (spawns : Bool) : Supervisor :=
  if s.stopping then { s with phase := .finished }
  else if spawns then
    { s with
      phase := .spawning, child := some none, spawned := s.spawned + 1, started := s.now }
  else { s with phase := .sleeping (s.now + s.backoff), started := s.now }

/-- A `continue` with no backoff. -/
def again (spawns : Bool) : Supervisor :=
  { s with immediate := false, backoff := c.minBackoff }.head spawns

/-- The end of `_wait_hold`, and what follows it in the loop. -/
def endHold (spawns : Bool) : Supervisor :=
  let s := { s with holdUntil := none, holdRelease := false }
  if s.stopping then { s with phase := .finished } else s.again c spawns

/-- What the loop does when mysqld has exited. -/
def afterExit (rc : Int) (ran : ℚ) (spawns : Bool) : Supervisor :=
  if s.stopping then { s with phase := .finished }
  else
    let s := { s with restarts := s.restarts + 1 }
    if s.held then
      if 0 < s.holdRemaining ∧ s.holdRelease = false then
        { s with phase := .holding (s.now + s.holdRemaining) false }
      else s.endHold c spawns
    else if rc = restartExitCode ∨ s.immediate then s.again c spawns
    else
      let backoff := if 30 < ran then c.minBackoff else s.backoff
      { s with backoff := backoff, phase := .sleeping (s.now + backoff) }

/-- `_run` from the await it stands at to the next. -/
def resume (spawns : Bool) : Option Supervisor :=
  match s.phase with
  | .created => some (s.head spawns)
  | .spawning => some { s with generation := s.generation + 1, phase := .starting }
  | .starting => some { s with phase := .running }
  | .running =>
    match s.child with
    | some (some rc) => some { s with phase := .exited rc (s.now - s.started) }
    | _ => none
  | .exited rc ran => some (s.afterExit c rc ran spawns)
  | .holding deadline woken => if woken ∨ deadline ≤ s.now then some (s.endHold c spawns) else none
  | .sleeping deadline =>
    if deadline ≤ s.now then
      some ({ s with backoff := min (s.backoff * 2) c.maxBackoff }.head spawns)
    else none
  | .finished => none

/-- One move. -/
def step : Move → Option Supervisor
  | .advance seconds => if 0 ≤ seconds then some { s with now := s.now + seconds } else none
  | .exit rc => if s.child = some none then some { s with child := some (some rc) } else none
  | .hold seconds => some (s.hold seconds)
  | .releaseHold => some s.releaseHold
  | .kill sig => some (s.kill sig)
  | .stop => some s.stop
  | .cancel => if s.stopping then some { s with phase := .finished } else none
  | .resume spawns => s.resume c spawns

/-! ### The agent -/

/-- The calls of `_fence_kill_mysqld`, with no await between them. -/
def fenceKillMysqld (restartHoldS : ℚ) : List Move := [.hold restartHoldS, .kill .sigkill]

/-- `_end_restart_hold`: the generation that a role change waits to be over, if it waits. -/
def endRestartHold : Supervisor × Option Nat :=
  if s.held then (s.releaseHold, some s.generation) else (s, none)

end Supervisor

end DbGuard
