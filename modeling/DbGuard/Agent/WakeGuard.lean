import DbGuard.Machine
import DbGuard.Model

/-!
# `DbGuard.Agent.WakeGuard`: an agent that wakes from a freeze

`wake_guard` of `agent/core.py` with the three places that look for a gap in the monotonic
clock: `_ticker`, `/primary`, and `ensure_awake` of the heartbeat. They share `last_tick` and
one guard task.

A move is one step of the agent, from one await to the next, with its reading of the clock.
More than `wake_gap_s` between two steps is a freeze. `freezes` counts them. `Guard.born` is
the count at the first step of a guard run, and `cleared` the latest one among the guard runs
that ended without a decision to fence. The code knows none of the three: they are there to
say which freeze a guard run has seen.

`/promote` and `/unfence`, which clear the fence flag, are not among the moves.
-/

set_option autoImplicit false

namespace DbGuard

/-- The part of `AgentSettings` that the wake guard reads. -/
structure WakeSettings where
  node : Node
  second : Time := 1000
  wakeGapS : Time := 3 * second
  guardWaitS : Time := 5 * second / 2
  primaryStaleS : Time := second / 2
  hasManager : Bool := true
  wakeGuardOn : Bool := true

/-- How `manager_get` ends: any failure, `ManagerUnknown`, or a body with its `primary`. -/
inductive ManagerReply
  | failed
  | managerUnknown
  | body (primary : Option Node)
deriving DecidableEq, Repr

/-- What `wake_guard` returns, before the outcome of its fence. -/
inductive GuardDecision
  | disabled
  | fence
  | ok
  | fenceFile
  | leave
deriving DecidableEq, Repr

/-- `decision in ("fence", "fence_file")`. -/
def GuardDecision.fences : GuardDecision → Bool
  | .fence | .fenceFile => true
  | _ => false

/-- The decision of `wake_guard`. `writable` is unknown when mysqld did not answer. -/
def guardDecision (node : Node) (reply : ManagerReply) (writable : Option Bool)
    (fenceFile : Bool) : GuardDecision :=
  match reply with
  | .managerUnknown => .leave
  | .body primary =>
    if primary = some "unknown" then .leave
    else if primary ≠ some node ∧ writable ≠ some false then .fence
    else .ok
  | .failed => if fenceFile then .fenceFile else .leave

/-- Where a guard run is: not started, at `manager_get`, at the read of super_read_only, at
the fence lock, or in its fence after the flag is set. -/
inductive Guard.Phase
  | created
  | asking
  | reading (reply : ManagerReply)
  | locking
  | fencing
deriving DecidableEq, Repr

/-- A guard task that is not done. -/
structure Guard where
  id : Nat
  phase : Guard.Phase := .created
  born : Nat := 0
deriving DecidableEq, Repr

/-- Where the heartbeat writer is: before `startup_done`, asleep, at `ensure_awake` for a guard
since some moment, at its connect, at its read of super_read_only, or at its write. -/
inductive Heartbeat
  | starting
  | asleep
  | waiting (guard : Nat) (since : Time)
  | connecting
  | reading
  | writing
deriving DecidableEq, Repr

/-- The part of `class Agent` around the guard. `now` is the clock at the last step. -/
structure Wake where
  now : Time
  lastTick : Time
  guard : Option Guard := none
  guards : Nat := 0
  fenced : Bool := false
  fenceFile : Bool := false
  fenceHeld : Bool := false
  startupDone : Bool := false
  rebuilding : Bool := false
  sample : Option (Time × Option Bool) := none
  heartbeat : Heartbeat := .starting
  hbSession : Bool := false
  freezes : Nat := 0
  cleared : Nat := 0
deriving DecidableEq, Repr

/-- What the next step of the agent is. `stored` says whether the fence file can be written,
and `sro` is the answer of mysqld, none when it fails. `fence` is any other call of fence(). -/
inductive Wake.Act
  | ticker
  | primary
  | guardStart
  | guardAnswer (reply : ManagerReply)
  | guardRead (sro : Option (Option Bool)) (stored : Bool)
  | guardLock (stored : Bool)
  | guardEnd
  | fence (stored : Bool)
  | fenceEnd
  | startup
  | rebuilding (b : Bool)
  | sample (sro : Option Bool)
  | sampleLost
  | heartbeatStart
  | heartbeatWake
  | heartbeatAwake
  | heartbeatConnect (ok : Bool)
  | heartbeatRead (sro : Option (Option Bool))
  | heartbeatWritten (ok : Bool)
  | other
deriving DecidableEq, Repr

/-- A step of the agent at some reading of the clock. -/
structure Wake.Move where
  at_ : Time
  act : Wake.Act
deriving DecidableEq, Repr

namespace Wake

variable (c : WakeSettings) (s : Wake)

/-- The clock of a step. A freeze has just ended if the last step is too long ago. -/
def enter (t : Time) : Wake :=
  { s with now := t, freezes := if c.wakeGapS < t - s.now then s.freezes + 1 else s.freezes }

/-- A gap over `wake_gap_s` since the last tick. -/
def gap : Bool := c.wakeGapS < s.now - s.lastTick

/-- `_trigger_guard`. -/
def triggerGuard : Wake :=
  match s.guard with
  | some _ => s
  | none => { s with guard := some { id := s.guards }, guards := s.guards + 1 }

/-- `if gap: last_tick = now; _trigger_guard("wake")`. -/
def handleGap : Wake :=
  if s.gap c then { s with lastTick := s.now }.triggerGuard else s

/-- One round of `_ticker`. -/
def tick : Wake :=
  if s.gap c then { s with lastTick := s.now }.triggerGuard else { s with lastTick := s.now }

/-- The last part of `_primary_answer`: the sample and its age. -/
def sampleAnswer : Nat × String :=
  match s.sample with
  | none => (503, "unknown")
  | some (ts, sro) =>
    if s.now - ts > c.primaryStaleS then (503, "unknown")
    else if sro = some false then (200, "primary")
    else (503, "replica")

/-- `_primary_answer`: the status, the role, and the agent after the answer. -/
def primaryAnswer : (Nat × String) × Wake :=
  if s.fenced then ((503, "fenced"), s)
  else if !s.startupDone || s.rebuilding then ((503, "unknown"), s)
  else
    let s' := s.handleGap c
    if s'.guard.isSome then ((503, "unknown"), s') else (s'.sampleAnswer c, s')

/-- `guard_pending`. -/
def guardPending : Bool := s.gap c || s.guard.isSome

/-- The end of a guard run that does not fence. -/
def guardDone (g : Guard) : Wake :=
  { s with guard := none, cleared := max s.cleared g.born }

/-- Nobody holds the fence lock. -/
def fenceFree : Bool := !s.fenceHeld && s.guard.all (·.phase != .fencing)

/-- The first step of fence() under its lock: the flag, on disk first, and the heartbeat's
connection is closed. -/
def setFenced : Wake := { s with fenced := true, fenceFile := true, hbSession := false }

/-- The fence of a guard run that has the fence lock. The run fails with the write of the
fence file. -/
def guardFence (g : Guard) (stored : Bool) : Wake :=
  if stored then { s.setFenced with guard := some { g with phase := .fencing } }
  else { s with guard := none }

/-- The heartbeat writer between `ensure_awake` and its first await. -/
def beat : Wake :=
  if s.fenced || s.rebuilding || s.guardPending c then { s with heartbeat := .asleep }
  else { s with heartbeat := if s.hbSession then .reading else .connecting }

/-- The first step of a guard run. -/
def guardStart (g : Guard) : Wake :=
  let g := { g with born := s.freezes }
  if !c.wakeGuardOn then s.guardDone g
  else
    { s with
      guard := some { g with phase := if c.hasManager then .asking else .reading .failed } }

/-- The step of a guard run that decides. -/
def guardDecide (g : Guard) (reply : ManagerReply) (sro : Option (Option Bool))
    (stored : Bool) : Wake :=
  let writable := sro.map fun v => v == some false && !s.rebuilding
  if (guardDecision c.node reply writable s.fenceFile).fences then
    if s.fenceFree then s.guardFence g stored
    else { s with guard := some { g with phase := .locking } }
  else s.guardDone g

/-- The heartbeat writer after its read of super_read_only. -/
def afterRead (sro : Option (Option Bool)) : Wake :=
  match sro with
  | none => { s with heartbeat := .asleep, hbSession := false }
  | some v =>
    if v ≠ some false || s.fenced || s.rebuilding || s.guardPending c then
      { s with heartbeat := .asleep }
    else { s with heartbeat := .writing }

/-- `ensure_awake`, and the rest of the heartbeat's step when no guard runs. -/
def heartbeatWake : Wake :=
  let s' := s.handleGap c
  match s'.guard with
  | some g => { s' with heartbeat := .waiting g.id s'.now }
  | none => s'.beat c

/-- Whether `ensure_awake` stops waiting for its guard. -/
def awake (guard : Nat) (since : Time) : Bool :=
  s.guard.all (·.id != guard) || since + c.guardWaitS ≤ s.now

/-- What a step does. -/
def act : Act → Option Wake
  | .ticker => some (s.tick c)
  | .primary => some (s.primaryAnswer c).2
  | .guardStart =>
    match s.guard with
    | some g => if g.phase = .created then some (s.guardStart c g) else none
    | none => none
  | .guardAnswer reply =>
    match s.guard with
    | some g =>
      if g.phase = .asking then
        some { s with guard := some { g with phase := .reading reply } }
      else none
    | none => none
  | .guardRead sro stored =>
    match s.guard with
    | some g =>
      match g.phase with
      | .reading reply => some (s.guardDecide c g reply sro stored)
      | _ => none
    | none => none
  | .guardLock stored =>
    match s.guard with
    | some g =>
      if g.phase = .locking ∧ s.fenceFree = true then some (s.guardFence g stored) else none
    | none => none
  | .guardEnd =>
    match s.guard with
    | some g => if g.phase = .fencing then some { s with guard := none } else none
    | none => none
  | .fence stored =>
    if s.fenceFree then
      some (if stored then { s.setFenced with fenceHeld := true } else s)
    else none
  | .fenceEnd => some { s with fenceHeld := false }
  | .startup => some { s with startupDone := true }
  | .rebuilding b => some { s with rebuilding := b }
  | .sample sro => some { s with sample := some (s.now, sro) }
  | .sampleLost => some { s with sample := none }
  | .heartbeatStart =>
    if s.heartbeat = .starting ∧ s.startupDone = true then some { s with heartbeat := .asleep }
    else none
  | .heartbeatWake => if s.heartbeat = .asleep then some (s.heartbeatWake c) else none
  | .heartbeatAwake =>
    match s.heartbeat with
    | .waiting guard since => if s.awake c guard since then some (s.beat c) else none
    | _ => none
  | .heartbeatConnect ok =>
    if s.heartbeat = .connecting then
      some { s with hbSession := ok, heartbeat := if ok then .reading else .asleep }
    else none
  | .heartbeatRead sro => if s.heartbeat = .reading then some (s.afterRead c sro) else none
  | .heartbeatWritten ok =>
    if s.heartbeat = .writing then
      some { s with heartbeat := .asleep, hbSession := s.hbSession && ok }
    else none
  | .other => some s

/-- One step. The clock does not run backwards. -/
def step (s : Wake) (m : Move) : Option Wake :=
  if m.at_ < s.now then none else (s.enter c m.at_).act c m.act

/-- An agent that is just started. -/
def start (fenced : Bool) (t : Time) : Wake :=
  { now := t, lastTick := t, fenced, fenceFile := fenced }

/-- The step is a `/primary` that answers 200, or it begins a heartbeat write. -/
def opens (s : Wake) (m : Move) (s' : Wake) : Bool :=
  match m.act with
  | .primary => ((s.enter c m.at_).primaryAnswer c).1.1 == 200
  | .heartbeatRead _ => s'.heartbeat == .writing
  | _ => false

end Wake

end DbGuard
