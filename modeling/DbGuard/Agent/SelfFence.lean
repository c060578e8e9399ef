import DbGuard.Agent.WakeGuard

/-!
# `DbGuard.Agent.SelfFence`: the self-fence lease

`self_fence_tick` of `agent/core.py`, which `_self_fence_loop` runs again and again, one tick at
a time, and `configure` as far as it concerns the lease. A move is one step of the agent from
one await to the next with its reading of the clock. Between two steps of a tick other tasks
fence and unfence the node, rebuild it, and configure it.

`Seen` holds what a tick has read so far, its local variables. `log` is the list of the ticks
that are done asking, newest first, with the resets between them. The code does not keep it.
`_mgr_unreachable_since` is all that the code keeps, and the log is there to say what it
stands for.

`round(…, 3)` is left out: a `Time` is a whole number of milliseconds or of finer units.
-/

set_option autoImplicit false

namespace DbGuard

/-- The part of `AgentSettings` that the lease reads. -/
structure LeaseSettings where
  second : Time := 1000
  selfFenceAfterS : Time := 10 * second
  hasManager : Bool := true
deriving Repr

namespace Lease

/-- What one tick read, in the order in which it reads it. -/
structure Seen where
  enabled : Bool
  fenced : Bool
  rebuilding : Bool
  sro : Option Bool := none
  clients : Option Nat := none
  reachable : Option Bool := none
deriving DecidableEq, Repr

/-- What happened to the lease's count: a tick, a toggle of the lease by configure, the return
of a tick's fence(). -/
inductive Event
  | tick (seen : Seen)
  | toggle
  | fenced
deriving DecidableEq, Repr

/-- What the lease notes, and when. -/
structure Entry where
  at_ : Time
  event : Event
deriving DecidableEq, Repr

/-- Where the loop is: asleep, at the tick's query, at its `manager_get`, at the fence lock, or
in fence() with the flag set or, when the fence file could not be written, not. -/
inductive Phase
  | asleep
  | reading (seen : Seen)
  | asking (seen : Seen)
  | locking
  | fencing (stored : Bool)
deriving DecidableEq, Repr

/-- The tick has called fence(). -/
def Phase.fences : Phase → Bool
  | .locking | .fencing _ => true
  | _ => false

end Lease

/-- The part of `class Agent` around the lease. `fenceHeld` says that another task is in
fence() or unfence(). -/
structure Lease where
  now : Time
  selfFenceOn : Bool := true
  semisync : Bool := true
  fenced : Bool := false
  rebuilding : Bool := false
  fenceHeld : Bool := false
  mgrUnreachableSince : Option Time := none
  sfClients : Option Nat := none
  phase : Lease.Phase := .asleep
  log : List Lease.Entry := []
deriving DecidableEq, Repr

namespace Lease

/-- What the next step of the agent is. `read` has what mysqld answered, `none` for an SQL
error. After `manager_get` the clock is read once more, at `decided`. `stored` says whether the
fence file can be written. The last four are other tasks. -/
inductive Act
  | tick
  | read (answer : Option (Option Bool × Option Nat))
  | answer (reply : ManagerReply) (decided : Time) (stored : Bool)
  | lock (stored : Bool)
  | fenceReturned
  | fenceRaised
  | configure (semisync selfFence : Option Bool)
  | rebuilding (b : Bool)
  | fenceLock (held : Bool)
  | flag (fenced : Bool)
deriving DecidableEq, Repr

/-- A step of the agent at some reading of the clock. -/
structure Move where
  at_ : Time
  act : Act
deriving DecidableEq, Repr

variable (c : LeaseSettings) (s : Lease)

/-- `self_fence_enabled`. -/
def enabled : Bool := s.selfFenceOn && s.semisync && decide (0 < c.selfFenceAfterS) && c.hasManager

/-- `_sf_reset`. -/
def sfReset : Lease := { s with mgrUnreachableSince := none }

/-- The log with one more entry. -/
def note (event : Event) : Lease := { s with log := ⟨s.now, event⟩ :: s.log }

/-- The end of a tick that resets the count. -/
def endReset (seen : Seen) : Lease := { (s.sfReset).note (.tick seen) with phase := .asleep }

/-- The end of a tick that leaves the count as it is. -/
def endTick (seen : Seen) : Lease := { s.note (.tick seen) with phase := .asleep }

/-- `manager_unreachable_s`. -/
def managerUnreachableS : Time := (s.mgrUnreachableSince.map fun since => s.now - since).getD 0

/-- The call of fence(): its first step under the fence lock sets the flag. -/
def callFence (stored : Bool) : Lease :=
  if s.fenceHeld then { s with phase := .locking }
  else { s with phase := .fencing stored, fenced := s.fenced || stored }

/-- The first step of a tick. -/
def tickStart : Lease :=
  let seen : Seen := { enabled := s.enabled c, fenced := s.fenced, rebuilding := s.rebuilding }
  if !seen.enabled then s.endReset seen
  else if seen.fenced || seen.rebuilding then s.endReset seen
  else { s with phase := .reading seen }

/-- The step of a tick after its query. -/
def tickRead (seen : Seen) (answer : Option (Option Bool × Option Nat)) : Lease :=
  let sro := answer.bind Prod.fst
  let clients := answer.bind Prod.snd
  let seen := { seen with sro, clients }
  let s := { s with sfClients := clients }
  if sro = some true then s.endReset seen else { s with phase := .asking seen }

/-- Any answer of the manager counts, also that it knows of no primary yet. -/
def answers : ManagerReply → Bool
  | .failed => false
  | .managerUnknown | .body _ => true

/-- `if self._mgr_unreachable_since is None: … = time.monotonic()`. -/
def count : Lease := { s with mgrUnreachableSince := some (s.mgrUnreachableSince.getD s.now) }

/-- The step of a tick after its question to the manager. The tick is noted with the time of
the answer, and the decision is made at `decided`. -/
def tickAnswer (seen : Seen) (reply : ManagerReply) (decided : Time) (stored : Bool) : Lease :=
  let seen := { seen with reachable := some (answers reply) }
  if answers reply then s.endReset seen
  else
    match seen.sro, seen.clients with
    | none, _ | _, none => s.count.endTick seen
    | some _, some clients =>
      if 0 < clients then s.count.endReset seen
      else
        let s := { s.count.endTick seen with now := decided }
        if s.managerUnreachableS < c.selfFenceAfterS then s else s.callFence stored

/-- `configure`, without what it does to mysqld. -/
def configure (semisync selfFence : Option Bool) : Lease :=
  let s := match selfFence with
    | some b => ({ s with selfFenceOn := b }.sfReset).note .toggle
    | none => s
  { s with semisync := semisync.getD s.semisync }

/-- What a step does. -/
def act : Act → Option Lease
  | .tick => if s.phase = .asleep then some (s.tickStart c) else none
  | .read answer =>
    match s.phase with
    | .reading seen => some (s.tickRead seen answer)
    | _ => none
  | .answer reply decided stored =>
    match s.phase with
    | .asking seen =>
      if s.now ≤ decided then some (s.tickAnswer c seen reply decided stored) else none
    | _ => none
  | .lock stored =>
    if s.phase = .locking ∧ s.fenceHeld = false then some (s.callFence stored) else none
  | .fenceReturned =>
    if s.phase = .fencing true then some { s.sfReset.note .fenced with phase := .asleep } else none
  | .fenceRaised =>
    match s.phase with
    | .fencing _ => some { s with phase := .asleep }
    | _ => none
  | .configure semisync selfFence => some (s.configure semisync selfFence)
  | .rebuilding b => some { s with rebuilding := b }
  | .fenceLock held =>
    if s.phase = .fencing true then none else some { s with fenceHeld := held }
  | .flag fenced => if s.phase = .fencing true then none else some { s with fenced }

/-- One step. The clock does not run backwards. -/
def step (s : Lease) (m : Move) : Option Lease :=
  if m.at_ < s.now then none else { s with now := m.at_ }.act c m.act

/-- An agent that is just started. -/
def start (semisync fenced : Bool) (t : Time) : Lease := { now := t, semisync, fenced }

end Lease

end DbGuard
