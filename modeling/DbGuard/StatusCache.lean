import Mathlib.Logic.Function.Basic
import DbGuard.Controller
import DbGuard.Machine

/-!
# `DbGuard.StatusCache`: the newest `/status` of each node

`class StatusCache` of `manager/probe.py`. Each node has one poller, which asks the agent for
`/status`, stores the answer with the clock reading of its arrival, and sleeps for the rest
of its interval. `get` serves the stored view, and `invalidate` makes it refuse the views
that are older than the call.

The machine has the pollers, the agents and the clock as moves. Between the request and the
answer the agent reads what it answers. `Stamped.readFrom` and the second field of
`Poller.asking` keep the moment at which it began. The code knows neither of them: they are
there to say how old the content of a view is.

The clock of `time.time()` and the clock of the timeouts are one, and it does not go
backwards. An answer counts while the request is within its timeout.
-/

set_option autoImplicit false

namespace DbGuard

/-- `STATUS_TIMEOUT_S`, and the `poll_interval_s` of a fleet, next to the fleet. -/
structure StatusPolling where
  cfg : Config
  intervalS : Time
  timeoutS : Time := 3 * cfg.second

/-- A view with its `ts`, the moment at which it came. `readFrom` is the moment at which the
agent began to read what the view says. -/
structure Stamped where
  view : NodeView
  ts : Time
  readFrom : Time

/-- Where the poller of a node is: asleep until some moment, or waiting for the answer of a
request. The agent has begun to read its answer or not. -/
inductive Poller
  | asleep (until_ : Time)
  | asking (sent : Time) (readFrom : Option Time)
deriving DecidableEq

/-- `class StatusCache`, with the clock. -/
structure StatusCache where
  views : Node → Option Stamped := fun _ => none
  tasks : Node → Option Poller := fun _ => none
  notBefore : Time := 0
  clock : Time

namespace StatusCache

variable (p : StatusPolling) (c : StatusCache)

/-- `timeout_s + 2 * interval_s`, the age from which a view is not served. -/
def maxAge : Time := p.timeoutS + 2 * p.intervalS

/-- `get`. The caller gives its own `now`, or none, or 0 which counts as none. -/
def get (n : Node) (now : Option Time) : NodeView :=
  let now := (now.filter (· ≠ 0)).getD c.clock
  match c.views n with
  | none => .unreachable n "no status yet"
  | some v =>
    if v.ts < c.notBefore then .unreachable n "refreshing after an action"
    else if now - v.ts > maxAge p then
      .unreachable n s!"no /status answer for {p.cfg.seconds1 (now - v.ts)} s"
    else v.view

/-- `invalidate`. -/
def invalidate : StatusCache := { c with notBefore := c.clock }

/-- `ensure`. A new poller asks as soon as it runs. -/
def ensure (ns : List Node) : StatusCache :=
  { c with
    tasks := fun n =>
      match c.tasks n with
      | none => if n ∈ ns then some (.asleep c.clock) else none
      | some t => some t }

/-- `close`. -/
def close : StatusCache := { c with tasks := fun _ => none }

/-- The end of one round of `_poll`: the view is stored, and the poller sleeps for what is
left of the interval. -/
def store (n : Node) (v : Stamped) (sent : Time) : StatusCache :=
  { c with
    views := Function.update c.views n (some v)
    tasks := Function.update c.tasks n
      (some (.asleep (c.clock + max 0 (p.intervalS - (c.clock - sent))))) }

/-- What can happen around a cache. `answer` and `fail` are the end of a `/status` request,
with the body or the text of the error. -/
inductive Move
  | tick (d : Nat)
  | ensure (ns : List Node)
  | close
  | invalidate
  | send (n : Node)
  | read (n : Node)
  | answer (n : Node) (body : StatusBody)
  | fail (n : Node) (error : String)

/-- One move. -/
def step (c : StatusCache) : Move → Option StatusCache
  | .tick d => some { c with clock := c.clock + d }
  | .ensure ns => some (c.ensure ns)
  | .close => some c.close
  | .invalidate => some c.invalidate
  | .send n =>
    match c.tasks n with
    | some (.asleep u) =>
      if u ≤ c.clock then
        some { c with tasks := Function.update c.tasks n (some (.asking c.clock none)) }
      else none
    | _ => none
  | .read n =>
    match c.tasks n with
    | some (.asking sent none) =>
      some { c with tasks := Function.update c.tasks n (some (.asking sent (some c.clock))) }
    | _ => none
  | .answer n body =>
    match c.tasks n with
    | some (.asking sent (some r)) =>
      if c.clock ≤ sent + p.timeoutS then
        some (c.store p n ⟨.ofAnswer n (.ok body), c.clock, r⟩ sent)
      else none
    | _ => none
  | .fail n error =>
    match c.tasks n with
    | some (.asking sent r) =>
      some (c.store p n ⟨.ofAnswer n (.error error), c.clock, r.getD c.clock⟩ sent)
    | _ => none

/-- A cache that is just made. -/
def start (clock : Time) : StatusCache := { clock }

end StatusCache

end DbGuard
