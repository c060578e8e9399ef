import DbGuard.Coop.Pool
import DbGuard.Detector
import DbGuard.Selection

/-!
# `DbGuard.Controller`: one replica set's controller

The data of `manager/controller.py` and `manager/state.py`, and the helpers that its
operations call. `Ctl` is the shared state of one `SetController`. Its tasks are programs of
`DbGuard.Coop.Program` over the signature `sig`: they change the state through the named
mutators of `Update`, and suspend at the requests of `Req`.

A request is one await of the source, and a `gather` over several nodes is one too. A
`/promote` or `/repoint` that is answered with a lost MySQL link is posted once more inside the
same await (`AgentClient.post`): the second POST is a move of the client, which `Req.reposts`
and the environment of `DbGuard.Manager` allow. Answers are whatever the agent, the prober or
the network gives, failures and timeouts included. Metrics, log lines, durations and the status
cache are left out. What the cache would serve is part of the answer of a poll.

A loop with a deadline leaves at the first look at the clock past it. It is also followed
for at most `Config.rounds` rounds and then behaves as at its deadline, and a loop without a
deadline is followed for as many rounds and then suspends for ever. The number of rounds is
arbitrary.
-/

set_option autoImplicit false

namespace DbGuard

/-! ### Configuration -/

/-- `fleet.rejoin`. -/
inductive RejoinMode
  | auto
  | manual
deriving DecidableEq, Repr

/-- Which of the optional methods the prober has (`hasattr(ctl.prober, ...)`). -/
structure Prober where
  stopIo : Bool := true
  gtidWaiter : Bool := true
  replicaState : Bool := true
  committingThreads : Bool := true

/-- `FleetConfig` and `SetConfig`, with what `SetConfig._check_nodes` rejects as fields. The
unit of time is free: `second` says how long a second is. -/
structure Config where
  rs : String := "rs1"
  nodes : List Node
  spare : Option Node
  nodes_ne : nodes ≠ []
  nodes_nodup : nodes.Nodup
  spare_notMem : ∀ n ∈ nodes, spare ≠ some n
  mode : Mode := .dbguard
  rejoin : RejoinMode := .auto
  prober : Option Prober := some {}
  provisioner : Bool := true
  second : Time := 1000
  detectWindowS : Time := 5000
  probeFailures : Nat := 3
  catchupDeadlineS : Time := 30000
  rebuildAfterS : Time := 60000
  cooldownS : Time := 20000
  quiesceIntervalS : Time := 1000
  rounds : Nat

/-- The integer nearest to `a / b`, the even one of two. -/
def roundDiv (a b : Int) : Int :=
  let q := a / b
  let r := a % b
  if 2 * r < b then q else if b < 2 * r then q + 1 else q + q % 2

namespace Config

variable (cfg : Config)

/-- `len(self.scfg.nodes) - 1`. -/
def configuredReplicas : Nat := cfg.nodes.length - 1

/-- The detector's parameters. -/
def params : DetectParams :=
  { mode := cfg.mode, detectWindowS := cfg.detectWindowS, probeFailures := cfg.probeFailures }

/-- The prober has `stop_io`. -/
def canStopIo : Bool := cfg.prober.any (·.stopIo)
/-- The prober has `wait_gtid`. -/
def canWaitGtid : Bool := cfg.prober.any (·.gtidWaiter)
/-- The prober has `replica_state`. -/
def canReadReplicaState : Bool := cfg.prober.any (·.replicaState)
/-- The prober has `committing_threads`. -/
def canCountCommitting : Bool := cfg.prober.any (·.committingThreads)

/-- A duration in whole seconds, as `:.0f` prints it. -/
def seconds0 (t : Time) : String := toString (roundDiv t cfg.second)

/-- A duration in tenths of a second, as `:.1f` prints it. -/
def seconds1 (t : Time) : String :=
  let tenths := roundDiv (t * 10) cfg.second
  toString (tenths / 10) ++ "." ++ toString (tenths % 10)

end Config

/-! ### Events -/

/-- `FenceStep.outcome`. -/
inductive FenceOutcome
  | sql
  | kill
  | unreachable
  | skipped
deriving DecidableEq, Repr

/-- `class ChooseStep`. -/
structure ChooseStep where
  candidates : List Node
  winner : Option Node
  subsetOk : Bool
  ioStopped : List Node := []
deriving DecidableEq

/-- `class Steps`. `prepare` and `repoint` list the nodes that were repointed. -/
structure Steps where
  prepare : Option (List Node) := none
  fence : Option FenceOutcome := none
  choose : Option ChooseStep := none
  catchup : Option Bool := none
  promote : Bool := false
  repoint : Option (List Node) := none
deriving DecidableEq

/-- `class Detect`. -/
structure Detect where
  managerProbeFailed : Bool
  replicaVotes : Nat
  replicaTotal : Nat
deriving DecidableEq

/-- `Rejoin.branch`. -/
inductive Branch
  | repoint
  | rebuild
  | rebuildAfterErrant
  | manual
  | none
deriving DecidableEq, Repr

/-- `class Rejoin`. -/
structure Rejoin where
  branch : Branch
  phantomGtids : Int := 0
  node : Node
deriving DecidableEq

/-- `class Clone`. -/
structure Clone where
  bytes : Int
  donor : Node
deriving DecidableEq

/-- `EventType`. -/
inductive EventType
  | failover
  | switchover
  | rejoin
  | rebuild
  | replace
  | halt
  | resume
  | suspect
  | degraded
  | healthy
  | stall
  | bootstrap
  | coldStart
  | splitBrain
deriving DecidableEq, Repr

/-- `class Event`. -/
structure Event where
  type : EventType
  oldPrimary : Option Node := none
  newPrimary : Option Node := none
  trigger : Option Trigger := none
  detect : Option Detect := none
  steps : Option Steps := none
  watermarkGtid : Option String := none
  rejoin : Option Rejoin := none
  clone : Option Clone := none
  note : Option String := none
deriving DecidableEq

/-- `_detect`. -/
def Verdict.detect (v : Verdict) : Detect :=
  { managerProbeFailed := v.probeFailed
    replicaVotes := v.replicaVotes
    replicaTotal := v.replicaTotal }

/-! ### The answers of agents and prober -/

/-- `class AgentError`, as its text. -/
structure AgentError where
  text : String
deriving DecidableEq, Repr

/-- A non-empty text. `stop_io` returns none on success, else the error's text, which
starts with the name of its type. -/
abbrev ErrorText := { e : String // e ≠ "" }

/-- The answer of `/fence`. -/
structure FenceBody where
  method : Option String := none
  gtidExecuted : Option GtidText := none

/-- The answer of `/promote`. -/
structure PromoteBody where
  gtidExecuted : Option String := none

/-- The answer of `/rebuild`. -/
structure RebuildBody where
  bytes : Int := 0
  phantomGtids : Int := 0

/-- The answer of `/unstick`. -/
structure UnstickBody where
  killed : Int := 0
  stillWaiting : Int := 0

/-- The result of `fence`. -/
abbrev FenceResult := FenceOutcome × Option FenceBody

/-- What a poll learns: the probe's result and the newest view of each node. -/
structure PollAnswer where
  probe : ProbeResult
  view : Node → Except String StatusBody

/-- What an API handler answers. -/
inductive Reply
  | primary (node : Option Node) (state : State)
  | unknown (state : State)
  | event (ev : Option Event)
  | badRequest (error : String)
  | conflict (error : String)
  | internalError (error : String)
  | state (state : State)
deriving DecidableEq

/-! ### The state of a controller -/

/-- `class SetState`. -/
structure SetState where
  state : State := .discovering
  haltReason : Option String := none
  primary : Option Node := none
  cooldownUntil : Option Time := none
  failoversTotal : Nat := 0

/-- `asyncio.Lock`: the task that holds it, and the queue of those that wait for it. -/
structure Lock where
  owner : Option Nat := none
  waiters : List Nat := []

/-- What the rebuild under way has done with `/unstick` (`acc`, `unstuck`). -/
structure Unstuck where
  calls : Nat := 0
  killed : Int := 0
  still : List (Option Int) := []

/-- The operations that promote a node. -/
inductive Operation
  | failover
  | switchover
  | coldStart
  | bootstrap
deriving DecidableEq, Repr

/-- `class SetController`. `finished` are the tasks that are done, `cancelled` those asked
to stop, `fenced` the result of each finished fence task. `op` is a history variable: it
says which operation the holder of the lock has begun, and no code reads it. -/
structure Ctl where
  st : SetState := {}
  members : List Node
  lock : Lock := {}
  op : Option Operation := none
  history : List Observation := []
  lastObs : Option Observation := none
  backoff : Node → Time := fun _ => 0
  manualNoted : List Node := []
  splitNoted : List Node := []
  coldStartSeen : Nat := 0
  busy : List Node := []
  maint : Option Nat := none
  nodeTasks : Node → Option Nat := fun _ => none
  finished : List Nat := []
  cancelled : List Nat := []
  fenced : Nat → Option FenceResult := fun _ => none
  unstuck : Unstuck := {}
  unhealthySince : Option Time := none
  stallSince : Option Time := none
  cooldownLogged : Bool := false
  events : List Event := []
  time : Time := 0
  mono : Time := 0

namespace Ctl

variable (s : Ctl)

/-- `self.primary`. -/
def primary : Option Node := s.st.primary

/-- `self.st.halted`. -/
def halted : Bool := s.st.state == .halted

/-- `st.in_cooldown()`. -/
def inCooldown : Bool := s.st.cooldownUntil.any fun t => s.time < t

/-- `all_nodes`. -/
def allNodes (cfg : Config) : List Node :=
  match cfg.spare with
  | some n => if n ∈ s.members then s.members else s.members ++ [n]
  | none => s.members

/-- `self.maint is not None and not self.maint.done()`. -/
def maintRunning : Bool := s.maint.any (· ∉ s.finished)

/-- `node_busy`. -/
def nodeBusy (n : Node) : Bool :=
  n ∈ s.busy || (s.nodeTasks n).any (· ∉ s.finished)

/-- `healthy_replicas`. -/
def healthyReplicas (vs : Views) (except : Node) : List Node :=
  s.members.filter fun n =>
    some n ≠ s.primary && n ≠ except &&
      (vs.get? n).any (·.replicatingFrom s.primary)

/-- `stalled_primary_alive`, of a poll. -/
def stalledPrimaryAlive (ob : Option Observation) : Bool :=
  match ob, s.primary with
  | some ob, some p =>
    match ob.nodes.get? p with
    | some pv =>
      if !pv.usable || pv.fenced || pv.superReadOnly ≠ some false then false
      else
        let beat := (pv.raw.bind (·.heartbeat)).bind (·.stalledS)
        (beat.getD 0 > 0 || (ob.probe.map ProbeResult.writeStalled).getD false) &&
          pv.semisync.sourceEnabled && pv.semisync.sourceClients == 0
    | none => false
  | _, _ => false

/-! ### Mutators -/

/-- `events.append`. -/
def append (e : Event) : Ctl := { s with events := s.events ++ [e] }

/-- The event that records a change to a state. -/
def eventFor : State → Option EventType
  | .suspect => some .suspect
  | .degraded => some .degraded
  | .healthy => some .healthy
  | .halted => some .halt
  | _ => none

/-- `SetState.to`. HALTED is sticky, and HEALTHY needs a primary. -/
def goTo (new : State) (note : Option String) (emit : Bool) (detect : Option Detect) : Ctl :=
  if s.st.state = new then s
  else if s.st.state = .halted then s
  else if new = .healthy ∧ s.st.primary = none then s
  else
    let st := { s.st with
      state := new
      haltReason := if new = .halted then some (note.getD "halted") else s.st.haltReason }
    let s' := { s with st }
    match emit, eventFor new with
    | true, some type =>
      s'.append { type, oldPrimary := st.primary, newPrimary := st.primary, note, detect }
    | _, _ => s'

/-- `SetState.halt`. -/
def halt (reason : String) : Ctl := s.goTo .halted (some reason) true none

/-- `SetState.resume`. -/
def resume : Ctl :=
  if s.st.state ≠ .halted then s
  else
    let reason := s.st.haltReason.getD ""
    let st := { s.st with
      state := if s.st.primary.isSome then .healthy else .discovering
      haltReason := none }
    ({ s with st }).append
      { type := .resume
        oldPrimary := st.primary
        newPrimary := st.primary
        note := some s!"resumed by operator (was: {reason})" }

/-- `poll`, after the observation: it is the last one, and the history drops what is older
than `keep`. -/
def observed (ob : Observation) (keep : Time) : Ctl :=
  { s with
    lastObs := some ob
    history := (s.history ++ [ob]).dropWhile fun o => ob.ts - o.ts > keep }

end Ctl

/-- The changes that the tasks make to the state. -/
inductive Update
  | setPrimary (n : Node)
  | goTo (new : State) (note : Option String) (emit : Bool) (detect : Option Detect)
  | halt (reason : String)
  | resume
  | failedOver (cooldown : Time)
  | event (e : Event)
  | observed (ob : Observation) (keep : Time)
  | clearHistory
  | clearBackoff
  | addMember (n : Node)
  | backoff (n : Node) (t : Time)
  | manualNoted (n : Node) (b : Bool)
  | splitNoted (n : Node) (b : Bool)
  | coldStartSeen (k : Nat)
  | cooldownLogged (b : Bool)
  | unhealthySince (t : Option Time)
  | stallSince (t : Option Time)
  | startMaint (t : Nat) (nodes : List Node)
  | clearBusy
  | nodeTask (n : Node) (t : Nat)
  | cancel (t : Nat)
  | unstickStart
  | unstickCall (killed : Int)
  | unstickStill (still : Option Int)
  | enqueue (t : Nat)
  | acquire (t : Nat)
  | release
  | enter (op : Operation)
  | resolve (t : Nat) (r : FenceResult)
  | clock (time mono : Time)

/-- What a change does. -/
def Update.apply : Update → Ctl → Ctl
  | .setPrimary n, s => { s with st := { s.st with primary := some n }, history := [] }
  | .goTo new note emit detect, s => s.goTo new note emit detect
  | .halt reason, s => s.halt reason
  | .resume, s => s.resume
  | .failedOver cooldown, s =>
    { s with
      st := { s.st with
        failoversTotal := s.st.failoversTotal + 1
        cooldownUntil := some (s.time + cooldown) }
      unhealthySince := some s.time }
  | .event e, s => s.append e
  | .observed ob keep, s => s.observed ob keep
  | .clearHistory, s => { s with history := [] }
  | .clearBackoff, s => { s with backoff := fun _ => 0 }
  | .addMember n, s => { s with members := s.members ++ [n] }
  | .backoff n t, s => { s with backoff := Function.update s.backoff n t }
  | .manualNoted n b, s =>
    { s with manualNoted := if b then n :: s.manualNoted else s.manualNoted.erase n }
  | .splitNoted n b, s =>
    { s with splitNoted := if b then n :: s.splitNoted else s.splitNoted.erase n }
  | .coldStartSeen k, s => { s with coldStartSeen := k }
  | .cooldownLogged b, s => { s with cooldownLogged := b }
  | .unhealthySince t, s => { s with unhealthySince := t }
  | .stallSince t, s => { s with stallSince := t }
  | .startMaint t nodes, s => { s with maint := some t, busy := nodes }
  | .clearBusy, s => { s with busy := [] }
  | .nodeTask n t, s => { s with nodeTasks := Function.update s.nodeTasks n (some t) }
  | .cancel t, s => { s with cancelled := t :: s.cancelled }
  | .unstickStart, s => { s with unstuck := {} }
  | .unstickCall killed, s =>
    { s with unstuck := { s.unstuck with
      calls := s.unstuck.calls + 1
      killed := s.unstuck.killed + killed } }
  | .unstickStill still, s =>
    { s with unstuck := { s.unstuck with still := s.unstuck.still ++ [still] } }
  | .enqueue t, s => { s with lock := { s.lock with waiters := s.lock.waiters ++ [t] } }
  | .acquire t, s =>
    { s with lock := { owner := some t, waiters := s.lock.waiters.erase t } }
  | .release, s => { s with lock := { s.lock with owner := none }, op := none }
  | .enter op, s => { s with op := some op }
  | .resolve t r, s => { s with fenced := Function.update s.fenced t (some r) }
  | .clock time mono, s => { s with time, mono }

/-! ### Tasks and requests -/

/-- The arguments of `rebuild_and_join`. -/
structure Rebuild where
  node : Node
  donor : Node
  phantomCount : Int
  phantom : Option String
  why : String
  eventType : EventType
  branch : Branch
deriving DecidableEq

/-- The tasks of a controller: the tick, the API requests, the node tasks, the maintenance
tasks, and the background tasks that these start. -/
inductive Job
  | tick
  | switchover (target : Option Node)
  | rejoin (node : Node)
  | halt (reason : Option String)
  | resume
  | getPrimary
  | fence (node : Node)
  | rejoinNode (n : Node) (why : String)
  | fenceSecondWriter (n primary : Node)
  | verifyAfterRepoint (n primary : Node)
  | repointAfter (old target : Node)
  | rebuildAndJoin (args : Rebuild)
  | replace (spare donor : Node)
  | keepUnstuck (donor : Node)
deriving DecidableEq

/-- What a task awaits. -/
inductive Req
  | status (n : Node)
  | freshViews (ns : List Node)
  | observe (primary : Option Node) (ns : List Node)
  | fence (n : Node)
  | promote (n : Node)
  | repoint (n : Node) (source : Option Node)
  | repointAll (ns : List Node) (source : Node)
  | rebuild (n donor : Node)
  | unstick (donor : Node)
  | stopIo (ns : List Node)
  | replicaState (n : Node)
  | committingThreads (n : Node)
  | gtidWaiter (n : Node)
  | waiterWait (n : Node) (set : GtidSet)
  | waiterClose (n : Node)
  | provision (n : Node)
  | sleep
  | reply (r : Reply)
deriving DecidableEq

/-- The answer of each request. The waiter answers whether the set was applied and the
node's gtid_executed, or raises. -/
abbrev Req.Resp : Req → Type
  | .status _ => Except String StatusBody
  | .freshViews _ => Node → Except String StatusBody
  | .observe _ _ => PollAnswer
  | .fence _ => Except AgentError FenceBody
  | .promote _ => Except AgentError PromoteBody
  | .repoint _ _ => Except AgentError Unit
  | .repointAll _ _ => Node → Except AgentError Unit
  | .rebuild _ _ => Except AgentError RebuildBody
  | .unstick _ => Except AgentError UnstickBody
  | .stopIo _ => Node → Option ErrorText
  | .replicaState _ => Option String
  | .committingThreads _ => Option Nat
  | .gtidWaiter _ => Bool
  | .waiterWait _ _ => Except String (Bool × Option GtidText)
  | .waiterClose _ => Unit
  | .provision _ => Except String Unit
  | .sleep => Unit
  | .reply _ => Unit

/-- The requests that `AgentClient.post` sends a second time while the await `q` goes on: a role
change that an agent answered 500 with `sql_code` 2006 or 2013. /configure is not sent by a
controller. -/
def Req.reposts : Req → Req → Bool
  | .promote n, .promote m => n = m
  | .repoint n source, .repoint m source' => n = m ∧ source = source'
  | .repointAll ns source, .repoint m source' => m ∈ ns ∧ source' = some source
  | _, _ => false

/-- The signature of a controller's tasks. -/
abbrev sig : Coop.Sig where
  State := Ctl
  Update := Update
  apply := Update.apply
  Job := Job
  Req := Req
  Resp := Req.Resp
  retire t s := { s with finished := t :: s.finished }

/-- A controller's task, or a part of one. -/
abbrev M (α : Type) := Coop.Prog sig α

/-! ### The helpers of a controller -/

/-- The shared state. -/
def ctl : M Ctl := Coop.Prog.get

/-- Change the shared state. -/
def edit (u : Update) : M Unit := Coop.Prog.update u

/-- `self.event`. -/
def event (e : Event) : M Unit := edit (.event e)

/-- Await one request. -/
def await (r : Req) : M r.Resp := @Coop.Prog.call sig r

/-- `for n in nodes: f(n)`. -/
def each (f : Node → M Unit) : List Node → M Unit
  | [] => pure ()
  | n :: ns => do
    f n
    each f ns

/-- `agents.status`. -/
def status (n : Node) : M NodeView := do
  let a ← await (.status n)
  pure (.ofAnswer n a)

/-- `fresh_views`. -/
def freshViews (ns : List Node) : M Views := do
  let a ← await (.freshViews ns)
  pure (.ofAnswers ns a)

/-- `repoint_all`, the nodes that were repointed. -/
def repointAll (ns : List Node) (source : Node) : M (List Node) := do
  let a ← await (.repointAll ns source)
  pure (ns.filter fun n => (a n).toBool)

/-- `if node not in members: members.append(node)`. -/
def joinMember (node : Node) : M Unit := do
  let s ← ctl
  if node ∈ s.members then pure ()
  else edit (.addMember node)

/-- `start_maintenance`. The task of job `j` marks `nodes` busy until it ends. -/
def startMaintenance (j : Job) (nodes : List Node) : M Bool := do
  let s ← ctl
  if s.maintRunning then
    pure false
  else
    let t ← Coop.Prog.create j
    edit (.startMaint t nodes)
    pure true

/-- `spawn_node_task`. -/
def spawnNodeTask (n : Node) (j : Job) : M Bool := do
  let s ← ctl
  if s.nodeBusy n then
    pure false
  else
    let t ← Coop.Prog.create j
    edit (.nodeTask n t)
    pure true

/-- `lock.acquire()` for task `me`. A free lock that others wait for goes to the first of
them. -/
def acquire (me : Nat) : M Unit := do
  let s ← ctl
  if s.lock.owner = none ∧ s.lock.waiters = [] then
    edit (.acquire me)
  else
    edit (.enqueue me)
    Coop.Prog.blockUntil fun s => s.lock.owner.isNone && s.lock.waiters.head? == some me
    edit (.acquire me)

/-- `async with self.lock`. -/
def withLock {α : Type} (me : Nat) (m : M α) : M α := do
  acquire me
  let a ← m
  edit .release
  pure a

end DbGuard
