import DbGuard.Bootstrap

/-!
# `DbGuard.Manager`: the tick, the API, and the runs of a controller

The control loop of `manager/controller.py` and the handlers of `manager/api.py`. A tick
polls and then takes at most one decision while it holds the set's lock. `body` gives each
task its program, and `Runs` the runs of a controller from its start: one tick at a time,
any API request at any time, any answer to any request, and any order of steps.
-/

set_option autoImplicit false

namespace DbGuard

open Coop (Pool Move Reach)

/-! ### The tick -/

/-- `poll`: observe every node and probe the primary. -/
def poll (cfg : Config) : M Observation := do
  let s ← ctl
  let nodes := s.allNodes cfg
  let ans ← await (.observe s.primary nodes)
  let ob : Observation :=
    { ts := s.time
      primary := s.primary
      probe := if s.primary.isSome && cfg.prober.isSome then some ans.probe else none
      nodes := .ofAnswers nodes ans.view }
  edit (.observed ob (max (cfg.detectWindowS * 3) (10 * cfg.second)))
  pure ob

/-- `_cold_start_check`: act after two consecutive polls agree. -/
def coldStartCheck (ob : Observation) : M Bool := do
  let s ← ctl
  match coldStartChoice ob.nodes s.members s.primary with
  | .halt reason =>
    edit (.halt reason)
    pure true
  | .no =>
    edit (.coldStartSeen 0)
    pure false
  | .promote node =>
    if s.coldStartSeen + 1 < 2 then
      edit (.coldStartSeen (s.coldStartSeen + 1))
      pure false
    else
      edit (.coldStartSeen 0)
      coldStart node ob.nodes
      pure true

/-- `_stall_plan`: what the manager is doing about a stall. -/
def stallPlan (s : Ctl) (ob : Observation) : String :=
  let back := s.members.filter fun n => some n ≠ s.primary && (ob.nodes.get? n).any (·.usable)
  let names := ", ".intercalate back
  if back = [] then
    "no replica is reachable, waiting for one to come back; writes resume when a replica attaches"
  else
    s!"rejoining {names} to give it a semi-sync replica (repoint, or rebuild with the stalled primary as donor of last resort if no replica can donate)"

/-- Why writes on the primary are stalled, for `_check_stall`. -/
def stallReason (cfg : Config) (ob : Observation) (pv : Option NodeView) : Option String :=
  if cfg.mode = .dbguard ∧ pv.any (fun v =>
      v.usable && v.semisync.sourceEnabled && v.semisync.sourceClients == 0) = true then
    some "primary is waiting for a replica ack, no semi-sync replica connected"
  else if (ob.probe.map ProbeResult.writeStalled).getD false then
    some "manager heartbeat write blocked while SELECT 1 answers"
  else none

/-- `_check_stall`: record an event when writes on the primary stop, and another when they
resume. -/
def checkStall (cfg : Config) (ob : Observation) (primary : Node) : M Unit := do
  let s ← ctl
  match stallReason cfg ob (ob.nodes.get? primary), s.stallSince with
  | some why, none =>
    edit (.stallSince (some ob.ts))
    let plan := stallPlan s ob
    event
      { type := .stall, oldPrimary := some primary, newPrimary := some primary
        note := some s!"writes stalled on {primary}: {why}; {plan}" }
  | none, some since =>
    let dur := cfg.seconds1 (ob.ts - since)
    edit (.stallSince none)
    event
      { type := .stall, oldPrimary := some primary, newPrimary := some primary
        note := some s!"writes resumed on {primary} after {dur} s" }
  | _, _ => pure ()

/-- `_adopt_spare`: a spare that replicates from a member was made one by an earlier
replacement. -/
def adoptSpare (cfg : Config) (ob : Observation) : M Unit := do
  let s ← ctl
  match cfg.spare with
  | none => pure ()
  | some sp =>
    if (ob.nodes.get? sp).any fun nv =>
        nv.usable && nv.replica.configured && nv.replica.sourceHost.any (· ∈ s.members) then
      joinMember sp
    else pure ()

/-- The state of a set that is not healthy since `since`: a short gap gets its grace
period. -/
def degrade (cfg : Config) (ob : Observation) (primary : Node) (primaryOk : Bool)
    (healthy : List Node) (since : Time) : M Unit := do
  let s ← ctl
  if s.maintRunning then
    let names := ", ".intercalate (s.busy.insertionSort (· ≤ ·))
    edit (.goTo .rebuilding (some s!"rebuilding {names}") true none)
  else if 2 * cfg.second ≤ ob.ts - since ∨ s.st.state = .failingOver then
    let missing := s.members.filter fun n => n ≠ primary && n ∉ healthy
    let missing := if primaryOk then missing else s!"primary {primary} not writable" :: missing
    let names := if missing = [] then "none" else ", ".intercalate missing
    edit (.goTo .degraded
      (some s!"{healthy.length} of {cfg.configuredReplicas} replicas healthy, missing {names}")
      true none)
  else pure ()

/-- The part of `reconcile` for a set that is not healthy. -/
def reconcileUnhealthy (cfg : Config) (ob : Observation) (primary : Node) (primaryOk : Bool)
    (healthy : List Node) : M Unit := do
  let s ← ctl
  let since := s.unhealthySince.getD ob.ts
  edit (.unhealthySince (some since))
  degrade cfg ob primary primaryOk healthy since
  let s ← ctl
  if s.st.state = .degraded then maybeReplace cfg ob healthy
  else pure ()

/-- `reconcile`: with a live primary, repair what is not a streaming replica and set the
state. -/
def reconcile (cfg : Config) (ob : Observation) (primary : Node) : M Unit := do
  adoptSpare cfg ob
  rejoinActions cfg ob
  let s ← ctl
  let healthy := s.members.filter fun n =>
    n ≠ primary && (ob.nodes.get? n).any (·.replicatingFrom (some primary))
  let primaryOk := (ob.nodes.get? primary).any (·.writable)
  if primaryOk ∧ healthy ≠ [] ∧ cfg.configuredReplicas ≤ healthy.length then
    edit (.unhealthySince none)
    if s.maintRunning then pure ()
    else
      let names := ", ".intercalate healthy
      edit (.goTo .healthy (some s!"primary {primary}, replicas {names} replicating") true none)
  else
    reconcileUnhealthy cfg ob primary primaryOk healthy

/-- The decision of a tick on the verdict `v`. -/
def act (cfg : Config) (ob : Observation) (primary : Node) (v : Verdict) : M Unit := do
  let s ← ctl
  if v.dead then
    if s.inCooldown then
      if s.cooldownLogged then pure ()
      else do
        edit (.cooldownLogged true)
        let cooldown := cfg.seconds0 cfg.cooldownS
        edit (.goTo .suspect
          (some s!"primary {primary} looks dead but the set failed over less than {cooldown} s ago, no automatic action")
          true none)
    else do
      let _ ← failover cfg primary v
      pure ()
  else do
    edit (.cooldownLogged false)
    if v.kind = .suspect then
      let error := v.probeError.getD "None"
      edit (.goTo .suspect
        (some s!"manager probe of {primary} failed {v.probeStreak} times ({error}), {v.replicaVotes} of {v.replicaTotal} replicas report losing it, no action")
        true (some v.detect))
      if s.stalledPrimaryAlive (some ob) then rejoinActions cfg ob
      else pure ()
    else reconcile cfg ob primary

/-- `tick`, while it holds the lock. -/
def tickLocked (cfg : Config) (ob : Observation) : M Unit := do
  let s ← ctl
  match s.primary with
  | none => discover cfg ob
  | some primary =>
    let acted ← coldStartCheck ob
    if acted then pure ()
    else
      let s ← ctl
      let v := evaluate s.history s.members cfg.params none
      checkStall cfg ob primary
      act cfg ob primary v

/-- `tick`: one poll and at most one decision. A tick that finds the lock taken only
observes. -/
def tick (cfg : Config) (me : Nat) : M Unit := do
  let ob ← poll cfg
  let s ← ctl
  if s.halted || s.lock.owner.isSome then pure ()
  else withLock me (tickLocked cfg ob)

/-! ### The API -/

/-- `set_primary`, GET /v1/sets/rs/primary. -/
def getPrimary : M Unit := do
  let s ← ctl
  await (.reply
    (match s.primary with
      | none => .unknown s.st.state
      | some n => .primary (if s.st.state = .failingOver then none else some n) s.st.state))

/-- `set_failover`, a planned switchover. -/
def setFailover (cfg : Config) (me : Nat) (target : Option Node) : M Unit := do
  match ← switchover cfg me target with
  | .error (.refused msg) => await (.reply (.conflict msg))
  | .error (.raised msg) => await (.reply (.internalError msg))
  | .ok ev => await (.reply (.event (some ev)))

/-- `set_halt`. -/
def setHalt (reason : Option String) : M Unit := do
  edit (.halt ((orNone reason).getD "halted by operator"))
  let s ← ctl
  await (.reply (.state s.st.state))

/-- `set_resume`. -/
def setResume : M Unit := do
  edit .resume
  edit .clearHistory
  edit .clearBackoff
  let s ← ctl
  await (.reply (.state s.st.state))

/-- `set_rejoin`, while it holds the lock. -/
def rejoinLocked (cfg : Config) (node : Node) : M Reply := do
  let s ← ctl
  let views ← freshViews (node :: s.primary.toList)
  let s ← ctl
  match s.primary with
  | none => pure (.conflict "node or primary not responsive")
  | some primary =>
    let nv := views.view node
    if !(nv.usable && (views.get? primary).any (·.usable)) then
      pure (.conflict "node or primary not responsive")
    else
      joinMember node
      let ev ← rejoinNode cfg node ((needsRejoin nv primary).getD "operator request") false
      pure (.event ev)

/-- `set_rejoin`: rejoin one node now. -/
def setRejoin (cfg : Config) (me : Nat) (node : Node) : M Unit := do
  let s ← ctl
  if node ∉ s.allNodes cfg then
    await (.reply (.badRequest s!"{node} is not in {cfg.rs}"))
  else if s.primary = some node then
    await (.reply (.badRequest s!"{node} is the primary"))
  else
    let answer ← withLock me (rejoinLocked cfg node)
    await (.reply answer)

/-! ### Tasks and runs -/

/-- `wrapped` of `start_maintenance`. -/
def maintenance {α : Type} (m : M α) : M Unit := do
  let _ ← m
  edit .clearBusy

/-- The program of task `me` with its job. -/
def body (cfg : Config) (me : Nat) : Job → M Unit
  | .tick => tick cfg me
  | .switchover target => setFailover cfg me target
  | .rejoin node => setRejoin cfg me node
  | .halt reason => setHalt reason
  | .resume => setResume
  | .getPrimary => getPrimary
  | .fence node => do
    let r ← fence node
    edit (.resolve me r)
  | .rejoinNode n why => do
    let _ ← rejoinNode cfg n why true
    pure ()
  | .fenceSecondWriter n primary => fenceSecondWriter n primary
  | .verifyAfterRepoint n primary => verifyAfterRepoint cfg n primary
  | .repointAfter old target => repointAfter old target
  | .rebuildAndJoin args => maintenance (rebuildAndJoin cfg args)
  | .replace spare donor => maintenance (replace cfg spare donor)
  | .keepUnstuck donor => keepUnstuck me donor cfg.rounds

/-- A controller when the manager starts. -/
def Ctl.init (cfg : Config) : Ctl := { members := cfg.nodes }

/-- Whether a task has been created for the job and is not done. -/
def running (p : Pool sig) (select : Job → Bool) : Bool :=
  (List.range p.world.jobs.length).any fun t =>
    (p.world.jobs[t]?).any select && t ∉ p.world.state.finished

/-- `isinstance(job, tick)`. -/
def Job.isTick : Job → Bool
  | .tick => true
  | _ => false

/-- Whether task `t` has issued the request. -/
def issued (p : Pool sig) (t : Nat) (r : Req) : Bool :=
  p.world.log.any fun e =>
    match e with
    | .issued t' _ r' _ => t' = t && r' = r
    | _ => false

/-- Task `t` issues a request. -/
def issuedBy (t : Nat) : Coop.Event sig → Bool
  | .issued t' _ _ _ => t' = t
  | _ => false

/-- The client sends `r` again for task `t`. -/
def resentFor (t : Nat) (r : Req) : Coop.Event sig → Bool
  | .resent t' r' _ => t' = t && r' = r
  | _ => false

/-- Whether the client has sent `r` again since task `t` issued its last request. -/
def sentAgain (t : Nat) (r : Req) (log : List (Coop.Event sig)) : Bool :=
  (log.reverse.takeWhile (!issuedBy t ·)).any (resentFor t r)

/-- Whether the client may send `r` now: task `t` awaits a request that is posted as `r`, and
`r` has been posted once for it. -/
def mayResend (p : Pool sig) (t : Nat) (r : Req) : Bool :=
  match p.progs t with
  | some (.await q _) => Req.reposts q r && !sentAgain t r p.world.log
  | _ => false

/-- The rules of the environment: one tick at a time and any API request, a clock that does
not run backwards, no effect of a request that was not issued, and at most one more POST of a
role change. -/
def environment (p : Pool sig) : Move sig → Bool
  | .start _ | .answer _ _ | .wake _ => true
  | .arrive .tick => !running p Job.isTick
  | .arrive (.switchover _) | .arrive (.rejoin _) | .arrive (.halt _) | .arrive .resume
  | .arrive .getPrimary => true
  | .arrive _ => false
  | .outside (.clock _ mono) => p.world.state.mono ≤ mono
  | .outside _ => false
  | .land t r => issued p t r
  | .resend t r => mayResend p t r

/-- The pools that the runs of a controller lead to, when every step meets `cond`. -/
def Runs (cfg : Config) (cond : Pool sig → Move sig → Pool sig → Prop) : Pool sig → Prop :=
  Reach (body cfg) (fun p m p' => environment p m = true ∧ cond p m p')
    (Pool.init (Ctl.init cfg) [])

end DbGuard
