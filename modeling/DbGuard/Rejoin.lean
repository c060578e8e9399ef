import DbGuard.Switchover

/-!
# `DbGuard.Rejoin`: rejoin, rebuild and replacement

`manager/rejoin.py` and `manager/replacement.py`. A node that is not a proper replica is
repointed when it holds nothing that the primary lacks, and rebuilt by clone otherwise. A
set that has been DEGRADED for too long gets its spare as a replacement.

None of these tasks holds the set's lock. A rejoin runs as a task of its node, and a rebuild
or a replacement as the maintenance task. `rejoin_node` is only ever called with
`wait=False`, so the branch of `_rebuild` that clones inline is left out.
-/

set_option autoImplicit false

namespace DbGuard

/-- `needs_rejoin`: why this node is not a proper replica of `primary`. -/
def needsRejoin (nv : NodeView) (primary : Node) : Option String :=
  let r := nv.replica
  let source := r.sourceHost.getD "None"
  let ioError := r.lastIoError.getD "no error"
  let sqlError := r.lastSqlError.getD "no error"
  if !r.configured then some "not replicating"
  else if r.sourceHost ≠ some primary then some s!"replicating from {source}, not {primary}"
  else if r.ioRunning = some .no then some s!"IO thread stopped ({ioError})"
  else if r.sqlRunning = some .no then some s!"SQL thread stopped ({sqlError})"
  else none

/-- `RETRY_BACKOFF_S`. -/
def retryBackoff (cfg : Config) : Time := 10 * cfg.second

/-- `fence_second_writer`. -/
def fenceSecondWriter (n primary : Node) : M Unit := do
  let a ← await (.fence n)
  let note := match a with
    | .ok _ => s!"{n} was writable while {primary} is primary, fenced it"
    | .error e => s!"{n} is writable while {primary} is primary and fencing failed: {e.text}"
  event
    { type := .rejoin, oldPrimary := some n, newPrimary := some primary, note := some note
      rejoin := some { branch := .none, node := n } }

/-! ### Rebuild -/

/-- `pick_donor`: a streaming replica, or a primary stalled without any replica. -/
def pickDonor (s : Ctl) (views : Views) (n : Node) : Option (Node × String) :=
  match s.healthyReplicas views n with
  | donor :: _ => some (donor, "")
  | [] =>
    if s.stalledPrimaryAlive s.lastObs then
      s.primary.map fun p => (p, "donor of last resort: primary")
    else none

/-- `_unstick`: the sessions that still wait, none when the call failed. -/
def unstick (donor : Node) : M (Option Int) := do
  match ← await (.unstick donor) with
  | .error _ => pure none
  | .ok body =>
    edit (.unstickCall body.killed)
    pure (some body.stillWaiting)

/-- The loop of `unstick_until_clear`, for some more attempts. -/
def unstickRetry (donor : Node) : Nat → Option Int → M (Option Int)
  | 0, last => pure last
  | attempts + 1, last => do
    await .sleep
    let still ← unstick donor
    edit (.unstickStill still)
    if still = some 0 then pure (some 0)
    else unstickRetry donor attempts (still.or last)

/-- `unstick_until_clear`, with five retries. -/
def unstickUntilClear (donor : Node) : M (Option Int) := do
  let still ← unstick donor
  edit (.unstickStill still)
  if still = some 0 then pure (some 0)
  else unstickRetry donor 5 still

/-- `_keep_unstuck`, task `me`, until it is cancelled. -/
def keepUnstuck (me : Nat) (donor : Node) : Nat → M Unit
  | 0 => Coop.Prog.hang ()
  | rounds + 1 => do
    await .sleep
    let s ← ctl
    if me ∈ s.cancelled then pure ()
    else
      let _ ← unstick donor
      let s ← ctl
      if me ∈ s.cancelled then pure ()
      else keepUnstuck me donor rounds

/-- `keeper.cancel()` and the wait for its end. -/
def stopKeeper : Option Nat → M Unit
  | none => pure ()
  | some t => do
    edit (.cancel t)
    Coop.Prog.blockUntil fun s => decide (t ∈ s.finished)

/-- The wait of `rebuild_and_join` for mysqld, and of `replace` for the agent. -/
def waitUsable (node : Node) (deadline : Time) : Nat → M Bool
  | 0 => pure false
  | rounds + 1 => do
    let s ← ctl
    if deadline ≤ s.mono then
      pure false
    else
      let nv ← status node
      if nv.usable then pure true
      else
        await .sleep
        waitUsable node deadline rounds

/-- A list of counts as Python prints it. -/
def countsText (l : List (Option Int)) : String :=
  "[" ++ ", ".intercalate (l.map fun k => (k.map toString).getD "None") ++ "]"

/-- The first part of `rebuild_and_join` for a donor that is the primary: release its stalled
sessions, and keep releasing them. False means that the set HALTed. -/
def quietPrimary (args : Rebuild) : M (Bool × Option Nat) := do
  let still ← unstickUntilClear args.donor
  if still ≠ some 0 then
    let n := (still.map toString).getD "an unknown number of"
    let s ← ctl
    let calls := s.unstuck.calls
    let attempts := s.unstuck.still.length
    let killed := s.unstuck.killed
    let waiting := countsText s.unstuck.still
    event
      { type := .rebuild, oldPrimary := some args.node, newPrimary := s.primary
        note := some s!"clone of {args.node} from the stalled primary {args.donor} not started: /unstick called {calls} times ({attempts} attempts), killed {killed}, still_waiting per attempt {waiting}" }
    edit (.halt s!"stalled primary cannot be quiesced, {n} sessions still waiting for a semi-sync ack after /unstick; restore a replica or fence the primary by hand")
    pure (false, none)
  else
    let t ← Coop.Prog.create (.keepUnstuck args.donor)
    pure (true, some t)

/-- The last part of `rebuild_and_join`: wait for mysqld and repoint to the current
primary. -/
def joinRebuilt (cfg : Config) (args : Rebuild) (body : RebuildBody) : M Event := do
  let s ← ctl
  let why := if s.unstuck.calls = 0 then args.why
    else
      let calls := s.unstuck.calls
      let attempts := s.unstuck.still.length
      let killed := s.unstuck.killed
      let waiting := countsText s.unstuck.still
      args.why ++ s!"; /unstick on {args.donor} {calls} times ({attempts} attempts before the clone, still_waiting {waiting}), {killed} stalled sessions killed (unacknowledged)"
  let _ ← waitUsable args.node (s.mono + 180 * cfg.second) cfg.rounds
  let s ← ctl
  let source := s.primary
  let _ ← await (.repoint args.node source)
  let ph := if body.phantomGtids = 0 then args.phantomCount else body.phantomGtids
  let target := source.getD "None"
  let phantom := args.phantom.getD "None"
  let note := s!"{args.node} {why}; cloned from {args.donor}, repointed to {target}" ++
    (if args.phantomCount = 0 then ""
      else s!"; discarded {args.phantomCount} phantom transactions ({phantom})")
  let ev : Event :=
    { type := args.eventType, oldPrimary := some args.node, newPrimary := source
      rejoin := some { branch := args.branch, phantomGtids := ph, node := args.node }
      clone := some { bytes := body.bytes, donor := args.donor }
      note := some note }
  event ev
  pure ev

/-- Whether the donor is the primary, and then its sessions are released first. -/
def quietDonor (args : Rebuild) (primary : Option Node) : M (Bool × Option Nat) :=
  if primary = some args.donor then quietPrimary args else pure (true, none)

/-- `rebuild_and_join`: clone a node from a donor, wait for mysqld, repoint it to the current
primary. None when it was not cloned. -/
def rebuildAndJoin (cfg : Config) (args : Rebuild) : M (Option Event) := do
  edit .unstickStart
  let s ← ctl
  let (quiet, keeper) ← quietDonor args s.primary
  if !quiet then
    pure none
  else
    let resp ← await (.rebuild args.node args.donor)
    match resp with
    | .error e =>
      let s ← ctl
      event
        { type := .rebuild, oldPrimary := some args.node, newPrimary := s.primary
          note := some s!"clone of {args.node} from {args.donor} failed: {e.text}" }
      stopKeeper keeper
      pure none
    | .ok body =>
      stopKeeper keeper
      let ev ← joinRebuilt cfg args body
      pure (some ev)

/-- `_wait_maintenance_slot`. -/
def waitMaintenanceSlot : M Unit := do
  let s ← ctl
  if s.maintRunning then Coop.Prog.blockUntil fun s => !s.maintRunning
  else pure ()

/-- The body of the loop of `start_rebuild_when_free`. -/
def tryRebuild (n : Node) (phantom : GtidSet) (why : String) (branch : Branch) : M Bool := do
  waitMaintenanceSlot
  let s ← ctl
  let views ← freshViews (s.members.filter (· ≠ n))
  let s ← ctl
  match pickDonor s views n with
  | none => pure false
  | some (donor, dnote) =>
    startMaintenance
      (.rebuildAndJoin
        { node := n, donor, phantomCount := phantom.count, phantom := some phantom.toText
          why := if dnote = "" then why else s!"{why}; {dnote}"
          eventType := .rejoin, branch }) [n]

/-- `start_rebuild_when_free`. Without a deadline it goes on until the manager stops. -/
def startRebuildWhenFree (n : Node) (phantom : GtidSet) (why : String) (branch : Branch)
    (deadline : Option Time) : Nat → M Bool
  | 0 => if deadline.isNone then Coop.Prog.hang false else pure false
  | rounds + 1 => do
    let s ← ctl
    if deadline.any (· ≤ s.mono) then
      pure false
    else
      let started ← tryRebuild n phantom why branch
      if started then pure true
      else
        await .sleep
        startRebuildWhenFree n phantom why branch deadline rounds

/-- `_rebuild`, in the background. -/
def rebuild (cfg : Config) (n : Node) (phantom : GtidSet) (why : String) : M Unit := do
  let s ← ctl
  let started ← startRebuildWhenFree n phantom why .rebuild
    (some (s.mono + 20 * cfg.second)) cfg.rounds
  if started then pure ()
  else
    let s ← ctl
    edit (.backoff n (s.time + retryBackoff cfg))

/-! ### Rejoin -/

/-- What one round of `quiesce` concludes. -/
inductive Stillness
  | still (nv : NodeView)
  | moving (why : String) (prev : Option NodeView)

/-- `committing_threads`, of a prober that can count them. -/
def countCommitting (cfg : Config) (n : Node) : M (Option Nat) :=
  if cfg.canCountCommitting then await (.committingThreads n) else pure none

/-- The body of the loop of `quiesce`. -/
def readStillness (cfg : Config) (n : Node) (prev : Option NodeView) : M Stillness := do
  let nv ← status n
  if !nv.usable then
    pure (.moving s!"{n} not responsive" none)
  else
    let waiting := ((nv.raw.bind (·.semisync)).bind (·.waitSessions)).getD 0
    let counted ← countCommitting cfg n
    let committing := counted.getD 0
    if waiting ≠ 0 ∨ committing ≠ 0 then
      pure (.moving
        s!"{n} has {waiting} semi-sync waiters and {committing} committing threads" none)
    else if prev.any fun p => p.gtidExecuted = nv.gtidExecuted then
      pure (.still nv)
    else
      pure (.moving s!"{n} gtid_executed still changing" (some nv))

/-- The loop of `quiesce`, for some more rounds. -/
def pollStillness (cfg : Config) (n : Node) (deadline : Time) :
    Nat → Option NodeView → String → M (Option NodeView × String)
  | 0, _, why => pure (none, why)
  | rounds + 1, prev, why => do
    let s ← ctl
    if deadline ≤ s.mono then
      pure (none, why)
    else
      match ← readStillness cfg n prev with
      | .still nv => pure (some nv, "ok")
      | .moving why prev =>
        await .sleep
        pollStillness cfg n deadline rounds prev why

/-- `quiesce`: wait until `n`'s gtid_executed can be trusted for the subset check. -/
def quiesce (cfg : Config) (n : Node) : M (Option NodeView × String) := do
  let s ← ctl
  pollStillness cfg n (s.mono + 20 * cfg.second) cfg.rounds none "no status"

/-- The loop of `verify_after_repoint`, after `seen` errant reads in a row. -/
def pollErrant (cfg : Config) (n primary : Node) (deadline : Time) : Nat → Nat → M Unit
  | 0, _ => pure ()
  | rounds + 1, seen => do
    let s ← ctl
    if deadline ≤ s.mono then
      pure ()
    else
      await .sleep
      let s ← ctl
      if s.primary ≠ some primary then
        pure ()
      else
        let nv ← status n
        let pv ← status primary
        if !(nv.usable && pv.usable) then
          pollErrant cfg n primary deadline rounds seen
        else
          let errant := nv.gtidExecuted \ pv.gtidExecuted
          if errant.isEmpty then
            pollErrant cfg n primary deadline rounds 0
          else if seen = 0 then
            pollErrant cfg n primary deadline rounds 1
          else
            let _ ← startRebuildWhenFree n errant
              s!"held {errant.count} GTIDs {primary} lacks after its repoint"
              .rebuildAfterErrant none cfg.rounds
            pure ()

/-- `verify_after_repoint`: after a repoint, watch for GTIDs that the primary lacks. -/
def verifyAfterRepoint (cfg : Config) (n primary : Node) : M Unit := do
  let s ← ctl
  pollErrant cfg n primary (s.mono + 10 * cfg.quiesceIntervalS) cfg.rounds 0

/-- The watch after a repoint. A node's own task watches inline, which keeps the node marked
busy. -/
def watchErrant (cfg : Config) (n primary : Node) (inlineVerify : Bool) : M Unit :=
  if inlineVerify then
    verifyAfterRepoint cfg n primary
  else do
    let _ ← spawnNodeTask n (.verifyAfterRepoint n primary)
    pure ()

/-- `rejoin_node` from the subset check on: repoint the node when it holds no phantom. -/
def repointOrRebuild (cfg : Config) (n primary : Node) (phantom : GtidSet) (why : String)
    (inlineVerify : Bool) : M (Option Event) := do
  if phantom.isEmpty then
    match ← await (.repoint n (some primary)) with
    | .error _ => pure none
    | .ok _ =>
      let ev : Event :=
        { type := .rejoin, oldPrimary := some n, newPrimary := some primary
          rejoin := some { branch := .repoint, node := n }
          note := some s!"{n} {why}, quiescent gtid_executed is a subset of {primary}'s, repointed" }
      event ev
      watchErrant cfg n primary inlineVerify
      pure (some ev)
  else
    rebuild cfg n phantom why
    pure none

/-- `rejoin_node` once the node was fenced, if it had to be: it must be quiescent, and then
the subset check runs on fresh reads. -/
def checkAndRejoin (cfg : Config) (n primary : Node) (why : String) (inlineVerify : Bool) :
    M (Option Event) := do
  let (stable, qwhy) ← quiesce cfg n
  match stable with
  | none =>
    rebuild cfg n .empty s!"{why}; not quiescent ({qwhy})"
    pure none
  | some stable =>
    let pnow ← status primary
    if !pnow.usable then
      let s ← ctl
      edit (.backoff n (s.time + retryBackoff cfg))
      pure none
    else
      repointOrRebuild cfg n primary (stable.gtidExecuted \ pnow.gtidExecuted) why inlineVerify

/-- `rejoin_node`: repoint `n` if it holds nothing the primary lacks, else rebuild it from a
replica. It runs on a set that has a primary. -/
def rejoinNode (cfg : Config) (n : Node) (why : String) (inlineVerify : Bool) :
    M (Option Event) := do
  let s ← ctl
  match s.primary with
  | none => pure none
  | some primary =>
    let fresh ← status n
    let waiting := ((fresh.raw.bind (·.semisync)).bind (·.waitSessions)).getD 0
    if fresh.usable && (fresh.semisync.sourceEnabled || waiting != 0) then
      let _ ← await (.fence n)
      checkAndRejoin cfg n primary why inlineVerify
    else
      checkAndRejoin cfg n primary why inlineVerify

/-- The body of the loop of `rejoin_actions`, for member `n`. -/
def rejoinAction (cfg : Config) (ob : Observation) (primary : Node) (pv : NodeView)
    (n : Node) : M Unit := do
  let s ← ctl
  if n = primary ∨ s.nodeBusy n = true then
    pure ()
  else
    match ob.nodes.get? n with
    | none => pure ()
    | some nv =>
      if !nv.usable then
        pure ()
      else if nv.writable then
        if cfg.mode = .naive then
          if n ∈ s.splitNoted then pure ()
          else do
            edit (.splitNoted n true)
            event
              { type := .splitBrain, oldPrimary := some n, newPrimary := some primary
                note := some s!"{n} and {primary} are both writable; naive mode does not fence" }
        else do
          let _ ← spawnNodeTask n (.fenceSecondWriter n primary)
          pure ()
      else do
        edit (.splitNoted n false)
        match needsRejoin nv primary with
        | none => edit (.manualNoted n false)
        | some why =>
          if s.time < s.backoff n then
            pure ()
          else do
            edit (.backoff n (s.time + retryBackoff cfg))
            if cfg.rejoin = .manual then
              if n ∈ s.manualNoted then pure ()
              else do
                edit (.manualNoted n true)
                event
                  { type := .rejoin, oldPrimary := some n, newPrimary := some primary
                    rejoin := some
                      { branch := .manual, node := n
                        phantomGtids := (nv.gtidExecuted \ pv.gtidExecuted).count }
                    note := some s!"{n} {why}, rejoin is manual, waiting for an operator" }
            else do
              let _ ← spawnNodeTask n (.rejoinNode n why)
              pure ()

/-- `rejoin_actions`: fence second writers and start a rejoin for every member that needs
one. -/
def rejoinActions (cfg : Config) (ob : Observation) : M Unit := do
  let s ← ctl
  match s.primary with
  | none => pure ()
  | some primary =>
    match ob.nodes.get? primary with
    | none => pure ()
    | some pv =>
      if pv.usable then each (rejoinAction cfg ob primary pv) s.members
      else pure ()

/-! ### Replacement -/

/-- `maybe_replace`: start a replacement when the set has been DEGRADED long enough and has
a donor. -/
def maybeReplace (cfg : Config) (ob : Observation) (healthy : List Node) : M Unit := do
  let s ← ctl
  match cfg.spare, s.unhealthySince, healthy with
  | some spare, some since, donor :: _ =>
    if spare ∈ s.members ∨ cfg.provisioner = false ∨ s.st.state ≠ .degraded ∨
        s.inCooldown = true ∨ ob.ts - since < cfg.rebuildAfterS then
      pure ()
    else do
      let _ ← startMaintenance (.replace spare donor) [spare]
      pure ()
  | _, _, _ => pure ()

/-- The end of `replace` when the spare did not come up. -/
def giveUpReplacing (note : String) : M Unit := do
  let s ← ctl
  event { type := .replace, newPrimary := s.primary, note := some note }
  edit (.unhealthySince (some s.time))

/-- `replace`: provision the spare, clone it, repoint it, and make it a member. -/
def replace (cfg : Config) (spare donor : Node) : M Unit := do
  edit (.goTo .rebuilding (some s!"provisioning {spare} to replace a lost replica") true none)
  match ← await (.provision spare) with
  | .error e => giveUpReplacing s!"provisioning {spare} failed: {e}"
  | .ok _ =>
    let s ← ctl
    let up ← waitUsable spare (s.mono + 180 * cfg.second) cfg.rounds
    if !up then
      giveUpReplacing s!"{spare} agent did not come up within 180 s"
    else
      let ev ← rebuildAndJoin cfg
        { node := spare, donor, phantomCount := 0, phantom := none
          why := "replacement for a lost replica", eventType := .replace, branch := .rebuild }
      match ev with
      | none => pure ()
      | some _ => edit (.addMember spare)

end DbGuard
