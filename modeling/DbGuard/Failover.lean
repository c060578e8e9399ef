import DbGuard.Controller

/-!
# `DbGuard.Failover`: automatic failover

The steps of `manager/failover.py`. In dbguard mode they are 1 fence, 2 stop IO threads,
3 choose, 4 catch up, 5 repoint, 6 promote, 7 record. The fence runs as a task of its own
(`Job.fence`) beside steps 2 to 5, and promote waits for it. Naive mode skips the fence, the
IO stop and the catch-up, and promotes before it repoints.

`failover` returns an error where the source raises: the text of a fenced primary's
gtid_executed that `GtidSet.parse` rejects.
-/

set_option autoImplicit false

namespace DbGuard

/-- What `fence` makes of the answer. An agent that does not answer in time is recorded, not
retried. -/
def fenceResult : Except AgentError FenceBody → FenceResult
  | .ok body => (if body.method = some "kill" then .kill else .sql, some body)
  | .error _ => (.unreachable, none)

/-- `fence`. -/
def fence (node : Node) : M FenceResult := do
  let a ← await (.fence node)
  pure (fenceResult a)

/-- The start of the state of an SQL thread that has applied its relay log. -/
def sqlStateDone : String := "Replica has read all relay log"

/-- What one round of `wait_caught_up` concludes. -/
inductive Reading
  | caughtUp (why : String)
  | failed (why : String)
  | behind (why : String)

/-- The body of the loop of `wait_caught_up`. -/
def readCaughtUp (cfg : Config) (node : Node) (target : Option GtidSet) : M Reading := do
  let nv ← status node
  if !nv.usable then
    let error := nv.error.getD "mysqld down"
    pure (.behind s!"{node} not responsive ({error})")
  else
    match nv.replica.lastSqlError, target with
    | some e, _ => pure (.failed s!"SQL thread error on {node}: {e}")
    | none, target =>
      if target.any fun t => !t.isSubset nv.held then
        let miss := ((target.getD .empty) \ nv.applied).count
        pure (.behind s!"{node} lacks {miss} of the old primary's transactions")
      else if nv.relayApplied then
        pure (.caughtUp "ok")
      else
        let pending := nv.replica.retrieved \ nv.applied
        let why := s!"{node} still has {pending.count} relay-log transactions unapplied"
        if nv.replica.ioRunning ≠ some .yes ∧ cfg.canReadReplicaState then
          let state ← await (.replicaState node)
          if sqlStateDone.toList.isPrefixOf (state.getD "").toList ∧
              target.all fun t => t.isSubset nv.applied then
            pure (.caughtUp s!"SQL thread read all relay log, {pending.count} retrieved but unapplied GTIDs are a partial transaction ({pending.toText})")
          else pure (.behind why)
        else pure (.behind why)

/-- The loop of `wait_caught_up`, for some more rounds. -/
def pollCaughtUp (cfg : Config) (node : Node) (target : Option GtidSet) (deadline : Time) :
    Nat → M (Bool × String)
  | 0 => do
    match ← readCaughtUp cfg node target with
    | .caughtUp why => pure (true, why)
    | .failed why => pure (false, why)
    | .behind why => pure (false, why)
  | rounds + 1 => do
    match ← readCaughtUp cfg node target with
    | .caughtUp why => pure (true, why)
    | .failed why => pure (false, why)
    | .behind why => do
      let s ← ctl
      if deadline ≤ s.mono then
        pure (false, why)
      else
        await .sleep
        pollCaughtUp cfg node target deadline rounds

/-- `wait_caught_up`: poll until the node applied its whole relay log, and holds `target` if
given. With the IO thread stopped, an SQL thread that has read all of the relay log also
counts, because its tail can be a partial transaction. -/
def waitCaughtUp (cfg : Config) (node : Node) (target : Option GtidSet) :
    M (Bool × String) := do
  let s ← ctl
  pollCaughtUp cfg node target (s.mono + cfg.catchupDeadlineS) cfg.rounds

/-- `stop_io_threads`: each node with its error, none when its IO thread was stopped. -/
def stopIoThreads (cfg : Config) (nodes : List Node) : M (List (Node × Option ErrorText)) :=
  if cfg.canStopIo then do
    let res ← await (.stopIo nodes)
    pure (nodes.map fun n => (n, res n))
  else pure []

/-- `class _Failover`: what the steps of a run share. -/
structure Run where
  old : Node
  v : Verdict
  others : List Node
  steps : Steps := {}
  notes : List String := []
  fenceTask : Option Nat := none
  fenceResp : Option FenceBody := none
  views : Views := .empty

/-- `self.notes.append`. -/
def Run.note (run : Run) (text : String) : Run := { run with notes := run.notes ++ [text] }

/-- `"; ".join(notes) or None`. -/
def joinNotes (notes : List String) : Option String := orNone ("; ".intercalate notes)

namespace Run

/-- `start`, on a set whose primary is `old`. -/
def start (old : Node) (v : Verdict) : M Run := do
  let s ← ctl
  edit (.enter .failover)
  edit (.goTo .failingOver none false none)
  pure { old, v, others := s.members.filter (· ≠ old) }

/-- `finish`: record the failover event, and HALT the set if asked to. -/
def finish (run : Run) (newPrimary : Option Node) (watermark : Option String)
    (haltReason : Option String) : M Unit := do
  let run := match haltReason with
    | some reason => run.note s!"halted: {reason}"
    | none => run
  event
    { type := .failover
      oldPrimary := some run.old
      newPrimary
      trigger := run.v.trigger
      detect := some run.v.detect
      steps := some run.steps
      watermarkGtid := watermark
      note := joinNotes run.notes }
  match haltReason with
  | some reason => edit (.halt reason)
  | none => pure ()

/-- `asyncio.wait({self.fence_task})`, the result of the fence task once it has finished. -/
def fenceDone (t : Nat) : M (Option FenceResult) := do
  let s ← ctl
  if (s.fenced t).isSome then
    pure (s.fenced t)
  else
    Coop.Prog.blockUntil fun s => (s.fenced t).isSome
    let s ← ctl
    pure (s.fenced t)

/-- The candidates of the last poll, whose IO threads are stopped. -/
def toStop (s : Ctl) (others : List Node) : List Node :=
  let pre := (s.lastObs.map (·.nodes)).getD .empty
  others.filter fun n => (pre.get? n).any fun nv => nv.usable && nv.replica.configured

/-- `fence_and_stop_io`, steps 1 and 2. The result of each IO stop. -/
def fenceAndStopIo (cfg : Config) (run : Run) : M (Run × List (Node × Option ErrorText)) := do
  match cfg.mode with
  | .naive =>
    pure ({ run with steps := { run.steps with fence := some .skipped } }, [])
  | .dbguard =>
    let t ← Coop.Prog.create (.fence run.old)
    let run := { run with fenceTask := some t }
    let s ← ctl
    let ioStop ← stopIoThreads cfg (toStop s run.others)
    let failed := ioStop.filterMap fun ne => ne.2.map fun e => s!"{ne.1} ({e.val})"
    if failed = [] then
      pure (run, ioStop)
    else
      let _ ← fenceDone t
      pure (run.note ("STOP REPLICA IO_THREAD failed on " ++ "; ".intercalate failed ++
        ", waited for the fence"), ioStop)

/-- `await_fence`: collect the fence's outcome. -/
def awaitFence (run : Run) : M Run := do
  match run.fenceTask, run.steps.fence with
  | some t, none =>
    match ← fenceDone t with
    | some (outcome, resp) =>
      let run := { run with
        steps := { run.steps with fence := some outcome }
        fenceResp := resp }
      pure (if outcome = .unreachable then
        run.note s!"{run.old} agent unreachable, not fenced, relying on semi-sync" else run)
    | none => pure run
  | _, _ => pure run

/-- `choose_winner`, step 3. No winner means that the set HALTed. -/
def chooseWinner (cfg : Config) (run : Run) (ioStop : List (Node × Option ErrorText)) :
    M (Run × Option Node) := do
  let views ← freshViews run.others
  let choice := choose (run.others.map views.view) cfg.mode (some run.old)
  let stopped := (ioStop.filter fun ne => ne.2.isNone).map (·.1)
  let run := { run with
    views
    steps := { run.steps with
      choose := some
        { candidates := choice.candidates
          winner := choice.winner
          subsetOk := choice.subsetOk
          ioStopped := stopped.insertionSort (· ≤ ·) } } }
  let run := if choice.excluded = [] then run
    else run.note ("not candidates: " ++ choice.excludedText)
  match choice.haltReason with
  | some reason =>
    let run ← run.awaitFence
    run.finish none none (some reason)
    pure (run, none)
  | none => pure (run, choice.winner)

/-- `catch_up`, step 4. False means that the set HALTed. -/
def catchUp (cfg : Config) (run : Run) (winner : Node) : M (Run × Bool) := do
  match cfg.mode with
  | .naive => pure ({ run with steps := { run.steps with catchup := some true } }, true)
  | .dbguard =>
    let (ok, why) ← waitCaughtUp cfg winner none
    let run := { run with steps := { run.steps with catchup := some ok } }
    if ok then
      pure (if why ≠ "ok" then run.note why else run, true)
    else
      let run ← run.awaitFence
      run.finish none none
        (some s!"catch-up deadline {cfg.seconds0 cfg.catchupDeadlineS} s passed, {why}")
      pure (run, false)

/-- `repoint`, step 5: point every other member that was usable at the winner. -/
def repoint (run : Run) (winner : Node) : M Run := do
  let targets := run.others.filter fun n => n ≠ winner && (run.views.view n).usable
  let ok ← repointAll targets winner
  let run := { run with steps := { run.steps with repoint := some ok } }
  let failed := ", ".intercalate ((targets.filter (· ∉ ok)).dedup.insertionSort (· ≤ ·))
  pure (if targets.all (· ∈ ok) then run else run.note s!"repoint failed on {failed}, will retry")

/-- Step 5 where it belongs: dbguard mode repoints before step 6, naive mode after it. -/
def repointWhen (run : Run) (winner : Node) (now : Bool) : M Run :=
  if now then run.repoint winner else pure run

/-- `await_fence_before_promote`. It raises when the fenced primary's gtid_executed is not
a GTID set. -/
def awaitFenceBeforePromote (run : Run) (winner : Node) : M (Except String Run) := do
  let run ← run.awaitFence
  match run.fenceResp.bind (·.gtidExecuted) with
  | none => pure (.ok run)
  | some text =>
    match text.parse with
    | .error e => pure (.error e)
    | .ok final =>
      let extra := final \ (run.views.view winner).held
      pure (.ok (if extra.isEmpty then run
        else run.note s!"old primary holds {extra.count} unacknowledged transactions the winner lacks, they will be discarded at rejoin"))

/-- `promote`, step 6. The watermark, or none when it failed and the set HALTed. -/
def promote (run : Run) (winner : Node) : M (Run × Option (Option String)) := do
  let resp ← await (.promote winner)
  let run := { run with steps := { run.steps with promote := true } }
  match resp with
  | .error e =>
    run.finish none none (some s!"promote of {winner} failed: {e.text}")
    pure (run, none)
  | .ok body =>
    edit (.setPrimary winner)
    pure (run, some body.gtidExecuted)

/-- `record`, step 7. -/
def record (cfg : Config) (run : Run) (winner : Node) (watermark : Option String) : M Unit := do
  edit (.failedOver cfg.cooldownS)
  run.finish (some winner) watermark none
  edit (.goTo .degraded
    (some s!"failed over from {run.old} to {winner}, {run.old} is not a replica yet") true none)

end Run

/-- `failover`: fail the set over from its dead primary `old`. -/
def failover (cfg : Config) (old : Node) (v : Verdict) : M (Except String Unit) := do
  let run ← Run.start old v
  let (run, ioStop) ← run.fenceAndStopIo cfg
  let (run, winner) ← run.chooseWinner cfg ioStop
  match winner with
  | none => pure (.ok ())
  | some winner =>
    let (run, caughtUp) ← run.catchUp cfg winner
    if !caughtUp then
      pure (.ok ())
    else
      let run ← run.repointWhen winner (cfg.mode == .dbguard)
      match ← run.awaitFenceBeforePromote winner with
      | .error e => pure (.error e)
      | .ok run =>
        let (run, promoted) ← run.promote winner
        match promoted with
        | none => pure (.ok ())
        | some watermark =>
          let run ← run.repointWhen winner (cfg.mode == .naive)
          run.record cfg winner watermark
          pure (.ok ())

end DbGuard
