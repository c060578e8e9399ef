import DbGuard.Failover

/-!
# `DbGuard.Switchover`: planned switchover

The graceful path of `manager/switchover.py`. Before the stall the other replicas move under
the candidate while the old primary still takes writes. The stall is quiesce (the same
`/fence`), wait until the candidate applied the old primary's final gtid_executed, check
that it holds nothing more, and promote. When the candidate does not qualify in time, the
old primary is promoted back.
-/

set_option autoImplicit false

namespace DbGuard

/-- How a request of an operation ends early: `refused` is a `SwitchoverError`, answered
409, and `raised` is any other exception, answered 500. -/
inductive Raised
  | refused (msg : String)
  | raised (msg : String)
deriving DecidableEq, Repr

/-- One round of `wait_attached`: the replicas that stream from `source`. -/
def readAttached (nodes : List Node) (source : Node) : M (List Node) := do
  let views ← freshViews nodes
  pure (nodes.filter fun n =>
    let nv := views.view n
    nv.usable && nv.replica.sourceHost == some source && nv.replica.ioRunning == some .yes)

/-- The loop of `wait_attached`, for some more rounds. -/
def pollAttached (nodes : List Node) (source : Node) (deadline : Time) : Nat → M (List Node)
  | 0 => readAttached nodes source
  | rounds + 1 => do
    let ok ← readAttached nodes source
    let s ← ctl
    if ok.length = nodes.length ∨ deadline ≤ s.mono then
      pure ok
    else
      await .sleep
      pollAttached nodes source deadline rounds

/-- `wait_attached`: the replicas that stream from `source` within five seconds. -/
def waitAttached (cfg : Config) (nodes : List Node) (source : Node) : M (List Node) := do
  let s ← ctl
  pollAttached nodes source (s.mono + 5 * cfg.second) cfg.rounds

/-- Why a candidate that holds more than the old primary's final set is not promoted. -/
def errantWhy (old target : Node) (errant : GtidSet) : String :=
  s!"{target} holds {errant.count} transactions {old} never had ({errant.toText})"

/-- The slow path of `_catch_up_to_final`: the agent's `/status` is polled. -/
def pollToFinal (cfg : Config) (old target : Node) (final : Option GtidSet) :
    M (Bool × String) := do
  let (ok, why) ← waitCaughtUp cfg target final
  match ok, final with
  | true, some final =>
    let tv ← status target
    let errant := tv.held \ final
    pure (if tv.usable && !errant.isEmpty then (false, errantWhy old target errant)
      else (true, why))
  | ok, _ => pure (ok, why)

/-- `_catch_up_to_final`: wait until the candidate applied the quiesced primary's final set
and holds nothing more. -/
def catchUpToFinal (cfg : Config) (old target : Node) (final : Option GtidSet)
    (waiter : Bool) : M (Bool × String) := do
  match waiter, final with
  | true, some set =>
    match ← await (.waiterWait target set) with
    | .error _ => pollToFinal cfg old target final
    | .ok (false, _) => pure (false, s!"{target} did not apply {old}'s final set in time")
    | .ok (true, none) => pure (true, "ok")
    | .ok (true, some got) =>
      match got.parse with
      | .error _ => pollToFinal cfg old target final
      | .ok got =>
        let errant := got \ set
        pure (if errant.isEmpty then (true, "ok") else (false, errantWhy old target errant))
  | _, _ => pollToFinal cfg old target final

/-- The end of `_stall` when the candidate is not promotable: the old primary is promoted
back. -/
def promoteBack (old target : Node) (steps : Steps) (why : String) : M Raised := do
  let note := s!"{target} not promotable after quiesce ({why}), promoted {old} back"
  match ← await (.promote old) with
  | .error e =>
    edit (.halt s!"switchover aborted and {old} could not be made writable again: {e.text}")
    let s ← ctl
    pure (.refused (s.st.haltReason.getD "None"))
  | .ok _ =>
    edit (.goTo .healthy none false none)
    event
      { type := .switchover, oldPrimary := some old, newPrimary := some old
        trigger := some .planned, steps := some steps, note := some note }
    pure (.refused note)

/-- The background repoint of an old primary that was not repointed inside the stall. -/
def repointLater (old target : Node) (oldRepointed : Bool) : M Unit :=
  if oldRepointed then pure ()
  else do
    let _ ← spawnNodeTask old (.repointAfter old target)
    pure ()

/-- The end of `_stall` once the candidate is promoted. -/
def switched (old target : Node) (steps : Steps) (notes : List String) (oldRepointed : Bool)
    (presp : PromoteBody) : M Event := do
  edit (.setPrimary target)
  repointLater old target oldRepointed
  let later := s!"{old} is repointed to {target} in the background after the stall"
  let ev : Event :=
    { type := .switchover, oldPrimary := some old, newPrimary := some target
      trigger := some .planned
      steps := some (if oldRepointed then steps else { steps with repoint := some [] })
      watermarkGtid := presp.gtidExecuted
      note := joinNotes (if oldRepointed then notes else notes ++ [later]) }
  event ev
  let s ← ctl
  edit (.unhealthySince (some s.time))
  edit (.goTo .healthy none false none)
  pure ev

/-- Repoint the old primary inside the stall when nothing streams from the candidate. Whether
it was repointed, with the steps and notes. -/
def repointInside (old target : Node) (steps : Steps) (attached : List Node) :
    M (Steps × List String × Bool) :=
  if attached = [] then do
    let ok ← repointAll [old] target
    pure ({ steps with repoint := some ok },
      [s!"no replica attached to the candidate before the quiesce, repointed {old} inside the stall"],
      decide (old ∈ ok))
  else pure (steps, [], false)

/-- The part of `_stall` after the catch-up: promote the candidate. -/
def promoteTarget (old target : Node) (steps : Steps) (attached : List Node) :
    M (Except Raised Event) := do
  let (steps, notes, oldRepointed) ← repointInside old target steps attached
  match ← await (.promote target) with
  | .error e =>
    edit (.halt s!"switchover: promote of {target} failed after {old} was quiesced: {e.text}")
    let s ← ctl
    pure (.error (.refused (s.st.haltReason.getD "None")))
  | .ok presp =>
    let ev ← switched old target { steps with promote := true } notes oldRepointed presp
    pure (.ok ev)

/-- `_stall`: quiesce the old primary, catch the candidate up, promote it or promote back. -/
def stall (cfg : Config) (old target : Node) (steps : Steps) (attached : List Node)
    (waiter : Bool) : M (Except Raised Event) := do
  let (outcome, resp) ← fence old
  let steps := { steps with fence := some outcome }
  if outcome = .unreachable then
    edit (.goTo .healthy none false none)
    pure (.error (.refused s!"could not quiesce {old}, nothing changed"))
  else
    match (resp.bind (·.gtidExecuted)).map GtidText.parse with
    | some (.error e) => pure (.error (.raised e))
    | some (.ok final) => stallFrom (some final) steps
    | none => stallFrom none steps
where
  /-- The stall once the final set is known, or unknown. -/
  stallFrom (final : Option GtidSet) (steps : Steps) : M (Except Raised Event) := do
    let (ok, why) ← catchUpToFinal cfg old target final waiter
    let steps := { steps with catchup := some ok }
    if ok then
      promoteTarget old target steps attached
    else
      let e ← promoteBack old target steps why
      pure (.error e)

/-- Move the other replicas under the candidate while the old primary still takes writes, and
wait until they stream from it. -/
def attachMovers (cfg : Config) (target : Node) (movers : List Node) (steps : Steps) :
    M (Steps × List Node) :=
  if movers = [] then pure (steps, [])
  else do
    let ok ← repointAll movers target
    let attached ← waitAttached cfg ok target
    pure ({ steps with prepare := some ok }, attached)

/-- Open a waiter on the candidate and let it get close to the primary. -/
def openWaiter (cfg : Config) (target : Node) (pv : NodeView) : M Bool :=
  if cfg.canWaitGtid then do
    let opened : Bool ← await (.gtidWaiter target)
    if opened then
      let near ← await (.waiterWait target pv.gtidExecuted)
      pure near.toBool
    else pure false
  else pure false

/-- `waiter.close()`. -/
def closeWaiter (target : Node) (waiter : Bool) : M Unit :=
  if waiter then await (.waiterClose target) else pure ()

/-- `_switchover` once the candidate is chosen: prepare the replicas, then run the stall. -/
def prepareAndStall (cfg : Config) (old target : Node) (members : List Node) (views : Views)
    (pv : NodeView) (cands : List Node) : M (Except Raised Event) := do
  let steps : Steps :=
    { choose := some { candidates := cands, winner := some target, subsetOk := true } }
  edit (.enter .switchover)
  edit (.goTo .failingOver none false none)
  let others := members.filter fun n => n ≠ old && n ≠ target
  if !others.all (· ∈ views.keys) then
    -- A member that joined after the read has no view.
    pure (.error (.raised "KeyError"))
  else
    let movers := others.filter fun n =>
      (views.view n).usable && (views.view n).replica.configured
    let (steps, attached) ← attachMovers cfg target movers steps
    let waiter ← openWaiter cfg target pv
    let result ← stall cfg old target steps attached waiter
    closeWaiter target waiter
    pure result

/-- The refusal when the primary does not take writes. -/
def refuseUnwritable (old : Node) : M (Except Raised Event) :=
  pure (.error (.refused
    s!"primary {old} is not writable, this is a failover, not a switchover"))

/-- `_switchover` once the members are read: choose the candidate, or check the one that was
asked for. -/
def pickTarget (cfg : Config) (old : Node) (target : Option Node) (members : List Node)
    (views : Views) (pv : NodeView) : M (Except Raised Event) := do
  let others := members.filter (· ≠ old)
  match target with
  | none =>
    if !others.all (· ∈ views.keys) then
      pure (.error (.raised "KeyError"))
    else
      let ch := choose (others.map views.view) .dbguard (some old)
      match ch.winner with
      | none => pure (.error (.refused (ch.haltReason.getD "no candidate")))
      | some winner => prepareAndStall cfg old winner members views pv ch.candidates
  | some target =>
    if target ∉ others then
      pure (.error (.refused s!"{target} is not a member of {cfg.rs}"))
    else if target ∉ views.keys then
      pure (.error (.raised "KeyError"))
    else
      match candidateProblem (views.view target) .dbguard with
      | some why => pure (.error (.refused s!"{target} cannot be promoted: {why}"))
      | none => prepareAndStall cfg old target members views pv [target]

/-- `_switchover`: validate and choose the candidate, prepare the replicas, run the stall. -/
def switchoverLocked (cfg : Config) (target : Option Node) : M (Except Raised Event) := do
  let s ← ctl
  if s.halted then
    let reason := s.st.haltReason.getD "None"
    pure (.error (.refused s!"{cfg.rs} is HALTED ({reason}), resume it first"))
  else
    match s.primary with
    | none => pure (.error (.refused s!"{cfg.rs} has no primary"))
    | some old =>
      if target = some old then
        pure (.error (.refused s!"{old} is already the primary"))
      else
        let views ← freshViews s.members
        let s ← ctl
        match views.get? old with
        | none => refuseUnwritable old
        | some pv =>
          if pv.writable then pickTarget cfg old target s.members views pv
          else refuseUnwritable old

/-- `switchover`: move the primary role to `target`, or to the best candidate, holding the
set's lock. -/
def switchover (cfg : Config) (me : Nat) (target : Option Node) : M (Except Raised Event) :=
  withLock me (switchoverLocked cfg target)

/-- `_repoint_after`: repoint the former primary under the new one after the stall. -/
def repointAfter (old target : Node) : M Unit := do
  let ok ← repointAll [old] target
  event
    { type := .rejoin, oldPrimary := some old, newPrimary := some target
      rejoin := some { branch := if old ∈ ok then .repoint else .none, node := old }
      note := some (if old ∈ ok then
          s!"former primary {old} repointed to {target} after the switchover"
        else s!"repoint of former primary {old} after the switchover failed, the rejoin pass will retry") }

end DbGuard
