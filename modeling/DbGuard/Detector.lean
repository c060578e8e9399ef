import Mathlib.Data.List.Dedup
import DbGuard.Model

/-!
# `DbGuard.Detector`: failure detection

`evaluate` of `manager/detector.py`, a pure function of the recent polls. A primary is DEAD
when the manager's probe has failed `probe_failures` times in a row and a strict majority of
the witnesses vote it gone, both without a gap for `detect_window_s`. Naive mode decides
from the probe alone.

The loops over the reversed history, each left at the first observation that does not
support the verdict, are `takeWhile` here.
-/

set_option autoImplicit false

namespace DbGuard

/-- A heartbeat row older than this many windows is left over from before a restart of the
whole set. -/
def heartbeatVoteMaxWindows : Int := 10

/-- `class DetectParams`. -/
structure DetectParams where
  mode : Mode := .dbguard
  detectWindowS : Time
  probeFailures : Nat := 3

/-- `Verdict.kind`. -/
inductive VerdictKind
  | ok
  | suspect
  | dead
  | replicasOnly
  | noPrimary
deriving DecidableEq, Repr

/-- `Event.trigger`. -/
inductive Trigger
  | dead
  | hung
  | partition
  | planned
  | manual
deriving DecidableEq, Repr

/-- Why a replica votes. -/
inductive VoteReason
  | ioThread (state : Option Running)
  | cannotReachPrimary
  | heartbeatStale (age : Time)
deriving DecidableEq, Repr

/-- `class Verdict`. -/
structure Verdict where
  kind : VerdictKind
  primary : Option Node := none
  probeFailed : Bool := false
  probeStreak : Nat := 0
  probeDownS : Time := 0
  probeError : Option String := none
  writeStalled : Bool := false
  replicaVotes : Nat := 0
  replicaTotal : Nat := 0
  quorum : Bool := false
  quorumS : Time := 0
  reasons : List (Node × List VoteReason) := []
  trigger : Option Trigger := none
  detectS : Time := 0
deriving DecidableEq

/-- True when the controller should start a failover. -/
def Verdict.dead (v : Verdict) : Bool := v.kind == .dead

/-- A replica that can testify about `primary`. -/
def isWitness (nv : Option NodeView) (primary : Node) : Bool :=
  match nv with
  | some nv => nv.usable && nv.replica.configured && nv.replica.sourceHost == some primary
  | none => false

/-- Reasons this replica believes the primary is gone. -/
def replicaVote (nv : NodeView) (primary : Node) (window : Time) : List VoteReason :=
  if !nv.usable then []
  else if !(nv.replica.configured && nv.replica.sourceHost == some primary) then []
  else
    (if nv.replica.ioRunning ≠ some .yes then [.ioThread nv.replica.ioRunning] else []) ++
    (if nv.sourceReachable = some false then [.cannotReachPrimary] else []) ++
    (match nv.heartbeatAgeS with
      | some age =>
        let stale := age - nv.replica.secondsBehindSource.getD 0
        if age > window ∧ window < stale ∧ stale ≤ heartbeatVoteMaxWindows * window then
          [.heartbeatStale age]
        else []
      | none => [])

/-- Best effort label for the event. -/
def classifyTrigger (pv : Option NodeView) : Trigger :=
  match pv with
  | none => .dead
  | some pv =>
    if !pv.reachable then .dead
    else if !pv.mysqldAlive then .dead
    else if !pv.mysqldResponsive then .hung
    else .partition

/-- The voters of one observation with their reasons, and the number of witnesses. The
voters are the keys of a dict, so one listed twice among the members counts once. -/
def votesAt (replicas : List Node) (primary : Node) (window : Time) (ob : Observation) :
    List (Node × List VoteReason) × Nat :=
  let witnesses := replicas.filter fun m => isWitness (ob.nodes.get? m) primary
  let voters := witnesses.dedup.filterMap fun m =>
    let why := replicaVote (ob.nodes.view m) primary window
    if why = [] then none else some (m, why)
  (voters, witnesses.length)

/-- A strict majority of at least one witness. -/
def hasQuorum (votes witnesses : Nat) : Bool :=
  witnesses > 0 && votes ≥ 1 && votes * 2 > witnesses

/-- The observations at the end of the history in which the probe of `primary` failed,
newest first. -/
def failing (history : List Observation) (primary : Node) : List Observation :=
  history.reverse.takeWhile fun ob =>
    ob.primary == some primary && (match ob.probe with | some p => !p.ok | none => false)

/-- The observations at the end of the history with a majority of votes, newest first. -/
def outvoted (history : List Observation) (replicas : List Node) (primary : Node)
    (window : Time) : List Observation :=
  history.reverse.takeWhile fun ob =>
    let vs := votesAt replicas primary window ob
    ob.primary == some primary && hasQuorum vs.1.length vs.2

/-- `evaluate`. Without `now` the newest observation is now. -/
def evaluate (history : List Observation) (members : List Node) (p : DetectParams)
    (now : Option Time) : Verdict :=
  match history.getLast? with
  | none => { kind := .ok }
  | some last =>
    match last.primary with
    | none => { kind := .noPrimary }
    | some primary =>
      let now := now.getD last.ts
      let replicas := members.filter (· ≠ primary)
      let streak := failing history primary
      let probeDown := (streak.getLast?.map fun ob => now - ob.ts).getD 0
      let votes := votesAt replicas primary p.detectWindowS last
      let quorum := hasQuorum votes.1.length votes.2
      let quorumS := if quorum then
        ((outvoted history replicas primary p.detectWindowS).getLast?.map
          fun ob => now - ob.ts).getD 0 else 0
      let common : Verdict :=
        { kind := .ok
          primary := some primary
          probeFailed := streak.length > 0
          probeStreak := streak.length
          probeDownS := probeDown
          probeError := last.probe.bind fun r => if r.ok then none else r.error
          writeStalled := (last.probe.map ProbeResult.writeStalled).getD false
          replicaVotes := votes.1.length
          replicaTotal := votes.2
          quorum := quorum
          quorumS := quorumS
          reasons := votes.1 }
      let dead := fun detectS => { common with
        kind := .dead, trigger := some (classifyTrigger (last.nodes.get? primary)), detectS }
      let enough := p.probeFailures ≤ streak.length
      match p.mode with
      | .naive =>
        if enough ∧ p.detectWindowS ≤ probeDown then dead probeDown
        else { common with kind := if streak.length > 0 then .suspect else .ok }
      | .dbguard =>
        if enough ∧ quorum ∧ p.detectWindowS ≤ min probeDown quorumS then
          dead (max probeDown quorumS)
        else if streak.length > 0 then { common with kind := .suspect }
        else if quorum then { common with kind := .replicasOnly }
        else common

end DbGuard
