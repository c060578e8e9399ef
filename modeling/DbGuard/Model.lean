import DbGuard.Gtid

/-!
# `DbGuard.Model`: what the manager reasons over

The plain data of `manager/model.py`. Each poll turns the `/status` answer of every agent
into a `NodeView`, and one poll of a set is an `Observation`. `NodeView.held` is the
source's `NodeView.have`, the union of what a node has executed and what it has only
retrieved (`have` is a keyword of Lean).

A node view here carries no timestamp. `NodeView.ts` is read by the status cache alone,
and the cache is not part of this module. Times are integers in a unit of which a
configuration says how many make a second.
-/

set_option autoImplicit false

namespace DbGuard

/-- A node's name in fleet.yaml. -/
abbrev Node := String

/-- A clock reading or a duration. -/
abbrev Time := Int

/-- `class State`. -/
inductive State
  | discovering
  | healthy
  | suspect
  | failingOver
  | degraded
  | rebuilding
  | halted
deriving DecidableEq, Repr

/-- The two modes of a fleet. -/
inductive Mode
  | dbguard
  | naive
deriving DecidableEq, Repr

/-- What SHOW REPLICA STATUS says of a replication thread. -/
inductive Running
  | yes
  | no
  | connecting
deriving DecidableEq, Repr

/-! ### The body of an agent's `/status` -/

/-- The `replica` object. -/
structure ReplicaBody where
  configured : Bool := false
  sourceHost : Option Node := none
  ioRunning : Option Running := none
  sqlRunning : Option Running := none
  secondsBehindSource : Option Time := none
  retrievedGtidSet : Option GtidText := none
  executedGtidSet : Option GtidText := none
  lastIoError : Option String := none
  lastSqlError : Option String := none

/-- The `semisync` object. -/
structure SemisyncBody where
  sourceEnabled : Option Bool := none
  replicaEnabled : Option Bool := none
  sourceClients : Option Int := none
  waitSessions : Option Int := none

/-- The `heartbeat` object. -/
structure HeartbeatBody where
  ageS : Option Time := none
  stalledS : Option Time := none

/-- The JSON object that an agent answers to `/status`, as far as the manager reads it.
`error` is there too, which says that the agent did not get all of it from mysqld in time. No
code of the manager reads that field. -/
structure StatusBody where
  mysqldAlive : Bool := false
  mysqldResponsive : Bool := false
  fenced : Bool := false
  superReadOnly : Option Bool := none
  gtidExecuted : Option GtidText := none
  replica : Option ReplicaBody := none
  semisync : Option SemisyncBody := none
  sourceReachable : Option Bool := none
  heartbeat : Option HeartbeatBody := none
  error : Option String := none

/-! ### Views -/

/-- `_gs`, a GTID set from JSON, empty when missing or unparseable. -/
def gs : Option GtidText → GtidSet
  | some (.set s) => s
  | some (.malformed _) => .empty
  | none => .empty

/-- `s or None`. -/
def orNone (s : Option String) : Option String := s.filter (· ≠ "")

/-- `class ReplicaView`. -/
structure ReplicaView where
  configured : Bool := false
  sourceHost : Option Node := none
  ioRunning : Option Running := none
  sqlRunning : Option Running := none
  secondsBehindSource : Option Time := none
  retrieved : GtidSet := .empty
  executed : GtidSet := .empty
  lastIoError : Option String := none
  lastSqlError : Option String := none

/-- `ReplicaView.from_json`. -/
def ReplicaView.fromJson (d : Option ReplicaBody) : ReplicaView :=
  let d := d.getD {}
  { configured := d.configured
    sourceHost := d.sourceHost
    ioRunning := d.ioRunning
    sqlRunning := d.sqlRunning
    secondsBehindSource := d.secondsBehindSource
    retrieved := gs d.retrievedGtidSet
    executed := gs d.executedGtidSet
    lastIoError := orNone d.lastIoError
    lastSqlError := orNone d.lastSqlError }

/-- `class SemisyncView`. -/
structure SemisyncView where
  sourceEnabled : Bool := false
  replicaEnabled : Bool := false
  sourceClients : Int := 0

/-- `SemisyncView.from_json`. A missing field keeps its default. -/
def SemisyncView.fromJson (d : Option SemisyncBody) : SemisyncView :=
  let d := d.getD {}
  { sourceEnabled := d.sourceEnabled.getD false
    replicaEnabled := d.replicaEnabled.getD false
    sourceClients := d.sourceClients.getD 0 }

/-- `class NodeView`. -/
structure NodeView where
  name : Node
  reachable : Bool
  error : Option String := none
  mysqldAlive : Bool := false
  mysqldResponsive : Bool := false
  fenced : Bool := false
  superReadOnly : Option Bool := none
  gtidExecuted : GtidSet := .empty
  replica : ReplicaView := {}
  semisync : SemisyncView := {}
  sourceReachable : Option Bool := none
  heartbeatAgeS : Option Time := none
  raw : Option StatusBody := none

namespace NodeView

/-- `NodeView.unreachable`. -/
def unreachable (name : Node) (error : String) : NodeView :=
  { name, reachable := false, error := some error }

/-- `NodeView.from_status`. -/
def fromStatus (name : Node) (d : StatusBody) : NodeView :=
  { name
    reachable := true
    mysqldAlive := d.mysqldAlive
    mysqldResponsive := d.mysqldResponsive
    fenced := d.fenced
    superReadOnly := d.superReadOnly
    gtidExecuted := gs d.gtidExecuted
    replica := ReplicaView.fromJson d.replica
    semisync := SemisyncView.fromJson d.semisync
    sourceReachable := d.sourceReachable
    heartbeatAgeS := d.heartbeat.bind (·.ageS)
    raw := some d }

/-- `AgentClient.status`, from the answer of the request or the text of its error. -/
def ofAnswer (name : Node) : Except String StatusBody → NodeView
  | .ok d => fromStatus name d
  | .error e => unreachable name e

/-- The view is of the node that was asked. -/
@[simp] theorem ofAnswer_name (n : Node) (a : Except String StatusBody) :
    (ofAnswer n a).name = n := by
  cases a <;> rfl

variable (nv : NodeView)

/-- Agent answers and mysqld answers. -/
def usable : Bool := nv.reachable && nv.mysqldResponsive

/-- Accepting writes: answering, super_read_only off and not fenced. -/
def writable : Bool := nv.usable && nv.superReadOnly == some false && !nv.fenced

/-- What the node has applied: `gtid_executed | replica.executed`. -/
def applied : GtidSet := nv.gtidExecuted ∪ nv.replica.executed

/-- `have`: everything the node holds, applied or only in its relay log. -/
def held : GtidSet := nv.applied ∪ nv.replica.retrieved

/-- Every retrieved transaction has been applied. -/
def relayApplied : Bool := nv.replica.retrieved.isSubset nv.applied

/-- Streaming from `primary` with both threads running. -/
def replicatingFrom (primary : Option Node) : Bool :=
  nv.usable && nv.replica.configured && primary.isSome && nv.replica.sourceHost == primary &&
    nv.replica.ioRunning == some .yes && nv.replica.sqlRunning == some .yes

/-- What a node holds: executed or received. -/
theorem mem_held (g : Gtid) : g ∈ nv.held ↔ g ∈ nv.applied ∨ g ∈ nv.replica.retrieved :=
  GtidSet.mem_union _ _ g

/-- Everything received is executed. -/
@[simp] theorem relayApplied_iff : nv.relayApplied = true ↔ nv.replica.retrieved ⊆ nv.applied :=
  GtidSet.isSubset_iff _ _

/-- A node whose relay log is applied holds what it has applied. -/
theorem held_subset_applied (h : nv.relayApplied = true) : nv.held ⊆ nv.applied := by
  intro g hg
  rcases (nv.mem_held g).mp hg with hg | hg
  · exact hg
  · exact (nv.relayApplied_iff.mp h) g hg

end NodeView

/-- A dict of node views: `keys` in insertion order, and the view of each. -/
structure Views where
  keys : List Node
  view : Node → NodeView

namespace Views

/-- `views.get(n)`. -/
def get? (vs : Views) (n : Node) : Option NodeView :=
  if n ∈ vs.keys then some (vs.view n) else none

/-- `{}`. -/
def empty : Views := ⟨[], fun n => .unreachable n ""⟩

/-- The views of some nodes, from the answer of each. -/
def ofAnswers (ns : List Node) (a : Node → Except String StatusBody) : Views :=
  ⟨ns, fun n => .ofAnswer n (a n)⟩

variable {vs : Views} {ns : List Node} {a : Node → Except String StatusBody} {n : Node}

/-- A node that was looked at has its view. -/
theorem get?_of_mem (h : n ∈ vs.keys) : vs.get? n = some (vs.view n) := if_pos h

/-- Nothing is known without views. -/
@[simp] theorem get?_empty : Views.empty.get? n = none := by simp [get?, empty]

/-- The views are of the nodes that were asked. -/
@[simp] theorem ofAnswers_keys : (ofAnswers ns a).keys = ns := rfl

/-- Each view is made of the node's answer. -/
@[simp] theorem ofAnswers_view : (ofAnswers ns a).view n = .ofAnswer n (a n) := rfl

end Views

/-- Why a probe failed. -/
inductive ProbeFailure
  | timeout
  | connect
  | readonly
  | error
deriving DecidableEq, Repr

/-- `class ProbeResult`. -/
structure ProbeResult where
  ok : Bool
  selectOk : Bool := false
  kind : Option ProbeFailure := none
  error : Option String := none
deriving DecidableEq

/-- SELECT 1 answered but the write timed out. -/
def ProbeResult.writeStalled (p : ProbeResult) : Bool :=
  p.selectOk && !p.ok && p.kind == some .timeout

/-- `class Observation`, one poll of one set. -/
structure Observation where
  ts : Time
  primary : Option Node
  probe : Option ProbeResult
  nodes : Views

end DbGuard
