import DbGuard.Machine
import DbGuard.Model
import Mathlib.Logic.Function.Basic

/-!
# `DbGuard.Fake`: the simulated fleet

`manager/fake.py`: replica sets without MySQL, against which the manager's own tests run. A
`FakeNode` is one mysqld with its agent, and `FakeFleet.step` moves time forward: commits on
the writable nodes, replication into the relay logs, and the SQL threads. `acked` is what
clients were told is safe, so it is exactly what a failover must keep.

`FakeFleet.move` makes the fleet a machine in the sense of `DbGuard.Machine`. Its moves are
the steps, the faults that the simulation can inject, and the agents' and the prober's
requests at the moment at which they take effect. A request reaches an agent only while its
container is up and not frozen. A handler that sleeps in the middle of its work is two moves.

Delays, the log of calls and the counters of the tests are left out.
-/

set_option autoImplicit false

namespace DbGuard

/-! ### A bounded part of a GTID set -/

/-- The first transactions of some intervals, at most `budget`, with what is left of the
budget. -/
def takeIntervals : Int → List (Int × Int) → List (Int × Int) × Int
  | budget, [] => ([], budget)
  | budget, iv :: ivs =>
    if budget ≤ 0 then ([], budget)
    else
      let e := min iv.2 (iv.1 + budget - 1)
      let rest := takeIntervals (budget - (e - iv.1 + 1)) ivs
      ((iv.1, e) :: rest.1, rest.2)

/-- The same over all entries of a set, in their order. -/
def takeEntries : Int → Mapping → Mapping
  | _, [] => []
  | budget, kv :: m =>
    (kv.1, (takeIntervals budget kv.2).1) :: takeEntries (takeIntervals budget kv.2).2 m

/-- The first numbers of valid intervals are valid intervals. -/
theorem valid_takeIntervals {budget : Int} {ivs : List (Int × Int)} (h : Interval.Valid ivs) :
    Interval.Valid (takeIntervals budget ivs).1 := by
  induction ivs generalizing budget with
  | nil => exact Interval.valid_nil
  | cons iv ivs ih =>
    obtain ⟨hiv, hivs⟩ := (Interval.valid_cons iv ivs).mp h
    unfold takeIntervals
    split
    · exact Interval.valid_nil
    · refine (Interval.valid_cons _ _).mpr ⟨?_, ih hivs⟩
      show iv.1 ≤ min iv.2 (iv.1 + budget - 1)
      omega

/-- Nothing is taken that is not there. -/
theorem mem_takeIntervals {budget n : Int} {ivs : List (Int × Int)}
    (h : Interval.Mem n (takeIntervals budget ivs).1) : Interval.Mem n ivs := by
  induction ivs generalizing budget with
  | nil => exact absurd h (Interval.not_mem_nil n)
  | cons iv ivs ih =>
    unfold takeIntervals at h
    rw [Interval.mem_cons]
    split at h
    · exact absurd h (Interval.not_mem_nil n)
    · rcases (Interval.mem_cons n _ _).mp h with ⟨hlo, hhi⟩ | h
      · have hhi : n ≤ min iv.2 (iv.1 + budget - 1) := hhi
        exact .inl ⟨hlo, by omega⟩
      · exact .inr (ih h)

/-- The keys stay. -/
theorem keys_takeEntries (budget : Int) (m : Mapping) :
    (takeEntries budget m).map Prod.fst = m.map Prod.fst := by
  induction m generalizing budget with
  | nil => rfl
  | cons kv m ih => rw [takeEntries, List.map_cons, List.map_cons, ih]

/-- So it is for a whole mapping. -/
theorem valid_takeEntries {budget : Int} {m : Mapping} (h : ∀ kv ∈ m, Interval.Valid kv.2) :
    ∀ kv ∈ takeEntries budget m, Interval.Valid kv.2 := by
  induction m generalizing budget with
  | nil =>
    intro kv hkv
    exact absurd hkv List.not_mem_nil
  | cons kv' m ih =>
    intro kv hkv
    rcases List.mem_cons.mp hkv with rfl | hkv
    · exact valid_takeIntervals (h kv' List.mem_cons_self)
    · exact ih (fun kv hkv => h kv (List.mem_cons_of_mem _ hkv)) kv hkv

/-- What is taken was there. -/
theorem mem_takeEntries {budget : Int} {m : Mapping} {g : Gtid}
    (h : ∃ kv ∈ takeEntries budget m, kv.1 = g.1 ∧ Interval.Mem g.2 kv.2) :
    ∃ kv ∈ m, kv.1 = g.1 ∧ Interval.Mem g.2 kv.2 := by
  induction m generalizing budget with
  | nil =>
    obtain ⟨kv, hkv, -⟩ := h
    exact absurd hkv List.not_mem_nil
  | cons kv' m ih =>
    obtain ⟨kv, hkv, hkey, hmem⟩ := h
    rcases List.mem_cons.mp hkv with rfl | hkv
    · exact ⟨kv', List.mem_cons_self, hkey, mem_takeIntervals hmem⟩
    · obtain ⟨kv, hkv, hg⟩ := ih ⟨kv, hkv, hkey, hmem⟩
      exact ⟨kv, List.mem_cons_of_mem _ hkv, hg⟩

namespace GtidSet

/-- The intervals of a set are valid. -/
theorem valid_entries (s : GtidSet) : ∀ kv ∈ s.entries, Interval.Valid kv.2 :=
  fun kv hkv => (s.normal kv hkv).2.2

/-- The first transactions of a set, at most `budget`. -/
def takeFirst (s : GtidSet) (budget : Int) : GtidSet :=
  build (takeEntries budget s.entries) (valid_takeEntries s.valid_entries)
    (Eq.subst (keys_takeEntries budget s.entries).symm s.keys_nodup)

/-- The first transactions of a set are some of it. -/
theorem takeFirst_subset (s : GtidSet) (budget : Int) : s.takeFirst budget ⊆ s :=
  fun g hg => mem_takeEntries ((mem_build g).mp hg)

end GtidSet

/-! ### The fleet -/

/-- `class FakeNode`. Its name is its key in the fleet. `partialTail` is the source's
`partial`: what is in the relay log and can never be applied. -/
structure FakeNode where
  rs : String
  uuid : String
  executed : GtidSet := .empty
  retrieved : GtidSet := .empty
  superReadOnly : Bool := true
  fenced : Bool := false
  source : Option Node := none
  semisyncSource : Bool := false
  semisyncReplica : Bool := false
  alive : Bool := true
  hung : Bool := false
  frozen : Bool := false
  mysqldUp : Bool := true
  applyPerStep : Int := 1000
  receive : Bool := true
  heartbeatTs : Option Time := none
  nextGno : Int := 1
  sqlError : Option String := none
  ioStopped : Bool := false
  pending : GtidSet := .empty
  pendingUntil : Option Time := none
  hideWaiting : Bool := false
  partialTail : GtidSet := .empty

namespace FakeNode

variable (n : FakeNode)

/-- `responsive`: container up, mysqld up and not stopped. -/
def responsive : Bool := n.alive && n.mysqldUp && !n.hung && !n.frozen

/-- `writable`: accepts writes. -/
def writable : Bool := n.responsive && !n.superReadOnly && !n.fenced

/-- Everything the node holds, applied or only in its relay log. -/
def held : GtidSet := n.executed ∪ n.retrieved

/-- A node holds what it has executed or retrieved. -/
theorem mem_held {g : Gtid} : g ∈ n.held ↔ g ∈ n.executed ∨ g ∈ n.retrieved :=
  GtidSet.mem_union _ _ g

end FakeNode

/-- `class FakeFleet`. `order` are the names of the nodes in the order of their dict.
`killing` and `cloning` are the handlers of /fence and /rebuild that sleep. -/
structure FakeFleet where
  semisync : Bool
  sets : List (String × List Node)
  order : List Node
  node : Node → FakeNode
  cut : List (Node × Node) := []
  managerCut : List Node := []
  writing : Bool := false
  acked : String → GtidSet := fun _ => .empty
  stalled : Node → Bool := fun _ => false
  killing : List Node := []
  cloning : List (Node × Node) := []

namespace FakeFleet

/-- The names of a set's members. -/
def members (sets : List (String × List Node)) (rs : String) : List Node :=
  ((sets.find? fun s => s.1 = rs).map Prod.snd).getD []

/-- The set that a node is created for, as member or spare. -/
def setOf (sets : List (String × List Node)) (spares : List (String × Node)) (n : Node) :
    String :=
  match sets.find? fun s => n ∈ s.2 with
  | some s => s.1
  | none => ((spares.find? fun s => s.2 = n).map Prod.fst).getD ""

/-- `FakeFleet.__init__`, with the uuid of each node. A spare is not started. -/
def new (sets : List (String × List Node)) (semisync : Bool) (spares : List (String × Node))
    (uuid : Node → String) : FakeFleet :=
  { semisync, sets
    order := (sets.flatMap Prod.snd ++ spares.map Prod.snd).dedup
    node := fun n =>
      { rs := setOf sets spares n, uuid := uuid n, alive := !(spares.map Prod.snd).contains n } }

variable (F : FakeFleet)

/-- `self.nodes.get(n)`. -/
def get? (n : Node) : Option FakeNode := if n ∈ F.order then some (F.node n) else none

/-- Change one node. -/
def modify (n : Node) (f : FakeNode → FakeNode) : FakeFleet :=
  { F with node := Function.update F.node n (f (F.node n)) }

/-- `can_talk`: true unless the pair is cut. -/
def canTalk (a b : Node) : Bool := (a, b) ∉ F.cut && (b, a) ∉ F.cut

/-- `io_ok`: the IO thread of `r` can receive from its source now. -/
def ioOk (r : Node) : Bool :=
  (F.node r).responsive && !(F.node r).ioStopped &&
    match (F.node r).source with
    | none => false
    | some src => src ∈ F.order && (F.node src).responsive && F.canTalk r src

/-- A node whose IO thread is fine has not stopped it. -/
theorem ioStopped_of_ioOk {F : FakeFleet} {r : Node} (h : F.ioOk r = true) :
    (F.node r).ioStopped = false := by
  simp only [ioOk, Bool.and_eq_true, Bool.not_eq_true'] at h
  exact h.1.2

/-- `setup_replication`: make `primary` writable and the other members its replicas. -/
def setupReplication (rs : String) (primary : Node) : FakeFleet :=
  (members F.sets rs).foldl (fun F n =>
    F.modify n fun node =>
      if n = primary then { node with superReadOnly := false, semisyncSource := F.semisync }
      else { node with source := some primary, semisyncReplica := F.semisync }) F

/-! ### One step of time -/

/-- The waiting sessions of a node finish committing. -/
def flush (now : Time) (F : FakeFleet) (n : Node) : FakeFleet :=
  let node := F.node n
  if !node.pending.isEmpty && node.responsive && node.pendingUntil.any (· ≤ now) then
    F.modify n fun node =>
      { node with executed := node.executed ∪ node.pending, pending := .empty }
  else F

/-- The replicas that could acknowledge a commit of `n`. -/
def ackers (n : Node) : List Node :=
  F.order.filter fun r =>
    (F.node r).source == some n && F.ioOk r && (F.node r).semisyncReplica && (F.node r).receive

/-- The workload writes to node `n` of set `rs`. Without a semi-sync replica the commit of a
semi-sync source stalls. A source without semi-sync acknowledges at once. -/
def commit (now : Time) (rs : String) (F : FakeFleet) (n : Node) : FakeFleet :=
  let p := F.node n
  if !p.writable then F
  else
    let stuck := p.semisyncSource && (F.ackers n).isEmpty
    let g := GtidSet.ofInterval p.uuid p.nextGno p.nextGno
    let F₁ :=
      if !F.writing then F
      else if stuck then { F with stalled := Function.update F.stalled n true }
      else
        let F := { F with stalled := Function.update F.stalled n false }
        let F := F.modify n fun p =>
          { p with nextGno := p.nextGno + 1, executed := p.executed ∪ g }
        if p.semisyncSource then F
        else { F with acked := Function.update F.acked rs (F.acked rs ∪ g) }
    if stuck then F₁ else F₁.modify n fun p => { p with heartbeatTs := some now }

/-- A replica receives what it lacks. With semi-sync at both ends, that acknowledges it. -/
def receiveFrom (F : FakeFleet) (r : Node) : FakeFleet :=
  let node := F.node r
  match node.source with
  | none => F
  | some src =>
    if !F.ioOk r || !node.receive then F
    else
      let source := F.node src
      let new := (source.executed \ node.executed) \ node.retrieved
      let F := F.modify r fun node =>
        { node with retrieved := node.retrieved ∪ new, heartbeatTs := source.heartbeatTs }
      if source.semisyncSource && node.semisyncReplica then
        { F with acked := Function.update F.acked node.rs (F.acked node.rs ∪ new) }
      else F

/-- The SQL thread of a node applies the head of its relay log. -/
def applyRelay (F : FakeFleet) (r : Node) : FakeFleet :=
  let node := F.node r
  if !node.responsive || (orNone node.sqlError).isSome then F
  else
    let todo := (node.retrieved \ node.executed) \ node.partialTail
    F.modify r fun node =>
      { node with executed := node.executed ∪ todo.takeFirst node.applyPerStep }

/-- The nodes of a set, members first. -/
def nodesOf (rs : String) : List Node :=
  members F.sets rs ++
    F.order.filter fun n => (F.node n).rs == rs && !(members F.sets rs).contains n

/-- `step`: commit, replicate into relay logs, apply. -/
def step (now : Time) : FakeFleet :=
  let F := F.order.foldl (flush now) F
  let F := F.sets.foldl (fun F s => (F.nodesOf s.1).foldl (commit now s.1) F) F
  let F := F.order.foldl receiveFrom F
  F.order.foldl applyRelay F

/-! ### What agent and prober answer -/

/-- `status_body`. -/
def statusBody (now : Time) (name : Node) : StatusBody :=
  let node := F.node name
  let whenUp {α : Type} (a : α) : Option α := if node.responsive then some a else none
  let io : Option Running :=
    if node.source.isSome && node.responsive then
      some (if node.ioStopped then .no else if F.ioOk name then .yes else .connecting)
    else none
  let sql : Option Running :=
    if node.source.isSome && node.responsive then
      some (if (orNone node.sqlError).isSome then .no else .yes)
    else none
  let clients := (F.order.filter fun r =>
    (F.node r).source == some name && F.ioOk r && (F.node r).semisyncReplica).length
  { mysqldAlive := node.alive && node.mysqldUp
    mysqldResponsive := node.responsive
    fenced := node.fenced
    superReadOnly := whenUp node.superReadOnly
    gtidExecuted := whenUp (.set node.executed)
    replica := some
      { configured := node.source.isSome && node.responsive
        sourceHost := if node.responsive then node.source else none
        ioRunning := io
        sqlRunning := sql
        secondsBehindSource := if io = some .yes then some 0 else none
        retrievedGtidSet := whenUp (.set node.retrieved)
        executedGtidSet := whenUp (.set node.executed)
        lastIoError := if io = some .connecting then some "cannot connect" else none
        lastSqlError := node.sqlError }
    semisync := some
      { sourceEnabled := some node.semisyncSource
        replicaEnabled := some node.semisyncReplica
        sourceClients := some clients
        waitSessions := some (if node.hideWaiting then 0 else node.pending.count) }
    sourceReachable := node.source.map fun src =>
      (F.get? src).any fun s => s.alive && !s.frozen && F.canTalk name src
    heartbeat := some
      { ageS := (node.heartbeatTs.filter (· ≠ 0)).map fun ts => now - ts } }

/-- `FakeProber.replica_state`, the state of the SQL thread. None when the node does not
answer or has no such state. -/
def replicaState (name : Node) : Option String :=
  let node := F.node name
  if !node.responsive || node.source.isNone then none
  else if (node.retrieved \ node.executed).isSubset node.partialTail then
    some "Replica has read all relay log; waiting for more updates"
  else some "Waiting for dependent transaction to commit"

/-! ### The moves -/

/-- What can happen to the fleet: time, the faults, and the requests taking effect. -/
inductive Move
  | step (now : Time)
  | setup (rs : String) (primary : Node)
  | write (on : Bool)
  | partition (a b : Node)
  | heal
  | cutManager (n : Node)
  | kill (n : Node)
  | start (n : Node)
  | hang (n : Node) (on : Bool)
  | freeze (n : Node) (on : Bool)
  | mysqld (n : Node) (up : Bool)
  | receive (n : Node) (on : Bool)
  | applyPerStep (n : Node) (k : Int)
  | sqlError (n : Node) (e : Option String)
  | hide (n : Node) (on : Bool)
  | reroute (n source : Node)
  | errant (n : Node) (g : GtidSet)
  | wait (n : Node) (g : GtidSet) (till : Option Time)
  | tear (n : Node) (g : GtidSet)
  | fence (n : Node)
  | killed (n : Node)
  | unfence (n : Node)
  | promote (n : Node)
  | repoint (n : Node) (source : Option Node)
  | rebuild (n donor : Node)
  | rebuilt (n donor : Node)
  | stopIo (n : Node)

/-- The agent's HTTP server answers: the container is up and not frozen. -/
def answers (n : Node) : Bool := (F.get? n).any fun node => node.alive && !node.frozen

/-- The node is there, and its mysqld answers. -/
def serves (n : Node) : Bool := (F.get? n).any (·.responsive)

/-- `fence`. A hung or dead mysqld is killed first. -/
def fence (n : Node) : FakeFleet :=
  if (F.node n).hung || !(F.node n).mysqldUp then
    { F.modify n fun node => { node with fenced := true } with killing := n :: F.killing }
  else F.modify n fun node => { node with fenced := true, superReadOnly := true }

/-- The end of a fence by kill. -/
def killed (n : Node) : FakeFleet :=
  { F.modify n fun node => { node with hung := false, mysqldUp := true, superReadOnly := true } with
    killing := F.killing.erase n }

/-- `promote`. -/
def promote (n : Node) : FakeFleet :=
  F.modify n fun node =>
    { node with
      source := none, retrieved := .empty, partialTail := .empty, ioStopped := false
      semisyncReplica := false, semisyncSource := F.semisync, superReadOnly := false
      fenced := false }

/-- `_repoint`. Its CHANGE REPLICATION SOURCE purges the relay log. -/
def repoint (n : Node) (source : Option Node) : FakeFleet :=
  F.modify n fun node =>
    { node with
      superReadOnly := true, semisyncSource := false, semisyncReplica := F.semisync
      source, retrieved := .empty, partialTail := .empty, ioStopped := false
      sqlError := none }

/-- The start of `rebuild`: replication is gone while cloning. -/
def rebuild (n donor : Node) : FakeFleet :=
  { F.modify n fun node => { node with source := none } with
    cloning := (n, donor) :: F.cloning }

/-- The end of `rebuild`. -/
def rebuilt (n donor : Node) : FakeFleet :=
  { F.modify n fun node =>
      { node with
        executed := (F.node donor).executed, retrieved := .empty, source := none
        superReadOnly := true, sqlError := none } with
    cloning := F.cloning.erase (n, donor) }

/-- `start`: mysqld boots read-only, and relay_log_recovery discards the relay log. -/
def start (n : Node) : FakeFleet :=
  F.modify n fun node =>
    { node with
      alive := true, mysqldUp := true, hung := false, frozen := false, superReadOnly := true
      semisyncSource := false, retrieved := .empty }

/-- A fault at one node of the fleet. -/
def fault (n : Node) (f : FakeNode → FakeNode) : Option FakeFleet :=
  if n ∈ F.order then some (F.modify n f) else none

/-- Make one move. A request is refused where it does not take effect. -/
def move (F : FakeFleet) : Move → Option FakeFleet
  | .step now => some (F.step now)
  | .setup rs primary => some (F.setupReplication rs primary)
  | .write on => some { F with writing := on }
  | .partition a b => some { F with cut := (a, b) :: F.cut }
  | .heal => some { F with cut := [], managerCut := [] }
  | .cutManager n => some { F with managerCut := n :: F.managerCut }
  | .kill n => F.fault n fun node => { node with alive := false, mysqldUp := false }
  | .start n => if n ∈ F.order then some (F.start n) else none
  | .hang n on => F.fault n fun node => { node with hung := on }
  | .freeze n on => F.fault n fun node => { node with frozen := on }
  | .mysqld n up => F.fault n fun node => { node with mysqldUp := up }
  | .receive n on => F.fault n fun node => { node with receive := on }
  | .applyPerStep n k => F.fault n fun node => { node with applyPerStep := k }
  | .sqlError n e => F.fault n fun node => { node with sqlError := e }
  | .hide n on => F.fault n fun node => { node with hideWaiting := on }
  | .reroute n source => F.fault n fun node => { node with source := some source }
  | .errant n g => F.fault n fun node => { node with executed := node.executed ∪ g }
  | .wait n g till => F.fault n fun node => { node with pending := g, pendingUntil := till }
  | .tear n g =>
    F.fault n fun node => { node with retrieved := node.retrieved ∪ g, partialTail := g }
  | .fence n => if F.answers n then some (F.fence n) else none
  | .killed n => if n ∈ F.killing then some (F.killed n) else none
  | .unfence n =>
    if F.answers n then some (F.modify n fun node => { node with fenced := false }) else none
  | .promote n => if F.serves n then some (F.promote n) else none
  | .repoint n source => if F.serves n then some (F.repoint n source) else none
  | .rebuild n donor =>
    if F.answers n && donor ∈ F.order then some (F.rebuild n donor) else none
  | .rebuilt n donor => if (n, donor) ∈ F.cloning then some (F.rebuilt n donor) else none
  | .stopIo n =>
    if F.serves n then some (F.modify n fun node => { node with ioStopped := true }) else none

end FakeFleet

end DbGuard
