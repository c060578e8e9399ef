import Mathlib.Logic.Function.Basic
import DbGuard.Agent.Mysqld
import DbGuard.Coop.Triple

/-!
# `DbGuard.Agent.Roles`: the role changes of an agent

`fence`, `unfence`, `promote`, `repoint`, `configure` and `rebuild` of `agent/core.py`. A fence
takes only the fence lock, and a role change the role lock; promote takes the fence lock inside
it to clear the flag.

Each statement and each lock can fail. A statement that takes too long or loses the link closes
its session, and later statements on this raise at once. The deadline of a request cuts promote,
repoint and configure at any await: the await raises. A rebuild has no deadline, and the same cut
is there the cancellation of its request. The runtime toggles of configure, the metrics, the
samples of `/primary` and the texts of the answers are left out.
-/

set_option autoImplicit false

namespace DbGuard

/-- Which of the agent's two locks: `_fence_lock`, `_role_lock`. -/
inductive LockName
  | fence
  | role
deriving DecidableEq, Repr

/-- `asyncio.Lock`. -/
structure Mutex where
  owner : Option Nat := none
  waiters : List Nat := []
deriving DecidableEq, Repr

/-- The part of `class Agent` that decides the node's role, with its mysqld. `disk` says whether
the fence file can be changed, `calls` is the statement each task waits for, and `late` what
mysqld has of the tasks that gave up. `sessions` are the sessions opened so far, each with the
start of mysqld that it was opened to, and `closed` says whether the last one of a task is
closed. `expired` are the tasks whose deadline has passed, and the rebuilds that were
cancelled. -/
structure Agent where
  semisync : Bool
  supervised : Bool
  fenced : Bool
  rebuilding : Bool := false
  held : Bool := false
  disk : Bool := true
  locks : LockName → Mutex := fun _ => {}
  mysqld : Mysqld := {}
  calls : Nat → Option Call := fun _ => none
  late : List Call := []
  sessions : List (Nat × SessionId) := []
  closed : Nat → Bool := fun _ => false
  expired : List Nat := []

namespace Agent

open Coop (attempt)

/-- Why a request fails: a `DbError` with its code, an `AgentError` with its status, the
deadline or the cancellation, or an error of the file system. -/
inductive Failure
  | db (code : Option Nat) (timeout : Bool)
  | agent (status : Nat)
  | deadline
  | os
deriving DecidableEq, Repr

/-- The status of the answer. -/
def Failure.status : Failure → Nat
  | .db _ timeout => if timeout then 503 else 500
  | .agent status => status
  | .deadline => 504
  | .os => 500

/-- `RESTART_CLIENT_CODES`. -/
def restartClientCodes : List Nat := [0, 2006, 2013, 2055]

/-- `CLONE_NOT_SUPERVISED`. -/
def cloneNotSupervised : Nat := 3707

/-- The codes of a CLONE that is done, with the restart of mysqld yet to come. -/
def pendsRestart (code : Option Nat) : Bool :=
  code.any fun k => k = cloneNotSupervised || k ∈ restartClientCodes

/-- The failures after which `_run` closes the session: the statement took too long, or the link
is gone. -/
def Failure.closes : Failure → Bool
  | .db code timeout => timeout || code.all fun k => k = 0 || 2000 ≤ k
  | .agent _ | .deadline | .os => false

/-- Whether the answer of a statement closes its session. -/
def closes {α : Type} : Except Failure α → Bool
  | .ok _ => false
  | .error e => e.closes

/-- The requests to an agent. The guards and the lease call fence() as well, and the start of
the agent or of mysqld calls configure. -/
inductive Job
  | fence
  | unfence
  | promote
  | repoint (source : Node)
  | configure (semisync : Option Bool)
  | rebuild (donor : Node)
deriving DecidableEq, Repr

/-- The changes. From `execute` on they come from outside: mysqld executes the statement of a
task or one that was given up, crashes or boots, a deadline passes, the disk changes. -/
inductive Update
  | enqueue (l : LockName) (t : Nat)
  | dequeue (l : LockName) (t : Nat)
  | acquire (l : LockName) (t : Nat)
  | release (l : LockName)
  | fenced (b : Bool)
  | semisync (b : Bool)
  | rebuilding (b : Bool)
  | opened (t gen : Nat)
  | send (t gen : Nat) (q : Stmt)
  | settle (t : Nat) (shut : Bool)
  | hold
  | kill
  | execute (t : Nat) (row : Row)
  | land (k : Nat)
  | crash
  | boot (replicaEnabled : Bool)
  | expire (t : Nat)
  | disk (b : Bool)
deriving DecidableEq, Repr

/-- What a task waits for, beside its locks. -/
inductive Req
  | sql (q : Stmt)
  | connect
  | sample
  | waitExit
  | waitRestart (gen : Nat)
  | waitResponsive
  | ownGtid
  | donorGtid (donor : Node)
  | reply (status : Nat)
deriving DecidableEq, Repr

/-- The answers. A connection is to the mysqld of some generation. -/
def Req.Resp : Req → Type
  | .sql _ => Except Failure Row
  | .connect => Except Failure Nat
  | .sample | .ownGtid | .donorGtid _ => Except Failure Unit
  | .waitExit | .waitRestart _ | .waitResponsive => Except Failure Bool
  | .reply _ => Unit

variable (s : Agent)

/-- A change of one lock. -/
def onLock (l : LockName) (f : Mutex → Mutex) : Agent :=
  { s with locks := Function.update s.locks l (f (s.locks l)) }

/-- The task that holds the role lock. -/
def holder : Option Nat := (s.locks .role).owner

/-- mysqld executes the statement that task `t` waits for. -/
def execute (t : Nat) (row : Row) : Agent :=
  match s.calls t with
  | none => s
  | some c =>
    { s with
      mysqld := s.mysqld.exec c.stmt
      calls := Function.update s.calls t (some { c with row := some row }) }

/-- The session that task `t` has opened last. -/
def session (t : Nat) : SessionId where
  task := t
  no := (s.sessions.filter fun x => x.2.task = t).length

/-- Task `t` opens a session to the mysqld of generation `gen`. -/
def opened (t gen : Nat) : Agent :=
  { s with
    sessions := s.sessions ++ [(gen, { task := t, no := (s.session t).no + 1 })]
    closed := Function.update s.closed t false }

/-- Task `t` does not wait for its statement any more, and its session is closed or not. -/
def settle (t : Nat) (shut : Bool) : Agent :=
  { s with
    calls := Function.update s.calls t none
    late := s.late ++ ((s.calls t).filter (·.row.isNone)).toList
    closed := if shut then Function.update s.closed t true else s.closed }

/-- mysqld executes a statement that was given up. -/
def land (k : Nat) : Agent :=
  match s.late[k]? with
  | none => s
  | some c => { s with mysqld := s.mysqld.exec c.stmt, late := s.late.eraseIdx k }

/-- What a change does. -/
def Update.apply : Update → Agent → Agent
  | .enqueue l t, s => s.onLock l fun m => { m with waiters := m.waiters ++ [t] }
  | .dequeue l t, s => s.onLock l fun m => { m with waiters := m.waiters.erase t }
  | .acquire l t, s => s.onLock l fun m => { owner := some t, waiters := m.waiters.erase t }
  | .release l, s => s.onLock l fun m => { m with owner := none }
  | .fenced b, s => { s with fenced := b }
  | .semisync b, s => { s with semisync := b }
  | .rebuilding b, s => { s with rebuilding := b }
  | .opened t gen, s => s.opened t gen
  | .send t gen q, s =>
    { s with calls := Function.update s.calls t (some { gen, session := s.session t, stmt := q }) }
  | .settle t shut, s => s.settle t shut
  | .hold, s => { s with held := true }
  | .kill, s => { s with mysqld := { s.mysqld with up := false } }
  | .execute t row, s => s.execute t row
  | .land k, s => s.land k
  | .crash, s => { s with mysqld := { s.mysqld with up := false } }
  | .boot replicaEnabled, s => { s with mysqld := s.mysqld.boot replicaEnabled, held := false }
  | .expire t, s => { s with expired := t :: s.expired }
  | .disk b, s => { s with disk := b }

/-- An agent as a system of cooperative tasks. -/
def sig : Coop.Sig where
  State := Agent
  Update := Update
  apply := Update.apply
  Job := Job
  Req := Req
  Resp := Req.Resp
  retire _ s := s

/-- A task of an agent. -/
abbrev M (α : Type) := Coop.Prog sig α

/-- A task that can raise. -/
abbrev X (α : Type) := ExceptT Failure (Coop.Prog sig) α

/-- The shared state. -/
def state : M Agent := Coop.Prog.get

/-- Change the shared state. -/
def edit (u : Update) : M Unit := Coop.Prog.update u

/-- Wait for an answer. -/
def await (r : Req) : M r.Resp := Coop.Prog.call (S := sig) r

/-- Suspend until the condition holds. -/
def blockUntil (c : Agent → Bool) : M Unit := Coop.Prog.blockUntil (S := sig) c

/-! ### Locks and statements -/

/-- `lock.acquire()`. A free lock that others wait for goes to the first of them. -/
def acquire (l : LockName) (me : Nat) : M Unit := do
  let s ← state
  if (s.locks l).owner = none ∧ (s.locks l).waiters = [] then edit (.acquire l me)
  else
    edit (.enqueue l me)
    blockUntil fun s =>
      (s.locks l).owner.isNone && (s.locks l).waiters.head? == some me
    edit (.acquire l me)

/-- `lock.acquire()` under a deadline. -/
def acquireDeadlined (l : LockName) (me : Nat) : X Unit := do
  let s ← state
  if (s.locks l).owner = none ∧ (s.locks l).waiters = [] then edit (.acquire l me)
  else
    edit (.enqueue l me)
    blockUntil fun s => me ∈ s.expired ||
      ((s.locks l).owner.isNone && (s.locks l).waiters.head? == some me)
    let s ← state
    if me ∈ s.expired then
      edit (.dequeue l me)
      throw .deadline
    else edit (.acquire l me)

/-- The body of `async with lock` once it is held, and the release. -/
def holding {α : Type} (l : LockName) (m : X α) : X α := ExceptT.mk do
  let r ← m.run
  edit (.release l)
  pure r

/-- `async with lock`. -/
def withLock {α : Type} (l : LockName) (me : Nat) (m : X α) : X α := do
  acquire l me
  holding l m

/-- `async with lock` under a deadline. -/
def withLockDeadlined {α : Type} (l : LockName) (me : Nat) (m : X α) : X α := do
  acquireDeadlined l me
  holding l m

/-- `_run`: one statement on the session to the mysqld of generation `gen`. -/
def sql (me gen : Nat) (q : Stmt) : X Row := do
  let s ← state
  if s.closed me then throw (.db none false)
  else ExceptT.mk do
    edit (.send me gen q)
    let a : Except Failure Row ← await (.sql q)
    edit (.settle me (closes a))
    pure a

/-- `db.connect`, or a pooled session, which is named anew. -/
def connect (me : Nat) : X Nat := do
  let gen ← ExceptT.mk (await .connect)
  edit (.opened me gen)
  pure gen

/-- `refresh_primary_sample`. -/
def refreshSample : X Unit := ExceptT.mk (await .sample)

/-- `_set_fenced`: the file, then the flag. -/
def setFenced (value : Bool) : X Unit := do
  let s ← state
  if s.disk then edit (.fenced value) else throw .os

/-- `sup.wait_exit`. -/
def waitExit : X Bool := ExceptT.mk (await .waitExit)

/-- `sup.wait_generation`: mysqld has started since generation `gen`. -/
def waitRestart (gen : Nat) : X Bool := ExceptT.mk (await (.waitRestart gen))

/-- `wait_responsive`. -/
def waitResponsive : X Bool := ExceptT.mk (await .waitResponsive)

/-- `if not ok: raise`. -/
def ensure (ok : Bool) (e : Failure) : X Unit := if ok then pure () else throw e

/-! ### Fence -/

/-- `_fence_set_read_only`: the session that ran the SET. -/
def fenceSetReadOnly (me : Nat) : X Nat := do
  let gen ← connect me
  let _ ← sql me gen (.superReadOnly true)
  pure gen

/-- The KILLs of `_kill_clients`. One that fails is passed over, unless it takes too long. -/
def killAll (me gen : Nat) : List SessionId → X Unit
  | [] => pure ()
  | id :: ids => do
    match ← attempt (sql me gen (.kill id)) with
    | .ok _ => killAll me gen ids
    | .error (.db code timeout) =>
      if timeout then throw (.db code timeout) else killAll me gen ids
    | .error e => throw e

/-- `_kill_clients`. -/
def killClients (me gen : Nat) : X Unit := do
  match ← sql me gen .clientThreads with
  | .threads ids => killAll me gen ids
  | _ => pure ()

/-- `_fence_after_set`: the client threads are killed and gtid_executed is read, or not. -/
def fenceAfterSet (me gen : Nat) : X Unit := do
  let _ ← attempt refreshSample
  let _ ← attempt do
    killClients me gen
    sql me gen .selectGtid
  pure ()

/-- `_fence_kill_mysqld`: the status of the answer. -/
def fenceKillMysqld : X Nat := do
  let s ← state
  if s.supervised then
    edit .hold
    if s.mysqld.up then
      edit .kill
      let _ ← attempt waitExit
      pure 200
    else pure 200
  else pure 500

/-- `fence`: the flag, then super_read_only=1 or the kill. -/
def fence (me : Nat) : X Nat :=
  withLock .fence me do
    setFenced true
    match ← attempt (fenceSetReadOnly me) with
    | .ok gen =>
      fenceAfterSet me gen
      pure 200
    | .error _ => fenceKillMysqld

/-- `unfence`. -/
def unfence (me : Nat) : X Unit := withLock .fence me (setFenced false)

/-! ### Role changes -/

/-- `_end_restart_hold`. `release_hold` lets the supervisor start mysqld. -/
def endRestartHold : X Unit := do
  let s ← state
  if s.held then
    ensure (← waitRestart s.mysqld.gen) (.agent 503)
    ensure (← waitResponsive) (.agent 503)
  else pure ()

/-- `_promote` once the session is open: the source side on, then writable. -/
def promoteOn (me gen : Nat) : X Unit := do
  let _ ← sql me gen .stopReplica
  let _ ← sql me gen .resetReplicaAll
  let _ ← sql me gen (.replicaEnabled false)
  let s ← state
  let _ ← sql me gen (.sourceEnabled s.semisync)
  let _ ← sql me gen (.superReadOnly false)
  withLockDeadlined .fence me (setFenced false)
  refreshSample
  let _ ← sql me gen .selectGtid
  pure ()

/-- `promote`. -/
def promote (me : Nat) : X Unit :=
  withLockDeadlined .role me do
    endRestartHold
    let gen ← connect me
    promoteOn me gen

/-- `_repoint` once the session is open. -/
def repointOn (me gen : Nat) (source : Node) : X Unit := do
  let _ ← sql me gen .stopReplica
  let _ ← sql me gen (.superReadOnly true)
  refreshSample
  let _ ← sql me gen (.sourceEnabled false)
  let s ← state
  let _ ← sql me gen (.replicaEnabled s.semisync)
  let _ ← sql me gen (.changeSource source)
  let _ ← sql me gen .startReplica
  pure ()

/-- `repoint`. -/
def repoint (node : Node) (me : Nat) (source : Node) : X Unit :=
  if source = "" ∨ source = node then throw (.agent 400)
  else
    withLockDeadlined .role me do
      endRestartHold
      let gen ← connect me
      repointOn me gen source

/-- `want_src` of `_configure`. Sessions that wait for an ack keep the source side on. -/
def wantSource (me gen : Nat) (curSource want : Bool) : X Bool := do
  if curSource && !want then
    match ← sql me gen .showWaitSessions with
    | .waitSessions (some n) => pure (n != 0)
    | _ => pure false
  else pure want

/-- The SET of the source side in `_configure`. -/
def configureSource (me gen : Nat) (curSource want : Bool) : X Unit := do
  let want ← wantSource me gen curSource want
  if curSource ≠ want then do
    let _ ← sql me gen (.sourceEnabled want)
    pure ()
  else pure ()

/-- The SET of the replica side in `_configure`, which takes effect when the IO thread
starts. -/
def configureReplica (me gen : Nat) (curReplica want : Bool) : X Unit := do
  if curReplica ≠ want then do
    let _ ← sql me gen (.replicaEnabled want)
    match ← sql me gen .showReplica with
    | .ioRunning true => do
      let _ ← sql me gen .stopIoThread
      let _ ← sql me gen .startIoThread
      pure ()
    | _ => pure ()
  else pure ()

/-- `_configure`: the semi-sync sides for the role that super_read_only and the flag show. -/
def configureOn (me gen : Nat) : X Unit := do
  let sro ← sql me gen .selectSuperReadOnly
  let s ← state
  let writable := sro == .superReadOnly false && !s.fenced
  match ← sql me gen .showSemisync with
  | .semisync curSource curReplica => do
    let s ← state
    configureSource me gen curSource (s.semisync && writable)
    configureReplica me gen curReplica (s.semisync && !writable)
  | _ => pure ()

/-- `if semisync is not None: self.semisync = semisync`. -/
def setSemisync : Option Bool → X Unit
  | some b => edit (.semisync b)
  | none => pure ()

/-- `configure`. -/
def configure (me : Nat) (semisync : Option Bool) : X Unit := do
  setSemisync semisync
  withLockDeadlined .role me do
    let gen ← connect me
    configureOn me gen

/-! ### Rebuild -/

/-- The clone in `rebuild`. The node is writable from the SET to the restart. -/
def cloneFrom (me gen : Nat) (donor : Node) : X Unit := do
  let _ ← sql me gen .stopReplica
  let _ ← sql me gen (.validDonors donor)
  let _ ← sql me gen (.superReadOnly false)
  match ← attempt (sql me gen (.clone donor)) with
  | .ok _ => pure ()
  | .error (.db code _) =>
    if pendsRestart code then pure ()
    else
      match ← attempt (sql me gen (.superReadOnly true)) with
      | .ok _ | .error (.db _ _) => throw (.agent 500)
      | .error e => throw e
  | .error e => throw e

/-- The statements after the clone, on a new session. -/
def afterClone (me : Nat) : X Unit := do
  let gen ← connect me
  let _ ← sql me gen .stopReplica
  let _ ← sql me gen .resetReplicaAll
  let _ ← sql me gen (.superReadOnly true)
  let _ ← sql me gen .selectGtid
  match ← attempt (sql me gen .selectCloneProgress) with
  | .ok _ | .error (.db _ _) => pure ()
  | .error e => throw e

/-- `_sql`: once more if the pooled link was stale. -/
def retried (m : X Unit) : X Unit := do
  match ← attempt m with
  | .ok () => pure ()
  | .error (.db code false) =>
    if code.any (· ∈ restartClientCodes) then m else throw (.db code false)
  | .error e => throw e

/-- Wait until mysqld has stopped after the clone. It gets a SIGTERM if it takes too long. -/
def waitStopped : X Unit := do
  let exited ← waitExit
  if exited then pure ()
  else
    let _ ← waitExit
    pure ()

/-- Wait until the supervisor has started mysqld since generation `started`. -/
def waitStarted (started : Nat) : X Unit := do
  let s ← state
  if s.supervised then
    waitStopped
    ensure (← waitRestart started) (.agent 500)
  else pure ()

/-- `_rebuild_finish`: wait for the restart, then leave the node read-only. -/
def rebuildFinish (me started : Nat) : X Unit := do
  waitStarted started
  ensure (← waitResponsive) (.agent 500)
  retried (afterClone me)

/-- `rebuild` once the session is open. `rebuilding` is set until its end. -/
def rebuildOn (me gen started : Nat) (donor : Node) : X Unit := ExceptT.mk do
  edit (.rebuilding true)
  let r ← (do cloneFrom me gen donor; rebuildFinish me started : X Unit).run
  edit (.rebuilding false)
  pure r

/-- The read of the donor's gtid_executed. -/
def askDonor (donor : Node) : X Unit := do
  match ← attempt (ExceptT.mk (await (.donorGtid donor))) with
  | .ok _ => pure ()
  | .error (.db _ _) => throw (.agent 502)
  | .error e => throw e

/-- `rebuild`. The cut of `withLockDeadlined` is the cancellation of the request. -/
def rebuild (node : Node) (me : Nat) (donor : Node) : X Unit :=
  if donor = "" ∨ donor = node then throw (.agent 400)
  else
    withLockDeadlined .role me do
      endRestartHold
      ExceptT.mk (await .ownGtid)
      askDonor donor
      let s ← state
      let gen ← connect me
      rebuildOn me gen s.mysqld.gen donor

/-! ### The tasks -/

/-- The answer of a request. -/
def answer {α : Type} (m : X α) : M Unit := do
  match ← m.run with
  | .ok _ => await (.reply 200)
  | .error e => await (.reply e.status)

/-- What task `me` runs on the agent of `node`. -/
def body (node : Node) (me : Nat) : Job → M Unit
  | .fence => do
    match ← (fence me).run with
    | .ok status => await (.reply status)
    | .error e => await (.reply e.status)
  | .unfence => answer (unfence me)
  | .promote => answer (promote me)
  | .repoint source => answer (repoint node me source)
  | .configure semisync => answer (configure me semisync)
  | .rebuild donor => answer (rebuild node me donor)

/-! ### The environment -/

/-- Whether the environment can give this answer to task `t`. -/
def answers (t : Nat) : (r : Req) → r.Resp → Bool
  | .sql _, a =>
    match (a : Except Failure Row) with
    | .ok row => (s.calls t).any (·.row == some row)
    | .error _ => true
  | .connect, a =>
    match (a : Except Failure Nat) with
    | .ok gen => decide (gen ≤ s.mysqld.gen)
    | .error _ => true
  | .waitRestart gen, a =>
    match (a : Except Failure Bool) with
    | .ok true => decide (gen < s.mysqld.gen)
    | .ok false | .error _ => true
  | _, _ => true

/-- mysqld still executes what was sent on the session of `c`. -/
def lives (c : Call) : Bool := c.gen == s.mysqld.gen && decide (c.session ∉ s.mysqld.killed)

/-- The list of the client threads that the session of `c` reads has all the others of this
mysqld that wait for a statement and were not killed. -/
def lists (c : Call) : Row → Bool
  | .threads ids => s.sessions.all fun x =>
      x.1 != c.gen || x.2 == c.session || x.2 ∈ s.mysqld.killed || x.2 ∈ ids ||
        (s.calls x.2.task).all (·.session != x.2)
  | _ => true

/-- Whether the change can come from outside. mysqld executes what was sent to it since its
start, on sessions that were not killed. -/
def outside : Update → Bool
  | .execute t row =>
    s.mysqld.up && (s.calls t).any fun c =>
      s.lives c && c.row.isNone && s.mysqld.shows c.stmt row && s.lists c row
  | .land k => s.mysqld.up && (s.late[k]?).any s.lives
  | .boot _ => !s.mysqld.up
  | .crash | .expire _ | .disk _ => true
  | _ => false

/-- The rules of the environment: any request at any time, and any failure. -/
def environment (p : Coop.Pool sig) : Coop.Move sig → Bool
  | .start _ | .wake _ | .arrive _ => true
  | .answer t f =>
    match p.progs t with
    | some (.await r _) => p.world.state.answers t r (f r)
    | _ => true
  | .outside u => p.world.state.outside u
  | .land _ _ | .resend _ _ => false

/-- A booted replica. -/
def init (semisync supervised fenced : Bool) : Agent := { semisync, supervised, fenced }

/-- The runs of an agent whose steps meet a condition. -/
def Runs (node : Node) (s : Agent) (cond : Coop.Pool sig → Coop.Move sig → Coop.Pool sig → Prop) :
    Coop.Pool sig → Prop :=
  Coop.Reach (body node) (fun p m p' => environment p m = true ∧ cond p m p')
    (Coop.Pool.init s [])

end Agent

end DbGuard
