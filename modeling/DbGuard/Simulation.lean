import DbGuard.Fake
import DbGuard.Manager

/-!
# `DbGuard.Simulation`: the manager against the simulated fleet

What `tests/test_manager_sim.py` runs: a controller's tasks on one side, `FakeFleet` on the
other, and a network between them that can lose a request or an answer, or delay either.

`Sim` is a pool of the controller's tasks and a fleet. A node answers a pending request once,
at a moment between the request and its answer (`serve`). `said` is what the nodes have
answered to the pending request of each task, and an answer that arrives at the task is made
of this, or is an error (`hear`). A request takes effect at a node at any moment after it was
issued, whether somebody still waits for it or not (`effect`), more than once if a retry
posted it again. So nothing is assumed about delays and losses.

What a poll reads can come out of the status cache, and of what the agents answer to the requests
that change a role, the manager reads the state of a node only in the answer of /fence. All other
answers are left open, and so is how a node was fenced. A fence that has to kill a hung mysqld
first is an `effect`, and is answered when mysqld is up again.
-/

set_option autoImplicit false

namespace DbGuard

open Coop (Pool)

/-- What a node has answered to a request. -/
inductive Said
  | status (body : StatusBody)
  | stopped
  | state (text : Option String)
  | fenced (executed : GtidSet)
  | waited (executed : GtidSet)

/-- The manager's tasks, the fleet, and what each node has answered to the pending request of
each task. -/
structure Sim where
  pool : Pool sig
  fleet : FakeFleet
  said : Nat → Node → Option Said := fun _ _ => none

namespace Sim

/-- One choice of the fleet, the scheduler or the network. An arriving answer is what the
nodes in `arrives` said, an `error` of the others, and `other` where answers are left open. -/
inductive Move
  | fleet (m : FakeFleet.Move)
  | manager (m : Coop.Move sig)
  | answer (t : Nat) (arrives : Node → Bool) (error : Node → ErrorText)
    (other : (r : Req) → r.Resp)
  | serve (t : Nat) (n : Node) (now : Time)
  | effect (t : Nat) (r : Req) (n : Node)

/-- A request's own part of the fleet's moves: what it does to node `n`. -/
def effect (n : Node) : Req → Option FakeFleet.Move
  | .fence m => if m = n then some (.fence n) else none
  | .promote m => if m = n then some (.promote n) else none
  | .repoint m source => if m = n then some (.repoint n source) else none
  | .repointAll ns source => if n ∈ ns then some (.repoint n (some source)) else none
  | .rebuild m donor => if m = n then some (.rebuild n donor) else none
  | .stopIo ns => if n ∈ ns then some (.stopIo n) else none
  | _ => none

/-- What node `n` answers to a request that reads its state. -/
def reply (F : FakeFleet) (now : Time) (n : Node) : Req → Option Said
  | .status m => if m = n && F.answers n then some (.status (F.statusBody now n)) else none
  | .freshViews ns =>
    if n ∈ ns && F.answers n then some (.status (F.statusBody now n)) else none
  | .stopIo ns => if n ∈ ns && F.serves n then some .stopped else none
  | .replicaState m => if m = n then some (.state (F.replicaState n)) else none
  | .fence m =>
    if m = n && F.answers n && !(F.node n).hung && (F.node n).mysqldUp then
      some (.fenced (F.node n).executed)
    else none
  | .waiterWait m _ => if m = n then some (.waited (F.node n).executed) else none
  | _ => none

section
variable (said : Node → Option Said) (arrives : Node → Bool) (error : Node → ErrorText)

/-- The status of a node as the manager gets it. -/
def hearStatus (n : Node) : Except String StatusBody :=
  match arrives n, said n with
  | true, some (.status body) => .ok body
  | _, _ => .error (error n).val

/-- The result of `stop_io` on a node. -/
def hearStopped (n : Node) : Option ErrorText :=
  match arrives n, said n with
  | true, some .stopped => none
  | _, _ => some (error n)

/-- The state of an SQL thread as the manager gets it. -/
def hearState (n : Node) : Option String :=
  match arrives n, said n with
  | true, some (.state text) => text
  | _, _ => none

/-- The answer of /fence as the manager gets it. -/
def hearFenced (other : Except AgentError FenceBody) (n : Node) : Except AgentError FenceBody :=
  match arrives n, said n with
  | true, some (.fenced executed) =>
    .ok { method := other.toOption.bind (·.method), gtidExecuted := some (.set executed) }
  | _, _ => .error ⟨(error n).val⟩

/-- What a waiter for `set` returns. -/
def hearWaited (n : Node) (set : GtidSet) : Except String (Bool × Option GtidText) :=
  match arrives n, said n with
  | true, some (.waited executed) => .ok (set.isSubset executed, some (.set executed))
  | _, _ => .error (error n).val

/-- The answer to a request. -/
def hear (other : (r : Req) → r.Resp) : (r : Req) → r.Resp
  | .status n => hearStatus said arrives error n
  | .freshViews _ => hearStatus said arrives error
  | .stopIo _ => hearStopped said arrives error
  | .replicaState n => hearState said arrives n
  | .fence n => hearFenced said arrives error (other (.fence n)) n
  | .waiterWait n set => hearWaited said arrives error n set
  | r => other r

end

/-- Whether the move is a request taking effect. -/
def isRequest : FakeFleet.Move → Bool
  | .fence _ | .promote _ | .repoint _ _ | .rebuild _ _ | .stopIo _ => true
  | _ => false

/-- Whether the move answers a task. -/
def isAnswer : Coop.Move sig → Bool
  | .answer _ _ => true
  | _ => false

/-- The node answers task `t`. -/
def tell (σ : Sim) (t : Nat) (n : Node) (s : Said) : Sim :=
  { σ with said := Function.update σ.said t (Function.update (σ.said t) n (some s)) }

/-- What node `n` does about the pending request `r` of task `t`. -/
def serve (σ : Sim) (t : Nat) (n : Node) (now : Time) (r : Req) : Option Sim :=
  match reply σ.fleet now n r, effect n r with
  | none, _ => none
  | some s, none => some (σ.tell t n s)
  | some s, some m => (σ.fleet.move m).map fun fleet => { σ.tell t n s with fleet }

/-- Make one move. -/
def step (cfg : Config) (σ : Sim) : Move → Option Sim
  | .fleet m =>
    if isRequest m then none else (σ.fleet.move m).map fun fleet => { σ with fleet }
  | .manager m =>
    if isAnswer m || !environment σ.pool m then none
    else (σ.pool.fire (body cfg) m).map fun pool => { σ with pool }
  | .answer t arrives error other =>
    (σ.pool.fire (body cfg) (.answer t (hear (σ.said t) arrives error other))).map fun pool =>
      { σ with pool, said := Function.update σ.said t fun _ => none }
  | .serve t n now =>
    match σ.pool.progs t with
    | some (.await r _) => σ.serve t n now r
    | _ => none
  | .effect t r n =>
    if issued σ.pool t r then
      (effect n r).bind fun m => (σ.fleet.move m).map fun fleet => { σ with fleet }
    else none

/-- A controller that starts beside a fleet. -/
def init (cfg : Config) (fleet : FakeFleet) : Sim :=
  { pool := Pool.init (Ctl.init cfg) [], fleet }

/-! ### What a move can change -/

variable {cfg : Config} {F : FakeFleet} {σ σ' : Sim} {m : Move} {ok : Sim → Move → Prop}

/-- The manager's side of a move is a move of the controller. An answer is made of what the
nodes have said. -/
theorem pool_of_step (h : step cfg σ m = some σ') : σ'.pool = σ.pool ∨
    ∃ pm, environment σ.pool pm = true ∧ σ.pool.fire (body cfg) pm = some σ'.pool ∧
      ∀ t f, pm = .answer t f → ∃ arrives error other,
        m = .answer t arrives error other ∧ f = hear (σ.said t) arrives error other := by
  cases m with
  -- A move of the fleet alone.
  | fleet fm =>
    obtain ⟨-, h⟩ := Option.ite_none_left_eq_some.mp h
    obtain ⟨fleet, -, rfl⟩ := Option.map_eq_some_iff.mp h
    exact .inl rfl
  -- A move of the manager's environment or of a task, which is no answer.
  | manager pm =>
    obtain ⟨hpm, h⟩ := Option.ite_none_left_eq_some.mp h
    obtain ⟨pool, hpool, rfl⟩ := Option.map_eq_some_iff.mp h
    simp only [Bool.or_eq_true, Bool.not_eq_true', not_or, Bool.not_eq_false] at hpm
    refine .inr ⟨pm, hpm.2, hpool, fun t f heq => ?_⟩
    subst heq
    exact absurd rfl hpm.1
  -- An answer carries what the fleet has said, unless it is lost.
  | answer t arrives error other =>
    obtain ⟨pool, hpool, rfl⟩ := Option.map_eq_some_iff.mp h
    refine .inr ⟨_, rfl, hpool, fun t f heq => ?_⟩
    cases heq
    exact ⟨arrives, error, other, rfl, rfl⟩
  -- Serving a request and its later effects happen in the fleet.
  | serve t n now =>
    left
    simp only [step] at h
    split at h
    · unfold serve at h
      split at h
      · cases h
      · cases h
        rfl
      · obtain ⟨fleet, -, rfl⟩ := Option.map_eq_some_iff.mp h
        rfl
    · cases h
  | effect t r n =>
    obtain ⟨-, h⟩ := Option.ite_none_right_eq_some.mp h
    obtain ⟨fm, -, h⟩ := Option.bind_eq_some_iff.mp h
    obtain ⟨fleet, -, rfl⟩ := Option.map_eq_some_iff.mp h
    exact .inl rfl

/-- The fleet's side of a move is a move of the fleet. -/
theorem fleet_of_step (h : step cfg σ m = some σ') :
    σ'.fleet = σ.fleet ∨ ∃ fm, σ.fleet.move fm = some σ'.fleet := by
  cases m with
  -- A move of the fleet on its own.
  | fleet fm =>
    obtain ⟨-, h⟩ := Option.ite_none_left_eq_some.mp h
    obtain ⟨fleet, hmove, rfl⟩ := Option.map_eq_some_iff.mp h
    exact .inr ⟨fm, hmove⟩
  -- Moves of the manager and its answers leave the fleet.
  | manager pm =>
    obtain ⟨-, h⟩ := Option.ite_none_left_eq_some.mp h
    obtain ⟨pool, -, rfl⟩ := Option.map_eq_some_iff.mp h
    exact .inl rfl
  | answer t arrives error other =>
    obtain ⟨pool, -, rfl⟩ := Option.map_eq_some_iff.mp h
    exact .inl rfl
  -- Serving a request moves it, unless there is nothing to do.
  | serve t n now =>
    simp only [step] at h
    split at h
    · unfold serve at h
      split at h
      · cases h
      · cases h
        exact .inl rfl
      · obtain ⟨fleet, hmove, rfl⟩ := Option.map_eq_some_iff.mp h
        exact .inr ⟨_, hmove⟩
    · cases h
  -- So does a late effect.
  | effect t r n =>
    obtain ⟨-, h⟩ := Option.ite_none_right_eq_some.mp h
    obtain ⟨fm, -, h⟩ := Option.bind_eq_some_iff.mp h
    obtain ⟨fleet, hmove, rfl⟩ := Option.map_eq_some_iff.mp h
    exact .inr ⟨fm, hmove⟩

/-- The manager's side of a run is a run of a controller, so what is true of every run of a
controller is true here. -/
theorem runs_of_reach (h : Machine.Reach (step cfg) ok (init cfg F) σ) :
    Runs cfg (fun _ _ _ => True) σ.pool := by
  induction h with
  | refl => exact .refl
  | tail _ _ hstep ih =>
    rcases pool_of_step hstep with heq | ⟨pm, henv, hfire, -⟩
    · rw [heq]
      exact ih
    · exact ih.step pm hfire ⟨henv, trivial⟩

end Sim

end DbGuard
