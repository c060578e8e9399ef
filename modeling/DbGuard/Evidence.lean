import DbGuard.Polls

/-!
# `DbGuard.Evidence`: where the observations of the history come from

A poll is out for up to `probe_timeout_s`, and `ctl.primary` can change meanwhile. An observation
says which primary its poll has asked for, but not whether this node was the primary all along.
`Watching` is a controller with this beside it, one entry for each poll, the newest first. The
history is then the observations of the last polls, in the other order.
-/

set_option autoImplicit false

namespace DbGuard

open Coop (Pool Move)

/-- The observation of a poll that began at `ts` and asked for `primary`. -/
def Config.observation (cfg : Config) (primary : Option Node) (ns : List Node) (ans : PollAnswer)
    (ts : Time) : Observation where
  ts
  primary
  probe := if primary.isSome && cfg.prober.isSome then some ans.probe else none
  nodes := .ofAnswers ns ans.view

/-- The observation can support a DEAD verdict on the primary: its probe failed or, where replicas
vote, one of the nodes votes the primary gone. -/
def Config.against (cfg : Config) (primary : Node) (ob : Observation) : Bool :=
  (ob.probe.any fun r => !r.ok) || cfg.mode == .dbguard &&
    ob.nodes.keys.any fun n => !(replicaVote (ob.nodes.view n) primary cfg.detectWindowS).isEmpty

/-- The ticks whose poll is out and asks for another node than ctl.primary. -/
def astray (p : Pool sig) : List Nat :=
  (List.range p.world.jobs.length).filter fun t =>
    match p.progs t with
    | some (.await (.observe primary _) _) => primary ≠ p.world.state.primary
    | _ => false

/-- A poll that comes in: its tick, what it has asked for, and the answer. -/
structure Incoming where
  tick : Nat
  primary : Option Node
  nodes : List Node
  answer : PollAnswer

/-- The poll that comes in by this move. -/
def incoming (p : Pool sig) : Move sig → Option Incoming
  | .answer t f =>
    match p.progs t with
    | some (.await (.observe primary ns) _) =>
      some { tick := t, primary, nodes := ns, answer := f (.observe primary ns) }
    | _ => none
  | _ => none

/-- The first step of a failover of `old`: its fence task in dbguard mode, its look at the other
members in naive mode. -/
def opensFailover (cfg : Config) (old : Node) : Coop.Event sig → Bool
  | .created _ (.fence n) _ => cfg.mode == .dbguard && n == old
  | .issued _ .tick (.freshViews ns) s => cfg.mode == .naive && ns == s.members.filter (· ≠ old)
  | _ => false

/-- A controller, the ticks whose poll has been out while another node was ctl.primary, and the
polls, each with whether ctl.primary was the recorded one all along. -/
structure Watching where
  pool : Pool sig
  strayed : List Nat := []
  polls : List (Observation × Bool) := []

namespace Watching

variable (s : Watching)

/-- The controller, between two segments of its tasks. -/
def state : Ctl := s.pool.world.state

/-- The polls after a move to `pool`. -/
def after (m : Move sig) (pool : Pool sig) : List (Observation × Bool) :=
  match incoming s.pool m, pool.world.state.lastObs with
  | some x, some ob => (ob, decide (x.tick ∉ s.strayed)) :: s.polls
  | _, _ => s.polls

/-- One move. -/
def step (cfg : Config) (s : Watching) (m : Move sig) : Option Watching :=
  if environment s.pool m then
    (s.pool.fire (body cfg) m).map fun pool =>
      { pool, strayed := astray pool ++ s.strayed, polls := s.after m pool }
  else none

/-- A controller when the manager starts. -/
def start (cfg : Config) : Watching := { pool := Pool.init (Ctl.init cfg) [] }

/-- `failover` is called in the step to `s'`. -/
def begins (s' : Watching) : Bool :=
  s.state.op != some .failover && s'.state.op == some .failover

/-- The verdict on the history. -/
def verdict (cfg : Config) : Verdict := evaluate s.state.history s.state.members cfg.params none

/-- What the failover of `old` that begins in the step to `s'` rests on: a DEAD verdict about
`old`, which is the primary of a set that is neither halted nor in its cooldown, and in each
observation that supports the verdict `old` was the primary all along. -/
structure Grounded (cfg : Config) (s' : Watching) (old : Node) : Prop where
  replaced : (s'.pool.world.log.drop s.pool.world.log.length).any (opensFailover cfg old) = true
  primary : s'.state.primary = some old
  dead : (s'.verdict cfg).dead = true
  about : (s'.verdict cfg).primary = some old
  halted : s'.state.halted = false
  cooldown : s'.state.inCooldown = false
  probes : ∀ (i : Nat) ob,
    (failing s'.state.history old)[i]? = some ob → s'.polls[i]? = some (ob, true)
  votes : cfg.mode = .dbguard → ∀ (i : Nat) ob,
    (outvoted s'.state.history (s'.state.members.filter (· ≠ old)) old cfg.detectWindowS)[i]? =
      some ob → s'.polls[i]? = some (ob, true)

end Watching

end DbGuard
