import DbGuard.Polls

/-!
# `DbGuard.Degrading`: how long a set has been DEGRADED

`maybe_replace` waits until `rebuild_after_s` have passed since `unhealthy_since`. No field of
the controller says since when the set is DEGRADED. `Degrading` is a controller with this time
beside it. The time is gone as soon as a step ends in another state.
-/

set_option autoImplicit false

namespace DbGuard

open Coop (Pool Move)

namespace Ctl

/-- The members that stream from the primary in an observation. -/
def streaming (s : Ctl) (ob : Observation) (primary : Node) : List Node :=
  s.members.filter fun n =>
    n ≠ primary && (ob.nodes.get? n).any (·.replicatingFrom (some primary))

/-- The state with the polls that another one has recorded. -/
def seeing (s polled : Ctl) : Ctl :=
  { s with lastObs := polled.lastObs, history := polled.history }

/-- `_adopt_spare` adds the spare on this poll. -/
def adopts (cfg : Config) (s : Ctl) (ob : Observation) : Bool :=
  cfg.spare.any fun sp =>
    (ob.nodes.get? sp).any fun nv =>
      nv.usable && nv.replica.configured && nv.replica.sourceHost.any (· ∈ s.members)

/-- Since when `reconcile` takes the set for unhealthy, on this poll. -/
def sinceWhen (s : Ctl) (ob : Observation) : Time := s.unhealthySince.getD ob.ts

/-- A tick that decides on this poll leaves the set DEGRADED and calls `maybe_replace`. -/
def lacks (cfg : Config) (s : Ctl) (ob : Observation) (primary : Node) : Bool :=
  let v := evaluate s.history s.members cfg.params none
  let healthy := s.streaming ob primary
  let primaryOk := (ob.nodes.get? primary).any (·.writable)
  !v.dead && decide (v.kind ≠ .suspect) &&
    !(primaryOk && !healthy.isEmpty && decide (cfg.configuredReplicas ≤ healthy.length)) &&
    (s.st.state == .degraded || !s.halted &&
      (decide (2 * cfg.second ≤ ob.ts - s.sinceWhen ob) || s.st.state == .failingOver))

/-- Nothing but the delay can keep a tick from a replacement. -/
def replaceable (cfg : Config) (s : Ctl) (ob : Observation) : Bool :=
  s.primary.any fun primary =>
    s.lacks cfg ob primary && !(s.streaming ob primary).isEmpty && cfg.provisioner &&
      cfg.spare.any (· ∉ s.members) && !s.adopts cfg ob && !s.inCooldown && !s.maintRunning

/-- `maybe_replace` comes to compare the times: there is a spare to provision, and no cooldown. -/
def provisions (cfg : Config) (s : Ctl) : Bool :=
  cfg.provisioner && cfg.spare.any (· ∉ s.members) && !s.inCooldown

end Ctl

/-- The start of a replacement. -/
def startsReplace (spare donor : Node) : Coop.Event sig → Bool
  | .created _ (.replace n m) _ => n == spare && m == donor
  | _ => false

/-- A controller, and the time of the step in which the set became DEGRADED. -/
structure Degrading where
  pool : Pool sig
  since : Option Time := none

namespace Degrading

variable (s : Degrading)

/-- The controller, between two segments of its tasks. -/
def state : Ctl := s.pool.world.state

/-- Since when the set is DEGRADED, were it in the state `c` after this step. -/
def degradedSince (c : Ctl) : Option Time :=
  if c.st.state = .degraded then some (s.since.getD c.time) else none

/-- One move. -/
def step (cfg : Config) (s : Degrading) (m : Move sig) : Option Degrading :=
  if environment s.pool m then
    (s.pool.fire (body cfg) m).map fun pool =>
      { pool, since := s.degradedSince pool.world.state }
  else none

/-- A controller when the manager starts. -/
def start (cfg : Config) : Degrading := { pool := Pool.init (Ctl.init cfg) [] }

/-- The step to `s'` starts a replacement of the spare with this donor. -/
def replaces (s' : Degrading) (spare donor : Node) : Bool :=
  (s'.pool.world.log.drop s.pool.world.log.length).any (startsReplace spare donor)

/-- By the delay since `unhealthy_since` this poll is late enough, but the set has not been DEGRADED
for as long. -/
def InGap (cfg : Config) (s : Degrading) (ob : Observation) : Prop :=
  s.state.sinceWhen ob + cfg.rebuildAfterS ≤ ob.ts ∧
    s.state.time < s.since.getD s.state.time + cfg.rebuildAfterS

instance (cfg : Config) (s : Degrading) (ob : Observation) : Decidable (InGap cfg s ob) :=
  inferInstanceAs (Decidable (_ ∧ _))

/-- What a replacement waits for: the set has been DEGRADED for `rebuild_after_s` by the time of
the step, it is not in its cooldown, no maintenance task runs, the spare is no member, and the
donor is a member that streams from the primary. -/
def waited (cfg : Config) (s' : Degrading) (spare donor : Node) : Bool :=
  match s'.state.lastObs, s'.since, s'.state.primary with
  | some ob, some since, some primary =>
    decide (cfg.rebuildAfterS ≤ s'.state.time - since) && !s'.state.inCooldown &&
      !s.state.maintRunning && cfg.spare == some spare && decide (spare ∉ s'.state.members) &&
      decide (donor ∈ s'.state.streaming ob primary)
  | _, _, _ => false

end Degrading

end DbGuard
