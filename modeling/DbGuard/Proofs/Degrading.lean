import DbGuard.Degrading
import DbGuard.Proofs.Script
import DbGuard.Proofs.Decision

/-!
# `DbGuard.Proofs.Degrading`: what a replacement waits for

Only a tick that decides on a poll starts a replacement, in the segment in which it takes the
lock (`replacing`). It has found the set DEGRADED and all of `replaceable` then. The delay that it
has waited is that since `unhealthy_since`. The set was DEGRADED as long if no tick decides on a
poll in the gap between the two ends of the delay (`Ripe`).
-/

set_option autoImplicit false

namespace DbGuard

open Coop (Prog Pool Move World Contract Adds Grows frame own)

namespace Degrading

open Polling (looked looked_record looked_of_fire hasPoll_of_own_nil Idle Locks isPolling
  wp_tick_of_locks)

/-! ### The contract -/

/-- The segment starts a replacement of the spare with this donor. -/
def started (w₀ w : World sig) (spare donor : Node) : Bool :=
  (w.log.drop w₀.log.length).any (startsReplace spare donor)

/-- A segment of task `t` that has started a replacement. -/
structure Started (cfg : Config) (t : Nat) (spare donor : Node) (ob : Observation)
    (w₀ w : World sig) : Prop where
  look : (looked t w₀ w).isSome = true
  lastObs : w.state.lastObs = some ob
  ready : (w₀.state.seeing w.state).replaceable cfg ob = true
  delay : cfg.rebuildAfterS ≤ ob.ts - w₀.state.sinceWhen ob
  degraded : w.state.st.state = .degraded
  time : w.state.time = w₀.state.time
  cooldown : w.state.inCooldown = false
  known : cfg.spare = some spare
  out : spare ∉ w.state.members
  streams : ∃ primary, w.state.primary = some primary ∧ donor ∈ w.state.streaming ob primary

/-- What a segment of task `t` does. -/
def Starts (cfg : Config) (t : Nat) (w₀ w : World sig) : Prop :=
  ∀ spare donor, started w₀ w spare donor = true → ∃ ob, Started cfg t spare donor ob w₀ w

/-- Who starts a replacement. -/
def replacing (cfg : Config) : Contract sig where
  inv _ := True
  rely _ _ _ := True
  allowed _ _ _ := True
  answers _ _ _ _ := True
  may := Starts cfg
  pre _ _ _ := True

section
variable {cfg : Config} {t : Nat} {j : Job} {w₀ w w' : World sig} {e : Coop.Event sig}
  {spare donor : Node} {γ : Type} {m : M γ}

/-- A record adds its own start of a replacement to those of the segment. -/
theorem started_record (hle : w₀.log.length ≤ w.log.length) :
    started w₀ (w.record e) spare donor =
      (started w₀ w spare donor || startsReplace spare donor e) := by
  show ((w.log ++ [e]).drop w₀.log.length).any (startsReplace spare donor) = _
  rw [List.drop_append_of_le_length hle, List.any_append]
  simp [started]

/-- A segment that has just begun has started none. -/
theorem started_refl : started w w spare donor = false := by simp [started]

/-! ### Tasks that start no replacement -/

/-- A task without a replacement among those that it starts. -/
structure Sparing (V : Vocabulary) : Prop where
  creates : ∀ spare donor, ¬ V.creates (.replace spare donor)
  nodeTasks : ∀ n spare donor, ¬ V.nodeTasks n (.replace spare donor)
  maints : ∀ spare donor ns, ¬ V.maints (.replace spare donor) ns

/-- A failover starts none. -/
theorem failover_sparing : Sparing failoverVocabulary where
  creates _ _ h := by obtain ⟨n, hn⟩ := h; cases hn
  nodeTasks _ _ _ h := h
  maints _ _ _ h := h

/-- Nor does a cold start. -/
theorem cold_sparing : Sparing coldVocabulary :=
  ⟨fun _ _ h => h, fun _ _ _ h => h, fun _ _ _ h => h⟩

/-- Nor do the check of a stall and the rejoin actions. -/
theorem mend_sparing : Sparing mendVocabulary where
  creates _ _ h := h
  nodeTasks _ _ _ h := by rcases h with ⟨_, h⟩ | ⟨_, h⟩ <;> cases h
  maints _ _ _ h := h

/-- Only a tick starts one. -/
theorem task_sparing (cfg : Config) (t : Nat) (hj : j ≠ .tick) :
    Sparing (taskVocabulary cfg t j) := by
  cases j with
  | tick => exact absurd rfl hj
  -- The tasks of its nodes are repoints only.
  | switchover target =>
      refine ⟨fun _ _ h => h.elim id id, fun n _ _ h => ?_, fun _ _ _ h => h.elim id id⟩
      rcases h with ⟨_, h⟩ | h
      · cases h
      · exact h
  | rejoin node =>
      -- Its tasks rejoin and its maintenance rebuilds; neither replaces.
      refine ⟨fun _ _ h => h.elim id id, fun n _ _ h => ?_, fun _ _ _ h => ?_⟩
      · rcases h with ⟨-, _, h⟩ | h
        · cases h
        · exact h
      · rcases h with ⟨-, _, h, -⟩ | h
        · cases h
        · exact h
  | rejoinNode n why | verifyAfterRepoint n primary =>
      refine ⟨fun _ _ h => h, fun _ _ _ h => ?_, fun _ _ _ h => ?_⟩
      · obtain ⟨-, _, h⟩ := h
        cases h
      · obtain ⟨-, _, h, -⟩ := h
        cases h
  -- Fencing a second writer can start a rejoin, which is no replacement.
  | fenceSecondWriter n primary =>
      refine ⟨fun _ _ h => h, fun _ _ _ h => ?_, fun _ _ _ h => h⟩
      obtain ⟨-, _, h⟩ := h
      cases h
  | rebuildAndJoin args =>
      refine ⟨fun _ _ h => ?_, fun _ _ _ h => h.elim id id, fun _ _ _ h => h.elim id id⟩
      rcases h with ⟨_, h⟩ | h
      · cases h
      · exact h
  | replace spare donor =>
      refine ⟨fun _ _ h => ?_, fun _ _ _ h => h.elim id id, fun _ _ _ h => h.elim id id⟩
      rcases h with ⟨_, h⟩ | h
      · cases h
      · exact h
  -- These speak a vocabulary that spares outright.
  | halt | resume | getPrimary | fence | repointAfter | keepUnstuck =>
      exact ⟨fun _ _ h => h, fun _ _ _ h => h, fun _ _ _ h => h⟩

/-- A segment so far that has started no replacement. -/
structure Plain (w₀ w : World sig) : Prop where
  log : w₀.log.length ≤ w.log.length
  none : ∀ spare donor, started w₀ w spare donor = false

/-- A segment that has just begun is plain. -/
theorem Plain.refl : Plain w w := ⟨le_refl _, fun _ _ => started_refl⟩

/-- A record that starts none keeps it plain. -/
theorem Plain.record (h : Plain w₀ w) (he : ∀ spare donor, startsReplace spare donor e = false) :
    Plain w₀ (w.record e) where
  log := le_trans h.log (List.prefix_append w.log [e]).length_le
  none spare donor := by rw [started_record h.log, h.none, he, Bool.or_false]

/-- Only the log counts. -/
theorem Plain.of_log (h : Plain w₀ w) (hlog : w'.log = w.log) : Plain w₀ w' where
  log := hlog ▸ h.log
  none spare donor := by
    rw [← h.none spare donor]
    unfold started
    rw [hlog]

/-- So does another task that it creates. -/
theorem Plain.spawn {j' : Job} (h : Plain w₀ w) (hj : ∀ spare donor, j' ≠ .replace spare donor) :
    Plain w₀ (w.spawn t j') := by
  refine (h.record (e := .created t j' w.jobs.length) fun spare donor => ?_).of_log rfl
  cases j' with
  | replace n m => exact absurd rfl (hj n m)
  | _ => rfl

/-- It is within what the contract allows. -/
theorem Plain.may (h : Plain w₀ w) : Starts cfg t w₀ w := by
  intro spare donor hstarted
  rw [h.none] at hstarted
  cases hstarted

/-- Sparing words keep a segment plain. -/
theorem plain_kept {C : Contract sig} {V : Vocabulary} (hV : Sparing V) :
    V.Kept (C.upon (replacing cfg)) t j fun w₀ w => Plain w₀ w where
  edit h _ := h.of_log rfl
  await {w₀ w r} h _ _ := by
    have hissued : Plain w₀ (w.issue t j r) := h.record fun _ _ => rfl
    exact ⟨hissued.may, fun w' a _ _ _ => Plain.refl.record fun _ _ => rfl⟩
  create h hj := h.spawn fun _ _ heq => hV.creates _ _ (heq ▸ hj)
  nodeTask h hj _ := (h.spawn fun _ _ heq => hV.nodeTasks _ _ _ (heq ▸ hj)).of_log rfl
  maint h hj _ := (h.spawn fun _ _ heq => hV.maints _ _ _ (heq ▸ hj)).of_log rfl
  join h _ _ := h.of_log rfl
  block _ h _ := ⟨h.may, fun w' _ _ _ => .refl⟩

/-! ### A tick that decides -/

/-- What a tick leaves alone until it decides. -/
structure Unmoved (s s' : Ctl) : Prop where
  st : s'.st = s.st
  maint : s'.maint = s.maint
  finished : s'.finished = s.finished
  time : s'.time = s.time
  since : s'.unhealthySince = s.unhealthySince

/-- A segment so far of a tick that decides on the poll `ob`, with the history `hist`. `P` says
what it knows of the state at its beginning, and what of its members. -/
structure Ready (P : Ctl → List Node → Prop) (ob : Observation) (hist : List Observation) (t : Nat)
    (w₀ w : World sig) : Prop extends Plain w₀ w where
  look : (looked t w₀ w).isSome = true
  lastObs : w.state.lastObs = some ob
  history : w.state.history = hist
  unmoved : Unmoved w₀.state w.state
  knows : P w₀.state w.state.members

/-- It has taken the lock. -/
def AtLock (s : Ctl) (members : List Node) : Prop := members = s.members

/-- It has found the primary. -/
def Found (primary : Node) (s : Ctl) (members : List Node) : Prop :=
  s.primary = some primary ∧ members = s.members

/-- It has the verdict. -/
def Decides (cfg : Config) (hist : List Observation) (primary : Node) (v : Verdict) (s : Ctl)
    (members : List Node) : Prop :=
  Found primary s members ∧ evaluate hist s.members cfg.params none = v

/-- It takes the primary for alive. -/
def Alive (cfg : Config) (hist : List Observation) (primary : Node) (s : Ctl)
    (members : List Node) : Prop :=
  Found primary s members ∧ (evaluate hist s.members cfg.params none).dead = false ∧
    (evaluate hist s.members cfg.params none).kind ≠ .suspect

/-- It has added the spare if the poll says so. -/
def Adopted (cfg : Config) (ob : Observation) (hist : List Observation) (primary : Node) (s : Ctl)
    (members : List Node) : Prop :=
  Alive cfg hist primary s members ∧ s.adopts cfg ob = false ∨
    s.primary = some primary ∧ ∃ sp, cfg.spare = some sp ∧ sp ∈ members

/-- The changes of a tick before it decides. -/
def Update.Minor : Update → Prop
  | .backoff _ _ | .manualNoted _ _ | .splitNoted _ _ | .stallSince _ | .event _
  | .coldStartSeen _ | .cooldownLogged _ | .nodeTask _ _ => True
  | _ => False

/-- A segment so far that may be over. -/
structure Over (cfg : Config) (t : Nat) (w₀ w : World sig) : Prop where
  log : w₀.log.length ≤ w.log.length
  starts : Starts cfg t w₀ w

/-- A plain segment may be over. -/
theorem Plain.over (h : Plain w₀ w) : Over cfg t w₀ w := ⟨h.log, h.may⟩

/-- The same log, poll, history and members of another state that says as much. -/
theorem looked_congr (hlog : w'.log = w.log) : looked t w₀ w' = looked t w₀ w := by
  unfold looked Polling.firstStep
  rw [hlog]

section
variable {P P' : Ctl → List Node → Prop} {ob : Observation} {hist : List Observation}
  {primary : Node}

/-- A minor change of a tick that is ready. -/
theorem Ready.edit {u : Update} (h : Ready P ob hist t w₀ w) (hu : Update.Minor u) :
    Ready P ob hist t w₀ (w.edit u) := by
  have hsame : Unmoved w.state (u.apply w.state) ∧ (u.apply w.state).lastObs = w.state.lastObs ∧
      (u.apply w.state).history = w.state.history ∧
      (u.apply w.state).members = w.state.members := by
    cases u <;> first | exact ⟨⟨rfl, rfl, rfl, rfl, rfl⟩, rfl, rfl, rfl⟩ | exact hu.elim
  obtain ⟨hunmoved, hobs, hhist, hmembers⟩ := hsame
  exact
    { h.toPlain.of_log rfl with
      look := (congrArg Option.isSome (looked_congr rfl)).trans h.look
      lastObs := hobs.trans h.lastObs
      history := hhist.trans h.history
      unmoved := ⟨hunmoved.st.trans h.unmoved.st, hunmoved.maint.trans h.unmoved.maint,
        hunmoved.finished.trans h.unmoved.finished, hunmoved.time.trans h.unmoved.time,
        hunmoved.since.trans h.unmoved.since⟩
      knows := by
        show P w₀.state (u.apply w.state).members
        rw [hmembers]
        exact h.knows }

/-- A task that it creates, and no replacement. -/
theorem Ready.spawn {j' : Job} (h : Ready P ob hist t w₀ w)
    (hj : ∀ spare donor, j' ≠ .replace spare donor) : Ready P ob hist t w₀ (w.spawn t j') :=
  { h.toPlain.spawn (t := t) hj with
    look := by
      have hlook : looked t w₀ (w.spawn t j') = looked t w₀ w := looked_record h.log rfl
      rw [hlook]
      exact h.look
    lastObs := h.lastObs
    history := h.history
    unmoved := ⟨h.unmoved.st, h.unmoved.maint, h.unmoved.finished, h.unmoved.time,
      h.unmoved.since⟩
    knows := h.knows }

/-- What is known may change with the members. -/
theorem Ready.imp (h : Ready P ob hist t w₀ w)
    (hP : P w₀.state w.state.members → P' w₀.state w.state.members) : Ready P' ob hist t w₀ w :=
  { h with knows := hP h.knows }

/-- The primary is that of its beginning. -/
theorem Ready.primary_eq (h : Ready P ob hist t w₀ w) : w.state.primary = w₀.state.primary := by
  show w.state.st.primary = w₀.state.st.primary
  rw [h.unmoved.st]

/-- The repair keeps a tick ready. -/
theorem wp_ready_part {C : Contract sig} (hm : mendVocabulary.StillPart γ m)
    (h : Ready P ob hist t w₀ w) :
    m.wp C t j (fun _ w₀ w => Ready P ob hist t w₀ w) w₀ w := by
  cases hm with
  | ctl => exact h
  | @edit u hu =>
      refine h.edit ?_
      cases u <;> trivial
  | nodeTask hj =>
      unfold spawnNodeTask
      rw [wp_look]
      split
      · exact h
      · refine (h.spawn fun spare donor heq => ?_).edit trivial
        rcases hj with ⟨why, hj⟩ | ⟨primary, hj⟩ <;> cases hj.symm.trans heq
  | join hn => exact hn.elim

/-- The check for a stall, and the rejoins. -/
theorem wp_ready {C : Contract sig} (hm : Still mendVocabulary m) (h : Ready P ob hist t w₀ w) :
    m.wp C t j (fun _ w₀ w => Ready P ob hist t w₀ w) w₀ w :=
  Prog.wp_of_madeOf (fun _ _ hp _ _ hk => wp_ready_part hp hk) hm h

/-- A program of sparing words starts no replacement. -/
theorem wp_plain {V : Vocabulary} (hV : Sparing V) (hm : Speaks V m) (h : Plain w₀ w) :
    m.wp (tickBase.upon (replacing cfg)) t j (fun _ w₀ w => Plain w₀ w) w₀ w :=
  (plain_kept hV).wp hm h

/-- The cold start check starts none, and leaves the tick ready unless it acts. -/
theorem wp_coldStartCheck_ready (h : Ready P ob hist t w₀ w) :
    (coldStartCheck ob).wp (tickBase.upon (replacing cfg)) t .tick
      (fun acted w₀ w => Plain w₀ w ∧ (acted = false → Ready P ob hist t w₀ w)) w₀ w := by
  have hseen : ∀ k, Ready P ob hist t w₀ (w.edit (.coldStartSeen k)) := fun k => h.edit trivial
  unfold coldStartCheck
  rw [wp_look]
  split
  · rw [wp_edit]
    exact ⟨h.toPlain.of_log rfl, nofun⟩
  · rw [wp_edit]
    exact ⟨(hseen _).toPlain, fun _ => hseen _⟩
  · split
    · rw [wp_edit]
      exact ⟨(hseen _).toPlain, fun _ => hseen _⟩
    · rw [wp_edit]
      refine Prog.wp_seq (wp_plain cold_sparing (coldStart_speaks _ _) (hseen 0).toPlain)
        fun _ w₀ w h => ?_
      exact ⟨h, nofun⟩

/-- The spare joins if the poll says so. -/
theorem wp_adoptSpare {C : Contract sig} (h : Ready (Alive cfg hist primary) ob hist t w₀ w) :
    (adoptSpare cfg ob).wp C t j
      (fun _ w₀ w => Ready (Adopted cfg ob hist primary) ob hist t w₀ w) w₀ w := by
  have hmembers : w.state.members = w₀.state.members := h.knows.1.2
  -- Where the guards refuse the spare, nothing has changed.
  have hstay : w₀.state.adopts cfg ob = false →
      Ready (Adopted cfg ob hist primary) ob hist t w₀ w := fun hnot =>
    h.imp fun hk => .inl ⟨hk, hnot⟩
  unfold adoptSpare
  rw [wp_look]
  split
  · rename_i hspare
    exact hstay (by rw [Ctl.adopts, hspare]; rfl)
  · rename_i sp hspare
    split
    -- The spare is taken in, unless it is a member already.
    · unfold joinMember
      rw [wp_look]
      split
      · rename_i hin
        exact h.imp fun hk => .inr ⟨hk.1.1, sp, hspare, hin⟩
      -- It joins the members, which is the only change.
      · exact
          { h.toPlain.of_log rfl with
            look := (congrArg Option.isSome (looked_congr rfl)).trans h.look
            lastObs := h.lastObs
            history := h.history
            unmoved := ⟨h.unmoved.st, h.unmoved.maint, h.unmoved.finished, h.unmoved.time,
              h.unmoved.since⟩
            knows := .inr ⟨h.knows.1.1, sp, hspare, List.mem_append_right _ (by simp)⟩ }
    -- The guard refused.
    · rename_i hnot
      refine hstay ?_
      rw [Ctl.adopts, hspare, ← hmembers]
      simpa using hnot

/-! ### The decision -/

/-- A segment so far of a tick with a set that is not healthy. -/
structure Judged (cfg : Config) (ob : Observation) (hist : List Observation) (primary : Node)
    (t : Nat) (w₀ w : World sig) : Prop extends Plain w₀ w where
  look : (looked t w₀ w).isSome = true
  lastObs : w.state.lastObs = some ob
  history : w.state.history = hist
  believed : w.state.primary = some primary
  cooldown : w.state.inCooldown = w₀.state.inCooldown
  maint : w.state.maintRunning = w₀.state.maintRunning
  time : w.state.time = w₀.state.time
  since : w.state.unhealthySince = some (w₀.state.sinceWhen ob)
  knows : Adopted cfg ob hist primary w₀.state w.state.members
  lacks : (∀ sp, cfg.spare = some sp → sp ∉ w.state.members) → w.state.st.state = .degraded →
    w₀.state.maintRunning = false → (w₀.state.seeing w.state).lacks cfg ob primary = true

/-- HALTED is sticky. -/
theorem goTo_of_halted {s : Ctl} (h : s.st.state = .halted) (new : State) (note : Option String)
    (emit : Bool) (detect : Option Detect) : s.goTo new note emit detect = s := by
  unfold Ctl.goTo
  dsimp only
  split
  · rfl
  · rfl

/-- Who streams depends on the members only. -/
theorem streaming_congr {s s' : Ctl} (h : s'.members = s.members) (ob : Observation)
    (primary : Node) : s'.streaming ob primary = s.streaming ob primary := by
  unfold Ctl.streaming
  rw [h]

/-- The move to another state keeps what has been judged. -/
theorem Judged.goTo {new : State} {note : Option String} (h : Judged cfg ob hist primary t w₀ w)
    (hlacks : (∀ sp, cfg.spare = some sp → sp ∉ w.state.members) →
      (w.state.goTo new note true none).st.state = .degraded →
        w₀.state.maintRunning = false → (w₀.state.seeing w.state).lacks cfg ob primary = true) :
    Judged cfg ob hist primary t w₀ (w.edit (.goTo new note true none)) := by
  -- Changing the mode rewrites state and events, and nothing that the judgement reads.
  have hkeep : ∀ {α : Type} {f : Ctl → α}, (∀ (s : Ctl) st events, f { s with st, events } = f s) →
      f (w.edit (.goTo new note true none)).state = f w.state := fun hf =>
    goTo_keeps hf w.state new note true none
  have hobs : (w.edit (.goTo new note true none)).state.lastObs = w.state.lastObs :=
    hkeep (f := Ctl.lastObs) fun _ _ _ => rfl
  have hhist : (w.edit (.goTo new note true none)).state.history = w.state.history :=
    hkeep (f := Ctl.history) fun _ _ _ => rfl
  have hmembers : (w.edit (.goTo new note true none)).state.members = w.state.members :=
    hkeep (f := Ctl.members) fun _ _ _ => rfl
  have htime : (w.edit (.goTo new note true none)).state.time = w.state.time :=
    hkeep (f := Ctl.time) fun _ _ _ => rfl
  have hcooldown : (w.edit (.goTo new note true none)).state.inCooldown = w.state.inCooldown := by
    unfold Ctl.inCooldown
    rw [htime]
    exact congrArg (fun o : Option Time => o.any fun t => decide (w.state.time < t))
      (cooldownUntil_goTo w.state new note true none)
  exact
    { h.toPlain.of_log rfl with
      look := (congrArg Option.isSome (looked_congr rfl)).trans h.look
      lastObs := hobs.trans h.lastObs
      history := hhist.trans h.history
      believed := (goTo_same w.state new note true none).primary.trans h.believed
      cooldown := hcooldown.trans h.cooldown
      maint := (hkeep (f := Ctl.maintRunning) fun _ _ _ => rfl).trans h.maint
      time := htime.trans h.time
      since := (hkeep (f := Ctl.unhealthySince) fun _ _ _ => rfl).trans h.since
      knows := by
        rw [hmembers]
        exact h.knows
      lacks := by
        rw [hmembers]
        have hseeing : w₀.state.seeing (w.edit (.goTo new note true none)).state =
            w₀.state.seeing w.state := by
          unfold Ctl.seeing
          rw [hobs, hhist]
        rw [hseeing]
        exact hlacks }

/-- `maybe_replace` starts a replacement only of what has been judged replaceable. -/
theorem wp_maybeReplace (h : Judged cfg ob hist primary t w₀ w) :
    (maybeReplace cfg ob (w.state.streaming ob primary)).wp (tickBase.upon (replacing cfg)) t .tick
      (fun _ w₀ w => Over cfg t w₀ w) w₀ w := by
  unfold maybeReplace
  rw [wp_look]
  split
  · rename_i spare since donor rest hspare hsince hstreaming
    split
    · exact h.toPlain.over
    · rename_i hgo
      simp only [not_or, Bool.not_eq_false, Decidable.not_not, Bool.not_eq_true, not_lt] at hgo
      obtain ⟨hout, hprovisioner, hdegraded, hcooldown, hdelay⟩ := hgo
      unfold startMaintenance
      rw [bind_assoc, wp_look]
      split
      · exact h.toPlain.over
      · rename_i hmaint
        have hmaint : w.state.maintRunning = false := by simpa using hmaint
        have hmaint₀ : w₀.state.maintRunning = false := h.maint.symm.trans hmaint
        have hsince : since = w₀.state.sinceWhen ob := Option.some.inj (hsince.symm.trans h.since)
        -- The spare is out, so it was not added in this segment.
        obtain ⟨⟨⟨hprimary₀, hmembers⟩, -⟩, hadopts⟩ :
            Alive cfg hist primary w₀.state w.state.members ∧ w₀.state.adopts cfg ob = false := by
          rcases h.knows with hk | ⟨-, sp, hsp, hin⟩
          · exact hk
          · cases hspare.symm.trans hsp
            exact absurd hin hout
        have hsp : ∀ sp, cfg.spare = some sp → sp ∉ w.state.members := fun sp hsp => by
          cases hspare.symm.trans hsp
          exact hout
        have hdonor : donor ∈ w.state.streaming ob primary := by
          rw [hstreaming]
          exact List.mem_cons_self
        have hready : (w₀.state.seeing w.state).replaceable cfg ob = true := by
          have hsome : (w₀.state.seeing w.state).primary = some primary := hprimary₀
          have hstream : (w₀.state.seeing w.state).streaming ob primary =
              w.state.streaming ob primary := streaming_congr hmembers.symm ob primary
          have hout₀ : spare ∉ (w₀.state.seeing w.state).members := by
            show spare ∉ w₀.state.members
            rwa [← hmembers]
          unfold Ctl.replaceable
          rw [hsome, Option.any_some, h.lacks hsp hdegraded hmaint₀, hstream, hstreaming,
            hprovisioner, hspare, Option.any_some, decide_eq_true hout₀]
          have hnot : (w₀.state.seeing w.state).adopts cfg ob = false := hadopts
          have hcool : (w₀.state.seeing w.state).inCooldown = false :=
            h.cooldown.symm.trans hcooldown
          have hidle : (w₀.state.seeing w.state).maintRunning = false := hmaint₀
          rw [hnot, hcool, hidle]
          rfl
        have hplain := h.toPlain
        refine ⟨le_trans hplain.log (List.prefix_append w.log [_]).length_le, ?_⟩
        intro spare' donor' hstarted
        have hone : started w₀ (w.record (.created t (.replace spare donor) w.jobs.length))
            spare' donor' = true := hstarted
        rw [started_record hplain.log, hplain.none, Bool.false_or] at hone
        obtain ⟨rfl, rfl⟩ : spare = spare' ∧ donor = donor' := by
          simpa [startsReplace] using hone
        refine ⟨ob, ?_, h.lastObs, hready, ?_, hdegraded, h.time, hcooldown, hspare, hout, primary,
          h.believed, hdonor⟩
        · have hlook : looked t w₀ (w.record (.created t (.replace spare donor) w.jobs.length)) =
              looked t w₀ w := looked_record hplain.log rfl
          exact (congrArg Option.isSome hlook).trans h.look
        · rw [← hsince]
          exact hdelay
  · exact h.toPlain.over

/-- A set that is not sick by the poll lacks nobody. -/
theorem lacks_of {c : Ctl} (hdead : (evaluate c.history c.members cfg.params none).dead = false)
    (hkind : (evaluate c.history c.members cfg.params none).kind ≠ .suspect)
    (hsick : ¬ ((ob.nodes.get? primary).any (·.writable) = true ∧ c.streaming ob primary ≠ [] ∧
      cfg.configuredReplicas ≤ (c.streaming ob primary).length))
    (hstate : c.st.state = .degraded ∨ c.halted = false ∧
      (2 * cfg.second ≤ ob.ts - c.sinceWhen ob ∨ c.st.state = .failingOver)) :
    c.lacks cfg ob primary = true := by
  have hclause : (c.st.state == .degraded || !c.halted &&
      (decide (2 * cfg.second ≤ ob.ts - c.sinceWhen ob) || c.st.state == .failingOver)) = true := by
    rcases hstate with h | ⟨hnot, h | h⟩
    · simp [h]
    · simp [hnot, h]
    · simp [hnot, h]
  have hfew : ((ob.nodes.get? primary).any (·.writable) && !(c.streaming ob primary).isEmpty &&
      decide (cfg.configuredReplicas ≤ (c.streaming ob primary).length)) = false := by
    by_contra hall
    simp only [Bool.not_eq_false, Bool.and_eq_true, Bool.not_eq_true', List.isEmpty_eq_false_iff,
      decide_eq_true_eq] at hall
    exact hsick ⟨hall.1.1, hall.1.2, hall.2⟩
  unfold Ctl.lacks
  dsimp only
  rw [hdead, decide_eq_true hkind, hclause, hfew]
  rfl

/-- A set that is not healthy. -/
theorem wp_reconcileUnhealthy (h : Ready (Adopted cfg ob hist primary) ob hist t w₀ w)
    (hsick : ¬ ((ob.nodes.get? primary).any (·.writable) = true ∧
      w.state.streaming ob primary ≠ [] ∧
        cfg.configuredReplicas ≤ (w.state.streaming ob primary).length)) :
    (reconcileUnhealthy cfg ob primary ((ob.nodes.get? primary).any (·.writable))
        (w.state.streaming ob primary)).wp (tickBase.upon (replacing cfg)) t .tick
      (fun _ w₀ w => Over cfg t w₀ w) w₀ w := by
  have hprimary₀ : w₀.state.primary = some primary := by
    rcases h.knows with hk | hk
    · exact hk.1.1.1
    · exact hk.1
  -- The state of the set at the beginning is all that `lacks` still asks for.
  have hlacks : ∀ w' : World sig, w'.state.history = hist →
      (∀ sp, cfg.spare = some sp → sp ∉ w.state.members) →
      (w₀.state.st.state = .degraded ∨ w₀.state.halted = false ∧
        (2 * cfg.second ≤ ob.ts - w₀.state.sinceWhen ob ∨ w₀.state.st.state = .failingOver)) →
        (w₀.state.seeing w'.state).lacks cfg ob primary = true := by
    intro w' hhist hout hstate
    rcases h.knows with ⟨⟨⟨-, hmembers⟩, hdead, hkind⟩, -⟩ | ⟨-, sp, hsp, hin⟩
    · refine lacks_of ?_ ?_ ?_ hstate
      · show (evaluate w'.state.history w₀.state.members cfg.params none).dead = false
        rw [hhist]
        exact hdead
      · show (evaluate w'.state.history w₀.state.members cfg.params none).kind ≠ .suspect
        rw [hhist]
        exact hkind
      · rw [show (w₀.state.seeing w'.state).streaming ob primary = w.state.streaming ob primary from
          streaming_congr hmembers.symm ob primary]
        exact hsick
    · exact absurd hin (hout sp hsp)
  have hsince : w.state.unhealthySince.getD ob.ts = w₀.state.sinceWhen ob := by
    rw [h.unmoved.since]
    rfl
  have hjudged : Judged cfg ob hist primary t w₀
      (w.edit (.unhealthySince (some (w.state.unhealthySince.getD ob.ts)))) :=
    { h.toPlain.of_log rfl with
      look := (congrArg Option.isSome (looked_congr rfl)).trans h.look
      lastObs := h.lastObs
      history := h.history
      believed := h.primary_eq.trans hprimary₀
      cooldown := by
        show (w.state.st.cooldownUntil.any fun t => decide (w.state.time < t)) = _
        rw [h.unmoved.st, h.unmoved.time]
        rfl
      maint := by
        show (w.state.maint.any fun t => decide (t ∉ w.state.finished)) = _
        rw [h.unmoved.maint, h.unmoved.finished]
        rfl
      time := h.unmoved.time
      since := congrArg some hsince
      knows := h.knows
      lacks := fun hout hdegraded _ => hlacks _ h.history hout (.inl (by
        rw [← h.unmoved.st]
        exact hdegraded)) }
  have hrest : ∀ w', Judged cfg ob hist primary t w₀ w' → w'.state.members = w.state.members →
      (ctl >>= fun s => if s.st.state = .degraded then
          maybeReplace cfg ob (w.state.streaming ob primary)
        else pure ()).wp (tickBase.upon (replacing cfg)) t .tick
          (fun _ w₀ w => Over cfg t w₀ w) w₀ w' := by
    intro w' h' hmembers
    rw [wp_look]
    split
    · rw [← streaming_congr hmembers ob primary]
      exact wp_maybeReplace h'
    · exact h'.toPlain.over
  unfold reconcileUnhealthy
  rw [wp_look, wp_edit]
  unfold degrade
  rw [bind_assoc, wp_look]
  split
  · rename_i hmaint
    rw [wp_edit]
    refine hrest _ (hjudged.goTo fun _ _ hidle => ?_) (members_goTo _ _ _ _ _)
    rw [hjudged.maint.symm.trans hmaint] at hidle
    cases hidle
  · split
    · rename_i hlong
      rw [wp_edit]
      refine hrest _ (hjudged.goTo fun hout hdegraded _ => ?_) (members_goTo _ _ _ _ _)
      have hst : (w.edit (.unhealthySince (some (w.state.unhealthySince.getD ob.ts)))).state.st =
        w₀.state.st := h.unmoved.st
      rw [hst, hsince] at hlong
      refine hlacks _ h.history hout (.inr ⟨?_, hlong⟩)
      by_contra hhalted
      have hstate : w₀.state.st.state = .halted := by simpa [Ctl.halted] using hhalted
      rw [goTo_of_halted (by rw [hst]; exact hstate), hst, hstate] at hdegraded
      cases hdegraded
    · rw [pure_bind]
      exact hrest _ hjudged rfl

/-- The reconciliation starts a replacement only in a DEGRADED set that has waited. -/
theorem wp_reconcile (h : Ready (Alive cfg hist primary) ob hist t w₀ w) :
    (reconcile cfg ob primary).wp (tickBase.upon (replacing cfg)) t .tick
      (fun _ w₀ w => Over cfg t w₀ w) w₀ w := by
  unfold reconcile
  refine Prog.wp_seq (wp_adoptSpare h) fun _ w₀ w h => ?_
  refine Prog.wp_seq (wp_ready (rejoinActions_mends cfg ob) h) fun _ w₀ w h => ?_
  rw [wp_look]
  dsimp only
  split
  · rw [wp_edit]
    have hplain : Plain w₀ (w.edit (.unhealthySince none)) := h.toPlain.of_log rfl
    split
    · exact hplain.over
    · exact Plain.over (hplain.of_log rfl)
  · rename_i hsick
    exact wp_reconcileUnhealthy h hsick

/-- The decision of a tick. -/
theorem wp_act {v : Verdict} (h : Ready (Decides cfg hist primary v) ob hist t w₀ w) :
    (act cfg ob primary v).wp (tickBase.upon (replacing cfg)) t .tick
      (fun _ w₀ w => Over cfg t w₀ w) w₀ w := by
  unfold act
  rw [wp_look]
  split
  · split
    -- Dead within the cooldown: a note at most.
    · split
      · exact h.toPlain.over
      · rw [wp_edit]
        exact Plain.over (h.toPlain.of_log rfl)
    -- The failover runs, and it starts no replacement.
    · refine Prog.wp_seq (wp_plain failover_sparing (failover_speaks cfg primary _) h.toPlain)
        fun _ w₀ w h => ?_
      exact h.over
  · rename_i halive
    rw [wp_edit]
    split
    -- A suspect primary that is alive and stalled: the rejoins are tended, which starts none.
    · rw [wp_edit]
      split
      · refine Prog.wp_mono (fun _ _ _ hp => Plain.over hp) _ _ _
          (wp_plain mend_sparing (rejoinActions_mends cfg ob).speaks ?_)
        exact h.toPlain.of_log rfl
      · exact Plain.over (h.toPlain.of_log rfl)
    -- Neither dead nor suspect: reconciling is what may start a replacement.
    · rename_i hkind
      have hready : Ready (Decides cfg hist primary v) ob hist t w₀ (w.edit (.cooldownLogged false)) :=
        h.edit trivial
      refine wp_reconcile (hready.imp fun hk => ⟨hk.1, ?_, ?_⟩)
      · rw [hk.2]
        simpa using halive
      · rw [hk.2]
        exact hkind

/-- So does a tick under the lock. -/
theorem wp_tickLocked (h : Ready AtLock ob hist t w₀ w) :
    (tickLocked cfg ob).wp (tickBase.upon (replacing cfg)) t .tick
      (fun _ w₀ w => Over cfg t w₀ w) w₀ w := by
  unfold tickLocked
  rw [wp_look]
  split
  · exact Prog.wp_mono (fun _ _ _ hp => Plain.over hp) _ _ _
      (wp_plain cold_sparing (discover_speaks cfg ob) h.toPlain)
  · rename_i primary hprimary
    have hfound : Ready (Found primary) ob hist t w₀ w :=
      h.imp fun hk => ⟨h.primary_eq.symm.trans hprimary, hk⟩
    refine Prog.wp_seq (wp_coldStartCheck_ready hfound) fun acted w₀ w hchecked => ?_
    split
    · exact hchecked.1.over
    · rename_i hacted
      have h := hchecked.2 (by simpa using hacted)
      rw [wp_look]
      dsimp only
      have hdecides : Ready (Decides cfg hist primary
          (evaluate w.state.history w.state.members cfg.params none)) ob hist t w₀ w :=
        h.imp fun hk => ⟨hk, by rw [h.history, hk.2]⟩
      exact Prog.wp_seq (wp_ready (checkStall_mends cfg primary ob) hdecides) fun _ w₀ w h => wp_act h

/-- What is said of the segment depends on its log only. -/
theorem Over.of_log (h : Over cfg t w₀ w) (hlog : w'.log = w.log)
    (hstate : ∀ ob spare donor, Started cfg t spare donor ob w₀ w →
      Started cfg t spare donor ob w₀ w') : Over cfg t w₀ w' where
  log := hlog ▸ h.log
  starts spare donor hstarted := by
    obtain ⟨ob, hs⟩ := h.starts spare donor (by
      rw [← hstarted]
      unfold started
      rw [hlog])
    exact ⟨ob, hstate _ _ _ hs⟩

/-- The lock is no part of it. -/
theorem Over.release (h : Over cfg t w₀ w) : Over cfg t w₀ (w.edit .release) :=
  h.of_log rfl fun _ _ _ hs => ⟨hs.look, hs.lastObs, hs.ready, hs.delay, hs.degraded, hs.time,
    hs.cooldown, hs.known, hs.out, hs.streams⟩

/-- The end of a segment. -/
theorem Over.finish (h : Over cfg t w₀ w) : Starts cfg t w₀ (w.finish t) := by
  intro spare donor hstarted
  have hone : started w₀ (w.record (.finished t w.state)) spare donor = true := hstarted
  rw [started_record h.log, show startsReplace spare donor (.finished t w.state) = false from rfl,
    Bool.or_false] at hone
  obtain ⟨ob, hs⟩ := h.starts spare donor hone
  have hlook : looked t w₀ (w.finish t) = looked t w₀ w :=
    looked_record (e := .finished t w.state) h.log rfl
  exact ⟨ob, (congrArg Option.isSome hlook).trans hs.look, hs.lastObs, hs.ready, hs.delay,
    hs.degraded, hs.time, hs.cooldown, hs.known, hs.out, hs.streams⟩

/-- A poll starts no replacement. -/
theorem plain_of_polled (h : Polling.Polled w₀ w) : Plain w₀ w where
  log := h.log
  none spare donor := by
    unfold started
    rw [List.any_eq_false]
    intro e he
    have hpolling := h.silent e he
    cases e with
    | created t' j' i => cases hpolling
    | issued | answered | landed | resent | finished => exact nofun

/-- A tick that has the lock is ready. -/
theorem ready_of_locks (h : Locks t ob w₀ w) :
    Ready AtLock ob w.state.history t w₀ w := by
  obtain ⟨lastObs, history, lock, hsame⟩ := h.same
  exact
    { plain_of_polled h.toPolled with
      look := by
        rw [h.look]
        rfl
      lastObs := h.lastObs
      history := rfl
      unmoved := by
        rw [hsame]
        exact ⟨rfl, rfl, rfl, rfl, rfl⟩
      knows := by
        rw [hsame]
        rfl }

/-- A tick. -/
theorem wp_tick (hj : w.jobs[t]? = some .tick) (hlive : t ∉ w.state.finished)
    (hpoll : hasPoll t w.log = false) :
    (tick cfg t).wp (tickBase.upon (replacing cfg)) t .tick (fun _ w₀ w => Over cfg t w₀ w) w w := by
  refine wp_tick_of_locks (fun _ _ h => (plain_of_polled h.toPolled).may)
    (fun _ _ h => (plain_of_polled h.toPolled).over) (fun ob w₀ w h => ?_) hj hlive hpoll
  exact Prog.wp_seq (wp_tickLocked (ready_of_locks h)) fun _ w₀ w h => h.release

end

end

/-! ### The runs -/

/-- Every task keeps the contract. -/
theorem replacing_sound (cfg : Config) {ok : Pool sig → Move sig → Pool sig → Prop} :
    tickBase.SoundOver (replacing cfg) (body cfg) ok where
  rely_refl _ _ := trivial
  rely_trans _ _ _ _ _ _ := trivial
  rely_of_may _ _ _ _ _ _ _ _ _ := trivial
  rely_arrive _ _ _ _ _ _ := trivial
  rely_outside _ _ _ _ _ _ := trivial
  rely_land _ _ _ _ _ _ _ := trivial
  rely_resend _ _ _ _ _ _ _ := trivial
  inv_may _ _ _ _ _ _ _ := trivial
  inv_arrive _ _ _ _ _ := trivial
  inv_outside _ _ _ _ _ := trivial
  inv_land _ _ _ _ _ _ := trivial
  inv_resend _ _ _ _ _ _ := trivial
  pre_rely _ _ _ _ _ _ _ := trivial
  pre_may _ _ _ _ _ _ _ _ _ _ _ := trivial
  pre_arrive _ _ _ _ _ := trivial
  allowed_start _ _ _ _ := trivial
  allowed_answer _ _ _ _ _ := trivial
  allowed_wake _ _ _ _ := trivial
  answers_ok _ _ _ _ _ _ _ _ := trivial
  body_wp t j w _ _ hj hpre _ := by
    by_cases htick : j = .tick
    · subst htick
      refine Prog.wp_mono (fun _ _ _ h _ => h.finish) _ _ _ (wp_tick hj hpre.2 ?_)
      exact hasPoll_of_own_nil hpre.1.1.2
    · refine Prog.wp_mono (fun _ _ _ h _ => h.over.finish) _ _ _
        (wp_plain (task_sparing cfg t htick) (body_speaks_task cfg t j) .refl)

open Machine (Reach)

/-- A tick that decides, with a spare to provision, does not do so on a poll in the gap. -/
def Ripe (cfg : Config) (s : Degrading) (m : Move sig) : Prop :=
  (decided s.pool m).isSome = true → s.state.provisions cfg = true →
    ∀ p' ∈ s.pool.fire (body cfg) m, ∀ ob ∈ p'.world.state.lastObs, ¬ InGap cfg s ob

section
variable {cfg : Config} {s s' : Degrading} {m : Move sig} {spare donor : Node}

/-- The contracts hold in every run. -/
theorem holds_of_reach {ok : Degrading → Move sig → Prop}
    (h : Reach (step cfg) ok (start cfg) s) : (tickBase.both (replacing cfg)).Holds s.pool := by
  have hruns : Runs cfg (fun _ _ _ => True) s.pool := by
    refine Coop.Reach.of_machine Degrading.pool (fun s m s' _ hm => ?_) h
    obtain ⟨henv, hfire⟩ := Option.ite_none_right_eq_some.mp hm
    obtain ⟨p, hp, rfl⟩ := Option.map_eq_some_iff.mp hfire
    exact .inr ⟨m, hp, henv, trivial⟩
  exact holds_of_ticks (replacing_sound cfg) trivial hruns

/-- A move of no task starts nothing. -/
theorem idle_of_no_task {p p' : Pool sig} (henv : environment p m = true)
    (hf : p.fire (body cfg) m = some p') (ht : m.task = none) :
    started p.world p'.world spare donor = false := by
  cases m with
  | start t | answer t f | wake t => cases ht
  | arrive j =>
      cases hf
      exact started_refl
  | outside u =>
      cases hf
      obtain ⟨time, mono, rfl⟩ := clock_of_environment henv
      exact started_refl
  | land t r =>
      cases hf
      have hlanded : started p.world (p.world.record (.landed t r)) spare donor = false := by
        rw [started_record (le_refl _), started_refl]
        rfl
      exact hlanded
  | resend t r =>
      cases hf
      have hresent : started p.world (p.world.record (.resent t r p.world.state)) spare donor =
          false := by
        rw [started_record (le_refl _), started_refl]
        rfl
      exact hresent

/-- A replacement is started by a tick that decides, on all that it finds. -/
theorem started_of_step {ok : Degrading → Move sig → Prop}
    (h : Reach (step cfg) ok (start cfg) s) (hm : s.step cfg m = some s')
    (hstarted : s.replaces s' spare donor = true) :
    ∃ t ob, (decided s.pool m).isSome = true ∧
      Started cfg t spare donor ob s.pool.world s'.pool.world := by
  have hh := holds_of_reach h
  obtain ⟨henv, hfire⟩ := Option.ite_none_right_eq_some.mp hm
  obtain ⟨p, hp, rfl⟩ := Option.map_eq_some_iff.mp hfire
  have hstarted : started s.pool.world p.world spare donor = true := hstarted
  cases ht : m.task with
  | none =>
      rw [idle_of_no_task henv hp ht] at hstarted
      cases hstarted
  | some t =>
      have hok : ∀ (p : Pool sig) m (p' : Pool sig), environment p m = true → environment p m = true :=
        fun _ _ _ h => h
      have hmay := ((tickBase_sound cfg hok).both (replacing_sound cfg)).may_of_fire hh hp henv ht
      obtain ⟨ob, hs⟩ := hmay.2 spare donor hstarted
      refine ⟨t, ob, ?_, hs⟩
      rw [← looked_of_fire hh hp ht]
      exact hs.look

/-- Where a replacement is due, a spare is there and no maintenance task runs. -/
theorem provisions_of_replaceable {c polled : Ctl} {ob : Observation}
    (h : (c.seeing polled).replaceable cfg ob = true) :
    c.provisions cfg = true ∧ c.maintRunning = false := by
  obtain ⟨primary, -, hall⟩ := (Option.any_eq_true _ _).mp h
  simp only [Bool.and_eq_true, Bool.not_eq_true'] at hall
  obtain ⟨⟨⟨⟨⟨-, hprovisioner⟩, hspare⟩, -⟩, hcooldown⟩, hmaint⟩ := hall
  have hcool : c.inCooldown = false := hcooldown
  have hout : cfg.spare.any (· ∉ c.members) = true := hspare
  refine ⟨?_, hmaint⟩
  unfold Ctl.provisions
  rw [hprovisioner, hout, hcool]
  rfl

end

/-! ### Runs -/

instance (cfg : Config) (s : Degrading) (m : Move sig) : Decidable (Ripe cfg s m) :=
  inferInstanceAs (Decidable ((decided s.pool m).isSome = true → s.state.provisions cfg = true →
    ∀ p' ∈ s.pool.fire (body cfg) m, ∀ ob ∈ p'.world.state.lastObs, ¬ InGap cfg s ob))

/-- `a` is the primary, and `b` streams from it. `c` is lost. -/
def alone : Node → Except String StatusBody := fun n =>
  if n = "a" then primaryStatus 5 else if n = "b" then replicaStatus "a" 5 5 else down

/-- `c` is missing at 1 s, and the set DEGRADED at 4 s. -/
def degradedAt4 : Degrading :=
  Machine.run (step fleet) (start fleet) (discovery alone ++
    [.outside (.clock 1000 1000), .arrive .tick, .start 1, .answer 1 (succeed true alone),
     .outside (.clock 4000 4000), .arrive .tick, .start 2, .answer 2 (succeed true alone)])

/-- A tick polls at 65 s. -/
def pollAt65 : Degrading :=
  Machine.run (step fleet) degradedAt4 [.outside (.clock 65000 65000), .arrive .tick, .start 3]

/-- The operator halts the set, and resumes it at 60 s. A tick polls at 61 s. -/
def pollAt61 : Degrading :=
  Machine.run (step fleet) degradedAt4
    [.arrive (.halt none), .start 3, .answer 3 (succeed true alone),
     .outside (.clock 60000 60000), .arrive .resume, .start 4, .answer 4 (succeed true alone),
     .outside (.clock 61000 61000), .arrive .tick, .start 5]

end Degrading

end DbGuard
