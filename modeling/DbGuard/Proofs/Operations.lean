import DbGuard.Proofs.Vocabulary

/-!
# `DbGuard.Proofs.Operations`: what the holder of the lock says

The vocabularies of the parts of a tick and of a switchover that run while they hold the
set's lock. Only failover, switchover, cold start and bootstrap suspend there. The rest of a
tick starts tasks and records events, and never HALTs the set.
-/

set_option autoImplicit false

namespace DbGuard

open Coop (Prog)

/-- The node that a node task works on. -/
def Job.node : Job → Option Node
  | .rejoinNode n _ => some n
  | .fenceSecondWriter n _ => some n
  | .verifyAfterRepoint n _ => some n
  | .repointAfter old _ => some old
  | _ => none

/-- What `wait_caught_up` does. -/
def readVocabulary : Vocabulary where
  edits _ := False
  awaits
    | .status _ | .replicaState _ | .sleep => True
    | _ => False

/-- What a failover does. -/
def failoverVocabulary : Vocabulary where
  edits
    | .setPrimary _ | .failedOver _ | .halt _ => True
    | .goTo new _ _ _ => new ≠ .halted
    | .enter op => op = .failover
    | .event e => e.type = .failover
    | _ => False
  awaits
    | .status _ | .replicaState _ | .sleep | .stopIo _ | .freshViews _ | .repointAll _ _
    | .promote _ => True
    | _ => False
  creates j := ∃ n, j = .fence n

/-- What a failover does between its start and its record. -/
def leadVocabulary : Vocabulary where
  edits
    | .setPrimary _ | .halt _ => True
    | .event e => e.type = .failover
    | _ => False
  awaits := failoverVocabulary.awaits
  creates := failoverVocabulary.creates

/-- What a switchover does before the stall, which moves the replicas and opens the waiter. -/
def moveVocabulary : Vocabulary where
  edits _ := False
  awaits
    | .freshViews _ | .repointAll _ _ | .sleep | .gtidWaiter _ | .waiterWait _ _ => True
    | _ => False

/-- What a switchover does to catch the candidate up with the quiesced primary. -/
def finalVocabulary : Vocabulary where
  edits _ := False
  awaits
    | .status _ | .replicaState _ | .sleep | .waiterWait _ _ => True
    | _ => False

/-- What a switchover does. -/
def switchoverVocabulary : Vocabulary where
  edits
    | .setPrimary _ | .unhealthySince _ | .halt _ => True
    | .goTo new _ _ _ => new ≠ .halted
    | .enter op => op = .switchover
    | .event e => e.type = .switchover
    | _ => False
  awaits
    | .status _ | .replicaState _ | .sleep | .freshViews _ | .repointAll _ _ | .promote _
    | .fence _ | .gtidWaiter _ | .waiterWait _ _ | .waiterClose _ => True
    | _ => False
  nodeTasks m j := ∃ target, j = .repointAfter m target

/-- What cold start, bootstrap and discovery do. -/
def coldVocabulary : Vocabulary where
  edits
    | .setPrimary _ | .halt _ | .coldStartSeen _ => True
    | .enter op => op = .coldStart ∨ op = .bootstrap
    | .event e => e.type = .coldStart ∨ e.type = .bootstrap
    | _ => False
  awaits
    | .repointAll _ _ | .promote _ => True
    | _ => False

/-- What the rest of a tick does, all of it in one segment. -/
def tickVocabulary (cfg : Config) : Vocabulary where
  edits
    | .backoff _ _ | .manualNoted _ _ | .splitNoted _ _ | .cooldownLogged _
    | .unhealthySince _ | .stallSince _ => True
    | .goTo new _ _ _ => new ≠ .halted
    | .event e => e.type = .stall ∨ e.type = .splitBrain ∨ e.type = .rejoin
    | _ => False
  awaits _ := False
  nodeTasks m j := (∃ why, j = .rejoinNode m why) ∨ ∃ primary, j = .fenceSecondWriter m primary
  maints j ns := ∃ spare donor, j = .replace spare donor ∧ ns = [spare] ∧ cfg.spare = some spare
  joins n := cfg.spare = some n

/-- What a tick does to repair the set, besides its moves to another state. -/
def repairVocabulary (cfg : Config) : Vocabulary :=
  { tickVocabulary cfg with
    edits
      | .goTo _ _ _ _ => False
      | u => (tickVocabulary cfg).edits u }

/-- What `_check_stall` and `rejoin_actions` do. -/
def mendVocabulary : Vocabulary where
  edits
    | .backoff _ _ | .manualNoted _ _ | .splitNoted _ _ | .stallSince _ => True
    | .event e => e.type = .stall ∨ e.type = .splitBrain ∨ e.type = .rejoin
    | _ => False
  awaits _ := False
  nodeTasks m j := (∃ why, j = .rejoinNode m why) ∨ ∃ primary, j = .fenceSecondWriter m primary

/-- What a rejoin request does while it holds the lock. -/
def requestVocabulary (n : Node) : Vocabulary :=
  { nodeVocabulary n with joins := fun m => m = n }

/-- What the holder of the lock does. -/
def heldVocabulary (cfg : Config) : Vocabulary where
  edits
    | .setPrimary _ | .goTo _ _ _ _ | .halt _ | .failedOver _ | .event _ | .backoff _ _
    | .manualNoted _ _ | .splitNoted _ _ | .coldStartSeen _ | .cooldownLogged _
    | .unhealthySince _ | .stallSince _ | .enter _ => True
    | _ => False
  awaits _ := True
  creates j := ∃ n, j = .fence n
  nodeTasks n j := j.node = some n
  maints j ns :=
    (∃ args : Rebuild, j = .rebuildAndJoin args ∧ ns = [args.node] ∧ args.eventType = .rejoin) ∨
      ∃ spare donor, j = .replace spare donor ∧ ns = [spare] ∧ cfg.spare = some spare
  joins _ := True

/-- A lead may read as `wait_caught_up` does. -/
theorem readVocabulary_le_lead : readVocabulary.Le leadVocabulary where
  edits _ h := h.elim
  awaits r h := by cases r <;> first | exact h | exact h.elim
  creates _ h := h.elim
  nodeTasks _ _ h := h.elim
  maints _ _ h := h.elim
  joins _ h := h.elim

/-- A lead is part of a failover. -/
theorem leadVocabulary_le : leadVocabulary.Le failoverVocabulary where
  edits u h := by cases u <;> first | exact h | exact h.elim
  awaits _ h := h
  creates _ h := h
  nodeTasks _ _ h := h.elim
  maints _ _ h := h.elim
  joins _ h := h.elim

/-- What a tick repairs is part of what it does. -/
theorem repairVocabulary_le (cfg : Config) : (repairVocabulary cfg).Le (tickVocabulary cfg) where
  edits u h := by cases u <;> first | exact h | exact h.elim
  awaits _ h := h
  creates _ h := h
  nodeTasks _ _ h := h
  maints _ _ h := h
  joins _ h := h

/-- `_check_stall` and `rejoin_actions` are part of the repair. -/
theorem mendVocabulary_le (cfg : Config) : mendVocabulary.Le (repairVocabulary cfg) where
  edits u h := by cases u <;> first | exact h | exact h.elim
  awaits _ h := h
  creates _ h := h.elim
  nodeTasks _ _ h := h
  maints _ _ h := h.elim
  joins _ h := h.elim

/-- The moves before the stall are part of a switchover. -/
theorem moveVocabulary_le : moveVocabulary.Le switchoverVocabulary where
  edits _ h := h.elim
  awaits r h := by cases r <;> first | exact h | exact h.elim
  creates _ h := h.elim
  nodeTasks _ _ h := h.elim
  maints _ _ h := h.elim
  joins _ h := h.elim

/-- Catching up with the quiesced primary may read as `wait_caught_up` does. -/
theorem readVocabulary_le_final : readVocabulary.Le finalVocabulary where
  edits _ h := h.elim
  awaits r h := by cases r <;> first | exact h | exact h.elim
  creates _ h := h.elim
  nodeTasks _ _ h := h.elim
  maints _ _ h := h.elim
  joins _ h := h.elim

/-- Catching up with the quiesced primary is part of a switchover. -/
theorem finalVocabulary_le : finalVocabulary.Le switchoverVocabulary where
  edits _ h := h.elim
  awaits r h := by cases r <;> first | exact h | exact h.elim
  creates _ h := h.elim
  nodeTasks _ _ h := h.elim
  maints _ _ h := h.elim
  joins _ h := h.elim

/-- A failover runs under the lock. -/
theorem failoverVocabulary_le (cfg : Config) : failoverVocabulary.Le (heldVocabulary cfg) where
  edits u h := by cases u <;> trivial
  awaits _ _ := trivial
  creates _ h := h
  nodeTasks _ _ h := h.elim
  maints _ _ h := h.elim
  joins _ h := h.elim

/-- A switchover runs under the lock. -/
theorem switchoverVocabulary_le (cfg : Config) :
    switchoverVocabulary.Le (heldVocabulary cfg) where
  edits u h := by cases u <;> trivial
  awaits _ _ := trivial
  creates _ h := h.elim
  nodeTasks m j h := by obtain ⟨target, rfl⟩ := h; rfl
  maints _ _ h := h.elim
  joins _ h := h.elim

/-- Cold start, bootstrap and discovery run under the lock. -/
theorem coldVocabulary_le (cfg : Config) : coldVocabulary.Le (heldVocabulary cfg) where
  edits u h := by cases u <;> trivial
  awaits _ _ := trivial
  creates _ h := h.elim
  nodeTasks _ _ h := h.elim
  maints _ _ h := h.elim
  joins _ h := h.elim

/-- The rest of a tick runs under the lock. -/
theorem tickVocabulary_le (cfg : Config) : (tickVocabulary cfg).Le (heldVocabulary cfg) where
  edits u h := by cases u <;> trivial
  awaits _ _ := trivial
  creates _ h := h.elim
  nodeTasks m j h := by obtain ⟨why, rfl⟩ | ⟨primary, rfl⟩ := h <;> rfl
  maints _ _ h := .inr h
  joins _ _ := trivial

/-- A rejoin that was asked for runs under the lock. -/
theorem requestVocabulary_le (cfg : Config) (n : Node) :
    (requestVocabulary n).Le (heldVocabulary cfg) where
  edits u h := by cases u <;> trivial
  awaits _ _ := trivial
  creates _ h := h.elim
  nodeTasks m j h := by obtain ⟨rfl, primary, rfl⟩ := h; rfl
  maints j ns h := by
    obtain ⟨rfl, args, rfl, rfl, htype⟩ := h
    exact .inl ⟨args, rfl, rfl, htype⟩
  joins _ _ := trivial

/-- A rejoin that was asked for does what its node task does. -/
theorem nodeVocabulary_le_request (n : Node) : (nodeVocabulary n).Le (requestVocabulary n) where
  edits _ h := h
  awaits _ h := h
  creates _ h := h
  nodeTasks _ _ h := h
  maints _ _ h := h
  joins _ h := h.elim

/-- What any task does, but for a failover's /fence and the append of a replacement. The
members of `joins` are appended with a look first. -/
def everyVocabulary (cfg : Config) (joins : Node → Prop) : Vocabulary where
  edits
    | .addMember _ => False
    | _ => True
  awaits _ := True
  creates j := ∃ donor, j = .keepUnstuck donor
  nodeTasks n j := j.node = some n
  maints j ns :=
    (∃ args : Rebuild, j = .rebuildAndJoin args ∧ ns = [args.node] ∧ args.eventType = .rejoin) ∨
      ∃ spare donor, j = .replace spare donor ∧ ns = [spare] ∧ cfg.spare = some spare
  joins := joins

section
variable (cfg : Config) (joins : Node → Prop)

/-- Tasks do what a switchover does. -/
theorem switchover_le_every : switchoverVocabulary.Le (everyVocabulary cfg joins) where
  edits u h := by cases u <;> trivial
  awaits _ _ := trivial
  creates _ h := h.elim
  nodeTasks _ _ h := by obtain ⟨target, rfl⟩ := h; rfl
  maints _ _ h := h.elim
  joins _ h := h.elim

/-- Tasks do what cold start, bootstrap and discovery do. -/
theorem cold_le_every : coldVocabulary.Le (everyVocabulary cfg joins) where
  edits u h := by cases u <;> trivial
  awaits _ _ := trivial
  creates _ h := h.elim
  nodeTasks _ _ h := h.elim
  maints _ _ h := h.elim
  joins _ h := h.elim

/-- Tasks do what a tick does, if the spare may join. -/
theorem tick_le_every (hspare : ∀ n, cfg.spare = some n → joins n) :
    (tickVocabulary cfg).Le (everyVocabulary cfg joins) where
  edits u h := by cases u <;> trivial
  awaits _ _ := trivial
  creates _ h := h.elim
  nodeTasks _ _ h := by obtain ⟨why, rfl⟩ | ⟨primary, rfl⟩ := h <;> rfl
  maints _ _ h := .inr h
  joins := hspare

/-- Tasks do what a rejoin of `n` does, if `n` may join. -/
theorem request_le_every {n : Node} (hn : joins n) :
    (requestVocabulary n).Le (everyVocabulary cfg joins) where
  edits u h := by cases u <;> trivial
  awaits _ _ := trivial
  creates _ h := h.elim
  nodeTasks _ _ h := by obtain ⟨rfl, primary, rfl⟩ := h; rfl
  maints _ _ h := by
    obtain ⟨rfl, args, rfl, rfl, htype⟩ := h
    exact .inl ⟨args, rfl, rfl, htype⟩
  joins m hm := by
    rw [show m = n from hm]
    exact hn

/-- Node tasks are tasks. -/
theorem node_le_every (n : Node) : (nodeVocabulary n).Le (everyVocabulary cfg joins) where
  edits u h := by cases u <;> trivial
  awaits _ _ := trivial
  creates _ h := h.elim
  nodeTasks _ _ h := by obtain ⟨rfl, primary, rfl⟩ := h; rfl
  maints _ _ h := by
    obtain ⟨rfl, args, rfl, rfl, htype⟩ := h
    exact .inl ⟨args, rfl, rfl, htype⟩
  joins _ h := h.elim

/-- Replacements and rebuilds are tasks. -/
theorem rebuild_le_every (n : Node) (type : EventType) :
    (rebuildVocabulary n type).Le (everyVocabulary cfg joins) where
  edits u h := by cases u <;> trivial
  awaits _ _ := trivial
  creates _ h := h
  nodeTasks _ _ h := h.elim
  maints _ _ h := h.elim
  joins _ h := h.elim

/-- The keeper of `/unstick` is a task. -/
theorem keeper_le_every : keeperVocabulary.Le (everyVocabulary cfg joins) where
  edits u h := by cases u <;> trivial
  awaits _ _ := trivial
  creates _ h := h.elim
  nodeTasks _ _ h := h.elim
  maints _ _ h := h.elim
  joins _ h := h.elim

end

section
variable (cfg : Config) (winner old target primary : Node) (run : Run) (views : Views)
  (ob : Observation)

/-! ### Failover -/

/-- One read of `wait_caught_up`. -/
theorem readCaughtUp_speaks (set : Option GtidSet) :
    Speaks readVocabulary (readCaughtUp cfg winner set) := by
  unfold readCaughtUp
  refine speaks_bind (speaks_status trivial) fun nv => ?_
  split
  · exact speaks_pure _
  · split
    · exact speaks_pure _
    · split
      · exact speaks_pure _
      · split
        · exact speaks_pure _
        · dsimp only
          split
          · refine speaks_bind (speaks_await trivial) fun state => ?_
            split
            · exact speaks_pure _
            · exact speaks_pure _
          · exact speaks_pure _

/-- The loop of `wait_caught_up`, round by round. -/
theorem pollCaughtUp_speaks (set : Option GtidSet) (deadline : Time) (rounds : Nat) :
    Speaks readVocabulary (pollCaughtUp cfg winner set deadline rounds) := by
  induction rounds with
  | zero =>
      unfold pollCaughtUp
      refine speaks_bind (readCaughtUp_speaks cfg winner set) fun r => ?_
      cases r <;> exact speaks_pure _
  | succ rounds ih =>
      unfold pollCaughtUp
      refine speaks_bind (readCaughtUp_speaks cfg winner set) fun r => ?_
      cases r with
      | caughtUp why => exact speaks_pure _
      | failed why => exact speaks_pure _
      | behind why =>
          refine speaks_look fun s => ?_
          split
          · exact speaks_pure _
          · exact speaks_bind (speaks_await trivial) fun _ => ih

/-- `wait_caught_up` only reads. -/
theorem waitCaughtUp_speaks (set : Option GtidSet) :
    Speaks readVocabulary (waitCaughtUp cfg winner set) := by
  unfold waitCaughtUp
  exact speaks_look fun s => pollCaughtUp_speaks cfg winner set _ _

/-- The stops of the IO threads, node by node. -/
theorem stopIoThreads_speaks (ns : List Node) :
    Speaks leadVocabulary (stopIoThreads cfg ns) := by
  unfold stopIoThreads
  split
  · exact speaks_bind (speaks_await trivial) fun res => speaks_pure _
  · exact speaks_pure _

/-- The record of a failover. -/
theorem finish_speaks (newPrimary : Option Node) (watermark haltReason : Option String) :
    Speaks leadVocabulary (run.finish newPrimary watermark haltReason) := by
  unfold Run.finish
  refine speaks_bind (speaks_event rfl) fun _ => ?_
  cases haltReason with
  | none => exact speaks_pure _
  | some reason => exact speaks_edit trivial

/-- The answer of the fence task. -/
theorem fenceDone_speaks (t : Nat) : Speaks leadVocabulary (Run.fenceDone t) := by
  unfold Run.fenceDone
  refine speaks_look fun s => ?_
  split
  · exact speaks_pure _
  · exact speaks_bind (speaks_block _) fun _ => speaks_look fun s' => speaks_pure _

/-- The fence starts as a task, and the IO threads stop meanwhile. -/
theorem fenceAndStopIo_speaks : Speaks leadVocabulary (run.fenceAndStopIo cfg) := by
  unfold Run.fenceAndStopIo
  split
  · exact speaks_pure _
  · refine speaks_bind (speaks_create ⟨_, rfl⟩) fun t => speaks_look fun s => ?_
    refine speaks_bind (stopIoThreads_speaks cfg _) fun ioStop => ?_
    dsimp only
    split
    · exact speaks_pure _
    · exact speaks_bind (fenceDone_speaks t) fun _ => speaks_pure _

/-- The wait for the fence. -/
theorem awaitFence_speaks : Speaks leadVocabulary run.awaitFence := by
  unfold Run.awaitFence
  split
  · refine speaks_bind (fenceDone_speaks _) fun r => ?_
    cases r with
    | none => exact speaks_pure _
    | some r => exact speaks_pure _
  · exact speaks_pure _

/-- The choice of the winner. -/
theorem chooseWinner_speaks (ioStop : List (Node × Option ErrorText)) :
    Speaks leadVocabulary (run.chooseWinner cfg ioStop) := by
  unfold Run.chooseWinner
  refine speaks_bind (speaks_freshViews trivial) fun views => ?_
  dsimp only
  split
  · refine speaks_bind (awaitFence_speaks _) fun run => ?_
    exact speaks_bind (finish_speaks run _ _ _) fun _ => speaks_pure _
  · exact speaks_pure _

/-- The catch-up of the winner. -/
theorem catchUp_speaks : Speaks leadVocabulary (run.catchUp cfg winner) := by
  unfold Run.catchUp
  split
  · exact speaks_pure _
  · refine speaks_bind
      ((waitCaughtUp_speaks cfg winner none).mono readVocabulary_le_lead) fun r => ?_
    dsimp only
    split
    · exact speaks_pure _
    · refine speaks_bind (awaitFence_speaks _) fun run => ?_
      exact speaks_bind (finish_speaks run _ _ _) fun _ => speaks_pure _

/-- The repoint of the losers, before or after the promotion. -/
theorem repointWhen_speaks (now : Bool) :
    Speaks leadVocabulary (run.repointWhen winner now) := by
  unfold Run.repointWhen
  split
  · unfold Run.repoint
    exact speaks_bind (speaks_repointAll trivial) fun ok => speaks_pure _
  · exact speaks_pure _

/-- The wait for the fence right before `/promote`. -/
theorem awaitFenceBeforePromote_speaks :
    Speaks leadVocabulary (run.awaitFenceBeforePromote winner) := by
  unfold Run.awaitFenceBeforePromote
  refine speaks_bind (awaitFence_speaks run) fun run => ?_
  split
  · exact speaks_pure _
  · split <;> exact speaks_pure _

/-- The promotion of the winner. -/
theorem promote_speaks : Speaks leadVocabulary (run.promote winner) := by
  unfold Run.promote
  refine speaks_bind (speaks_await trivial) fun resp => ?_
  cases resp with
  | error e => exact speaks_bind (finish_speaks _ _ _ _) fun _ => speaks_pure _
  | ok body => exact speaks_bind (speaks_edit trivial) fun _ => speaks_pure _

/-- What a failover does once it has chosen. -/
def Run.carryOut (cfg : Config) (run : Run) (winner : Option Node) : M (Except String Unit) := do
  match winner with
  | none => pure (.ok ())
  | some winner =>
    let (run, caughtUp) ← run.catchUp cfg winner
    if !caughtUp then
      pure (.ok ())
    else
      let run ← run.repointWhen winner (cfg.mode == .dbguard)
      match ← run.awaitFenceBeforePromote winner with
      | .error e => pure (.error e)
      | .ok run =>
        let (run, promoted) ← run.promote winner
        match promoted with
        | none => pure (.ok ())
        | some watermark =>
          let run ← run.repointWhen winner (cfg.mode == .naive)
          run.record cfg winner watermark
          pure (.ok ())

/-- A failover step by step. -/
theorem failover_eq (v : Verdict) : failover cfg old v =
    (Run.start old v >>= fun run => run.fenceAndStopIo cfg >>= fun r =>
      r.1.chooseWinner cfg r.2 >>= fun r => r.1.carryOut cfg r.2) := rfl

/-- The start of a failover, in every vocabulary that has its changes. -/
theorem start_speaks_of {V : Vocabulary} (henter : V.edits (.enter .failover))
    (hstart : ∀ note emit detect, V.edits (.goTo .failingOver note emit detect)) (v : Verdict) :
    Speaks V (Run.start old v) := by
  unfold Run.start
  refine speaks_look fun s => speaks_bind (speaks_edit henter) fun _ => ?_
  exact speaks_bind (speaks_edit (hstart _ _ _)) fun _ => speaks_pure _

/-- The record of a failover enters DEGRADED. -/
theorem carryOut_speaks_of {V : Vocabulary} (hlead : leadVocabulary.Le V)
    (hrecord : ∀ cooldown, V.edits (.failedOver cooldown))
    (hend : ∀ note emit detect, V.edits (.goTo .degraded note emit detect))
    (winner : Option Node) : Speaks V (run.carryOut cfg winner) := by
  unfold Run.carryOut
  cases winner with
  | none => exact speaks_pure _
  | some winner =>
      refine speaks_bind ((catchUp_speaks cfg winner run).mono hlead) fun r => ?_
      dsimp only
      split
      · exact speaks_pure _
      · refine speaks_bind ((repointWhen_speaks winner r.1 _).mono hlead) fun run => ?_
        refine speaks_bind ((awaitFenceBeforePromote_speaks winner run).mono hlead) fun e => ?_
        cases e with
        | error e => exact speaks_pure _
        | ok run =>
            refine speaks_bind ((promote_speaks winner run).mono hlead) fun r => ?_
            obtain ⟨run, promoted⟩ := r
            cases promoted with
            | none => exact speaks_pure _
            | some watermark =>
                refine speaks_bind ((repointWhen_speaks winner run _).mono hlead) fun run => ?_
                refine speaks_bind ?_ fun _ => speaks_pure _
                unfold Run.record
                refine speaks_bind (speaks_edit (hrecord _)) fun _ => ?_
                exact speaks_bind ((finish_speaks run _ _ _).mono hlead) fun _ =>
                  speaks_edit (hend _ _ _)

/-- A failover says what its parts say, and enters FAILING_OVER at its start and DEGRADED at
its record. -/
theorem failover_speaks_of {V : Vocabulary} (hlead : leadVocabulary.Le V)
    (henter : V.edits (.enter .failover)) (hrecord : ∀ cooldown, V.edits (.failedOver cooldown))
    (hstart : ∀ note emit detect, V.edits (.goTo .failingOver note emit detect))
    (hend : ∀ note emit detect, V.edits (.goTo .degraded note emit detect)) (v : Verdict) :
    Speaks V (failover cfg old v) := by
  rw [failover_eq]
  refine speaks_bind (start_speaks_of old henter hstart v) fun run => ?_
  refine speaks_bind ((fenceAndStopIo_speaks cfg run).mono hlead) fun r => ?_
  refine speaks_bind ((chooseWinner_speaks cfg r.1 r.2).mono hlead) fun r => ?_
  exact carryOut_speaks_of cfg r.1 hlead hrecord hend r.2

/-- A failover keeps to its vocabulary. -/
theorem failover_speaks (v : Verdict) : Speaks failoverVocabulary (failover cfg old v) :=
  failover_speaks_of cfg old leadVocabulary_le rfl (fun _ => trivial) (fun _ _ _ => nofun)
    (fun _ _ _ => nofun) v

/-! ### Switchover -/

/-- One look at which nodes replicate from the candidate. -/
theorem readAttached_speaks (ns : List Node) :
    Speaks moveVocabulary (readAttached ns target) := by
  unfold readAttached
  exact speaks_bind (speaks_freshViews trivial) fun views => speaks_pure _

/-- The loop over these looks, round by round. -/
theorem pollAttached_speaks (ns : List Node) (deadline : Time) (rounds : Nat) :
    Speaks moveVocabulary (pollAttached ns target deadline rounds) := by
  induction rounds with
  | zero => exact readAttached_speaks target ns
  | succ rounds ih =>
      unfold pollAttached
      refine speaks_bind (readAttached_speaks target ns) fun ok => speaks_look fun s => ?_
      split
      · exact speaks_pure _
      · exact speaks_bind (speaks_await trivial) fun _ => ih

/-- The move of the replicas to the candidate. -/
theorem attachMovers_speaks (movers : List Node) (steps : Steps) :
    Speaks moveVocabulary (attachMovers cfg target movers steps) := by
  unfold attachMovers
  split
  · exact speaks_pure _
  · refine speaks_bind (speaks_repointAll trivial) fun ok => ?_
    refine speaks_bind ?_ fun attached => speaks_pure _
    unfold waitAttached
    exact speaks_look fun s => pollAttached_speaks target ok _ _

/-- The waiter opens at the candidate. -/
theorem openWaiter_speaks (pv : NodeView) :
    Speaks moveVocabulary (openWaiter cfg target pv) := by
  unfold openWaiter
  split
  · refine speaks_bind (speaks_await trivial) fun opened => ?_
    split
    · exact speaks_bind (speaks_await trivial) fun near => speaks_pure _
    · exact speaks_pure _
  · exact speaks_pure _

/-- The waiter closes. -/
theorem closeWaiter_speaks (waiter : Bool) :
    Speaks switchoverVocabulary (closeWaiter target waiter) := by
  unfold closeWaiter
  split
  · exact speaks_await trivial
  · exact speaks_pure _

/-- The polls of the candidate up to the final set of the old primary. -/
theorem pollToFinal_speaks (final : Option GtidSet) :
    Speaks finalVocabulary (pollToFinal cfg old target final) := by
  unfold pollToFinal
  refine speaks_bind
    ((waitCaughtUp_speaks cfg target final).mono readVocabulary_le_final) fun r => ?_
  dsimp only
  split
  · exact speaks_bind (speaks_status trivial) fun tv => speaks_pure _
  · exact speaks_pure _

/-- The catch-up with that set, by the waiter or by polls. -/
theorem catchUpToFinal_speaks (final : Option GtidSet) (waiter : Bool) :
    Speaks finalVocabulary (catchUpToFinal cfg old target final waiter) := by
  unfold catchUpToFinal
  split
  · refine speaks_bind (speaks_await trivial) fun a => ?_
    split
    · exact pollToFinal_speaks cfg old target _
    · exact speaks_pure _
    · exact speaks_pure _
    · split
      · exact pollToFinal_speaks cfg old target _
      · exact speaks_pure _
  · exact pollToFinal_speaks cfg old target _

/-- The way back: the old primary is promoted again. -/
theorem promoteBack_speaks (steps : Steps) (why : String) :
    Speaks switchoverVocabulary (promoteBack old target steps why) := by
  unfold promoteBack
  dsimp only
  refine speaks_bind (speaks_await trivial) fun a => ?_
  cases a with
  | error e =>
      exact speaks_bind (speaks_edit trivial) fun _ => speaks_look fun s => speaks_pure _
  | ok _ =>
      refine speaks_bind (speaks_edit nofun) fun _ => ?_
      exact speaks_bind (speaks_event rfl) fun _ => speaks_pure _

/-- The repoint of the old primary after the switchover, as a node task. -/
theorem repointLater_still (oldRepointed : Bool) :
    Still switchoverVocabulary (repointLater old target oldRepointed) := by
  unfold repointLater
  split
  · exact speaks_pure _
  · exact speaks_bind (still_nodeTask ⟨_, rfl⟩) fun _ => speaks_pure _

/-- The end of a successful switchover. -/
theorem switched_still (steps : Steps) (notes : List String) (oldRepointed : Bool)
    (presp : PromoteBody) :
    Still switchoverVocabulary (switched old target steps notes oldRepointed presp) := by
  unfold switched
  refine speaks_bind (still_edit trivial) fun _ => ?_
  refine speaks_bind (repointLater_still old target oldRepointed) fun _ => ?_
  refine speaks_bind (still_event rfl) fun _ => still_look fun s => ?_
  refine speaks_bind (still_edit trivial) fun _ => ?_
  exact speaks_bind (still_edit nofun) fun _ => speaks_pure _

/-- The repoint of the old primary inside the stall. -/
theorem repointInside_speaks (steps : Steps) (attached : List Node) :
    Speaks switchoverVocabulary (repointInside old target steps attached) := by
  unfold repointInside
  split
  · exact speaks_bind (speaks_repointAll trivial) fun ok => speaks_pure _
  · exact speaks_pure _

/-- The promotion of the candidate. -/
theorem promoteTarget_speaks (steps : Steps) (attached : List Node) :
    Speaks switchoverVocabulary (promoteTarget old target steps attached) := by
  unfold promoteTarget
  refine speaks_bind (repointInside_speaks old target steps attached) fun r => ?_
  refine speaks_bind (speaks_await trivial) fun a => ?_
  cases a with
  | error e =>
      exact speaks_bind (speaks_edit trivial) fun _ => speaks_look fun s => speaks_pure _
  | ok presp =>
      exact speaks_bind (switched_still old target _ _ _ presp).speaks fun ev => speaks_pure _

/-- The stall: the fence, the catch-up and the promotion. -/
theorem stall_speaks (steps : Steps) (attached : List Node) (waiter : Bool) :
    Speaks switchoverVocabulary (stall cfg old target steps attached waiter) := by
  have hfrom : ∀ final steps,
      Speaks switchoverVocabulary (stall.stallFrom cfg old target attached waiter final steps) := by
    intro final steps
    unfold stall.stallFrom
    refine speaks_bind ((catchUpToFinal_speaks cfg old target final waiter).mono
      finalVocabulary_le) fun r => ?_
    dsimp only
    split
    · exact promoteTarget_speaks old target _ attached
    · exact speaks_bind (promoteBack_speaks old target _ _) fun e => speaks_pure _
  unfold stall
  refine speaks_bind (speaks_fence trivial) fun r => ?_
  dsimp only
  split
  · exact speaks_bind (speaks_edit nofun) fun _ => speaks_pure _
  · split
    · exact speaks_pure _
    · exact hfrom _ _
    · exact hfrom _ _

/-- What comes before the stall, and the stall. -/
theorem prepareAndStall_speaks (members cands : List Node) (pv : NodeView) :
    Speaks switchoverVocabulary (prepareAndStall cfg old target members views pv cands) := by
  unfold prepareAndStall
  dsimp only
  refine speaks_bind (speaks_edit rfl) fun _ => speaks_bind (speaks_edit nofun) fun _ => ?_
  split
  · exact speaks_pure _
  · refine speaks_bind ((attachMovers_speaks cfg target _ _).mono moveVocabulary_le) fun r => ?_
    refine speaks_bind ((openWaiter_speaks cfg target pv).mono moveVocabulary_le)
      fun waiter => ?_
    refine speaks_bind (stall_speaks cfg old target _ _ waiter) fun result => ?_
    exact speaks_bind (closeWaiter_speaks target waiter) fun _ => speaks_pure _

/-- The choice of the candidate. -/
theorem pickTarget_speaks (wanted : Option Node) (members : List Node) (pv : NodeView) :
    Speaks switchoverVocabulary (pickTarget cfg old wanted members views pv) := by
  unfold pickTarget
  dsimp only
  cases wanted with
  | none =>
      dsimp only
      split
      · exact speaks_pure _
      · split
        · exact speaks_pure _
        · exact prepareAndStall_speaks cfg old _ views _ _ _
  | some target =>
      dsimp only
      split
      · exact speaks_pure _
      · split
        · exact speaks_pure _
        · split
          · exact speaks_pure _
          · exact prepareAndStall_speaks cfg old target views _ _ _

/-- A switchover keeps to its vocabulary. -/
theorem switchoverLocked_speaks (wanted : Option Node) :
    Speaks switchoverVocabulary (switchoverLocked cfg wanted) := by
  unfold switchoverLocked
  refine speaks_look fun s => ?_
  split
  · exact speaks_pure _
  · split
    · exact speaks_pure _
    · split
      · exact speaks_pure _
      · refine speaks_bind (speaks_freshViews trivial) fun views => speaks_look fun s' => ?_
        split
        · exact speaks_pure _
        · split
          · exact pickTarget_speaks cfg _ views wanted _ _
          · exact speaks_pure _

/-! ### The tick -/

/-- A cold start keeps to its vocabulary. -/
theorem coldStart_speaks : Speaks coldVocabulary (coldStart target views) := by
  unfold coldStart
  refine speaks_look fun s => speaks_bind (speaks_edit (Or.inl rfl)) fun _ => ?_
  dsimp only
  refine speaks_bind ?_ fun _ => ?_
  · unfold repointMovers
    split
    · exact speaks_pure _
    · exact speaks_bind (speaks_repointAll trivial) fun _ => speaks_pure _
  · refine speaks_bind (speaks_await trivial) fun a => ?_
    cases a with
    | error e => exact speaks_edit trivial
    | ok body =>
        refine speaks_look fun s' => speaks_bind (speaks_edit trivial) fun _ => ?_
        exact speaks_event (Or.inl rfl)

/-- Bootstrap, in every vocabulary that has its changes and requests. -/
theorem bootstrap_speaks_of {V : Vocabulary} (henter : V.edits (.enter .bootstrap))
    (hset : ∀ n, V.edits (.setPrimary n)) (hhalt : ∀ reason, V.edits (.halt reason))
    (hevent : ∀ e : Event, e.type = .bootstrap → V.edits (.event e))
    (hpromote : ∀ n, V.awaits (.promote n)) (hrepoint : ∀ ns n, V.awaits (.repointAll ns n)) :
    Speaks V (bootstrap cfg) := by
  unfold bootstrap
  dsimp only
  refine speaks_look fun s => speaks_bind (speaks_edit henter) fun _ => ?_
  refine speaks_bind (speaks_await (hpromote _)) fun a => ?_
  cases a with
  | error e => exact speaks_edit (hhalt _)
  | ok body =>
      refine speaks_bind (speaks_edit (hset _)) fun _ => ?_
      exact speaks_bind (speaks_repointAll (hrepoint _ _)) fun ok => speaks_event (hevent _ rfl)

/-- Bootstrap keeps to the vocabulary of a cold start. -/
theorem bootstrap_speaks : Speaks coldVocabulary (bootstrap cfg) :=
  bootstrap_speaks_of cfg (Or.inr rfl) (fun _ => trivial) (fun _ => trivial)
    (fun _ he => Or.inr he) (fun _ => trivial) fun _ _ => trivial

/-- Discovery keeps to it. -/
theorem discover_speaks : Speaks coldVocabulary (discover cfg ob) := by
  unfold discover
  refine speaks_look fun s => ?_
  dsimp only
  split
  · exact speaks_edit trivial
  · exact speaks_edit trivial
  · split
    · exact bootstrap_speaks cfg
    · split
      · exact speaks_edit trivial
      · exact coldStart_speaks _ _
      · exact speaks_edit trivial
      · exact speaks_pure _

/-- The check of a cold start keeps to it. -/
theorem coldStartCheck_speaks : Speaks coldVocabulary (coldStartCheck ob) := by
  unfold coldStartCheck
  refine speaks_look fun s => ?_
  split
  · exact speaks_bind (speaks_edit trivial) fun _ => speaks_pure _
  · exact speaks_bind (speaks_edit trivial) fun _ => speaks_pure _
  · split
    · exact speaks_bind (speaks_edit trivial) fun _ => speaks_pure _
    · refine speaks_bind (speaks_edit trivial) fun _ => ?_
      exact speaks_bind (coldStart_speaks _ _) fun _ => speaks_pure _

/-- The check of a stall, in one segment. -/
theorem checkStall_mends : Still mendVocabulary (checkStall cfg ob primary) := by
  unfold checkStall
  refine still_look fun s => ?_
  split
  · exact speaks_bind (still_edit trivial) fun _ => still_event (Or.inl rfl)
  · exact speaks_bind (still_edit trivial) fun _ => still_event (Or.inl rfl)
  · exact speaks_pure _

/-- The rejoin action for one node, in one segment. -/
theorem rejoinAction_mends (pv : NodeView) (n : Node) :
    Still mendVocabulary (rejoinAction cfg ob primary pv n) := by
  unfold rejoinAction
  refine still_look fun s => ?_
  split
  · exact speaks_pure _
  · split
    · exact speaks_pure _
    · split
      · exact speaks_pure _
      · split
        · split
          · split
            · exact speaks_pure _
            · exact speaks_bind (still_edit trivial) fun _ => still_event (.inr (.inl rfl))
          · exact speaks_bind (still_nodeTask (.inr ⟨_, rfl⟩)) fun _ => speaks_pure _
        · refine speaks_bind (still_edit trivial) fun _ => ?_
          split
          · exact still_edit trivial
          · split
            · exact speaks_pure _
            · refine speaks_bind (still_edit trivial) fun _ => ?_
              split
              · split
                · exact speaks_pure _
                · exact speaks_bind (still_edit trivial) fun _ => still_event (.inr (.inr rfl))
              · exact speaks_bind (still_nodeTask (.inl ⟨_, rfl⟩)) fun _ => speaks_pure _

/-- The rejoin actions of a tick, in one segment. -/
theorem rejoinActions_mends : Still mendVocabulary (rejoinActions cfg ob) := by
  unfold rejoinActions
  refine still_look fun s => ?_
  split
  · exact speaks_pure _
  · split
    · exact speaks_pure _
    · split
      · exact speaks_each (rejoinAction_mends cfg _ ob _) _
      · exact speaks_pure _

/-- The check of a stall is part of the repair. -/
theorem checkStall_still : Still (repairVocabulary cfg) (checkStall cfg ob primary) :=
  (checkStall_mends cfg primary ob).mono (mendVocabulary_le cfg)

/-- The rejoin actions are part of the repair. -/
theorem rejoinActions_still : Still (repairVocabulary cfg) (rejoinActions cfg ob) :=
  (rejoinActions_mends cfg ob).mono (mendVocabulary_le cfg)

/-- The replacement by the spare starts a maintenance task. -/
theorem maybeReplace_speaks (healthy : List Node) :
    Speaks (repairVocabulary cfg) (maybeReplace cfg ob healthy) := by
  unfold maybeReplace
  refine speaks_look fun s => ?_
  split
  · rename_i hspare _
    split
    · exact speaks_pure _
    · exact speaks_bind (speaks_maint ⟨_, _, rfl, rfl, hspare⟩) fun _ => speaks_pure _
  · exact speaks_pure _

/-- The spare joins where it is usable. -/
theorem adoptSpare_still : Still (repairVocabulary cfg) (adoptSpare cfg ob) := by
  unfold adoptSpare
  refine still_look fun s => ?_
  split
  · exact speaks_pure _
  · rename_i hspare
    split
    · exact still_join hspare
    · exact speaks_pure _

/-- The move to DEGRADED. -/
theorem degrade_still (primaryOk : Bool) (healthy : List Node) (since : Time) :
    Still (tickVocabulary cfg) (degrade cfg ob primary primaryOk healthy since) := by
  unfold degrade
  refine still_look fun s => ?_
  split
  · exact still_edit nofun
  · split
    · exact still_edit nofun
    · exact speaks_pure _

/-- The reconciliation after a poll with a live primary. -/
theorem reconcile_speaks : Speaks (tickVocabulary cfg) (reconcile cfg ob primary) := by
  have hle := repairVocabulary_le cfg
  unfold reconcile
  refine speaks_bind ((adoptSpare_still cfg ob).speaks.mono hle) fun _ => ?_
  refine speaks_bind ((rejoinActions_still cfg ob).speaks.mono hle) fun _ => speaks_look fun s => ?_
  dsimp only
  split
  · refine speaks_bind (speaks_edit trivial) fun _ => ?_
    split
    · exact speaks_pure _
    · exact speaks_edit nofun
  · unfold reconcileUnhealthy
    refine speaks_look fun s' => speaks_bind (speaks_edit trivial) fun _ => ?_
    refine speaks_bind (degrade_still cfg primary ob _ _ _).speaks fun _ => speaks_look fun s'' => ?_
    split
    · exact (maybeReplace_speaks cfg ob _).mono hle
    · exact speaks_pure _

/-! ### The lock -/

/-- Taking the set's lock. -/
theorem acquire_speaks {V : Vocabulary} (me : Nat) (henqueue : V.edits (.enqueue me))
    (hacquire : V.edits (.acquire me)) : Speaks V (acquire me) := by
  unfold acquire
  refine speaks_look fun s => ?_
  split
  · exact speaks_edit hacquire
  · refine speaks_bind (speaks_edit henqueue) fun _ => ?_
    exact speaks_bind (speaks_block _) fun _ => speaks_edit hacquire

/-- A program under the set's lock. -/
theorem withLock_speaks {V : Vocabulary} {α : Type} {m : M α} (me : Nat)
    (henqueue : V.edits (.enqueue me)) (hacquire : V.edits (.acquire me))
    (hrelease : V.edits .release) (hm : Speaks V m) : Speaks V (withLock me m) := by
  unfold withLock
  refine speaks_bind (acquire_speaks me henqueue hacquire) fun _ => speaks_bind hm fun a => ?_
  exact speaks_bind (speaks_edit hrelease) fun _ => speaks_pure _

section
variable {V : Vocabulary} (hf : failoverVocabulary.Le V) (hc : coldVocabulary.Le V)
  (ht : (tickVocabulary cfg).Le V)
include hf ht

/-- What a tick does upon a verdict. -/
theorem act_speaks (v : Verdict) : Speaks V (act cfg ob primary v) := by
  unfold act
  refine speaks_look fun s => ?_
  split
  · split
    · split
      · exact speaks_pure _
      · exact speaks_bind (speaks_edit (ht.edits _ trivial)) fun _ =>
          speaks_edit (ht.edits _ nofun)
    · exact speaks_bind ((failover_speaks cfg primary v).mono hf) fun _ => speaks_pure _
  · refine speaks_bind (speaks_edit (ht.edits _ trivial)) fun _ => ?_
    split
    · refine speaks_bind (speaks_edit (ht.edits _ nofun)) fun _ => ?_
      split
      · exact Speaks.mono (.trans (repairVocabulary_le cfg) ht) (rejoinActions_still cfg ob).speaks
      · exact speaks_pure _
    · exact (reconcile_speaks cfg primary ob).mono ht

include hc

/-- What a tick does under the lock. -/
theorem tickLocked_speaks : Speaks V (tickLocked cfg ob) := by
  unfold tickLocked
  refine speaks_look fun s => ?_
  split
  · exact (discover_speaks cfg ob).mono hc
  · refine speaks_bind ((coldStartCheck_speaks ob).mono hc) fun acted => ?_
    split
    · exact speaks_pure _
    · refine speaks_look fun s' => ?_
      refine speaks_bind (Speaks.mono (.trans (repairVocabulary_le cfg) ht)
        (checkStall_still cfg _ ob).speaks) fun _ => ?_
      exact act_speaks cfg _ ob hf ht _

end

/-! ### The rejoin request -/

/-- A rejoin under the lock. -/
theorem rejoinLocked_speaks (n : Node) :
    Speaks (requestVocabulary n) (rejoinLocked cfg n) := by
  unfold rejoinLocked
  refine speaks_look fun s => ?_
  refine speaks_bind (speaks_freshViews trivial) fun views => speaks_look fun s' => ?_
  split
  · exact speaks_pure _
  · dsimp only
    split
    · exact speaks_pure _
    · refine speaks_bind (speaks_join rfl) fun _ => ?_
      refine speaks_bind ?_ fun ev => speaks_pure _
      exact (rejoinNode_speaks cfg n _ false).mono (nodeVocabulary_le_request n)

/-! ### The background tasks -/

/-- A replacement, in every vocabulary with what it does besides its rebuild. -/
theorem replace_speaks {V : Vocabulary} (spare donor : Node)
    (hrebuild : (rebuildVocabulary spare .replace).Le V)
    (hgoTo : ∀ note, V.edits (.goTo .rebuilding note true none))
    (hevent : ∀ e : Event, e.type = .replace → V.edits (.event e))
    (hsince : ∀ t, V.edits (.unhealthySince t)) (hadd : V.edits (.addMember spare))
    (hprovision : V.awaits (.provision spare)) : Speaks V (replace cfg spare donor) := by
  have hgive : ∀ note, Speaks V (giveUpReplacing note) := by
    intro note
    unfold giveUpReplacing
    refine speaks_look fun s => ?_
    exact speaks_bind (speaks_event (hevent _ rfl)) fun _ => speaks_edit (hsince _)
  unfold replace
  refine speaks_bind (speaks_edit (hgoTo _)) fun _ => ?_
  refine speaks_bind (speaks_await hprovision) fun a => ?_
  cases a with
  | error e => exact hgive _
  | ok _ =>
      refine speaks_look fun s => ?_
      refine speaks_bind (waitUsable_speaks spare _ (hrebuild.awaits _ rfl)
        (hrebuild.awaits _ trivial) _) fun up => ?_
      split
      · exact hgive _
      · refine speaks_bind ?_ fun ev => ?_
        · exact (rebuildAndJoin_speaks cfg { node := spare, donor, .. }).mono hrebuild
        · cases ev with
          | none => exact speaks_pure _
          | some ev => exact speaks_edit hadd

/-- The repoint of the old primary after a switchover. -/
theorem repointAfter_speaks {V : Vocabulary} (hawait : V.awaits (.repointAll [old] target))
    (hevent : ∀ e : Event, e.type = .rejoin → V.edits (.event e)) :
    Speaks V (repointAfter old target) := by
  unfold repointAfter
  exact speaks_bind (speaks_repointAll hawait) fun ok => speaks_event (hevent _ rfl)

/-- A poll waits for its answers and files them. -/
theorem poll_speaks {V : Vocabulary} (hawait : ∀ p ns, V.awaits (.observe p ns))
    (hedit : ∀ ob keep, V.edits (.observed ob keep)) : Speaks V (poll cfg) := by
  unfold poll
  refine speaks_look fun s => speaks_bind (speaks_await (hawait _ _)) fun ans => ?_
  exact speaks_bind (speaks_edit (hedit _ _)) fun _ => speaks_pure _

/-- A maintenance task, which frees its nodes at the end. -/
theorem maintenance_speaks {V : Vocabulary} {α : Type} {m : M α} (hedit : V.edits .clearBusy)
    (h : Speaks V m) : Speaks V (maintenance m) := by
  unfold maintenance
  exact speaks_bind h fun _ => speaks_edit hedit

/-- A whole tick. -/
theorem tick_speaks {V : Vocabulary} (t : Nat) (hf : failoverVocabulary.Le V)
    (hc : coldVocabulary.Le V) (ht : (tickVocabulary cfg).Le V)
    (hobserve : ∀ p ns, V.awaits (.observe p ns))
    (hobserved : ∀ ob keep, V.edits (.observed ob keep)) (henqueue : V.edits (.enqueue t))
    (hacquire : V.edits (.acquire t)) (hrelease : V.edits .release) : Speaks V (tick cfg t) := by
  unfold tick
  refine speaks_bind (poll_speaks cfg hobserve hobserved) fun ob => speaks_look fun s => ?_
  split
  · exact speaks_pure _
  · exact withLock_speaks t henqueue hacquire hrelease (tickLocked_speaks cfg ob hf hc ht)

/-- A rejoin that was asked for, with its lock. -/
theorem setRejoin_speaks {joins : Node → Prop} (t : Nat) (n : Node) (hn : joins n) :
    Speaks (everyVocabulary cfg joins) (withLock t (rejoinLocked cfg n)) :=
  withLock_speaks t trivial trivial trivial
    ((rejoinLocked_speaks cfg n).mono (request_le_every cfg joins hn))

/-- The tasks other than a tick, a rejoin request and a replacement. -/
theorem body_speaks_every (joins : Node → Prop) (t : Nat) (j : Job)
    (hkind : match j with
      | .tick | .rejoin _ | .replace _ _ => False
      | _ => True) : Speaks (everyVocabulary cfg joins) (body cfg t j) := by
  cases j with
  | tick | rejoin | replace => exact hkind.elim
  -- The lock's own requests are in the large vocabulary as well.
  | switchover target =>
      unfold body setFailover switchover
      refine speaks_bind (withLock_speaks t trivial trivial trivial
        ((switchoverLocked_speaks cfg target).mono (switchover_le_every cfg joins))) fun r => ?_
      split
      · exact speaks_await trivial
      · exact speaks_await trivial
      · exact speaks_await trivial
  -- The requests of the API that only edit and answer.
  | halt reason =>
      unfold body setHalt
      exact speaks_bind (speaks_edit trivial) fun _ => speaks_look fun s => speaks_await trivial
  | resume =>
      unfold body setResume
      refine speaks_bind (speaks_edit trivial) fun _ => speaks_bind (speaks_edit trivial) fun _ => ?_
      exact speaks_bind (speaks_edit trivial) fun _ => speaks_look fun s => speaks_await trivial
  | getPrimary => exact speaks_look fun s => speaks_await trivial
  | fence node => exact speaks_bind (speaks_fence trivial) fun r => speaks_edit trivial
  -- The tasks of one node.
  | rejoinNode n why =>
      refine speaks_bind ?_ fun _ => speaks_pure _
      exact (rejoinNode_speaks cfg n why true).mono (node_le_every cfg joins n)
  | fenceSecondWriter n primary =>
      exact (fenceSecondWriter_speaks n primary).mono
        ((Vocabulary.noMaint_le _).trans (node_le_every cfg joins n))
  | verifyAfterRepoint n primary =>
      exact ((verifyAfterRepoint_speaks cfg n primary).mono (watch_le n)).mono
        (node_le_every cfg joins n)
  | repointAfter old target => exact repointAfter_speaks old target trivial fun _ _ => trivial
  -- Within a maintenance window.
  | rebuildAndJoin args =>
      refine maintenance_speaks trivial ?_
      exact (rebuildAndJoin_speaks cfg args).mono (rebuild_le_every cfg joins _ _)
  | keepUnstuck donor => exact (keepUnstuck_speaks t donor _).mono (keeper_le_every cfg joins)

end

end DbGuard
