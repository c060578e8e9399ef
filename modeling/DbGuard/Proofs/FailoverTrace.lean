import DbGuard.Proofs.Targets

/-!
# `DbGuard.Proofs.FailoverTrace`: the calls of a failover

What a tick has asked when it asks for the IO threads to be stopped, and when it changes a
role after that. `asks_tick` separates the failover from the other decisions of a tick.
`asks_failover` is the order of its steps: the IO threads, the fresh views, the choice of the
best candidate, the reads of the winner until one of them finds it caught up, and only then
the requests that change a role, all of them in favour of the winner.
-/

set_option autoImplicit false

namespace DbGuard

open Coop (Prog)

/-! ### Programs that ask nothing -/

section
variable {V : Vocabulary} {α : Type} {m : M α} {s s' : Ctl} {tr : List Asked} {r : Req} {a : α}

/-- The calls of a program are in its vocabulary. -/
theorem Speaks.made (hm : Speaks V m) (h : m.Ends s tr a s') : ∀ c ∈ tr, V.awaits c.req := by
  have hnil : ∀ {tr : List Asked}, tr = [] → ∀ c ∈ tr, V.awaits c.req := by
    rintro _ rfl c hc
    exact absurd hc List.not_mem_nil
  refine Prog.calls_of_madeOf (P := V.awaits) (fun γ m hp s tr a s' h => ?_) hm h
  cases hp with
  | ctl => exact hnil h.1
  | edit _ => exact hnil h.1
  | await hr =>
    rw [Prog.ends_call.mp h]
    intro c hc
    rw [List.mem_singleton.mp hc]
    exact hr
  | create _ => exact hnil (Prog.ends_create.mp h).1
  | nodeTask _ => exact hnil (ends_spawnNodeTask h)
  | maint _ => exact hnil (ends_startMaintenance h)
  | join _ => exact hnil (ends_joinMember h)
  | block c => exact hnil (Prog.ends_blockUntil.mp h).1
  | hang a => exact absurd h Prog.ends_hang

/-- A program without requests. -/
abbrev Silent (m : M α) : Prop := Speaks (asking fun _ => False) m

/-- A silent program asks nothing. -/
theorem Silent.asks (hm : Silent m) : ¬ m.Asks s tr r s' := Speaks.asks hm

/-- It ends without a call. -/
theorem Silent.ends (hm : Silent m) (h : m.Ends s tr a s') : tr = [] :=
  List.eq_nil_iff_forall_not_mem.mpr (Speaks.made hm h)

end

namespace Run

variable {run : Run}

/-- The record of a failover is silent. -/
theorem silent_finish (newPrimary : Option Node) (watermark haltReason : Option String) :
    Silent (run.finish newPrimary watermark haltReason) := by
  unfold finish
  refine speaks_bind (speaks_event trivial) fun _ => ?_
  split
  · exact speaks_edit trivial
  · exact speaks_pure _

/-- So is a look at the fence's answer. -/
theorem silent_fenceDone (t : Nat) : Silent (fenceDone t) := by
  unfold fenceDone
  refine speaks_look fun s => ?_
  split
  · exact speaks_pure _
  · exact speaks_bind (speaks_block _) fun _ => speaks_look fun s => speaks_pure _

/-- So is the wait for it. -/
theorem silent_awaitFence : Silent run.awaitFence := by
  unfold awaitFence
  split
  · refine speaks_bind (silent_fenceDone _) fun r => ?_
    split
    · exact speaks_pure _
    · exact speaks_pure _
  · exact speaks_pure _

/-- And the wait before `/promote`. -/
theorem silent_awaitFenceBeforePromote (winner : Node) :
    Silent (run.awaitFenceBeforePromote winner) := by
  unfold awaitFenceBeforePromote
  refine speaks_bind silent_awaitFence fun run => ?_
  split
  · exact speaks_pure _
  · split
    · exact speaks_pure _
    · exact speaks_pure _

/-- And the event of the failover. -/
theorem silent_record (cfg : Config) (winner : Node) (watermark : Option String) :
    Silent (run.record cfg winner watermark) := by
  unfold record
  refine speaks_bind (speaks_edit trivial) fun _ => ?_
  exact speaks_bind (silent_finish _ _ _) fun _ => speaks_edit trivial

/-- And its start. -/
theorem silent_start (old : Node) (v : Verdict) : Silent (start old v) :=
  speaks_look fun _ => speaks_bind (speaks_edit trivial) fun _ =>
    speaks_bind (speaks_edit trivial) fun _ => speaks_pure _

end Run

/-! ### What a read finds -/

/-- The node that an answer shows to be caught up. -/
def readsCaughtUp : (r : Req) → r.Resp → Option Node
  | .status n, a =>
    if (NodeView.ofAnswer n a).usable && (NodeView.ofAnswer n a).relayApplied then some n else none
  | .replicaState n, text =>
    if sqlStateDone.toList.isPrefixOf (text.getD "").toList then some n else none
  | _, _ => none

/-- The reads of `wait_caught_up` on `W`, one of which finds it caught up. -/
structure Waited (W : Node) (tr : List Asked) : Prop where
  reads : ∀ c ∈ tr, c.req.IsRead W
  found : ∃ c ∈ tr, readsCaughtUp c.req c.answer = some W

section
variable {cfg : Config} {W : Node} {s s' : Ctl} {tr tr' : List Asked}

/-- More reads before a wait make a longer wait. -/
theorem Waited.prepend (h : Waited W tr') (hreads : ∀ c ∈ tr, c.req.IsRead W) :
    Waited W (tr ++ tr') where
  reads c hc := (List.mem_append.mp hc).elim (hreads c) (h.reads c)
  found := by
    obtain ⟨c, hc, hfound⟩ := h.found
    exact ⟨c, List.mem_append_right _ hc, hfound⟩

/-- One round. -/
theorem ends_readCaughtUp_reads {rd : Reading}
    (h : (readCaughtUp cfg W none).Ends s tr rd s') :
    (∀ c ∈ tr, c.req.IsRead W) ∧ (∀ why, rd = .caughtUp why → Waited W tr) := by
  unfold readCaughtUp at h
  obtain ⟨tr₁, tr₂, nv, s₁, rfl, h₁, h⟩ := (Prog.ends_bind _ _ _ _).mp h
  obtain ⟨a, rfl, rfl⟩ := ends_status.mp h₁
  have hread : ∀ c ∈ [(⟨s, .status W, a⟩ : Asked)], c.req.IsRead W := by
    intro c hc
    rw [List.mem_singleton.mp hc]
    exact .inl rfl
  -- A round that ends here has read the status, and has not found it caught up.
  have hbehind : ∀ {tr₂ : List Asked} {rd' : Reading}, tr₂ = [] → rd' = rd →
      (∀ why, rd' ≠ .caughtUp why) → (∀ c ∈ [(⟨s, .status W, a⟩ : Asked)] ++ tr₂, c.req.IsRead W) ∧
        (∀ why, rd = .caughtUp why → Waited W ([(⟨s, .status W, a⟩ : Asked)] ++ tr₂)) := by
    rintro _ _ rfl rfl hne
    exact ⟨hread, fun why heq => absurd heq (hne why)⟩
  split at h
  · obtain ⟨rfl, rfl, -⟩ := Prog.ends_pure.mp h
    exact hbehind rfl rfl (fun _ heq => by cases heq)
  · rename_i husable
    split at h
    · obtain ⟨rfl, rfl, -⟩ := Prog.ends_pure.mp h
      exact hbehind rfl rfl (fun _ heq => by cases heq)
    · split at h
      · obtain ⟨rfl, rfl, -⟩ := Prog.ends_pure.mp h
        exact hbehind rfl rfl (fun _ heq => by cases heq)
      · have husable : (NodeView.ofAnswer W a).usable = true := by simpa using husable
        split at h
        · rename_i happlied
          obtain ⟨rfl, -, -⟩ := Prog.ends_pure.mp h
          refine ⟨hread, fun why _ => ⟨hread, _, List.mem_singleton_self _, ?_⟩⟩
          simp [readsCaughtUp, husable, happlied]
        · dsimp only at h
          split at h
          · obtain ⟨state, s₂, tr₃, rfl, h₂⟩ := Prog.ends_call_bind.mp h
            have hreads : ∀ c ∈ [(⟨s, .status W, a⟩ : Asked)] ++
                [(⟨s₁, .replicaState W, state⟩ : Asked)], c.req.IsRead W := by
              intro c hc
              rcases List.mem_append.mp hc with hc | hc
              · exact hread c hc
              · rw [List.mem_singleton.mp hc]
                exact .inr (.inl rfl)
            split at h₂
            · rename_i hdone
              obtain ⟨rfl, -, -⟩ := Prog.ends_pure.mp h₂
              refine ⟨hreads, fun why _ => ⟨hreads, _,
                List.mem_append_right _ List.mem_cons_self, ?_⟩⟩
              simp [readsCaughtUp, hdone.1]
            · obtain ⟨rfl, rfl, -⟩ := Prog.ends_pure.mp h₂
              exact ⟨hreads, fun _ heq => by cases heq⟩
          · obtain ⟨rfl, rfl, -⟩ := Prog.ends_pure.mp h
            exact hbehind rfl rfl (fun _ heq => by cases heq)

/-- A catch-up that succeeds has made the reads of `wait_caught_up`. -/
theorem ends_pollCaughtUp_reads {deadline : Time} {b : Bool × String} :
    ∀ (rounds : Nat) (s : Ctl) (tr : List Asked),
      (pollCaughtUp cfg W none deadline rounds).Ends s tr b s' → b.1 = true → Waited W tr := by
  -- By induction on the rounds of the poll.
  intro rounds
  induction rounds with
  | zero =>
    intro s tr h hb
    unfold pollCaughtUp at h
    obtain ⟨tr₁, tr₂, rd, s₁, rfl, h₁, h⟩ := (Prog.ends_bind _ _ _ _).mp h
    cases rd with
    | caughtUp why =>
      obtain ⟨rfl, -, -⟩ := h
      rw [List.append_nil]
      exact (ends_readCaughtUp_reads h₁).2 why rfl
    | failed why | behind why =>
      obtain ⟨-, rfl, -⟩ := h
      cases hb
  | succ rounds ih =>
    intro s tr h hb
    unfold pollCaughtUp at h
    obtain ⟨tr₁, tr₂, rd, s₁, rfl, h₁, h⟩ := (Prog.ends_bind _ _ _ _).mp h
    -- This round only reads; whether it has found the winner caught up is its result.
    obtain ⟨hreads, hfound⟩ := ends_readCaughtUp_reads h₁
    cases rd with
    | caughtUp why =>
      obtain ⟨rfl, -, -⟩ := h
      rw [List.append_nil]
      exact hfound why rfl
    | failed why =>
      obtain ⟨-, rfl, -⟩ := h
      cases hb
    | behind why =>
      unfold ctl at h
      rw [Prog.ends_look] at h
      split at h
      -- Past the deadline the poll gives up.
      · obtain ⟨-, rfl, -⟩ := h
        cases hb
      · obtain ⟨x, s₂, tr₃, rfl, h₂⟩ := Prog.ends_call_bind.mp h
        -- Otherwise the rest waited, and this round's reads and the sleep go in front.
        refine Waited.prepend ?_ hreads
        refine (ih s₂ tr₃ h₂ hb).prepend fun c (hc : c ∈ [⟨s₁, .sleep, x⟩]) => ?_
        rw [List.mem_singleton.mp hc]
        exact .inr (.inr rfl)

/-- A wait that succeeds. -/
theorem ends_waitCaughtUp_reads {b : Bool × String}
    (h : (waitCaughtUp cfg W none).Ends s tr b s') (hb : b.1 = true) : Waited W tr := by
  unfold waitCaughtUp ctl at h
  rw [Prog.ends_look] at h
  exact ends_pollCaughtUp_reads _ _ _ h hb

end

/-! ### The steps of a failover -/

/-- `W` is a candidate of the fresh read `a`, and holds what each candidate holds. -/
structure Best (os : List Node) (a : Node → Except String StatusBody) (W : Node) : Prop where
  mem : W ∈ os
  ok : candidateProblem (.ofAnswer W (a W)) .dbguard = none
  held : ∀ n ∈ os, candidateProblem (.ofAnswer n (a n)) .dbguard = none →
    (NodeView.ofAnswer n (a n)).held ⊆ (NodeView.ofAnswer W (a W)).held

/-- What is asked before the fresh views. -/
def Req.Opens : Req → Prop
  | .observe _ _ | .stopIo _ => True
  | _ => False

/-- The request gives the set to `W`. -/
def Req.Reassigns (W : Node) : Req → Prop
  | .promote n => n = W
  | .repointAll _ source => source = W
  | _ => False

/-- The calls of a failover that has begun to give the set to `W`. The fresh views were `a`, of
the nodes `os`. -/
structure Elects (os : List Node) (a : Node → Except String StatusBody) (W : Node)
    (tr : List Asked) : Prop where
  best : Best os a W
  calls : ∃ pre s reads post, tr = pre ++ ⟨s, .freshViews os, a⟩ :: (reads ++ post) ∧
    (∀ c ∈ pre, c.req.Opens) ∧ Waited W reads ∧ ∀ c ∈ post, c.req.Reassigns W

section
variable {cfg : Config} {run : Run} {W winner : Node} {s s' : Ctl} {tr : List Asked} {r : Req}

/-- The stops are one request, before any other. -/
theorem asks_stopIoThreads {ns : List Node} (h : (stopIoThreads cfg ns).Asks s tr r s') :
    r = .stopIo ns ∧ tr = [] := by
  unfold stopIoThreads at h
  split at h
  · rcases Prog.asks_call_bind.mp h with ⟨rfl, rfl, -⟩ | ⟨_, _, _, -, hno⟩
    · exact ⟨rfl, rfl⟩
    · exact hno.elim
  · exact h.elim

/-- They end after calls of the opening only. -/
theorem ends_stopIoThreads {ns : List Node} {res : List (Node × Option ErrorText)}
    (h : (stopIoThreads cfg ns).Ends s tr res s') : ∀ c ∈ tr, c.req.Opens := by
  unfold stopIoThreads at h
  split at h
  · obtain ⟨x, s₁, tr', rfl, rfl, -, -⟩ := Prog.ends_call_bind.mp h
    intro c hc
    rw [List.mem_singleton.mp hc]
    trivial
  · rw [h.1]
    exact fun c hc => absurd hc List.not_mem_nil

/-- Steps 1 and 2. -/
theorem asks_fenceAndStopIo (h : (run.fenceAndStopIo cfg).Asks s tr r s') :
    (∃ ns, r = .stopIo ns) ∧ tr = [] := by
  unfold Run.fenceAndStopIo at h
  split at h
  · exact h.elim
  · rcases (Prog.asks_bind _ _ _ _).mp h with h | ⟨tr₁, tr₂, t, s₁, rfl, h₁, h⟩
    · exact absurd h Prog.asks_create
    · rw [(Prog.ends_create.mp h₁).1]
      unfold ctl at h
      rw [Prog.asks_look] at h
      rcases (Prog.asks_bind _ _ _ _).mp h with h | ⟨tr₃, tr₄, res, s₂, rfl, h₂, h⟩
      · obtain ⟨rfl, rfl⟩ := asks_stopIoThreads h
        exact ⟨⟨_, rfl⟩, rfl⟩
      · dsimp only at h
        split at h
        · exact h.elim
        · refine absurd h (Silent.asks ?_)
          exact speaks_bind (Run.silent_fenceDone _) fun _ => speaks_pure _

/-- So does the start of fence and stops, and the run keeps its nodes. -/
theorem ends_fenceAndStopIo {x : Run × List (Node × Option ErrorText)}
    (h : (run.fenceAndStopIo cfg).Ends s tr x s') :
    (∀ c ∈ tr, c.req.Opens) ∧ x.1.old = run.old ∧ x.1.others = run.others := by
  have hnil : ∀ c ∈ ([] : List Asked), c.req.Opens := fun _ hc => absurd hc List.not_mem_nil
  unfold Run.fenceAndStopIo at h
  split at h
  · obtain ⟨rfl, rfl, -⟩ := h
    exact ⟨hnil, rfl, rfl⟩
  · obtain ⟨tr₁, tr₂, t, s₁, rfl, h₁, h⟩ := (Prog.ends_bind _ _ _ _).mp h
    rw [(Prog.ends_create.mp h₁).1]
    unfold ctl at h
    rw [Prog.ends_look] at h
    obtain ⟨tr₃, tr₄, res, s₂, rfl, h₂, h⟩ := (Prog.ends_bind _ _ _ _).mp h
    have hopens := ends_stopIoThreads h₂
    dsimp only at h
    split at h
    · obtain ⟨rfl, rfl, -⟩ := h
      rw [List.append_nil]
      exact ⟨hopens, rfl, rfl⟩
    · obtain ⟨tr₅, tr₆, f, s₃, rfl, h₃, rfl, rfl, -⟩ := (Prog.ends_bind _ _ _ _).mp h
      rw [(Run.silent_fenceDone t).ends h₃, List.append_nil, List.append_nil]
      exact ⟨hopens, rfl, rfl⟩

/-- Step 3 asks for the fresh views. -/
theorem asks_chooseWinner {ioStop : List (Node × Option ErrorText)}
    (h : (run.chooseWinner cfg ioStop).Asks s tr r s') : ∃ ns, r = .freshViews ns := by
  unfold Run.chooseWinner at h
  rcases (Prog.asks_bind _ _ _ _).mp h with h | ⟨tr₁, tr₂, vs, s₁, rfl, h₁, h⟩
  · rcases Prog.asks_call_bind.mp h with ⟨-, heq, -⟩ | ⟨_, _, _, -, hno⟩
    · exact ⟨_, heq.symm⟩
    · exact hno.elim
  · dsimp only at h
    split at h
    · refine absurd h (Silent.asks ?_)
      exact speaks_bind Run.silent_awaitFence fun _ =>
        speaks_bind (Run.silent_finish _ _ _) fun _ => speaks_pure _
    · exact h.elim

/-- A winner is the best of the candidates. -/
theorem ends_chooseWinner (hmode : cfg.mode = .dbguard)
    (hothers : ∀ n ∈ run.others, n ≠ run.old) {ioStop : List (Node × Option ErrorText)}
    {run' : Run} (h : (run.chooseWinner cfg ioStop).Ends s tr (run', some W) s') :
    ∃ a, tr = [⟨s, .freshViews run.others, a⟩] ∧ Best run.others a W := by
  unfold Run.chooseWinner at h
  obtain ⟨tr₁, tr₂, vs, s₁, rfl, h₁, h⟩ := (Prog.ends_bind _ _ _ _).mp h
  obtain ⟨a, rfl, rfl⟩ := ends_freshViews h₁
  dsimp only at h
  split at h
  · obtain ⟨_, _, _, _, rfl, -, h⟩ := (Prog.ends_bind _ _ _ _).mp h
    obtain ⟨_, _, _, _, rfl, -, h⟩ := (Prog.ends_bind _ _ _ _).mp h
    obtain ⟨-, heq, -⟩ := Prog.ends_pure.mp h
    cases heq
  · obtain ⟨rfl, heq, -⟩ := Prog.ends_pure.mp h
    have hwinner : (choose (run.others.map (Views.ofAnswers run.others a).view) .dbguard
        (some run.old)).winner = some W := by
      rw [← hmode]
      exact (Prod.mk.inj heq).2
    obtain ⟨w, hw, hname, -, hok, hheld⟩ := choose_winner hwinner
    obtain ⟨m, hm, rfl⟩ := List.mem_map.mp hw
    obtain rfl : m = W := by simpa using hname
    refine ⟨a, rfl, hm, hok, fun n hn hnok => hheld _ (List.mem_map.mpr ⟨n, hn, rfl⟩) ?_ hnok⟩
    simpa using hothers n hn

/-- Step 4 only reads. -/
theorem asks_catchUp (h : (run.catchUp cfg winner).Asks s tr r s') :
    readVocabulary.awaits r := by
  have hspeaks : Speaks (asking readVocabulary.awaits) (run.catchUp cfg winner) := by
    have hsilent : ∀ {α : Type} {m : M α}, Silent m → Speaks (asking readVocabulary.awaits) m :=
      fun hm => Speaks.mono (le_asking fun _ h => False.elim h) hm
    unfold Run.catchUp
    split
    · exact speaks_pure _
    · refine speaks_bind ((waitCaughtUp_speaks cfg winner none).mono (le_asking fun _ h => h))
        fun b => ?_
      dsimp only
      split
      · exact speaks_pure _
      · exact speaks_bind (hsilent Run.silent_awaitFence) fun _ =>
          speaks_bind (hsilent (Run.silent_finish _ _ _)) fun _ => speaks_pure _
  exact hspeaks.asks h

/-- A catch-up that goes on has waited. -/
theorem ends_catchUp (hmode : cfg.mode = .dbguard) {run' : Run}
    (h : (run.catchUp cfg winner).Ends s tr (run', true) s') : Waited winner tr := by
  unfold Run.catchUp at h
  rw [hmode] at h
  obtain ⟨tr₁, tr₂, b, s₁, rfl, h₁, h⟩ := (Prog.ends_bind _ _ _ _).mp h
  dsimp only at h
  split at h
  · rename_i hb
    obtain ⟨rfl, -, -⟩ := Prog.ends_pure.mp h
    rw [List.append_nil]
    exact ends_waitCaughtUp_reads h₁ hb
  · obtain ⟨_, _, _, _, -, -, h⟩ := (Prog.ends_bind _ _ _ _).mp h
    obtain ⟨_, _, _, _, -, -, h⟩ := (Prog.ends_bind _ _ _ _).mp h
    obtain ⟨-, heq, -⟩ := Prog.ends_pure.mp h
    cases heq

/-- Step 5. -/
theorem asks_repoint (h : (run.repoint winner).Asks s tr r s') : r.Reassigns winner ∧ tr = [] := by
  rcases (Prog.asks_bind _ _ _ _).mp h with h | ⟨_, _, _, _, -, -, h⟩
  · rcases Prog.asks_call_bind.mp h with ⟨rfl, rfl, -⟩ | ⟨_, _, _, -, hno⟩
    · exact ⟨rfl, rfl⟩
    · exact hno.elim
  · exact h.elim

/-- The repoint makes calls to the losers only. -/
theorem ends_repoint {run' : Run} (h : (run.repoint winner).Ends s tr run' s') :
    ∀ c ∈ tr, c.req.Reassigns winner := by
  obtain ⟨tr₁, tr₂, ok, s₁, rfl, h₁, rfl, -, -⟩ := (Prog.ends_bind _ _ _ _).mp h
  obtain ⟨x, s₂, tr₃, rfl, rfl, -, -⟩ := Prog.ends_call_bind.mp h₁
  intro c hc
  rw [List.append_nil] at hc
  rw [List.mem_singleton.mp hc]
  rfl

/-- Step 6. -/
theorem asks_promote (h : (run.promote winner).Asks s tr r s') : r.Reassigns winner ∧ tr = [] := by
  rcases Prog.asks_call_bind.mp h with ⟨rfl, rfl, -⟩ | ⟨x, s₁, tr', -, h⟩
  · exact ⟨rfl, rfl⟩
  · refine absurd h (Silent.asks ?_)
    cases x with
    | error e => exact speaks_bind (Run.silent_finish _ _ _) fun _ => speaks_pure _
    | ok body => exact speaks_bind (speaks_edit trivial) fun _ => speaks_pure _

/-- Once it has chosen, a failover changes a role only after the winner was found caught up. -/
theorem asks_carryOut (hmode : cfg.mode = .dbguard)
    (h : (run.carryOut cfg (some winner)).Asks s tr r s') (hr : ¬readVocabulary.awaits r) :
    r.Reassigns winner ∧ ∃ reads post, tr = reads ++ post ∧ Waited winner reads ∧
      ∀ c ∈ post, c.req.Reassigns winner := by
  unfold Run.carryOut at h
  rcases (Prog.asks_bind _ _ _ _).mp h with h | ⟨reads, tr', x, s₁, rfl, h₁, h⟩
  -- The requests before the choice is carried out only read, so this one is a later one.
  · exact absurd (asks_catchUp h) hr
  · obtain ⟨run₁, caught⟩ := x
    cases caught with
    | false => exact h.elim
    | true =>
      have hwaited := ends_catchUp hmode h₁
      -- In this mode the repointing comes before the promotion.
      have hnow : (cfg.mode == .dbguard) = true := by rw [hmode]; rfl
      have hlater : (cfg.mode == .naive) = false := by rw [hmode]; rfl
      simp only [Run.repointWhen, hnow, hlater, Bool.not_true, Bool.false_eq_true, if_false,
        if_true] at h
      rcases (Prog.asks_bind _ _ _ _).mp h with h | ⟨post, tr₂, run₂, s₂, rfl, h₂, h⟩
      -- The request is one of the repointing.
      · obtain ⟨hgive, rfl⟩ := asks_repoint h
        exact ⟨hgive, reads, [], rfl, hwaited, fun _ hc => absurd hc List.not_mem_nil⟩
      · have hpost := ends_repoint h₂
        rcases (Prog.asks_bind _ _ _ _).mp h with h | ⟨tr₃, tr₄, e, s₃, rfl, h₃, h⟩
        · exact absurd h (Silent.asks (Run.silent_awaitFenceBeforePromote _))
        · rw [(Run.silent_awaitFenceBeforePromote _).ends h₃]
          -- Waiting for the fence asks nothing.
          cases e with
          | error e => exact h.elim
          | ok run₃ =>
            rcases (Prog.asks_bind _ _ _ _).mp h with h | ⟨tr₅, tr₆, y, s₄, -, -, h⟩
            -- The request is the promotion.
            · obtain ⟨hgive, rfl⟩ := asks_promote h
              refine ⟨hgive, reads, post, ?_, hwaited, hpost⟩
              rw [List.append_nil, List.append_nil]
            · obtain ⟨run₄, promoted⟩ := y
              cases promoted with
              | none => exact h.elim
              -- Recording the outcome asks nothing.
              | some watermark =>
                refine absurd h (Silent.asks ?_)
                exact speaks_bind (speaks_pure _) fun _ =>
                  speaks_bind (Run.silent_record _ _ _) fun _ => speaks_pure _

/-- What a failover asks: first to stop IO threads, then the fresh views. It changes a role
only in favour of the best candidate, after this was found caught up. -/
theorem asks_failover (hmode : cfg.mode = .dbguard) {old : Node} {v : Verdict}
    (h : (failover cfg old v).Asks s tr r s') (hr : ¬readVocabulary.awaits r) :
    ((∃ ns, r = .stopIo ns) ∧ tr = []) ∨ (∃ ns, r = .freshViews ns) ∨
      ∃ os a W, r.Reassigns W ∧ Elects os a W tr := by
  rw [failover_eq] at h
  rcases (Prog.asks_bind _ _ _ _).mp h with h | ⟨tr₁, tr', run, s₁, rfl, h₁, h⟩
  · exact absurd h (Silent.asks (Run.silent_start _ _))
  · obtain ⟨rfl, rfl, -⟩ : tr₁ = [] ∧ _ = run ∧ _ = s₁ := h₁
    rw [List.nil_append]
    rcases (Prog.asks_bind _ _ _ _).mp h with h | ⟨pre, tr₂, x, s₂, rfl, h₂, h⟩
    · exact .inl (asks_fenceAndStopIo h)
    · obtain ⟨hopens, hold, hothers⟩ := ends_fenceAndStopIo h₂
      rcases (Prog.asks_bind _ _ _ _).mp h with h | ⟨tr₃, tr₄, y, s₃, rfl, h₃, h₄⟩
      · exact .inr (.inl (asks_chooseWinner h))
      · obtain ⟨run', winner⟩ := y
        cases winner with
        | none => exact h₄.elim
        | some W =>
          have hne : ∀ n ∈ x.1.others, n ≠ x.1.old := by
            intro n hn
            rw [hothers] at hn
            rw [hold]
            simpa using (List.mem_filter.mp hn).2
          obtain ⟨a, rfl, hbest⟩ := ends_chooseWinner hmode hne h₃
          obtain ⟨hgive, reads, post, rfl, hwaited, hpost⟩ := asks_carryOut hmode h₄ hr
          exact .inr (.inr ⟨_, a, W, hgive, hbest, pre, s₂, reads, post, rfl, hopens, hwaited,
            hpost⟩)

end

/-! ### The steps of a tick -/

section
variable {cfg : Config} {me : Nat} {s s' : Ctl} {tr : List Asked} {r : Req}

/-- What a tick asks for before its decision is one poll. -/
theorem ends_poll {ob : Observation} (h : (poll cfg).Ends s tr ob s') :
    ∀ c ∈ tr, ∃ p ns, c.req = .observe p ns := by
  have hspeaks : Speaks (asking fun r => ∃ p ns, r = .observe p ns) (poll cfg) :=
    poll_speaks cfg (fun p ns => ⟨p, ns, rfl⟩) fun _ _ => trivial
  exact Speaks.made hspeaks h

/-- A poll asks the nodes for their status. -/
theorem asks_poll (h : (poll cfg).Asks s tr r s') : ∃ p ns, r = .observe p ns := by
  have hspeaks : Speaks (asking fun r => ∃ p ns, r = .observe p ns) (poll cfg) :=
    poll_speaks cfg (fun p ns => ⟨p, ns, rfl⟩) fun _ _ => trivial
  exact hspeaks.asks h

/-- A cold start check that decides nothing asks nothing. -/
theorem ends_coldStartCheck {ob : Observation} (h : (coldStartCheck ob).Ends s tr false s') :
    tr = [] := by
  unfold coldStartCheck ctl at h
  rw [Prog.ends_look] at h
  split at h
  · obtain ⟨_, _, _, _, -, -, h⟩ := (Prog.ends_bind _ _ _ _).mp h
    cases h.2.1
  · exact h.1
  · split at h
    · exact h.1
    · obtain ⟨_, _, _, _, -, -, h⟩ := (Prog.ends_bind _ _ _ _).mp h
      obtain ⟨_, _, _, _, -, -, h⟩ := (Prog.ends_bind _ _ _ _).mp h
      cases h.2.1

/-- What a tick asks upon a verdict, its failover asks. -/
theorem asks_act {ob : Observation} {primary : Node} {v : Verdict}
    (h : (act cfg ob primary v).Asks s tr r s') :
    ∃ s₁, (failover cfg primary v).Asks s₁ tr r s' := by
  unfold act ctl at h
  rw [Prog.asks_look] at h
  split at h
  · split at h
    · split at h
      · exact h.elim
      · exact h.elim
    · rcases (Prog.asks_bind _ _ _ _).mp h with h | ⟨_, _, _, _, -, -, h⟩
      · exact ⟨s, h⟩
      · exact h.elim
  · rcases (Prog.asks_bind _ _ _ _).mp h with h | ⟨_, _, _, _, -, -, h⟩
    · exact h.elim
    · have hquiet : ∀ {m : M Unit} {s : Ctl} {tr : List Asked},
          Speaks (tickVocabulary cfg) m → ¬ m.Asks s tr r s' := fun hm h => (hm.asks h).elim
      split at h
      · rcases (Prog.asks_bind _ _ _ _).mp h with h | ⟨_, _, _, _, -, -, h⟩
        · exact h.elim
        · split at h
          · exact absurd h (rejoinActions_still cfg ob).asks
          · exact h.elim
      · exact absurd h (hquiet (reconcile_speaks cfg _ _))

/-- What a tick asks: its poll, the requests of a cold start or of discovery, or those of a
failover. -/
theorem asks_tick (h : (tick cfg me).Asks s tr r s') :
    (∃ p ns, r = .observe p ns) ∨ ∃ pre tr', tr = pre ++ tr' ∧
      (∀ c ∈ pre, ∃ p ns, c.req = .observe p ns) ∧
        ((coldVocabulary.awaits r ∧ ∀ c ∈ tr', coldVocabulary.awaits c.req) ∨
          ∃ old v s₁, (failover cfg old v).Asks s₁ tr' r s') := by
  unfold tick ctl at h
  rcases (Prog.asks_bind _ _ _ _).mp h with h | ⟨pre, tr', ob, s₁, rfl, h₁, h⟩
  · exact .inl (asks_poll h)
  -- The poll has answered, and what it asked are polls.
  · refine .inr ⟨pre, tr', rfl, ends_poll h₁, ?_⟩
    rw [Prog.asks_look] at h
    split at h
    · exact h.elim
    -- With the lock: a tick without a primary discovers one.
    · obtain ⟨s₂, h⟩ := asks_withLock h
      unfold tickLocked ctl at h
      rw [Prog.asks_look] at h
      split at h
      · exact .inl ⟨(discover_speaks cfg ob).asks h, (discover_speaks cfg ob).calls h⟩
      -- With one, the check for a cold start comes first.
      · rcases (Prog.asks_bind _ _ _ _).mp h with h | ⟨tr₁, tr₂, acted, s₃, rfl, h₂, h⟩
        · exact .inl ⟨(coldStartCheck_speaks ob).asks h, (coldStartCheck_speaks ob).calls h⟩
        · cases acted with
          | true => exact h.elim
          | false =>
            -- It has not acted, so it has asked nothing.
            rw [ends_coldStartCheck h₂, List.nil_append]
            simp only [Bool.false_eq_true, if_false] at h
            rw [Prog.asks_look] at h
            rcases (Prog.asks_bind _ _ _ _).mp h with h | ⟨tr₃, tr₄, _, s₄, rfl, h₃, h⟩
            · exact absurd h (checkStall_still cfg _ _).asks
            · rw [(checkStall_still cfg _ _).ends h₃, List.nil_append]
              -- Then the stall is checked, and the verdict acted on.
              obtain ⟨s₅, h⟩ := asks_act h
              exact .inr ⟨_, _, s₅, h⟩

/-- Before a tick stops IO threads, it has only polled. -/
theorem asks_tick_stopIo (hmode : cfg.mode = .dbguard) {ns : List Node}
    (h : (tick cfg me).Asks s tr (.stopIo ns) s') : ∀ c ∈ tr, ∃ p ns, c.req = .observe p ns := by
  rcases asks_tick h with ⟨_, _, heq⟩ | ⟨pre, tr', rfl, hpre, ⟨hcold, -⟩ | ⟨old, v, s₁, h⟩⟩
  · cases heq
  · exact hcold.elim
  · rcases asks_failover hmode h id with ⟨-, rfl⟩ | ⟨_, heq⟩ | ⟨_, _, _, hgive, -⟩
    · rwa [List.append_nil]
    · cases heq
    · exact hgive.elim

/-- A tick that has stopped IO threads gives the set only to the best candidate, after this was
found caught up. -/
theorem asks_tick_reassigns (hmode : cfg.mode = .dbguard) {V : Node}
    (h : (tick cfg me).Asks s tr r s') (hr : r.Reassigns V)
    (hstop : ∃ c ∈ tr, ∃ ns, c.req = .stopIo ns) : ∃ os a, Elects os a V tr := by
  obtain ⟨c, hc, ns, hstop⟩ := hstop
  rcases asks_tick h with ⟨_, _, rfl⟩ | ⟨pre, tr', rfl, hpre, ⟨-, hcold⟩ | ⟨old, v, s₁, h⟩⟩
  · exact hr.elim
  -- A cold start promotes and repoints without stopping any replication.
  · rcases List.mem_append.mp hc with hc | hc
    · obtain ⟨_, _, heq⟩ := hpre c hc
      rw [hstop] at heq
      cases heq
    · have hcold := hcold c hc
      rw [hstop] at hcold
      exact hcold.elim
  · have hread : ¬readVocabulary.awaits r := by
      -- A reassignment is no read.
      intro hread
      cases r with
      | promote _ | repointAll _ _ => exact hread
      | _ => exact hr
    rcases asks_failover hmode h hread with ⟨⟨_, rfl⟩, -⟩ | ⟨_, rfl⟩ | ⟨os, a, W, hgive, helects⟩
    -- Fencing and stopping replication reassign nothing.
    · exact hr.elim
    · exact hr.elim
    -- The node reassigned to is the one elected.
    · have hVW : V = W := by
        cases r with
        | promote _ | repointAll _ _ => exact hr.symm.trans hgive
        | _ => exact hr.elim
      subst hVW
      -- The polls of the tick go in front of the failover's own calls.
      obtain ⟨pre', s₂, reads, post, rfl, hopens, hwaited, hpost⟩ := helects.calls
      refine ⟨os, a, helects.best, pre ++ pre', s₂, reads, post, by simp, ?_, hwaited, hpost⟩
      intro c hc
      rcases List.mem_append.mp hc with hc | hc
      · obtain ⟨p, ns, heq⟩ := hpre c hc
        rw [heq]
        trivial
      · exact hopens c hc

end

end DbGuard
