import DbGuard.Coop.Dialog
import DbGuard.Proofs.FailoverTrace
import DbGuard.Proofs.Script

/-!
# `DbGuard.Proofs.SwitchoverTrace`: the calls of a switchover

What a switchover has asked when it changes a role. Before the stall it repoints other replicas
to the candidate, and reads. Then it quiesces the old primary, waits until the candidate has
applied the final set, and promotes. `Course` is this order, and `asks_switchover` says that
every switchover keeps to it. What the candidate has shown when it is promoted is
`showsApplied`, unless the answer of the quiesce had no set. `switchover_promotes_once` says it of
every run.
-/

set_option autoImplicit false

namespace DbGuard

open Coop (Prog Pool Move dialog)

/-! ### The order of the calls -/

/-- A request that changes a role or stops replication. -/
def Req.Changes : Req → Prop
  | .fence _ | .promote _ | .repoint _ _ | .repointAll _ _ | .rebuild _ _ | .stopIo _ => True
  | _ => False

/-- A request of a switchover from `old` to `W` before the stall. -/
def Req.Prepares (old W : Node) : Req → Prop
  | .repointAll ns source => old ∉ ns ∧ source = W
  | .freshViews _ | .gtidWaiter _ | .waiterWait _ _ | .sleep => True
  | _ => False

/-- The old primary's final set, if the answer of its fence has one. -/
def finalSet : Except AgentError FenceBody → Option GtidSet
  | .ok body => body.gtidExecuted.bind fun text => text.parse.toOption
  | .error _ => none

/-- The answer shows that `W` has applied `final`. -/
def showsApplied (W : Node) (final : GtidSet) : (r : Req) → r.Resp → Bool
  | .status n, a =>
    n = W && (NodeView.ofAnswer n a).usable && final.isSubset (NodeView.ofAnswer n a).applied
  | .waiterWait n set, a =>
    n = W && final.isSubset set && match a with
      | .ok (done, _) => done
      | .error _ => false
  | _, _ => false

/-- What the calls `tr` since the quiesce, which was answered `a`, allow the switchover to
change. -/
structure Concludes (old W : Node) (a : Except AgentError FenceBody) (tr : List Asked)
    (r : Req) : Prop where
  answered : ∃ body, a = .ok body
  changes : ∀ c ∈ tr, c.req.Changes → c.req = .repointAll [old] W
  shown : r = .promote old ∨ ((r = .promote W ∨ r = .repointAll [old] W) ∧
    ∀ final, finalSet a = some final →
      ∃ c ∈ tr, showsApplied W final c.req c.answer = true)

/-- The calls of a switchover from `old` to `W` when it asks for a change. -/
inductive Course (old W : Node) : List Asked → Req → Prop
  | prepare {tr : List Asked} {r : Req} :
      (∀ c ∈ tr, c.req.Prepares old W) → r.Prepares old W → Course old W tr r
  | quiesce {tr : List Asked} :
      (∀ c ∈ tr, c.req.Prepares old W) → Course old W tr (.fence old)
  | conclude {pre post : List Asked} {s : Ctl} {a : Except AgentError FenceBody} {r : Req} :
      (∀ c ∈ pre, c.req.Prepares old W) → Concludes old W a post r →
        Course old W (pre ++ ⟨s, .fence old, a⟩ :: post) r

section
variable {cfg : Config} {old W : Node} {s s' : Ctl} {tr pre : List Asked} {r : Req}

/-- More preparations before a course make a longer course. -/
theorem Course.prepend (h : Course old W tr r) (hpre : ∀ c ∈ pre, c.req.Prepares old W) :
    Course old W (pre ++ tr) r := by
  have happend : ∀ {tr : List Asked}, (∀ c ∈ tr, c.req.Prepares old W) →
      ∀ c ∈ pre ++ tr, c.req.Prepares old W :=
    fun htr c hc => (List.mem_append.mp hc).elim (hpre c) (htr c)
  cases h with
  | prepare htr hr => exact .prepare (happend htr) hr
  | quiesce htr => exact .quiesce (happend htr)
  | conclude htr hpost =>
    rw [← List.append_assoc]
    exact .conclude (happend htr) hpost

/-- A call that is no preparation is the quiesce, or comes after it. -/
theorem Course.concludes (h : Course old W tr r) {c : Asked} (hc : c ∈ tr)
    (hno : ¬c.req.Prepares old W) : ∃ pre s a post, tr = pre ++ ⟨s, .fence old, a⟩ :: post ∧
      (∀ c ∈ pre, c.req.Prepares old W) ∧ Concludes old W a post r ∧
        (c = ⟨s, .fence old, a⟩ ∨ c ∈ post) := by
  cases h with
  | prepare htr _ => exact absurd (htr c hc) hno
  | quiesce htr => exact absurd (htr c hc) hno
  | @conclude pre post s a _ htr hpost =>
    refine ⟨pre, s, a, post, rfl, htr, hpost, ?_⟩
    rcases List.mem_append.mp hc with hc | hc
    · exact absurd (htr c hc) hno
    · exact List.mem_cons.mp hc

/-- A promote is the last change. -/
theorem Course.no_promote (h : Course old W tr r) {c : Asked} (hc : c ∈ tr) (n : Node) :
    c.req ≠ .promote n := by
  intro hreq
  obtain ⟨_, _, _, _, -, -, hpost, rfl | hc⟩ := h.concludes hc (by rw [hreq]; exact id)
  · cases hreq
  · have hrepoint := hpost.changes c hc (by rw [hreq]; trivial)
    cases hreq.symm.trans hrepoint

/-! ### Before the stall -/

/-- Most of the preparation. -/
theorem prepares_of_asking {α : Type} {m : M α} {a : α}
    (hm : Speaks (asking (Req.Prepares old W)) m) (h : m.Ends s tr a s') :
    ∀ c ∈ tr, c.req.Prepares old W := Speaks.made hm h

/-- The move of the replicas prepares the switchover. -/
theorem attachMovers_prepares {movers : List Node} (hmovers : old ∉ movers) (steps : Steps) :
    Speaks (asking (Req.Prepares old W)) (attachMovers cfg W movers steps) := by
  have hround : ∀ ns : List Node, Speaks (asking (Req.Prepares old W)) (readAttached ns W) := by
    intro ns
    unfold readAttached
    exact speaks_bind (speaks_freshViews trivial) fun views => speaks_pure _
  have hloop : ∀ (ns : List Node) (deadline : Time) (rounds : Nat),
      Speaks (asking (Req.Prepares old W)) (pollAttached ns W deadline rounds) := by
    intro ns deadline rounds
    induction rounds with
    | zero => exact hround ns
    | succ rounds ih =>
      unfold pollAttached
      refine speaks_bind (hround ns) fun ok => speaks_look fun s => ?_
      split
      · exact speaks_pure _
      · exact speaks_bind (speaks_await trivial) fun _ => ih
  unfold attachMovers
  split
  · exact speaks_pure _
  · refine speaks_bind (speaks_repointAll ⟨hmovers, rfl⟩) fun ok => ?_
    refine speaks_bind ?_ fun attached => speaks_pure _
    unfold waitAttached
    exact speaks_look fun s => hloop ok _ _

/-- So does the opening of the waiter. -/
theorem openWaiter_prepares (pv : NodeView) :
    Speaks (asking (Req.Prepares old W)) (openWaiter cfg W pv) := by
  unfold openWaiter
  split
  · refine speaks_bind (speaks_await trivial) fun opened => ?_
    split
    · exact speaks_bind (speaks_await trivial) fun near => speaks_pure _
    · exact speaks_pure _
  · exact speaks_pure _

/-! ### The stall -/

/-- The catch-up changes nothing. -/
theorem not_changes_of_final {r : Req} (h : finalVocabulary.awaits r) : ¬r.Changes := by
  intro hr
  cases r with
  | status _ | replicaState _ | sleep | waiterWait _ _ => exact hr
  | _ => exact h

/-- A status that shows the node to be caught up. -/
theorem showsApplied_of_caughtUp {final : GtidSet} {a : Except String StatusBody}
    (h : CaughtUp cfg (some final) (.ofAnswer W a)) :
    showsApplied W final (.status W) a = true := by
  simp [showsApplied, h.usable, (GtidSet.isSubset_iff _ _).mpr (h.target final rfl)]

/-- The last status is one that was asked for. -/
theorem mem_of_statusAnswers {a : Except String StatusBody}
    (h : (statusAnswers W tr).getLast? = some a) : ∃ c ∈ tr, ∃ s, c = ⟨s, .status W, a⟩ := by
  obtain ⟨c, hc, heq⟩ := List.mem_filterMap.mp (List.mem_of_getLast? h)
  obtain ⟨s, r, x⟩ := c
  cases r with
  | status n =>
    obtain ⟨rfl, rfl⟩ : n = W ∧ x = a := by simpa using heq
    exact ⟨_, hc, s, rfl⟩
  | _ => cases heq

/-- A wait for the final set that succeeds has seen the candidate apply it. -/
theorem ends_pollToFinal {final : GtidSet} {b : Bool × String}
    (h : (pollToFinal cfg old W (some final)).Ends s tr b s') (hb : b.1 = true) :
    ∃ c ∈ tr, showsApplied W final c.req c.answer = true := by
  unfold pollToFinal at h
  obtain ⟨tr₁, tr₂, x, s₁, rfl, h₁, h⟩ := (Prog.ends_bind _ _ _ _).mp h
  obtain ⟨ok, why⟩ := x
  cases ok with
  | false =>
    obtain ⟨-, rfl, -⟩ := Prog.ends_pure.mp h
    cases hb
  | true =>
    obtain ⟨a, hlast, hup⟩ := ends_waitCaughtUp h₁
    obtain ⟨c, hc, s₂, rfl⟩ := mem_of_statusAnswers hlast
    exact ⟨_, List.mem_append_left _ hc, showsApplied_of_caughtUp hup⟩

/-- A catch-up that succeeds was shown the final set. -/
theorem ends_catchUpToFinal {final : GtidSet} {waiter : Bool} {b : Bool × String}
    (h : (catchUpToFinal cfg old W (some final) waiter).Ends s tr b s') (hb : b.1 = true) :
    ∃ c ∈ tr, showsApplied W final c.req c.answer = true := by
  unfold catchUpToFinal at h
  cases waiter with
  | false => exact ends_pollToFinal h hb
  | true =>
    obtain ⟨x, s₁, tr₁, rfl, h₁⟩ := Prog.ends_call_bind.mp h
    have hpoll : (pollToFinal cfg old W (some final)).Ends s₁ tr₁ b s' →
        ∃ c ∈ (⟨s, .waiterWait W final, x⟩ : Asked) :: tr₁,
          showsApplied W final c.req c.answer = true := fun h₂ => by
      obtain ⟨c, hc, hshows⟩ := ends_pollToFinal h₂ hb
      exact ⟨c, List.mem_cons_of_mem _ hc, hshows⟩
    have hshown : ∀ got : Option GtidText, ∃ c ∈
        (⟨s, .waiterWait W final, .ok (true, got)⟩ : Asked) :: tr₁,
          showsApplied W final c.req c.answer = true := by
      refine fun got => ⟨_, List.mem_cons_self, ?_⟩
      simp [showsApplied, (GtidSet.isSubset_iff _ _).mpr (GtidSet.Subset.refl final)]
    cases x with
    | error e => exact hpoll h₁
    | ok x =>
      obtain ⟨done, got⟩ := x
      cases done with
      | true => exact hshown got
      | false =>
        obtain ⟨-, rfl, -⟩ := Prog.ends_pure.mp h₁
        cases hb

/-- The old primary is repointed inside the stall or not. -/
theorem ends_repointInside {steps : Steps} {attached : List Node}
    {x : Steps × List String × Bool} (h : (repointInside old W steps attached).Ends s tr x s') :
    ∀ c ∈ tr, c.req = .repointAll [old] W := by
  unfold repointInside at h
  split at h
  · obtain ⟨tr₁, tr₂, ok, s₁, rfl, h₁, h₂⟩ := (Prog.ends_bind _ _ _ _).mp h
    obtain ⟨y, s₂, tr₃, rfl, rfl, -, -⟩ := Prog.ends_call_bind.mp h₁
    rw [(Prog.ends_pure.mp h₂).1, List.append_nil]
    intro c hc
    rw [List.mem_singleton.mp hc]
  · rw [(Prog.ends_pure.mp h).1]
    exact fun c hc => absurd hc List.not_mem_nil

/-- The repoint inside the stall is one request. -/
theorem asks_repointInside {steps : Steps} {attached : List Node}
    (h : (repointInside old W steps attached).Asks s tr r s') :
    r = .repointAll [old] W ∧ tr = [] := by
  unfold repointInside at h
  split at h
  · rcases (Prog.asks_bind _ _ _ _).mp h with h₁ | ⟨_, _, _, _, -, -, h₁⟩
    · rcases Prog.asks_call_bind.mp h₁ with ⟨rfl, rfl, -⟩ | ⟨_, _, _, -, hno⟩
      · exact ⟨rfl, rfl⟩
      · exact hno.elim
    · exact h₁.elim
  · exact h.elim

/-- After the catch-up, only these two requests. -/
theorem asks_promoteTarget {steps : Steps} {attached : List Node}
    (h : (promoteTarget old W steps attached).Asks s tr r s') :
    (r = .promote W ∨ r = .repointAll [old] W) ∧ ∀ c ∈ tr, c.req = .repointAll [old] W := by
  unfold promoteTarget at h
  rcases (Prog.asks_bind _ _ _ _).mp h with h₁ | ⟨tr₁, tr₂, x, s₁, rfl, h₁, h₂⟩
  · obtain ⟨rfl, rfl⟩ := asks_repointInside h₁
    exact ⟨.inr rfl, fun c hc => absurd hc List.not_mem_nil⟩
  · have hrepointed := ends_repointInside h₁
    obtain ⟨steps, notes, oldRepointed⟩ := x
    rcases Prog.asks_call_bind.mp h₂ with ⟨rfl, rfl, -⟩ | ⟨y, s₂, tr₃, -, h₃⟩
    · rw [List.append_nil]
      exact ⟨.inl rfl, hrepointed⟩
    · refine absurd h₃ (Silent.asks ?_)
      cases y with
      | error e =>
        exact speaks_bind (speaks_edit trivial) fun _ => speaks_look fun _ => speaks_pure _
      | ok presp =>
        refine speaks_bind ?_ fun ev => speaks_pure _
        unfold switched
        refine speaks_bind (speaks_edit trivial) fun _ => speaks_bind ?_ fun _ => ?_
        · unfold repointLater
          split
          · exact speaks_pure _
          · exact speaks_bind (speaks_nodeTask trivial) fun _ => speaks_pure _
        · refine speaks_bind (speaks_event trivial) fun _ => speaks_look fun _ => ?_
          exact speaks_bind (speaks_edit trivial) fun _ =>
            speaks_bind (speaks_edit trivial) fun _ => speaks_pure _

/-- So is the way back. -/
theorem asks_promoteBack {steps : Steps} {why : String}
    (h : (promoteBack old W steps why).Asks s tr r s') : r = .promote old ∧ tr = [] := by
  unfold promoteBack at h
  rcases Prog.asks_call_bind.mp h with ⟨rfl, rfl, -⟩ | ⟨y, s₂, tr₃, -, h₃⟩
  · exact ⟨rfl, rfl⟩
  · refine absurd h₃ (Silent.asks ?_)
    cases y with
    | error e =>
      exact speaks_bind (speaks_edit trivial) fun _ => speaks_look fun _ => speaks_pure _
    | ok _ =>
      exact speaks_bind (speaks_edit trivial) fun _ =>
        speaks_bind (speaks_event trivial) fun _ => speaks_pure _

/-- From the final set on. `a` is the answer that it was read from. -/
theorem asks_stallFrom {final : Option GtidSet} {a : Except AgentError FenceBody}
    (hanswered : ∃ body, a = .ok body) (hfinal : finalSet a = final)
    {steps : Steps} {attached : List Node} {waiter : Bool}
    (h : (stall.stallFrom cfg old W attached waiter final steps).Asks s tr r s')
    (hr : r.Changes) : Concludes old W a tr r := by
  unfold stall.stallFrom at h
  have hreads := catchUpToFinal_speaks cfg old W final waiter
  rcases (Prog.asks_bind _ _ _ _).mp h with h₁ | ⟨tr₁, tr₂, x, s₁, rfl, h₁, h₂⟩
  · exact absurd hr (not_changes_of_final (hreads.asks h₁))
  · have hquiet : ∀ c ∈ tr₁, ¬c.req.Changes := fun c hc =>
      not_changes_of_final (Speaks.made hreads h₁ c hc)
    obtain ⟨ok, why⟩ := x
    cases ok with
    | false =>
      rcases (Prog.asks_bind _ _ _ _).mp h₂ with h₃ | ⟨_, _, _, _, -, -, h₃⟩
      · obtain ⟨rfl, rfl⟩ := asks_promoteBack h₃
        rw [List.append_nil]
        exact ⟨hanswered, fun c hc hchanges => absurd hchanges (hquiet c hc), .inl rfl⟩
      · exact h₃.elim
    | true =>
      obtain ⟨hr, hpost⟩ := asks_promoteTarget h₂
      refine ⟨hanswered, fun c hc hchanges => ?_, .inr ⟨hr, fun g hg => ?_⟩⟩
      · rcases List.mem_append.mp hc with hc | hc
        · exact absurd hchanges (hquiet c hc)
        · exact hpost c hc
      · obtain rfl : final = some g := hfinal.symm.trans hg
        obtain ⟨c, hc, hshows⟩ := ends_catchUpToFinal h₁ rfl
        exact ⟨c, List.mem_append_left _ hc, hshows⟩

/-- What the stall changes, it changes in the order of the course. -/
theorem asks_stall {steps : Steps} {attached : List Node} {waiter : Bool}
    (h : (stall cfg old W steps attached waiter).Asks s tr r s') (hr : r.Changes) :
    (r = .fence old ∧ tr = []) ∨ ∃ a post, tr = ⟨s, .fence old, a⟩ :: post ∧
      Concludes old W a post r := by
  unfold stall at h
  -- The first request of the stall is the fence of the old primary.
  rcases (Prog.asks_bind _ _ _ _).mp h with h₁ | ⟨tr₁, post, x, s₁, rfl, h₁, h₂⟩
  · rcases Prog.asks_call_bind.mp h₁ with ⟨rfl, rfl, -⟩ | ⟨_, _, _, -, hno⟩
    · exact .inl ⟨rfl, rfl⟩
    · exact hno.elim
  · obtain ⟨a, s₂, tr₃, rfl, rfl, rfl, rfl⟩ := Prog.ends_call_bind.mp h₁
    refine .inr ⟨a, post, rfl, ?_⟩
    cases a with
    -- The fence has failed: the switchover gives up without another request.
    | error e =>
      refine absurd h₂ (Silent.asks ?_)
      exact speaks_bind (speaks_edit trivial) fun _ => speaks_pure _
    | ok body =>
      obtain ⟨outcome, hresult⟩ : ∃ outcome, fenceResult (.ok body) = (outcome, some body) :=
        ⟨_, rfl⟩
      rw [hresult] at h₂
      dsimp only at h₂
      -- Some sessions are left, so it gives up as well.
      split at h₂
      · refine absurd h₂ (Silent.asks ?_)
        exact speaks_bind (speaks_edit trivial) fun _ => speaks_pure _
      · split at h₂
        · exact h₂.elim
        -- The final set is the one in the fence's answer.
        · rename_i final heq
          refine asks_stallFrom ⟨body, rfl⟩ ?_ h₂ hr
          cases hset : body.gtidExecuted with
          | none => simp [hset] at heq
          | some text =>
            have htext : text.parse = .ok final := by simpa [hset] using heq
            simp [finalSet, hset, htext, Except.toOption]
        -- No set in the answer: nothing to wait for.
        · rename_i heq
          refine asks_stallFrom ⟨body, rfl⟩ ?_ h₂ hr
          cases hset : body.gtidExecuted with
          | none => simp [finalSet, hset]
          | some text => simp [hset] at heq

/-! ### The whole switchover -/

/-- So it is with what comes before the stall. -/
theorem asks_prepareAndStall {members cands : List Node} {views : Views} {pv : NodeView}
    (h : (prepareAndStall cfg old W members views pv cands).Asks s tr r s') (hr : r.Changes) :
    Course old W tr r := by
  have hsilent : ∀ {u : Update} {tr : List Asked} {s s₁ : Ctl} {x : Unit},
      (edit u).Ends s tr x s₁ → tr = [] := fun h => h.1
  unfold prepareAndStall at h
  dsimp only at h
  -- The two edits at the start ask nothing.
  rcases (Prog.asks_bind _ _ _ _).mp h with h₁ | ⟨tr₁, tr₂, _, s₁, rfl, h₁, h₂⟩
  · exact h₁.elim
  rcases (Prog.asks_bind _ _ _ _).mp h₂ with h₃ | ⟨tr₃, tr₄, _, s₃, rfl, h₃, h₄⟩
  · exact h₃.elim
  rw [hsilent h₁, hsilent h₃, List.nil_append, List.nil_append]
  split at h₄
  · exact h₄.elim
  -- The movers are neither the old primary nor the target.
  · have hmovers : old ∉ (members.filter fun n => n ≠ old && n ≠ W).filter fun n =>
        (views.view n).usable && (views.view n).replica.configured := by simp
    -- Attaching the movers, opening the waiter, stalling: the request is of one of the three.
    rcases (Prog.asks_bind _ _ _ _).mp h₄ with h₅ | ⟨tr₅, tr₆, x, s₅, rfl, h₅, h₆⟩
    · exact .prepare ((attachMovers_prepares hmovers _).calls h₅)
        ((attachMovers_prepares hmovers _).asks h₅)
    refine Course.prepend ?_ (prepares_of_asking (attachMovers_prepares hmovers _) h₅)
    rcases (Prog.asks_bind _ _ _ _).mp h₆ with h₇ | ⟨tr₇, tr₈, waiter, s₇, rfl, h₇, h₈⟩
    · exact .prepare ((openWaiter_prepares pv).calls h₇) ((openWaiter_prepares pv).asks h₇)
    refine Course.prepend ?_ (prepares_of_asking (openWaiter_prepares pv) h₇)
    rcases (Prog.asks_bind _ _ _ _).mp h₈ with h₉ | ⟨_, _, _, _, -, -, h₉⟩
    · rcases asks_stall h₉ hr with ⟨rfl, rfl⟩ | ⟨a, post, rfl, hpost⟩
      · exact .quiesce fun c hc => absurd hc List.not_mem_nil
      · have hnone : ∀ c ∈ ([] : List Asked), c.req.Prepares old W :=
          fun c hc => absurd hc List.not_mem_nil
        exact .conclude hnone hpost
    · -- the waiter is closed
      rcases (Prog.asks_bind _ _ _ _).mp h₉ with hclose | ⟨_, _, _, _, -, -, hno⟩
      · unfold closeWaiter at hclose
        split at hclose
        · obtain ⟨-, rfl, -⟩ := Prog.asks_call.mp hclose
          exact hr.elim
        · exact hclose.elim
      · exact hno.elim

/-- And with the choice of the target. -/
theorem asks_pickTarget {wanted : Option Node} {members : List Node} {views : Views}
    {pv : NodeView} (hname : ∀ n, (views.view n).name = n)
    (h : (pickTarget cfg old wanted members views pv).Asks s tr r s') (hr : r.Changes) :
    ∃ W, W ≠ old ∧ Course old W tr r := by
  unfold pickTarget at h
  dsimp only at h
  cases wanted with
  | none =>
    dsimp only at h
    split at h
    · exact h.elim
    · split at h
      · exact h.elim
      · rename_i winner hwinner
        obtain ⟨w, hw, hwname, -⟩ := choose_winner hwinner
        obtain ⟨m, hm, rfl⟩ := List.mem_map.mp hw
        obtain rfl : m = winner := (hname m).symm.trans hwname
        exact ⟨m, by simpa using (List.mem_filter.mp hm).2, asks_prepareAndStall h hr⟩
  | some target =>
    dsimp only at h
    split at h
    · exact h.elim
    · rename_i hmem
      have hother : target ∈ members.filter (· ≠ old) := not_not.mp hmem
      split at h
      · exact h.elim
      · split at h
        · exact h.elim
        · exact ⟨target, by simpa using (List.mem_filter.mp hother).2, asks_prepareAndStall h hr⟩

/-- A switchover asks for its changes in the order of its course. -/
theorem asks_switchover {me : Nat} {wanted : Option Node}
    (h : (setFailover cfg me wanted).Asks s tr r s') (hr : r.Changes) :
    ∃ old W, W ≠ old ∧ Course old W tr r := by
  unfold setFailover at h
  -- The request is one of the switchover itself, or the reply at the end.
  rcases (Prog.asks_bind _ _ _ _).mp h with h₁ | ⟨_, _, x, _, -, -, h₁⟩
  · obtain ⟨s₁, h₂⟩ := asks_withLock h₁
    unfold switchoverLocked ctl at h₂
    rw [Prog.asks_look] at h₂
    -- Halted, no primary, or the primary is already the one wanted: a refusal.
    split at h₂
    · exact h₂.elim
    split at h₂
    · exact h₂.elim
    split at h₂
    · exact h₂.elim
    -- The fresh views are asked for first, and they are a read.
    rcases (Prog.asks_bind _ _ _ _).mp h₂ with h₃ | ⟨tr₁, tr₂, views, s₂, rfl, h₃, h₄⟩
    · rcases Prog.asks_call_bind.mp h₃ with ⟨-, rfl, -⟩ | ⟨_, _, _, -, hno⟩
      · exact hr.elim
      · exact hno.elim
    obtain ⟨a, rfl, rfl⟩ := ends_freshViews h₃
    rw [Prog.asks_look] at h₄
    split at h₄
    · exact h₄.elim
    -- Then the target is picked, and the course begins.
    split at h₄
    · obtain ⟨W, hW, hcourse⟩ := asks_pickTarget (fun n => by simp) h₄ hr
      refine ⟨_, W, hW, hcourse.prepend fun c hc => ?_⟩
      rw [List.mem_singleton.mp hc]
      trivial
    · exact h₄.elim
  · -- the reply
    rcases x with (_ | _) | _
    all_goals
      obtain ⟨-, rfl, -⟩ := Prog.asks_call.mp h₁
      exact hr.elim

end

/-- The client sends a request again while the task's last call is a role change that is posted
so. -/
theorem change_of_resent {cfg : Config} {cond : Pool sig → Move sig → Pool sig → Prop}
    {p : Pool sig} (h : Runs cfg cond p) {l l' : List Step} {t : Nat} {r : Req} {s : Ctl}
    (hlog : p.world.log = l ++ .resent t r s :: l') :
    ∃ (j : Job) (q : Req) (s₁ : Ctl) (l₁ l₂ : List Step), l = l₁ ++ .issued t j q s₁ :: l₂ ∧
      q.reposts r = true ∧ q.Changes ∧ dialog t l₂ = [] ∧ ∀ s', .resent t r s' ∉ l₂ := by
  obtain ⟨j, q, -, s₁, -, l₁, l₂, heq, hq, -, -, hl₂, honce⟩ := resent_of_runs h hlog
  refine ⟨j, q, s₁, l₁, l₂, heq, hq, ?_, hl₂, honce⟩
  cases q with
  | promote | repoint | repointAll => trivial
  | _ => cases r <;> cases hq

/-- In every run a switchover asks for at most one promotion. Before that the fence of the old
primary was answered, and if the answer has the final set and another node is promoted, a later
answer showed that this node had applied it all. After that the task changes nothing any more,
and the client sends nothing for it again but the same /promote, once. -/
theorem switchover_promotes_once {cfg : Config} {cond : Pool sig → Move sig → Pool sig → Prop}
    {p : Pool sig} {l₁ l₂ : List Step} {t : Nat} {wanted : Option Node} {n : Node} {s : Ctl}
    (h : Runs cfg cond p)
    (hlog : p.world.log = l₁ ++ .issued t (.switchover wanted) (.promote n) s :: l₂) :
    (∃ old a l l', l₁ = l ++ .answered t (.fence old) a :: l' ∧ (∃ body, a = .ok body) ∧
      (n ≠ old → ∀ final, finalSet a = some final →
        ∃ r x, .answered t r x ∈ l' ∧ showsApplied n final r x = true)) ∧
      (∀ m s', (∀ j, .issued t j (.promote m) s' ∉ l₁) ∧ .resent t (.promote m) s' ∉ l₁) ∧
        (∀ j r s', .issued t j r s' ∈ l₂ → ¬r.Changes) ∧
          ∀ X r s' Y, l₂ = X ++ .resent t r s' :: Y →
            r = .promote n ∧ ∀ s'', .resent t (.promote n) s'' ∉ X := by
  have htraced := traced_of_runs h
  obtain ⟨s₀, tr, hasks, hdialog⟩ := htraced l₁ _ l₂ hlog
  obtain ⟨old, W, -, hcourse⟩ := asks_switchover hasks trivial
  -- An earlier promote would be among the calls.
  have hfirst : ∀ j m s', .issued t j (.promote m) s' ∉ l₁ := by
    intro j m s' hmem
    have hin : .issued t j (.promote m) s' ∈ dialog t l₁ :=
      List.mem_filter.mpr ⟨hmem, by simp [Coop.Event.isCallOf]⟩
    rw [hdialog] at hin
    obtain ⟨-, c, hc, hreq⟩ := Coop.call_of_issued hin
    exact hcourse.no_promote hc m hreq
  -- The promote is among the calls before a later request.
  have hlast : ∀ j r s', .issued t j r s' ∈ l₂ → ¬r.Changes := by
    intro j r s' hmem hr
    obtain ⟨m₁, m₂, rfl⟩ := List.append_of_mem hmem
    obtain ⟨s₂, tr', hasks', hdialog'⟩ := htraced
      (l₁ ++ .issued t (.switchover wanted) (.promote n) s :: m₁) _ m₂
      (by rw [hlog, List.append_assoc, List.cons_append])
    have hin : .issued t (.switchover wanted) (.promote n) s ∈ Coop.Call.steps t j tr' := by
      rw [← hdialog']
      exact List.mem_filter.mpr ⟨by simp, by simp [Coop.Event.isCallOf]⟩
    obtain ⟨rfl, c, hc, hreq⟩ := Coop.call_of_issued hin
    obtain ⟨old', W', -, hcourse₂⟩ := asks_switchover hasks' hr
    exact hcourse₂.no_promote hc n hreq
  refine ⟨?_, fun m s' => ⟨fun j => hfirst j m s', fun hmem => ?_⟩, hlast, ?_⟩
  · cases hcourse with
    | prepare _ hr => exact absurd hr id
    | @conclude pre post s₁ a _ hpre hpost =>
      have hsplit : dialog t l₁ =
          (Coop.Call.steps (S := sig) t (.switchover wanted) pre ++
            [.issued t (.switchover wanted) (.fence old) s₁]) ++
              .answered t (.fence old) a ::
                Coop.Call.steps (S := sig) t (.switchover wanted) post := by
        rw [hdialog]
        simp [Coop.Call.steps]
      obtain ⟨l, l', rfl, -, hpost'⟩ := Coop.split_of_dialog hsplit
      refine ⟨old, a, l, l', rfl, hpost.answered, fun hne final hfinal => ?_⟩
      rcases hpost.shown with he | ⟨he | he, hshown⟩
      · cases he
        exact absurd rfl hne
      · cases he
        obtain ⟨⟨s₂, r, x⟩, hc, hshows⟩ := hshown final hfinal
        have hin : .answered t r x ∈ dialog t l' := by
          rw [hpost']
          exact List.mem_flatMap.mpr ⟨_, hc, List.mem_cons_of_mem _ (List.mem_singleton_self _)⟩
        exact ⟨r, x, (List.mem_filter.mp hin).1, hshows⟩
      · cases he
  · -- before it there is no promote to send again
    obtain ⟨A, B, rfl⟩ := List.append_of_mem hmem
    obtain ⟨j, q, s₁, a₁, a₂, rfl, hq, -⟩ := change_of_resent h
      (by rw [hlog, List.append_assoc, List.cons_append])
    cases q with
    | promote k => exact hfirst j k s₁ (by simp)
    | _ => cases hq
  · -- the last call of the task before a repeated request is the promote
    have hresent : ∀ X r s' Y, l₂ = X ++ .resent t r s' :: Y →
        r = .promote n ∧ ∀ s'', .resent t r s'' ∉ X := by
      rintro X r s' Y rfl
      obtain ⟨j, q, s₁, a₁, a₂, heq, hq, hchanges, ha₂, honce⟩ := change_of_resent h
        (l := l₁ ++ .issued t (.switchover wanted) (.promote n) s :: X)
        (by rw [hlog, List.append_assoc, List.cons_append])
      rcases List.append_eq_append_iff.mp heq with ⟨Z, rfl, hrest⟩ | ⟨Z, rfl, hrest⟩
      · cases Z with
        | nil =>
          cases hrest
          cases r with
          | promote m => exact ⟨by rw [of_decide_eq_true hq], honce⟩
          | _ => cases hq
        | cons e Z =>
          obtain ⟨-, rfl⟩ := List.cons.inj hrest
          exact absurd hchanges (hlast j q s₁ (by simp))
      · cases Z with
        | nil =>
          cases hrest
          cases r with
          | promote m => exact ⟨by rw [of_decide_eq_true hq], honce⟩
          | _ => cases hq
        | cons e Z =>
          obtain ⟨-, rfl⟩ := List.cons.inj hrest
          have hcall := List.filter_eq_nil_iff.mp ha₂
            (.issued t (.switchover wanted) (.promote n) s) (by simp)
          simp [Coop.Event.isCallOf] at hcall
    intro X r s' Y heq
    obtain ⟨rfl, honce⟩ := hresent X r s' Y heq
    exact ⟨rfl, honce⟩

/-- Task 1 moves the primary to `b`. No replica comes to stream from `b` before the stall. -/
theorem switchover_promotes_once_moved : ∃ p l s, Runs fleet (fun _ _ _ => True) p ∧
    p.world.log = l ++ .issued 1 (.switchover (some "b")) (.promote "b") s :: [] ∧
      (∃ old a l₁ l₂, l = l₁ ++ .answered 1 (.fence old) a :: l₂ ∧ ∃ body, a = .ok body) ∧
        ∀ j m s', .issued 1 j (.promote m) s' ∉ l := by
  obtain ⟨p, l, e, hp, hlog, hshows⟩ := exists_last fleet
    (discovery settled ++ [.arrive (.switchover (some "b")), .start 1] ++
      List.replicate 12 (.answer 1 (succeed true settled)))
    (asked 1 (.promote "b") fun _ j _ => j = .switchover (some "b")) (by decide +kernel)
  obtain ⟨j, s, rfl, hshown⟩ := of_asked hshows
  obtain rfl := of_decide_eq_true hshown
  obtain ⟨⟨old, a, l₁, l₂, hl, ha, -⟩, honce, -⟩ := switchover_promotes_once hp hlog
  exact ⟨p, l, s, hp, hlog, ⟨old, a, l₁, l₂, hl, ha⟩, fun j m s' => (honce m s').1 j⟩

end DbGuard
