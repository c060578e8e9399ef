import DbGuard.Proofs.FailoverSafety

/-!
# `DbGuard.Proofs.FailoverOutcome`: what a failover loses, and how it ends

Choosing, catching up and promoting look at three different states of the winner. The choice
says that the winner held everything that any candidate held (`choose_winner`). So a promotion
is lossless if and only if the last view of the winner has applied all that it held at the
choice, but for what can be applied nowhere (`lossless_iff`).

`failover_ends` is about the end: one /promote at most, after the answer of the fence, and
one of two outcomes. It needs a fence answer whose gtid_executed can be read, and no lost link
that makes the client post the /promote again.
-/

set_option autoImplicit false

namespace DbGuard

open Coop (Pool Move Reach Recorded own dialog)

/-! ### Lossless promotions -/

/-- Every candidate that held `g` in the views `vs` has it in its partial tail, which is
never applied. -/
def PartialEverywhere (old : Node) (tails : Node → GtidSet) (vs : Views) (g : Gtid) : Prop :=
  ∀ n ∈ (choiceOf old vs).candidates, g ∈ (vs.view n).held → g ∈ tails n

/-- The view `nv` has applied everything that a candidate held in the views `vs`, but for
transactions that are partial on every candidate that held them. -/
def Lossless (old : Node) (tails : Node → GtidSet) (vs : Views) (nv : NodeView) : Prop :=
  ∀ n ∈ (choiceOf old vs).candidates, ∀ g ∈ (vs.view n).held,
    g ∈ nv.applied ∨ PartialEverywhere old tails vs g

/-- The winner has lost nothing since the choice: what its last view `nv` does not hold any
more, and what it holds but has not applied, is partial on every candidate that held it. -/
structure Retained (old W : Node) (tails : Node → GtidSet) (vs : Views) (nv : NodeView) :
    Prop where
  kept : ∀ g ∈ (vs.view W).held, g ∉ nv.held → PartialEverywhere old tails vs g
  applied : ∀ g ∈ (vs.view W).held, g ∈ nv.held → g ∉ nv.applied →
    PartialEverywhere old tails vs g

section
variable {st : Story} {cfg : Config} {t : Nat} {past : List Event} {W : Node} {nv : NodeView}

/-- The winner held everything that a candidate held. -/
theorem Story.held_winner (hW : st.choice.winner = some W) {n : Node}
    (hn : n ∈ (choiceOf st.old st.views).candidates) :
    (st.views.view n).held ⊆ (st.views.view W).held := by
  obtain ⟨w, hw, hname, -, -, hall⟩ := choose_winner hW
  obtain ⟨m, hm, rfl⟩ := List.mem_map.mp hw
  have hmW : m = W := by simpa [Story.views] using hname
  subst hmW
  obtain ⟨v, hv, hvname, hne, hok⟩ := mem_candidates hn
  obtain ⟨k, hk, rfl⟩ := List.mem_map.mp hv
  have hkn : k = n := by simpa [Story.views] using hvname
  subst hkn
  refine hall _ (List.mem_map.mpr ⟨k, hk, rfl⟩) ?_ hok
  rwa [hvname]

/-- Only the winner's own transactions matter. -/
theorem Story.lossless_iff_retained (hW : st.choice.winner = some W)
    (tails : Node → GtidSet) :
    Lossless st.old tails st.views nv ↔ Retained st.old W tails st.views nv := by
  have hcand : W ∈ (choiceOf st.old st.views).candidates := winner_mem_candidates hW
  constructor
  · intro h
    refine ⟨fun g hg hlost => ?_, fun g hg _ hpending => ?_⟩
    · rcases h W hcand g hg with happlied | htail
      · exact absurd ((nv.mem_held g).mpr (.inl happlied)) hlost
      · exact htail
    · exact (h W hcand g hg).resolve_left hpending
  · intro h n hn g hg
    have hgW : g ∈ (st.views.view W).held := Story.held_winner hW hn g hg
    by_cases happlied : g ∈ nv.applied
    · exact .inl happlied
    · refine .inr ?_
      by_cases hheld : g ∈ nv.held
      · exact h.applied g hgW hheld happlied
      · exact h.kept g hgW hheld

/-- `wait_caught_up` is the only step of a failover that reads a status. -/
theorem Story.Chooses.statusViews_ready (h : st.Chooses cfg t past W nv) :
    statusViews W (st.ready cfg t W) = statusViews W st.reads := by
  have hopening : statusViews W st.opening = [] := by
    refine List.filterMap_eq_nil_iff.mpr fun e he => ?_
    rcases h.opening e he with ⟨p, ns, s, rfl, -⟩ | ⟨p, ns, a, rfl⟩
    · rfl
    · rfl
  unfold Story.ready Story.chosen Story.started
  simp only [statusViews_append, hopening]
  split <;> simp [statusViews]

end

section
variable {cfg : Config} {cond : Pool sig → Move sig → Pool sig → Prop} {p : Pool sig}
  {l l' : List Step} {t : Nat} {s : Ctl} {W : Node}

/-- When a failover posts /promote, the promotion is lossless if and only if the winner has
lost nothing since the choice. -/
theorem lossless_iff (hmode : cfg.mode = .dbguard) (h : Runs cfg cond p)
    (hlog : p.world.log = l ++ .issued t .tick (.promote W) s :: l')
    (hop : s.op = some .failover) :
    ∃ old vs nv, s.primary = some old ∧ freshReads (own t l) = [vs] ∧
      (statusViews W (own t l)).getLast? = some nv ∧ CaughtUp cfg none nv ∧
      ∀ tails, Lossless old tails vs nv ↔ Retained old W tails vs nv := by
  obtain ⟨st, past, nv, a, hst, hown, hlead, -⟩ := chronicle_checked hmode h l _ l' hlog hop
  rw [hown]
  refine ⟨st.old, st.views, nv, hlead.primary, hst.freshReads_ready, ?_, hst.caughtUp,
    Story.lossless_iff_retained hst.winner⟩
  rw [hst.statusViews_ready]
  exact hst.reads.last

end

/-- `b` holds `u:1-8` with `u:6-8` in its relay log and `c` has applied `u:1-6`. The mysqld of
`b` restarts after the choice and loses its relay log. -/
def forgetful : List (Move sig) :=
  let held := fun n => if n = "b" then orphanStatus 5 8 else
    if n = "c" then orphanStatus 6 6 else down
  let restarted := fun n => if n = "b" then orphanStatus 5 0 else held n
  untilFailover orphaned ++
  [.answer 3 (succeed false orphaned), .answer 3 (succeed false held),
   .answer 3 (succeed false restarted), .answer 3 (succeed false restarted), .start 4,
   .answer 4 (succeed false restarted), .wake 3]

/-- `u:6`. -/
def sixth : Gtid := (("u", ""), 6)

/-- A run in which `b` is promoted without a transaction that `c` has shown. -/
theorem promote_of_forgetful : ∃ p l s, Runs fleet (fun _ _ _ => True) p ∧
    p.world.log = l ++ .issued 3 .tick (.promote "b") s :: [] ∧
      s.primary = some "a" ∧ s.op = some .failover ∧
        ∀ vs nv, freshReads (own 3 l) = [vs] → (statusViews "b" (own 3 l)).getLast? = some nv →
          "c" ∈ (choiceOf "a" vs).candidates ∧ sixth ∈ (vs.view "c").held ∧ sixth ∉ nv.applied := by
  obtain ⟨p, l, e, hp, hlog, hshows⟩ := exists_last fleet forgetful
    (asked 3 (.promote "b") fun l j s => j = .tick && s.primary = some "a" &&
      s.op = some .failover && ((freshReads (own 3 l)).all fun vs =>
        "c" ∈ (choiceOf "a" vs).candidates && sixth ∈ (vs.view "c").held) &&
        (statusViews "b" (own 3 l)).getLast?.all fun nv => sixth ∉ nv.applied)
    (by decide +kernel)
  obtain ⟨j, s, rfl, hshown⟩ := of_asked hshows
  simp only [Bool.and_eq_true, decide_eq_true_eq, List.all_eq_true, Option.all_eq_true]
    at hshown
  obtain ⟨⟨⟨⟨rfl, hprimary⟩, hop⟩, hread⟩, hlast⟩ := hshown
  refine ⟨p, l, s, hp, hlog, hprimary, hop, fun vs nv hvs hnv => ?_⟩
  obtain ⟨hcand, hheld⟩ := hread vs (by rw [hvs]; exact List.mem_singleton.mpr rfl)
  exact ⟨hcand, hheld, hlast nv hnv⟩

/-- The iff at the run of `forgetful`. -/
theorem lossless_iff_forgetful : ∃ l vs nv, freshReads (own 3 l) = [vs] ∧
    (statusViews "b" (own 3 l)).getLast? = some nv ∧
      ∀ tails, Lossless "a" tails vs nv ↔ Retained "a" "b" tails vs nv := by
  obtain ⟨p, l, s, hp, hlog, hprimary, hop, -⟩ := promote_of_forgetful
  obtain ⟨old, vs, nv, hold, hread, hlast, -, hiff⟩ := lossless_iff rfl hp hlog hop
  obtain rfl : old = "a" := Option.some.inj (hold.symm.trans hprimary)
  exact ⟨l, vs, nv, hread, hlast, hiff⟩

/-- A failover promotes `b` without `u:6`, which `c` has applied. -/
theorem promotion_loses : ∃ p l s, Runs fleet (fun _ _ _ => True) p ∧
    p.world.log = l ++ .issued 3 .tick (.promote "b") s :: [] ∧
      s.primary = some "a" ∧ s.op = some .failover ∧ fleet.mode = .dbguard ∧
        ∀ vs nv, freshReads (own 3 l) = [vs] → (statusViews "b" (own 3 l)).getLast? = some nv →
          ¬Lossless "a" (fun _ => .empty) vs nv := by
  obtain ⟨p, l, s, hp, hlog, hprimary, hop, hshows⟩ := promote_of_forgetful
  refine ⟨p, l, s, hp, hlog, hprimary, hop, rfl, fun vs nv hvs hnv hloss => ?_⟩
  obtain ⟨hcand, hheld, hlost⟩ := hshows vs nv hvs hnv
  rcases hloss "c" hcand sixth hheld with happlied | htail
  · exact hlost happlied
  · exact GtidSet.not_mem_empty sixth (htail "c" hcand hheld)

/-! ### How a failover ends -/

/-- A condition on a step: the answer that it gives to a failover's fence can be read. -/
def readableFence (p : Pool sig) (m : Move sig) : Bool :=
  match m with
  | .answer t f =>
    match p.world.jobs[t]?, p.progs t with
    | some (.fence _), some (.await (.fence n) _) => Readable (f (.fence n))
    | _, _ => true
  | _ => true

/-- A condition on a step: it is not the second POST of a failover's /promote, which the client
sends when the first one was answered with a lost MySQL link. -/
def keptLink (p : Pool sig) (m : Move sig) : Bool :=
  match m with
  | .resend _ (.promote _) => p.world.state.op ≠ some .failover
  | _ => true

/-- Both conditions. -/
def plainlyAnswered (p : Pool sig) (m : Move sig) (_ : Pool sig) : Bool :=
  readableFence p m && keptLink p m

/-- The step posts a /promote of `n` for the tick `t` in state `s`, the first or the second
time. -/
inductive PostsPromote (t : Nat) : Step → Node → Ctl → Prop
  | first (n : Node) (s : Ctl) : PostsPromote t (.issued t .tick (.promote n) s) n s
  | again (n : Node) (s : Ctl) : PostsPromote t (.resent t (.promote n) s) n s

/-- The answers that the condition is about. -/
def FenceReadable : (j : Job) → (r : Req) → r.Resp → Prop
  | .fence _, .fence _, a => Readable a = true
  | _, _, _ => True

section
variable {cfg : Config} {p : Pool sig} {l l' : List Step} {t f : Nat} {s : Ctl} {W old : Node}

/-- What the log says of the tasks of a run with readable fences. -/
theorem recorded_of_readable (h : Runs cfg (fun p m p' => plainlyAnswered p m p' = true) p) :
    Recorded (S := sig) FenceReadable p.world := by
  refine Reach.recorded (fun p t f p' j r k ho hj hp => ?_)
    ⟨fun _ _ _ hc => absurd hc List.not_mem_nil, fun _ _ _ ha => absurd ha List.not_mem_nil⟩ h
  have hread : readableFence p (.answer t f) = true := ((Bool.and_eq_true _ _).mp ho.2).1
  simp only [readableFence, hj, hp] at hread
  unfold FenceReadable
  split
  · exact hread
  · trivial

/-- The fence of a failover is answered readably. -/
theorem readable_of_created (h : Runs cfg (fun p m p' => plainlyAnswered p m p' = true) p)
    (hlog : p.world.log = l ++ l') (hc : .created t (.fence old) f ∈ own t l) :
    ∀ a, .answered f (.fence old) a ∈ l → Readable a = true := by
  intro a ha
  have hrec := recorded_of_readable h
  have hmem : ∀ e ∈ l, e ∈ p.world.log := fun e he => by
    rw [hlog]
    exact List.mem_append_left _ he
  have hjob := hrec.created _ _ _ (hmem _ (Coop.mem_of_mem_own hc))
  obtain ⟨j, hj, hA⟩ := hrec.answers _ _ _ (hmem _ ha)
  obtain rfl : j = .fence old := Option.some.inj (hj.symm.trans hjob)
  exact hA

/-- Nothing before /promote posts one. -/
theorem Story.Chooses.no_promote {st : Story} {past : List Event} {nv : NodeView}
    (h : st.Chooses cfg t past W nv) (n : Node) (s₀ : Ctl) :
    .issued t .tick (.promote n) s₀ ∉ st.ready cfg t W := by
  intro hmem
  have hopening : .issued t .tick (.promote n) s₀ ∉ st.opening := fun he => by
    rcases h.opening _ he with ⟨p, ns, s, heq, -⟩ | ⟨p, ns, a, heq⟩
    · cases heq
    · cases heq
  have hreads : .issued t .tick (.promote n) s₀ ∉ st.reads := fun he => by
    obtain ⟨r, hr, ⟨s, heq⟩ | ⟨a, heq⟩⟩ := h.reads.steps _ he
    · injection heq with _ _ hreq
      rcases hr with rfl | rfl | rfl <;> cases hreq
    · cases heq
  unfold Story.ready Story.chosen Story.started at hmem
  split at hmem <;> simp [hopening, hreads] at hmem

/-- No /promote of a failover is posted again. -/
theorem kept_of_resent (h : Runs cfg (fun p m p' => plainlyAnswered p m p' = true) p)
    (hlog : p.world.log = l ++ .resent t (.promote W) s :: l') : s.op ≠ some .failover := by
  have hkept := Coop.Reach.resent
    (P := fun (_ : List Step) _ (r : Req) (s : Ctl) => ∀ n, r = .promote n → s.op ≠ some .failover)
    (fun p t r p' _ ho n hr => by
      subst hr
      have hlink := ((Bool.and_eq_true _ _).mp ho.2).2
      simpa [keptLink] using hlink) h
  exact hkept l _ l' hlog t _ s rfl W rfl

/-- A tick that has issued no /promote has posted none, neither the first nor the second time. -/
theorem not_postsPromote (h : Runs cfg (fun p m p' => plainlyAnswered p m p' = true) p)
    {r : Req} (hlog : p.world.log = l ++ .issued t .tick r s :: l')
    (hnone : ∀ n s₀, .issued t .tick (.promote n) s₀ ∉ own t l) :
    ∀ e ∈ l, ∀ n s₀, ¬PostsPromote t e n s₀ := by
  have hissued : ∀ n s₀, .issued t .tick (.promote n) s₀ ∉ l := fun n s₀ he =>
    hnone n s₀ (List.mem_filter.mpr ⟨he, by simp [Coop.Event.isBy]⟩)
  rintro e he n s₀ (_ | _)
  · exact hissued n s₀ he
  · obtain ⟨-, tr, -, hdialog⟩ := traced_of_runs h l _ l' hlog
    obtain ⟨l₁, l₂, rfl⟩ := List.append_of_mem he
    obtain ⟨j, q, -, s₁, -, m₁, m₂, rfl, hq, -⟩ := resent_of_runs h
      (by rw [hlog, List.append_assoc, List.cons_append])
    cases q with
    | promote k =>
        -- The job of the task is a tick's.
        have hmem : (.issued t j (.promote k) s₁ : Step) ∈ dialog t
            (m₁ ++ .issued t j (.promote k) s₁ :: m₂ ++ .resent t (.promote n) s₀ :: l₂) :=
          List.mem_filter.mpr ⟨by simp, by simp [Coop.Event.isCallOf]⟩
        rw [hdialog] at hmem
        obtain ⟨rfl, -⟩ := Coop.call_of_issued hmem
        exact hissued k s₁ (by simp)
    | _ => cases hq

/-- In every run in which the answer of each failover's fence can be read and no /promote of a
failover meets a lost link, a failover posts /promote at most once, not to the old primary, and
after the /fence was answered, and it ends in one of its two outcomes. -/
theorem failover_ends (hmode : cfg.mode = .dbguard)
    (h : Runs cfg (fun p m p' => plainlyAnswered p m p' = true) p) :
    (∀ l l' t W s e, p.world.log = l ++ e :: l' → PostsPromote t e W s →
      s.op = some .failover →
        ∃ old, s.primary = some old ∧ W ≠ old ∧ fenceAnswered old (own t l) l = true ∧
          ∀ e' ∈ l, ∀ n s₀, ¬PostsPromote t e' n s₀) ∧
    (∀ l l' t s old f, p.world.log = l ++ .finished t s :: l' →
      .created t (.fence old) f ∈ own t l →
        ∃ past : List Event,
          (∀ r s₀, .issued t .tick r s₀ ∈ own t l → s₀.lock.owner = some t →
            s₀.failovers = past ∧ s₀.primary = some old) ∧
          Outcome t old past (own t l) s) := by
  -- The chronicle has recorded, before each promote and each end, what led to it.
  have hchecked := chronicle_checked hmode h
  constructor
  -- The promote that is posted: its story tells of the answered fence.
  · rintro l l' t W s e hlog (_ | _) hop
    · obtain ⟨st, past, nv, a, hst, hown, hlead, hfence⟩ := hchecked l _ l' hlog hop
      -- The winner is not the old primary.
      refine ⟨st.old, hlead.primary, ?_, ?_, not_postsPromote h hlog ?_⟩
      · obtain ⟨w, -, -, hne, -⟩ := choose_winner hst.winner
        exact fun heq => hne (congrArg some heq)
      · rw [hown]
        unfold fenceAnswered fenceAnswer
        rw [hst.fenceTasks_ready]
        simp only [List.any_cons, List.any_nil, Bool.or_false, List.any_eq_true]
        exact ⟨_, hfence, by simp⟩
      -- The story has no other promote.
      · rw [hown]
        exact fun n s₀ => hst.no_promote n s₀
    -- A request sent again is no promote of a failover.
    · exact absurd hop (kept_of_resent h hlog)
  · intro l l' t s old f hlog hc
    obtain ⟨past, hled, hout⟩ := hchecked l _ l' hlog old f hc
    exact ⟨past, hled, hout (readable_of_created h hlog hc)⟩

end

/-- A failover up to its wait for the fence, whose answer is `a`. -/
def fencedBy (a : Except AgentError FenceBody) : List (Move sig) :=
  let answer : (r : Req) → r.Resp
    | .fence _ => a
    | r => succeed false orphaned r
  untilFailover orphaned ++
  [.answer 3 answer, .answer 3 answer, .answer 3 answer, .answer 3 answer, .start 4,
   .answer 4 answer, .wake 3]

/-- A failover with a readable fence ends with its winner. -/
theorem failover_ends_fenced : ∃ (l : List Step) (s : Ctl) (past : List Event),
    s.primary = some "b" ∧ Outcome 3 "a" past (own 3 l) s := by
  obtain ⟨p, l, e, hp, hlog, hshows⟩ := exists_last_of fleet plainlyAnswered
    (fencedBy (.ok { method := some "sql", gtidExecuted := upTo 5 }) ++
      [.answer 3 (succeed false orphaned)])
    (ended 3 fun l s => s.primary = some "b" && (own 3 l).any (creates 3 (.fence "a") 4))
    (by decide +kernel)
  obtain ⟨s, rfl, hshown⟩ := of_ended hshows
  simp only [Bool.and_eq_true, decide_eq_true_eq, List.any_eq_true] at hshown
  obtain ⟨hprimary, e, he, hcreates⟩ := hshown
  obtain rfl := of_creates hcreates
  obtain ⟨past, -, hout⟩ := (failover_ends rfl hp).2 l [] 3 s "a" 4 hlog he
  exact ⟨l, s, past, hprimary, hout⟩

/-- A failover whose fence answers a gtid_executed that is no GTID set ends without an
outcome: no failover event, and the set is neither HALTED nor failed over. -/
theorem failover_ends_nowhere : ∃ p l s, Runs fleet (fun _ _ _ => True) p ∧
    p.world.log = l ++ .finished 3 s :: [] ∧ fleet.mode = .dbguard ∧
      (.created 3 (.fence "a") 4 : Step) ∈ own 3 l ∧
        s.st.state = .failingOver ∧ ∀ past, ¬Outcome 3 "a" past (own 3 l) s := by
  obtain ⟨p, l, e, hp, hlog, hshows⟩ := exists_last fleet
    (fencedBy (.ok { method := some "sql", gtidExecuted := some (.malformed "?") }))
    (ended 3 fun l s => s.st.state = .failingOver && s.failovers = [] &&
      (own 3 l).any (creates 3 (.fence "a") 4)) (by decide +kernel)
  obtain ⟨s, rfl, hshown⟩ := of_ended hshows
  simp only [Bool.and_eq_true, decide_eq_true_eq, List.any_eq_true] at hshown
  obtain ⟨⟨hstate, hnone⟩, e, he, hcreates⟩ := hshown
  obtain rfl := of_creates hcreates
  refine ⟨p, l, s, hp, hlog, rfl, he, hstate, fun past hout => ?_⟩
  obtain ⟨ev, hpast, -⟩ := hout
  rw [hnone] at hpast
  simp at hpast

end DbGuard
