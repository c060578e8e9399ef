import DbGuard.Coop.Record
import DbGuard.Proofs.FailoverRun
import DbGuard.Proofs.Requests
import DbGuard.Proofs.Script

/-!
# `DbGuard.Proofs.FailoverSafety`: what a failover guarantees

The guarantees of a dbguard-mode failover, read off its story: which candidates can still
receive transactions while they are compared (`candidates_quiet_iff`), and which replicas can
still acknowledge for the old primary when the winner is promoted (`no_acknowledgement_iff`).

Each holds at a moment if and only if something is true of the answers that the failover
got. What a task has done by a moment is read from its own steps in the log, by the functions
of the first section.
-/

set_option autoImplicit false

namespace DbGuard

open Coop (Prog Pool Move Reach Recorded World own dialog Checked)

/-! ### What the steps of a task show -/

/-- The fence tasks for `old` that a step has created. -/
def Step.fenceTask (old : Node) : Step → Option Nat
  | .created _ (.fence n) f => if n = old then some f else none
  | _ => none

/-- The fence tasks for `old` that a task has created. -/
def fenceTasks (old : Node) (L : List Step) : List Nat := L.filterMap (Step.fenceTask old)

/-- Whether the fence of `old` has a result in state `s`. -/
def fenceFinished (old : Node) (L : List Step) (s : Ctl) : Bool :=
  (fenceTasks old L).any fun f => (s.fenced f).isSome

/-- Whether task `f` has got an answer to its /fence that meets `p`. -/
def fenceAnswer (p : Except AgentError FenceBody → Bool) (f : Nat) (log : List Step) : Bool :=
  log.any fun
    | .answered f' (.fence _) a => f' = f && p a
    | _ => false

/-- Whether the /fence of `old` has answered, if only by a timeout. -/
def fenceAnswered (old : Node) (L log : List Step) : Bool :=
  (fenceTasks old L).any fun f => fenceAnswer (fun _ => true) f log

/-- Whether the /fence of `old` has succeeded. -/
def fenceSucceeded (old : Node) (L log : List Step) : Bool :=
  (fenceTasks old L).any fun f => fenceAnswer Except.toBool f log

/-- The views that a step has read afresh. -/
def Step.freshRead : Step → Option Views
  | .answered _ (.freshViews ns) a => some (.ofAnswers ns a)
  | _ => none

/-- The views that a task has read afresh. -/
def freshReads (L : List Step) : List Views := L.filterMap Step.freshRead

/-- Whether the IO thread of node `n` was stopped by a step. -/
def Step.ioStopped (n : Node) : Step → Bool
  | .answered _ (.stopIo ns) a => n ∈ ns && (a n).isNone
  | _ => false

/-- Whether a task has stopped the IO thread of node `n`. -/
def ioStopped (L : List Step) (n : Node) : Bool := L.any (Step.ioStopped n)

/-- Whether node `n` was repointed to `W` by a step. -/
def Step.repointed (W n : Node) : Step → Bool
  | .answered _ (.repointAll ns source) a => source = W && n ∈ ns && (a n).toBool
  | _ => false

/-- Whether a task has repointed node `n` to `W`. -/
def repointedTo (L : List Step) (W n : Node) : Bool := L.any (Step.repointed W n)

/-- Whether the last poll saw node `n` answer as a replica. -/
def polledReplica (s : Ctl) (n : Node) : Bool :=
  (((s.lastObs.map Observation.nodes).getD Views.empty).get? n).any fun nv =>
    nv.usable && nv.replica.configured

/-- The choice of a failover of `old` from fresh views. -/
def choiceOf (old : Node) (vs : Views) : Choice :=
  choose (vs.keys.map vs.view) .dbguard (some old)

/-! ### The steps of a story -/

section
variable {st : Story} {cfg : Config} {t : Nat} {past : List Event} {W : Node} {nv : NodeView}
  {l l' : List Step} {s : Ctl} {n : Node}

/-- A poll shows nothing of this. -/
theorem Step.IsPoll.shows {e : Step} (h : Step.IsPoll t e) :
    e.fenceTask n = none ∧ e.freshRead = none ∧ e.ioStopped n = false ∧
      e.repointed W n = false := by
  rcases h with ⟨p, ns, s, rfl, -⟩ | ⟨p, ns, a, rfl⟩
  · exact ⟨rfl, rfl, rfl, rfl⟩
  · exact ⟨rfl, rfl, rfl, rfl⟩

/-- Neither does a step of `wait_caught_up`. -/
theorem Step.IsRead.shows {e : Step} (h : Step.IsRead t .tick W e) :
    e.fenceTask n = none ∧ e.freshRead = none ∧ e.ioStopped n = false ∧
      e.repointed W n = false := by
  obtain ⟨r, hr, ⟨s, rfl⟩ | ⟨a, rfl⟩⟩ := h
  · exact ⟨rfl, rfl, rfl, rfl⟩
  · rcases hr with rfl | rfl | rfl
    · exact ⟨rfl, rfl, rfl, rfl⟩
    · exact ⟨rfl, rfl, rfl, rfl⟩
    · exact ⟨rfl, rfl, rfl, rfl⟩

/-- The failover stops the others that were polled as replicas. -/
theorem Story.mem_stops : n ∈ st.stops ↔ n ∈ st.others ∧ polledReplica st.atStop n = true :=
  List.mem_filter

/-- At its start it has one fence. -/
theorem Story.Starts.fenceTasks_started (h : st.Starts cfg t past) :
    fenceTasks st.old (st.started cfg t) = [st.fenceTask] := by
  have hopening : st.opening.filterMap (Step.fenceTask st.old) = [] :=
    List.filterMap_eq_nil_iff.mpr fun e he => ((h.opening e he).shows (W := st.old)).1
  unfold fenceTasks Story.started
  rw [List.filterMap_append, hopening]
  split <;> simp [Step.fenceTask]

/-- Then the stopped nodes are those whose stop succeeded. -/
theorem Story.Starts.ioStopped_started (h : st.Starts cfg t past) (hstop : cfg.canStopIo = true) :
    ioStopped (st.started cfg t) n = true ↔ n ∈ st.stops ∧ st.stop n = none := by
  have hopening : st.opening.any (Step.ioStopped n) = false :=
    List.any_eq_false.mpr fun e he => by
      rw [((h.opening e he).shows (W := st.old)).2.2.1]
      exact Bool.false_ne_true
  unfold ioStopped Story.started
  rw [List.any_append, hopening, if_pos hstop]
  simp [Step.ioStopped]

/-- The steps from the choice to /promote create no fence task. -/
theorem Story.Chooses.fenceTasks_ready (h : st.Chooses cfg t past W nv) :
    fenceTasks st.old (st.ready cfg t W) = [st.fenceTask] := by
  have hreads : fenceTasks st.old st.reads = [] :=
    List.filterMap_eq_nil_iff.mpr fun e he => ((h.reads.steps e he).shows).1
  have hstarted := h.fenceTasks_started
  unfold fenceTasks at hreads hstarted ⊢
  unfold Story.ready Story.chosen
  simp only [List.filterMap_append, hstarted, hreads]
  rfl

/-- The failover has read afresh once. -/
theorem Story.Chooses.freshReads_ready (h : st.Chooses cfg t past W nv) :
    freshReads (st.ready cfg t W) = [st.views] := by
  have hopening : freshReads st.opening = [] :=
    List.filterMap_eq_nil_iff.mpr fun e he => ((h.opening e he).shows (W := W) (n := W)).2.1
  have hreads : freshReads st.reads = [] :=
    List.filterMap_eq_nil_iff.mpr fun e he => ((h.reads.steps e he).shows (n := W)).2.1
  unfold freshReads at hopening hreads ⊢
  unfold Story.ready Story.chosen Story.started
  simp only [List.filterMap_append, hopening, hreads]
  split <;> rfl

/-- No IO thread is stopped after the choice. -/
theorem Story.Chooses.ioStopped_ready (h : st.Chooses cfg t past W nv)
    (hstop : cfg.canStopIo = true) :
    ioStopped (st.ready cfg t W) n = true ↔ n ∈ st.stops ∧ st.stop n = none := by
  rw [← h.ioStopped_started hstop]
  have hreads : ioStopped st.reads n = false :=
    List.any_eq_false.mpr fun e he => by
      rw [((h.reads.steps e he).shows).2.2.1]
      exact Bool.false_ne_true
  unfold ioStopped at hreads ⊢
  unfold Story.ready Story.chosen
  simp only [List.any_append, hreads]
  simp [Step.ioStopped]

/-- What was repointed before /promote. -/
theorem Story.Chooses.repointed_ready (h : st.Chooses cfg t past W nv) :
    repointedTo (st.ready cfg t W) W n = true ↔
      n ∈ st.targets W ∧ (st.repointed n).toBool = true := by
  have hopening : st.opening.any (Step.repointed W n) = false :=
    List.any_eq_false.mpr fun e he => by
      rw [((h.opening e he).shows).2.2.2]
      exact Bool.false_ne_true
  have hreads : st.reads.any (Step.repointed W n) = false :=
    List.any_eq_false.mpr fun e he => by
      rw [((h.reads.steps e he).shows).2.2.2]
      exact Bool.false_ne_true
  unfold repointedTo Story.ready Story.chosen Story.started
  simp only [List.any_append, hopening, hreads]
  split <;> simp [Step.repointed]

/-- In a node that may be promoted, nothing arrives after its IO thread was stopped. It was
stopped when the last poll saw the node as a replica, unless the failover waited for the
fence. -/
theorem Story.Starts.quiet_iff (h : st.Starts cfg t past) (hstop : cfg.canStopIo = true)
    (hn : n ∈ st.others) :
    (ioStopped (st.started cfg t) n = true ∨
        fenceFinished st.old (st.started cfg t) st.atRead = true) ↔
      (polledReplica st.atStop n = true ∨
        fenceFinished st.old (st.started cfg t) st.atRead = true) := by
  have hfinished : fenceFinished st.old (st.started cfg t) st.atRead =
      (st.atRead.fenced st.fenceTask).isSome := by
    unfold fenceFinished
    rw [h.fenceTasks_started]
    simp
  rw [h.ioStopped_started hstop, Story.mem_stops, hfinished]
  constructor
  · rintro (⟨⟨-, hpolled⟩, -⟩ | hfence)
    · exact .inl hpolled
    · exact .inr hfence
  · rintro (hpolled | hfence)
    · by_cases hnone : st.stop n = none
      · exact .inl ⟨⟨hn, hpolled⟩, hnone⟩
      · exact .inr (h.waited hstop n (Story.mem_stops.mpr ⟨hn, hpolled⟩) hnone)
    · exact .inr hfence

end

/-! ### The candidates receive nothing more -/

/-- Each node that may be promoted had its IO thread stopped, or the fence of the old primary
has finished. -/
def CandidatesQuiet (old : Node) (L : List Step) (s : Ctl) (vs : Views) : Prop :=
  ∀ n ∈ (choiceOf old vs).candidates, ioStopped L n = true ∨ fenceFinished old L s = true

instance (old : Node) (L : List Step) (s : Ctl) (vs : Views) :
    Decidable (CandidatesQuiet old L s vs) :=
  inferInstanceAs (Decidable (∀ n ∈ (choiceOf old vs).candidates, _ ∨ _))

/-- A candidate is one of the nodes that were read. -/
theorem mem_keys_of_candidate {old n : Node} {ns : List Node}
    {a : Node → Except String StatusBody}
    (h : n ∈ (choiceOf old (.ofAnswers ns a)).candidates) : n ∈ ns := by
  obtain ⟨nv, hnv, hname, -⟩ := mem_candidates h
  obtain ⟨m, hm, rfl⟩ := List.mem_map.mp hnv
  have hmn : m = n := by simpa using hname
  exact hmn ▸ hm

section
variable {cfg : Config} {cond : Pool sig → Move sig → Pool sig → Prop} {p : Pool sig}
  {l l' : List Step} {t : Nat} {s : Ctl}

/-- When a failover reads the fresh views, every candidate is quiet if and only if each of
them answered as a replica in the last poll, or the fence has finished. -/
theorem candidates_quiet_iff {ns : List Node} (hmode : cfg.mode = .dbguard)
    (hstop : cfg.canStopIo = true) (h : Runs cfg cond p)
    (hlog : p.world.log = l ++ .issued t .tick (.freshViews ns) s :: l') :
    ∃ old s', s.primary = some old ∧ ns = s'.members.filter (· ≠ old) ∧
      .issued t .tick (.stopIo (ns.filter (polledReplica s'))) s' ∈ own t l ∧
      ∀ a, CandidatesQuiet old (own t l) s (.ofAnswers ns a) ↔
        ∀ n ∈ (choiceOf old (.ofAnswers ns a)).candidates,
          polledReplica s' n = true ∨ fenceFinished old (own t l) s = true := by
  obtain ⟨st, past, hst, hown, rfl, rfl⟩ := chronicle_checked hmode h l _ l' hlog
  rw [hown]
  refine ⟨st.old, st.atStop, hst.atRead.primary, rfl, ?_, fun a => ?_⟩
  · show .issued t .tick (.stopIo st.stops) st.atStop ∈ st.started cfg t
    unfold Story.started
    rw [if_pos hstop]
    simp
  · refine forall_congr' fun n => forall_congr' fun hn => ?_
    exact hst.quiet_iff hstop (mem_keys_of_candidate hn)

end

/-- `c` does not answer the last poll before the failover. Its agent is back before the fresh
read, and the fence is still out. -/
def returning : List (Move sig) :=
  untilFailover (fun n => if n = "b" then orphanStatus 5 5 else down) ++
  [.answer 3 (succeed false orphaned)]

/-- A run in which the candidates are not quiet at the fresh read. -/
theorem freshRead_of_returning : ∃ p l s, Runs fleet (fun _ _ _ => True) p ∧
    p.world.log = l ++ .issued 3 .tick (.freshViews ["b", "c"]) s :: [] ∧
    s.primary = some "a" ∧
    ¬CandidatesQuiet "a" (own 3 l) s (.ofAnswers ["b", "c"] orphaned) := by
  obtain ⟨p, l, e, hp, hlog, hshows⟩ := exists_last fleet returning
    (asked 3 (.freshViews ["b", "c"]) fun l j s => j = .tick && s.primary = some "a" &&
      !decide (CandidatesQuiet "a" (own 3 l) s (.ofAnswers ["b", "c"] orphaned)))
    (by decide +kernel)
  obtain ⟨j, s, rfl, hshown⟩ := of_asked hshows
  simp only [Bool.and_eq_true, decide_eq_true_eq, Bool.not_eq_true', decide_eq_false_iff_not]
    at hshown
  obtain ⟨⟨rfl, hprimary⟩, hquiet⟩ := hshown
  exact ⟨p, l, s, hp, hlog, hprimary, hquiet⟩

/-- The iff at the run of `returning`. -/
theorem candidates_quiet_iff_returning : ∃ l s s',
    .issued 3 .tick (.stopIo (["b", "c"].filter (polledReplica s'))) s' ∈ own 3 l ∧
      (CandidatesQuiet "a" (own 3 l) s (.ofAnswers ["b", "c"] orphaned) ↔
        ∀ n ∈ (choiceOf "a" (.ofAnswers ["b", "c"] orphaned)).candidates,
          polledReplica s' n = true ∨ fenceFinished "a" (own 3 l) s = true) := by
  obtain ⟨p, l, s, hp, hlog, hprimary, -⟩ := freshRead_of_returning
  obtain ⟨old, s', hold, -, hstop, hiff⟩ := candidates_quiet_iff rfl rfl hp hlog
  obtain rfl : old = "a" := Option.some.inj (hold.symm.trans hprimary)
  exact ⟨l, s, s', hstop, hiff orphaned⟩

/-- A candidate that was away in the last poll may still receive from the old primary while
the sets are compared. -/
theorem candidate_not_quiet : ∃ p l s, Runs fleet (fun _ _ _ => True) p ∧
    p.world.log = l ++ .issued 3 .tick (.freshViews ["b", "c"]) s :: [] ∧
      s.primary = some "a" ∧ fleet.mode = .dbguard ∧ fleet.canStopIo = true ∧
        ¬CandidatesQuiet "a" (own 3 l) s (.ofAnswers ["b", "c"] orphaned) := by
  obtain ⟨p, l, s, hp, hlog, hprimary, hquiet⟩ := freshRead_of_returning
  exact ⟨p, l, s, hp, hlog, hprimary, rfl, rfl, hquiet⟩

/-! ### Nobody acknowledges for the old primary -/

/-- When `W` is promoted, the fence of the old primary has succeeded, or each other node that
answered the fresh read has had its IO thread stopped or was repointed to `W`. -/
def NoAcknowledgement (old W : Node) (L log : List Step) (vs : Views) : Prop :=
  fenceSucceeded old L log = true ∨
    ∀ n ∈ vs.keys, n ≠ W → (vs.view n).usable = true →
      ioStopped L n = true ∨ repointedTo L W n = true

instance (old W : Node) (L log : List Step) (vs : Views) :
    Decidable (NoAcknowledgement old W L log vs) :=
  inferInstanceAs (Decidable (_ ∨ ∀ n ∈ vs.keys, n ≠ W → (vs.view n).usable = true → _ ∨ _))

/-- How the answers leave node `n` with the old primary. `seen` says that the last poll showed
it as a replica, `stop` is the answer to its IO stop and `moved` the one to its /repoint. -/
inductive Exposed (seen : Bool) (stop : Option ErrorText) (moved : Except AgentError Unit) : Prop
  -- No IO stop is sent.
  | unseen (hseen : seen = false) (hmoved : moved.toBool = false)
  -- The code waits for the fence, however it ends.
  | refused (hstop : stop ≠ none) (hmoved : moved.toBool = false)

/-- A replica is not exposed if it was seen and stopped, or moved. -/
theorem not_exposed_iff {seen : Bool} {stop : Option ErrorText}
    {moved : Except AgentError Unit} :
    ¬Exposed seen stop moved ↔ (seen = true ∧ stop = none) ∨ moved.toBool = true := by
  constructor
  · intro h
    by_cases hmoved : moved.toBool = true
    · exact .inr hmoved
    · refine .inl ⟨?_, ?_⟩
      · by_contra hseen
        exact h (.unseen (Bool.eq_false_iff.mpr hseen) (Bool.eq_false_iff.mpr hmoved))
      · by_contra hstop
        exact h (.refused hstop (Bool.eq_false_iff.mpr hmoved))
  · rintro (⟨hseen, hstop⟩ | hok) (⟨hno, hmoved⟩ | ⟨hno, hmoved⟩)
    · exact Bool.false_ne_true (hno.symm.trans hseen)
    · exact hno hstop
    · exact Bool.false_ne_true (hmoved.symm.trans hok)
    · exact Bool.false_ne_true (hmoved.symm.trans hok)

section
variable {cfg : Config} {cond : Pool sig → Move sig → Pool sig → Prop} {p : Pool sig}
  {l l' : List Step} {t f : Nat} {s : Ctl} {W old : Node}

/-- A fence task asks for nothing but its /fence. -/
theorem asks_fence {n : Node} {s₀ : Ctl} {tr : List Asked} {r : Req}
    (h : (body cfg f (.fence n)).Asks s₀ tr r s) : tr = [] := by
  rcases (Prog.asks_bind _ _ _ _).mp h with h | ⟨_, _, _, _, -, -, h⟩
  · exact (Prog.asks_call.mp h).1
  · exact h.elim

/-- A fence task gets one answer. -/
theorem fenceAnswer_unique (h : Runs cfg cond p) (hjob : p.world.jobs[f]? = some (.fence old))
    {n n' : Node} {a a' : Except AgentError FenceBody}
    (ha : .answered f (.fence n) a ∈ p.world.log)
    (ha' : .answered f (.fence n') a' ∈ p.world.log) : a = a' := by
  -- After a first answer it asks for nothing.
  have hlast : ∀ (X Y Z : List Step) (m m' : Node) (b b' : Except AgentError FenceBody),
      dialog f p.world.log ≠
        X ++ .answered f (.fence m) b :: (Y ++ .answered f (.fence m') b' :: Z) := by
    intro X Y Z m m' b b' hsplit
    obtain ⟨j, s₀, tr, s', hj, hasks, c, hc, -⟩ := Coop.Reach.asks_after h hsplit
    obtain rfl : j = .fence old := Option.some.inj (hj.symm.trans hjob)
    rw [asks_fence hasks] at hc
    exact List.not_mem_nil hc
  have hmem : ∀ {m : Node} {b : Except AgentError FenceBody},
      .answered f (.fence m) b ∈ p.world.log →
        (.answered f (.fence m) b : Step) ∈ dialog f p.world.log := fun hb =>
    List.mem_filter.mpr ⟨hb, by simp [Coop.Event.isCallOf]⟩
  obtain ⟨X, Y, hX⟩ := List.append_of_mem (hmem ha)
  have hin := hmem ha'
  rw [hX] at hin
  rcases List.mem_append.mp hin with hin | hin
  · obtain ⟨X₁, X₂, rfl⟩ := List.append_of_mem hin
    exact (hlast X₁ X₂ Y n' n a' a (by rw [hX, List.append_assoc, List.cons_append])).elim
  · rcases List.mem_cons.mp hin with heq | hin
    · cases heq
      rfl
    · obtain ⟨Y₁, Y₂, rfl⟩ := List.append_of_mem hin
      exact (hlast X Y₁ Y₂ n n' a a' hX).elim

/-- Whether a failover's fence succeeded is in its one answer. -/
theorem fenceSucceeded_eq (h : Runs cfg cond p) (hlog : p.world.log = l ++ l')
    (htasks : fenceTasks old (own t l) = [f]) (hcreated : .created t (.fence old) f ∈ own t l)
    {a : Except AgentError FenceBody} (ha : .answered f (.fence old) a ∈ l) :
    fenceSucceeded old (own t l) l = a.toBool := by
  have hrecorded : Recorded (S := sig) (fun _ _ _ => True) p.world :=
    Reach.recorded (fun _ _ _ _ _ _ _ _ _ _ => trivial)
      ⟨fun _ _ _ hc => absurd hc List.not_mem_nil, fun _ _ _ hx => absurd hx List.not_mem_nil⟩ h
  have hsub : ∀ e ∈ l, e ∈ p.world.log := fun e he => hlog ▸ List.mem_append_left _ he
  have hjob := hrecorded.created _ _ _ (hsub _ (Coop.mem_of_mem_own hcreated))
  unfold fenceSucceeded fenceAnswer
  rw [htasks, List.any_cons, List.any_nil, Bool.or_false, Bool.eq_iff_iff, List.any_eq_true]
  constructor
  · rintro ⟨e, he, hshows⟩
    split at hshows
    · rename_i f' n a'
      obtain ⟨hf, ha'⟩ := (Bool.and_eq_true _ _).mp hshows
      obtain rfl := of_decide_eq_true hf
      rwa [fenceAnswer_unique h hjob (hsub _ ha) (hsub _ he)]
    · cases hshows
  · exact fun hok => ⟨_, ha, by simpa using hok⟩

/-- When a failover posts /promote, its fence has one answer `fence`, and nobody can acknowledge
for the old primary if and only if this succeeded, or the answers leave no other node that
answered the fresh read with it. A refused IO stop has the fence's answer awaited before that
read, and nothing else. -/
theorem no_acknowledgement_iff (hmode : cfg.mode = .dbguard) (hstop : cfg.canStopIo = true)
    (h : Runs cfg cond p) (hlog : p.world.log = l ++ .issued t .tick (.promote W) s :: l')
    (hop : s.op = some .failover) :
    ∃ old s' sr vs f fence stop moved, s.primary = some old ∧ freshReads (own t l) = [vs] ∧
      vs.keys = s'.members.filter (· ≠ old) ∧
      .created t (.fence old) f ∈ own t l ∧ .answered f (.fence old) fence ∈ l ∧
      .issued t .tick (.stopIo (vs.keys.filter (polledReplica s'))) s' ∈ own t l ∧
      .answered t (.stopIo (vs.keys.filter (polledReplica s'))) stop ∈ own t l ∧
      .issued t .tick (.freshViews vs.keys) sr ∈ own t l ∧
      .answered t (.repointAll (vs.keys.filter fun n => n ≠ W && (vs.view n).usable) W) moved ∈
        own t l ∧
      ((∃ n ∈ vs.keys.filter (polledReplica s'), stop n ≠ none) → (sr.fenced f).isSome = true) ∧
      (NoAcknowledgement old W (own t l) l vs ↔
        fence.toBool = true ∨ ∀ n ∈ vs.keys, n ≠ W → (vs.view n).usable = true →
          ¬Exposed (polledReplica s' n) (stop n) (moved n)) := by
  obtain ⟨st, past, nv, a, hst, hown, hlead, hfence⟩ := chronicle_checked hmode h l _ l' hlog hop
  have hcreated : .created t (.fence st.old) st.fenceTask ∈ own t l := by
    rw [hown]
    unfold Story.ready Story.chosen Story.started
    simp
  have hsucceeded := fenceSucceeded_eq h hlog (by rw [hown, hst.fenceTasks_ready]) hcreated hfence
  rw [hown] at hcreated ⊢
  have hstarted : ∀ e ∈ st.started cfg t, e ∈ st.ready cfg t W := fun e he =>
    List.mem_append_left _ (List.mem_append_left _ (List.mem_append_left _ he))
  refine ⟨st.old, st.atStop, st.atRead, st.views, st.fenceTask, a, st.stop, st.repointed,
    hlead.primary, hst.freshReads_ready, rfl, hcreated, hfence, hstarted _ ?_, hstarted _ ?_, ?_,
    ?_, ?_, ?_⟩
  · show .issued t .tick (.stopIo st.stops) st.atStop ∈ st.started cfg t
    unfold Story.started
    rw [if_pos hstop]
    simp
  · show .answered t (.stopIo st.stops) st.stop ∈ st.started cfg t
    unfold Story.started
    rw [if_pos hstop]
    simp
  · show .issued t .tick (.freshViews st.others) st.atRead ∈ st.ready cfg t W
    unfold Story.ready Story.chosen
    simp
  · show .answered t (.repointAll (st.targets W) W) st.repointed ∈ st.ready cfg t W
    unfold Story.ready
    simp
  · rintro ⟨n, hn, hne⟩
    exact hst.waited hstop n hn hne
  · unfold NoAcknowledgement
    rw [← hown, hsucceeded, hown]
    refine or_congr_right ?_
    refine forall_congr' fun n => forall_congr' fun hn => forall_congr' fun hne =>
      forall_congr' fun husable => ?_
    rw [hst.ioStopped_ready hstop, hst.repointed_ready, Story.mem_stops, not_exposed_iff]
    -- A node that answered the fresh read is among those to repoint.
    have htarget : n ∈ st.targets W := by
      refine List.mem_filter.mpr ⟨hn, ?_⟩
      simp [hne, husable]
    have hothers : n ∈ st.others := hn
    constructor
    · rintro (⟨⟨-, hpolled⟩, hnone⟩ | ⟨-, hmoved⟩)
      · exact .inl ⟨hpolled, hnone⟩
      · exact .inr hmoved
    · rintro (⟨hpolled, hnone⟩ | hmoved)
      · exact .inl ⟨⟨hothers, hpolled⟩, hnone⟩
      · exact .inr ⟨htarget, hmoved⟩

end

/-- `c` refuses the IO stop and the /repoint, and the agent of `a` does not answer /fence. -/
def unprotected : List (Move sig) :=
  let refuse : (r : Req) → r.Resp
    | .stopIo _ => fun n => if n = "c" then some ⟨"OperationalError", by decide⟩ else none
    | .repointAll _ _ => fun n => if n = "c" then .error ⟨"timeout"⟩ else .ok ()
    | .fence _ => .error ⟨"timeout"⟩
    | r => succeed false orphaned r
  untilFailover orphaned ++
  [.answer 3 refuse, .start 4, .answer 4 refuse, .wake 3, .answer 3 refuse, .answer 3 refuse,
   .answer 3 refuse]

/-- A run in which `b` is promoted while an acknowledgement is possible. -/
theorem promote_of_unprotected : ∃ p l s, Runs fleet (fun _ _ _ => True) p ∧
    p.world.log = l ++ .issued 3 .tick (.promote "b") s :: [] ∧
    s.primary = some "a" ∧ s.op = some .failover ∧ freshReads (own 3 l) ≠ [] ∧
      ∀ vs ∈ freshReads (own 3 l), ¬NoAcknowledgement "a" "b" (own 3 l) l vs := by
  obtain ⟨p, l, e, hp, hlog, hshows⟩ := exists_last fleet unprotected
    (asked 3 (.promote "b") fun l j s => j = .tick && s.primary = some "a" &&
      s.op = some .failover && !(freshReads (own 3 l)).isEmpty &&
        (freshReads (own 3 l)).all fun vs => !decide (NoAcknowledgement "a" "b" (own 3 l) l vs))
    (by decide +kernel)
  obtain ⟨j, s, rfl, hshown⟩ := of_asked hshows
  simp only [Bool.and_eq_true, decide_eq_true_eq, List.all_eq_true, Bool.not_eq_true',
    decide_eq_false_iff_not, List.isEmpty_eq_false_iff] at hshown
  obtain ⟨⟨⟨⟨rfl, hprimary⟩, hop⟩, hread⟩, hack⟩ := hshown
  exact ⟨p, l, s, hp, hlog, hprimary, hop, hread, hack⟩

/-- The iff at the run of `unprotected`. -/
theorem no_acknowledgement_iff_unprotected : ∃ (l : List Step) (s' : Ctl) (vs : Views)
    (fence : Except AgentError FenceBody) (stop : Node → Option ErrorText)
    (moved : Node → Except AgentError Unit), freshReads (own 3 l) = [vs] ∧
      (NoAcknowledgement "a" "b" (own 3 l) l vs ↔
        fence.toBool = true ∨ ∀ n ∈ vs.keys, n ≠ "b" → (vs.view n).usable = true →
          ¬Exposed (polledReplica s' n) (stop n) (moved n)) := by
  obtain ⟨p, l, s, hp, hlog, hprimary, hop, -, -⟩ := promote_of_unprotected
  obtain ⟨old, s', sr, vs, f, fence, stop, moved, hold, hread, -, -, -, -, -, -, -, -, hiff⟩ :=
    no_acknowledgement_iff rfl rfl hp hlog hop
  obtain rfl : old = "a" := Option.some.inj (hold.symm.trans hprimary)
  exact ⟨l, s', vs, fence, stop, moved, hread, hiff⟩

/-- A failover promotes `b` although the old primary is not fenced and `c` may still stream
from it. -/
theorem acknowledgement_behind_promotion : ∃ p l s vs, Runs fleet (fun _ _ _ => True) p ∧
    p.world.log = l ++ .issued 3 .tick (.promote "b") s :: [] ∧
      s.primary = some "a" ∧ s.op = some .failover ∧ fleet.mode = .dbguard ∧
        fleet.canStopIo = true ∧ vs ∈ freshReads (own 3 l) ∧
          ¬NoAcknowledgement "a" "b" (own 3 l) l vs := by
  obtain ⟨p, l, s, hp, hlog, hprimary, hop, hread, hack⟩ := promote_of_unprotected
  obtain ⟨vs, hvs⟩ := List.exists_mem_of_ne_nil _ hread
  exact ⟨p, l, s, vs, hp, hlog, hprimary, hop, rfl, rfl, hvs, hack vs hvs⟩

end DbGuard
