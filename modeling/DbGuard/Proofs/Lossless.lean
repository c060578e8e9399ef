import DbGuard.Proofs.FailoverTrace
import DbGuard.Proofs.Simulation

/-!
# `DbGuard.Proofs.Lossless`: no acknowledged write is lost

The manager and the fleet together. `Phase` is how far a failover has come, by the answers of
its task, and `Holds` says what is then true of the fleet. Until the IO threads are stopped,
each acknowledged transaction is on a replica. From then on nothing is acknowledged, so a view
read later shows what was acknowledged (`shown`), the best candidate holds all of it, and once
it is caught up it has applied all of it. After that only it can acknowledge (`Leads`).

`holds_step` takes one move from phase to phase, and `lossless` is the failover's promise for
every run.
-/

set_option autoImplicit false

namespace DbGuard

namespace Sim

open Coop (dialog)
open Machine (Reach)

/-! ### The phases of a failover -/

/-- How far a failover has come. The fresh views were `a`, of the nodes `os`, and `W` was found
caught up. -/
inductive Phase
  | stopping
  | reading
  | viewed (os : List Node) (a : Node → Except String StatusBody)
  | caught (os : List Node) (a : Node → Except String StatusBody) (W : Node)

/-- The phase after one more answer. -/
def Phase.hear : Phase → (r : Req) → r.Resp → Phase
  | .stopping, .stopIo _, _ => .reading
  | .reading, .freshViews os, a => .viewed os a
  | .viewed os a, r, x => ((readsCaughtUp r x).map (.caught os a)).getD (.viewed os a)
  | p, _, _ => p

/-- The phase after one more step of the task. -/
def Phase.next (p : Phase) : Step → Phase
  | .answered _ r x => p.hear r x
  | _ => p

/-- The phase after the calls in `l`. -/
def phase (l : List Step) : Phase := l.foldl Phase.next .stopping

section
variable {os : List Node} {a : Node → Except String StatusBody} {W : Node} {tr : List Asked}
  {t : Nat} {j : Job} {l Y : List Step} {p : Phase}

/-- Requests alone do not move the phase. -/
theorem phase_append (h : ∀ e ∈ Y, e.isIssued = true) : phase (l ++ Y) = phase l := by
  unfold phase
  rw [List.foldl_append]
  exact Coop.foldl_of_issued (fun _ _ _ _ _ => rfl) h

/-- An answer among requests moves it. -/
theorem phase_answered {r : Req} {x : r.Resp} (h : ∀ e ∈ Y, e.isIssued = true) :
    phase (l ++ .answered t r x :: Y) = (phase l).hear r x := by
  unfold phase
  rw [List.foldl_append, List.foldl_cons]
  exact Coop.foldl_of_issued (fun _ _ _ _ _ => rfl) h

/-- The steps of calls are heard call by call. -/
theorem next_steps (tr : List Asked) : (Coop.Call.steps t j tr).foldl Phase.next p =
    tr.foldl (fun p c => p.hear c.req c.answer) p :=
  Coop.foldl_steps (fun _ _ _ _ _ => rfl) tr

/-- The last phase is not left. -/
theorem next_caught (l : List Step) :
    l.foldl Phase.next (.caught os a W) = .caught os a W := by
  induction l with
  | nil => rfl
  | cons e l ih => cases e <;> exact ih

/-- The opening leads to the read of the views. -/
theorem hear_opens (h : ∀ c ∈ tr, c.req.Opens) (hstop : p = .reading ∨
    p = .stopping ∧ ∃ c ∈ tr, ∃ ns, c.req = .stopIo ns) :
    tr.foldl (fun p c => p.hear c.req c.answer) p = .reading := by
  -- By induction on the trace: the first `stop_io` moves the phase on, and polls keep it.
  induction tr generalizing p with
  | nil =>
    rcases hstop with rfl | ⟨-, c, hc, -⟩
    · rfl
    · exact absurd hc List.not_mem_nil
  | cons c tr ih =>
    obtain ⟨s, r, x⟩ := c
    rw [List.foldl_cons]
    have hr : r.Opens := h _ List.mem_cons_self
    refine ih (fun c hc => h c (List.mem_cons_of_mem _ hc)) ?_
    cases r with
    | observe primary ns =>
      -- A poll before the stop leaves the phase and the stop ahead.
      rcases hstop with rfl | ⟨rfl, c, hc, ns', heq⟩
      · exact .inl rfl
      · rcases List.mem_cons.mp hc with rfl | hc
        · cases heq
        · exact .inr ⟨rfl, c, hc, ns', heq⟩
    | stopIo ns =>
      rcases hstop with rfl | ⟨rfl, -⟩
      · exact .inl rfl
      · exact .inl rfl
    | _ => exact hr.elim

/-- The reads of `wait_caught_up` lead to the last phase when one finds the winner caught up. -/
theorem hear_reads (hreads : ∀ c ∈ tr, c.req.IsRead W) (hfound : p = .caught os a W ∨
    p = .viewed os a ∧ ∃ c ∈ tr, readsCaughtUp c.req c.answer = some W) :
    tr.foldl (fun p c => p.hear c.req c.answer) p = .caught os a W := by
  -- By induction on the trace, with the phase at the head as the invariant.
  induction tr generalizing p with
  | nil =>
    rcases hfound with rfl | ⟨-, c, hc, -⟩
    · rfl
    · exact absurd hc List.not_mem_nil
  | cons c tr ih =>
    rw [List.foldl_cons]
    refine ih (fun c hc => hreads c (List.mem_cons_of_mem _ hc)) ?_
    rcases hfound with rfl | ⟨rfl, c', hc', hfound⟩
    · exact .inl rfl
    · -- a read of `W` shows `W` or nothing
      have hshows : readsCaughtUp c.req c.answer = some W ∨
          readsCaughtUp c.req c.answer = none := by
        obtain ⟨s, r, x⟩ := c
        rcases hreads _ List.mem_cons_self with hr | hr | hr
        · obtain rfl : r = .status W := hr
          simp only [readsCaughtUp]
          split <;> simp
        · obtain rfl : r = .replicaState W := hr
          simp only [readsCaughtUp]
          split <;> simp
        · obtain rfl : r = .sleep := hr
          exact .inr rfl
      rcases hshows with hc | hc
      · left
        show ((readsCaughtUp c.req c.answer).map (Phase.caught os a)).getD _ = _
        rw [hc]
        rfl
      -- The finding call is not this one, so it is still ahead.
      · rcases List.mem_cons.mp hc' with rfl | hc'
        · rw [hc] at hfound
          cases hfound
        · refine .inr ⟨?_, c', hc', hfound⟩
          show ((readsCaughtUp c.req c.answer).map (Phase.caught os a)).getD _ = _
          rw [hc]
          rfl

/-- When a failover that has stopped IO threads begins to give the set to `W`, it has found
`W` caught up. -/
theorem phase_of_elects (h : Elects os a W tr) (hstop : ∃ c ∈ tr, ∃ ns, c.req = .stopIo ns) :
    phase (Coop.Call.steps t j tr) = .caught os a W := by
  obtain ⟨pre, s, reads, post, rfl, hopens, hwaited, hpost⟩ := h.calls
  have hpre : ∃ c ∈ pre, ∃ ns, c.req = .stopIo ns := by
    obtain ⟨c, hc, ns, heq⟩ := hstop
    rcases List.mem_append.mp hc with hc | hc
    · exact ⟨c, hc, ns, heq⟩
    · rcases List.mem_cons.mp hc with rfl | hc
      · cases heq
      · rcases List.mem_append.mp hc with hc | hc
        · rcases hwaited.reads c hc with hr | hr | hr <;> cases hr.symm.trans heq
        · have := hpost c hc
          rw [heq] at this
          exact this.elim
  unfold phase
  rw [next_steps, List.foldl_append, hear_opens hopens (.inr ⟨rfl, hpre⟩), List.foldl_cons,
    List.foldl_append]
  show (post.foldl _ (reads.foldl _ (Phase.viewed os a))) = _
  rw [hear_reads hwaited.reads (.inr ⟨rfl, hwaited.found⟩), ← next_steps (t := t) (j := j)]
  exact next_caught _

end

/-! ### What a node says of itself -/

section
variable {F : FakeFleet} {n : Node} {now : Time} {g : Gtid} {b : StatusBody}

/-- An SQL thread that has read all of the relay log has left only what it can never apply. -/
theorem applied_of_replicaState
    (h : readsCaughtUp (.replicaState n) (F.replicaState n) = some n) :
    ∀ g ∈ (F.node n).held, g ∈ (F.node n).executed ∨ g ∈ (F.node n).partialTail := by
  intro g hg
  rcases (F.node n).mem_held.mp hg with hg | hg
  · exact .inl hg
  · simp only [readsCaughtUp, Option.ite_none_right_eq_some] at h
    unfold FakeFleet.replicaState at h
    dsimp only at h
    split at h
    · exact absurd h.1 (by decide)
    · split at h
      · rename_i hdone
        by_cases hexec : g ∈ (F.node n).executed
        · exact .inl hexec
        · exact .inr ((GtidSet.isSubset_iff _ _).mp hdone g
            ((GtidSet.mem_subtract _ _ g).mpr ⟨hg, hexec⟩))
      · exact absurd h.1 (by decide)

end

/-! ### What holds in each phase -/

section
variable (rs : String) (ns : List Node) (tail : Node → GtidSet) (t : Nat)

/-- The replicas of set `rs` that have a source are among `ns`, and each acknowledged
transaction is on a node of `ns`. -/
structure Guarded (F : FakeFleet) : Prop where
  semiSynced : F.SemiSynced
  sources : ∀ r ∈ F.order, (F.node r).rs = rs → (F.node r).source ≠ none → r ∈ ns
  kept : (F.ledger rs).Kept (Ledger.heldBy {n | n ∈ ns})
  tails : ∀ n ∈ ns, (F.node n).partialTail = tail n

/-- The IO threads of `ns` are stopped. -/
def Stopped (F : FakeFleet) : Prop := ∀ n ∈ ns, (F.node n).ioStopped = true

/-- What is acknowledged, and what each node holds and has shown to task `t`, if it has
answered. -/
def shown (σ : Sim) : Ledger Node Gtid where
  acked := {g | g ∈ σ.fleet.acked rs}
  held n := {g | g ∈ (σ.fleet.node n).held ∧ ∀ b, σ.said t n = some (.status b) →
    b.mysqldResponsive = true → g ∈ (NodeView.fromStatus n b).held}

/-- `W` holds every acknowledged transaction, and its answers to task `t` show it. -/
structure Complete (W : Node) (σ : Sim) : Prop where
  held : ∀ g ∈ σ.fleet.acked rs, g ∈ (σ.fleet.node W).held
  status : ∀ b, σ.said t W = some (.status b) → b.mysqldResponsive = true →
    ∀ g ∈ σ.fleet.acked rs, g ∈ (NodeView.fromStatus W b).held
  applied : ∀ b, σ.said t W = some (.status b) →
    (NodeView.fromStatus W b).applied ⊆ (σ.fleet.node W).executed
  state : ∀ text, σ.said t W = some (.state text) →
    readsCaughtUp (.replicaState W) text = some W →
      ∀ g ∈ σ.fleet.acked rs, g ∈ (σ.fleet.node W).executed ∨ g ∈ tail W

/-- Only `W` can have transactions acknowledged, and it has applied all that are. -/
structure Leads (W : Node) (F : FakeFleet) : Prop where
  semiSynced : F.SemiSynced
  sources : ∀ r ∈ F.order, (F.node r).rs = rs → ∀ src, (F.node r).source = some src →
    (F.node r).ioStopped = true ∨ src = W
  applied : ∀ g ∈ F.acked rs, g ∈ (F.node W).executed ∨ g ∈ tail W

/-- What holds in a phase of the failover of task `t`. -/
def Holds : Phase → Sim → Prop
  | .stopping, σ => Guarded rs ns tail σ.fleet ∧
    ∀ n ∈ ns, σ.said t n = some .stopped → (σ.fleet.node n).ioStopped = true
  | .reading, σ => Guarded rs ns tail σ.fleet ∧ Stopped ns σ.fleet ∧
    (∀ n ∈ ns, ∀ b, σ.said t n = some (.status b) →
      (NodeView.fromStatus n b).held ⊆ (σ.fleet.node n).held) ∧
    (shown rs t σ).Kept (Ledger.heldBy {n | n ∈ ns})
  | .viewed os a, σ => Guarded rs ns tail σ.fleet ∧ Stopped ns σ.fleet ∧
    ∀ W, Best os a W → W ∈ ns ∧ Complete rs tail t W σ
  | .caught os a W, σ => Best os a W → W ∈ ns ∧ Leads rs tail W σ.fleet

end

section
variable {rs : String} {ns : List Node} {tail : Node → GtidSet} {t : Nat} {F F' : FakeFleet}
  {σ σ' : Sim} {p : Phase} {W n : Node}

/-! ### While nothing changes a role -/

/-- A calm change keeps a guarded fleet. -/
theorem Guarded.calm (h : Guarded rs ns tail F) (hc : F.Calm {n | n ∈ ns} F') :
    Guarded rs ns tail F' := by
  have hsources : ∀ r ∈ F'.order, (F'.node r).rs = rs → (F'.node r).source ≠ none → r ∈ ns := by
    intro r hr hrs hsource
    refine h.sources r (hc.order ▸ hr) ((hc.stays r).rs ▸ hrs) fun hnone => hsource ?_
    rcases (hc.stays r).source with heq | heq
    · exact heq.trans hnone
    · exact heq
  have hsemi := h.semiSynced.of_safe hc.toSafe
  refine ⟨hsemi, hsources, ?_, fun n hn => ((hc.stays n).partialTail hn).trans (h.tails n hn)⟩
  have hretains : (F.ledger rs).Retains {n | n ∈ ns} (F'.ledger rs) := hc.held
  refine h.kept.of_grows hretains.heldBy fun g hg => ?_
  rcases hc.acked rs g hg with hg | hack
  · exact .inl hg
  · -- a replica that acknowledges has a source
    obtain ⟨r, hr, src, hrs, hsource, -, -, hret, -⟩ := hsemi.acks hack
    have hmem := hsources r hr hrs (by rw [hsource]; exact Option.some_ne_none src)
    exact .inr ⟨r, hmem, (F'.node r).mem_held.mpr (.inr hret)⟩

/-- It keeps the IO threads stopped. -/
theorem Stopped.calm (h : Stopped ns F) (hc : F.Calm {n | n ∈ ns} F') : Stopped ns F' :=
  fun n hn => (hc.stays n).ioStopped (h n hn)

/-- With all IO threads stopped, nothing is acknowledged. -/
theorem Guarded.acked_of_stopped (h : Guarded rs ns tail F') (hstop : Stopped ns F')
    {R : Set Node} (hs : F.Safe R F') : ∀ g ∈ F'.acked rs, g ∈ F.acked rs := by
  intro g hg
  rcases hs.acked rs g hg with hg | hack
  · exact hg
  · obtain ⟨r, hr, src, hrs, hsource, hio, -⟩ := h.semiSynced.acks hack
    have hmem := h.sources r hr hrs (by rw [hsource]; exact Option.some_ne_none src)
    exact absurd ((hstop r hmem).symm.trans hio) (by decide)

/-- What is acknowledged while `W` leads, `W` has executed. -/
theorem Leads.acked (h : Leads rs tail W F) {g : Gtid} (hsemi : F'.SemiSynced)
    (hsources : ∀ r ∈ F'.order, (F'.node r).rs = rs → ∀ src, (F'.node r).source = some src →
      (F'.node r).ioStopped = true ∨ src = W)
    {R : Set Node} (hs : F.Safe R F') (hexec : (F.node W).executed ⊆ (F'.node W).executed)
    (hg : g ∈ F'.acked rs) : g ∈ (F'.node W).executed ∨ g ∈ tail W := by
  rcases hs.acked rs g hg with hg | hack
  · exact (h.applied g hg).imp_left (hexec g)
  · obtain ⟨r, hr, src, hrs, hsource, hio, hgexec, -⟩ := hsemi.acks hack
    rcases hsources r hr hrs src hsource with hstop | rfl
    · exact absurd (hstop.symm.trans hio) (by decide)
    · exact .inl hgexec

/-- It keeps `W` ahead. -/
theorem Leads.calm (h : Leads rs tail W F) (hW : W ∈ ns) (hc : F.Calm {n | n ∈ ns} F') :
    Leads rs tail W F' := by
  have hsemi := h.semiSynced.of_safe hc.toSafe
  have hsources : ∀ r ∈ F'.order, (F'.node r).rs = rs → ∀ src, (F'.node r).source = some src →
      (F'.node r).ioStopped = true ∨ src = W := by
    intro r hr hrs src hsource
    rcases (hc.stays r).source with heq | heq
    · exact (h.sources r (hc.order ▸ hr) ((hc.stays r).rs ▸ hrs) src (heq ▸ hsource)).imp_left
        (hc.stays r).ioStopped
    · cases heq.symm.trans hsource
  exact ⟨hsemi, hsources, fun g hg =>
    h.acked hsemi hsources hc.toSafe ((hc.stays W).executed hW) hg⟩

/-- It keeps `W` complete, if nothing new was said. -/
theorem Complete.calm (h : Complete rs tail t W σ) (hW : W ∈ ns)
    (hc : σ.fleet.Calm {n | n ∈ ns} σ'.fleet) (hsaid : σ'.said t = σ.said t)
    (hacked : ∀ g ∈ σ'.fleet.acked rs, g ∈ σ.fleet.acked rs) : Complete rs tail t W σ' where
  held g hg := hc.held W hW g (h.held g (hacked g hg))
  status b hb hup g hg := h.status b (hsaid ▸ hb) hup g (hacked g hg)
  applied b hb := GtidSet.Subset.trans (h.applied b (hsaid ▸ hb)) ((hc.stays W).executed hW)
  state text htext hfound g hg :=
    (h.state text (hsaid ▸ htext) hfound g (hacked g hg)).imp_left ((hc.stays W).executed hW g)

/-- A calm change of the fleet. -/
theorem Holds.calm (h : Holds rs ns tail t p σ) (hc : σ.fleet.Calm {n | n ∈ ns} σ'.fleet)
    (hsaid : σ'.said t = σ.said t) : Holds rs ns tail t p σ' := by
  cases p with
  | stopping =>
    obtain ⟨hguard, hstop⟩ := h
    exact ⟨hguard.calm hc, fun n hn hs => (hc.stays n).ioStopped (hstop n hn (hsaid ▸ hs))⟩
  | reading =>
    obtain ⟨hguard, hstop, hview, hkept⟩ := h
    have hacked := (hguard.calm hc).acked_of_stopped (hstop.calm hc) hc.toSafe
    refine ⟨hguard.calm hc, hstop.calm hc, fun n hn b hb => ?_, ?_⟩
    · exact GtidSet.Subset.trans (hview n hn b (hsaid ▸ hb)) (hc.held n hn)
    · have hretains : (shown rs t σ).Retains {n | n ∈ ns} (shown rs t σ') :=
        fun n hn g hg => ⟨hc.held n hn g hg.1, fun b hb => hg.2 b (hsaid ▸ hb)⟩
      exact hkept.of_grows hretains.heldBy fun g hg => .inl (hacked g hg)
  | viewed os a =>
    obtain ⟨hguard, hstop, hbest⟩ := h
    have hacked := (hguard.calm hc).acked_of_stopped (hstop.calm hc) hc.toSafe
    refine ⟨hguard.calm hc, hstop.calm hc, fun W hW => ?_⟩
    obtain ⟨hmem, hcomplete⟩ := hbest W hW
    exact ⟨hmem, hcomplete.calm hmem hc hsaid hacked⟩
  | caught os a W =>
    intro hW
    obtain ⟨hmem, hlead⟩ := h hW
    exact ⟨hmem, hlead.calm hmem hc⟩

/-! ### When a node answers -/

/-- What a node says truthfully keeps it complete. -/
theorem Complete.tell {s : Said} {u : Nat} (h : Complete rs tail t W σ)
    (htail : (σ.fleet.node W).partialTail = tail W) (hs : Truthful σ.fleet n s) :
    Complete rs tail t W (σ.tell u n s) := by
  refine ⟨h.held, fun b hb hup g hg => ?_, fun b hb => ?_, fun text htext hfound g hg => ?_⟩
  · rcases said_of_tell hb with ⟨rfl, rfl⟩ | hb
    · exact hs.all hup g (h.held g hg)
    · exact h.status b hb hup g hg
  · rcases said_of_tell hb with ⟨rfl, rfl⟩ | hb
    · exact hs.applied
    · exact h.applied b hb
  · rcases said_of_tell htext with ⟨rfl, rfl⟩ | htext
    · obtain rfl : text = σ.fleet.replicaState W := hs
      rw [← htail]
      exact applied_of_replicaState hfound g (h.held g hg)
    · exact h.state text htext hfound g hg

/-- A node tells some task the truth. -/
theorem Holds.tell {u : Nat} {s : Said} (h : Holds rs ns tail t p σ)
    (hs : Truthful σ.fleet n s) : Holds rs ns tail t p (σ.tell u n s) := by
  cases p with
  | stopping =>
    obtain ⟨hguard, hstop⟩ := h
    refine ⟨hguard, fun m hm hsaid => ?_⟩
    rcases said_of_tell hsaid with ⟨rfl, rfl⟩ | hsaid
    · exact hs
    · exact hstop m hm hsaid
  | reading =>
    obtain ⟨hguard, hstop, hview, hkept⟩ := h
    refine ⟨hguard, hstop, fun m hm b hb => ?_, ?_⟩
    · rcases said_of_tell hb with ⟨rfl, rfl⟩ | hb
      · exact hs.held
      · exact hview m hm b hb
    · have hretains : (shown rs t σ).Retains {n | n ∈ ns} (shown rs t (σ.tell u n s)) := by
        intro m hm g hg
        refine ⟨hg.1, fun b hb hup => ?_⟩
        rcases said_of_tell hb with ⟨rfl, rfl⟩ | hb
        · exact hs.all hup g hg.1
        · exact hg.2 b hb hup
      exact hkept.of_grows hretains.heldBy fun g hg => .inl hg
  | viewed os a =>
    obtain ⟨hguard, hstop, hbest⟩ := h
    refine ⟨hguard, hstop, fun W hW => ?_⟩
    obtain ⟨hmem, hcomplete⟩ := hbest W hW
    exact ⟨hmem, hcomplete.tell (hguard.tails W hmem) hs⟩
  | caught os a W => exact h

/-! ### When the task gets its answer -/

/-- Every IO thread of `ns` was stopped, and `ns` are the candidates of the fresh read. -/
def Clean (ns : List Node) : (r : Req) → r.Resp → Prop
  | .stopIo _, res => ∀ n ∈ ns, res n = none
  | .freshViews os, a =>
    (∀ n ∈ ns, n ∈ os ∧ candidateProblem (.ofAnswer n (a n)) .dbguard = none) ∧
      ∀ n ∈ os, candidateProblem (.ofAnswer n (a n)) .dbguard = none → n ∈ ns
  | _, _ => True

instance (ns : List Node) : ∀ (r : Req) (x : r.Resp), Decidable (Clean ns r x)
  | .stopIo _, res => inferInstanceAs (Decidable (∀ n ∈ ns, res n = none))
  | .freshViews os, a => inferInstanceAs (Decidable
      ((∀ n ∈ ns, n ∈ os ∧ candidateProblem (.ofAnswer n (a n)) .dbguard = none) ∧
        ∀ n ∈ os, candidateProblem (.ofAnswer n (a n)) .dbguard = none → n ∈ ns))
  | .status _, _ | .observe _ _, _ | .fence _, _ | .promote _, _ | .repoint _ _, _
  | .repointAll _ _, _ | .rebuild _ _, _ | .unstick _, _ | .replicaState _, _
  | .committingThreads _, _ | .gtidWaiter _, _ | .waiterWait _ _, _ | .waiterClose _, _
  | .provision _, _ | .sleep, _ | .reply _, _ => .isTrue trivial

variable {arrives : Node → Bool} {error : Node → ErrorText} {said : Node → Option Said}

/-- A node found caught up has said so. -/
theorem said_of_hearState
    (h : readsCaughtUp (.replicaState n) (hearState said arrives n) = some W) :
    said n = some (.state (hearState said arrives n)) := by
  have hnone : readsCaughtUp (.replicaState n) none = none := by
    unfold readsCaughtUp
    exact if_neg (by decide)
  revert h
  unfold hearState
  split
  · intro _
    assumption
  · intro h
    cases hnone.symm.trans h

/-- The answers so far are used up. -/
theorem Holds.forget (h : Holds rs ns tail t p σ) (hfleet : σ'.fleet = σ.fleet)
    (hnone : ∀ m, σ'.said t m = none) : Holds rs ns tail t p σ' := by
  have hno : ∀ {m : Node} {s : Said}, σ'.said t m ≠ some s := fun heq => by
    rw [hnone] at heq
    cases heq
  -- In every phase the promises for answers on their way become void, as there is none.
  cases p with
  | stopping =>
    obtain ⟨hguard, -⟩ := h
    exact ⟨hfleet ▸ hguard, fun _ _ heq => absurd heq hno⟩
  -- What was shown was held, and it is held still.
  | reading =>
    obtain ⟨hguard, hstop, -, hkept⟩ := h
    refine ⟨hfleet ▸ hguard, hfleet ▸ hstop, fun _ _ _ heq => absurd heq hno, ?_⟩
    have hretains : (shown rs t σ).Retains {n | n ∈ ns} (shown rs t σ') :=
      fun n _ g hg => ⟨hfleet ▸ hg.1, fun _ heq => absurd heq hno⟩
    refine hkept.of_grows hretains.heldBy fun g hg => .inl ?_
    show g ∈ σ.fleet.acked rs
    rw [← hfleet]
    exact hg
  -- The best candidate was complete when it was viewed.
  | viewed os a =>
    obtain ⟨hguard, hstop, hbest⟩ := h
    refine ⟨hfleet ▸ hguard, hfleet ▸ hstop, fun W hW => ?_⟩
    obtain ⟨hmem, hcomplete⟩ := hbest W hW
    refine ⟨hmem, ?_, fun _ heq => absurd heq hno, fun _ heq => absurd heq hno,
      fun _ heq => absurd heq hno⟩
    rw [hfleet]
    exact hcomplete.held
  | caught os a W =>
    intro hW
    rw [hfleet]
    exact h hW

/-- The IO threads are stopped. -/
theorem Holds.hear_stopIo (os : List Node) (h : Holds rs ns tail t .stopping σ)
    (hclean : Clean ns (.stopIo os) (hearStopped (σ.said t) arrives error))
    (hfleet : σ'.fleet = σ.fleet) (hnone : ∀ m, σ'.said t m = none) :
    Holds rs ns tail t .reading σ' := by
  obtain ⟨hguard, hstop⟩ := h
  have hno : ∀ {m : Node} {s : Said}, σ'.said t m ≠ some s := fun heq => by
    rw [hnone] at heq
    cases heq
  refine ⟨hfleet ▸ hguard, fun n hn => ?_, fun _ _ _ heq => absurd heq hno, fun g hg => ?_⟩
  · rw [hfleet]
    exact hstop n hn (said_of_hearStopped (hclean n hn))
  · obtain ⟨n, hn, hheld⟩ := hguard.kept (show g ∈ σ.fleet.acked rs from hfleet ▸ hg)
    refine ⟨n, hn, ?_, fun _ heq => absurd heq hno⟩
    rw [hfleet]
    exact hheld

/-- The fresh views have come. What is acknowledged is in the view of a candidate, and so in
the view of the best one. -/
theorem Holds.hear_freshViews {os : List Node} {a : Node → Except String StatusBody}
    (h : Holds rs ns tail t .reading σ) (hclean : Clean ns (.freshViews os) a)
    (ha : a = hearStatus (σ.said t) arrives error)
    (hfleet : σ'.fleet = σ.fleet) (hnone : ∀ m, σ'.said t m = none) :
    Holds rs ns tail t (.viewed os a) σ' := by
  subst ha
  obtain ⟨hguard, hstop, hview, hkept⟩ := h
  have hno : ∀ {m : Node} {s : Said}, σ'.said t m ≠ some s := fun heq => by
    rw [hnone] at heq
    cases heq
  refine ⟨hfleet ▸ hguard, hfleet ▸ hstop, fun W hW => ?_⟩
  have hmem := hclean.2 W hW.mem hW.ok
  refine ⟨hmem, ?_, fun _ heq => absurd heq hno, fun _ heq => absurd heq hno,
    fun _ heq => absurd heq hno⟩
  rw [hfleet]
  refine hkept.of_leader (w := {g | g ∈ (σ.fleet.node W).held}) fun n hn g hg => ?_
  obtain ⟨hos, hok⟩ := hclean.1 n hn
  obtain ⟨b, hb, hup⟩ := ok_of_usable (usable_of_candidateProblem hok).1
  obtain ⟨bW, hbW, -⟩ := ok_of_usable (usable_of_candidateProblem hW.ok).1
  have hbest := hW.held n hos hok
  rw [hb, hbW] at hbest
  exact hview W hmem bW (said_of_hearStatus hbW) g
    (hbest g (hg.2 b (said_of_hearStatus hb) hup))

/-- A node that is found caught up leads, if it is the best. -/
theorem Holds.hear_read {os : List Node} {a : Node → Except String StatusBody} {r : Req}
    {other : (r : Req) → r.Resp} (h : Holds rs ns tail t (.viewed os a) σ)
    (hfound : readsCaughtUp r (hear (σ.said t) arrives error other r) = some W) :
    Holds rs ns tail t (.caught os a W) σ := by
  obtain ⟨hguard, hstop, hbest⟩ := h
  intro hW
  obtain ⟨hmem, hcomplete⟩ := hbest W hW
  refine ⟨hmem, hguard.semiSynced, fun r hr hrs src hsource => ?_, fun g hg => ?_⟩
  · exact .inl (hstop r (hguard.sources r hr hrs (by rw [hsource]; exact Option.some_ne_none src)))
  · cases r with
    | status n =>
      obtain ⟨hshows, ⟨⟩⟩ := Option.ite_none_right_eq_some.mp hfound
      simp only [hear, Bool.and_eq_true] at hshows
      obtain ⟨b, hb, hup⟩ := ok_of_usable hshows.1
      have hsaid := said_of_hearStatus hb
      have happlied := hshows.2
      rw [hb] at happlied
      exact .inl (hcomplete.applied b hsaid g
        (NodeView.held_subset_applied _ happlied g (hcomplete.status b hsaid hup g hg)))
    | replicaState n =>
      have hn : n = W := (Option.ite_none_right_eq_some.mp hfound).2 |> Option.some.inj
      subst hn
      exact hcomplete.state _ (said_of_hearState hfound) hfound g hg
    | _ => cases hfound

/-- Task `t` gets an answer that is clean. -/
theorem Holds.answer {r : Req} {other : (r : Req) → r.Resp} (h : Holds rs ns tail t p σ)
    (hclean : Clean ns r (hear (σ.said t) arrives error other r))
    (hfleet : σ'.fleet = σ.fleet) (hnone : ∀ m, σ'.said t m = none) :
    Holds rs ns tail t (p.hear r (hear (σ.said t) arrives error other r)) σ' := by
  cases p with
  | stopping =>
    cases r with
    | stopIo os => exact h.hear_stopIo os hclean hfleet hnone
    | _ => exact h.forget hfleet hnone
  | reading =>
    cases r with
    | freshViews os => exact h.hear_freshViews hclean rfl hfleet hnone
    | _ => exact h.forget hfleet hnone
  | viewed os a =>
    show Holds rs ns tail t (((readsCaughtUp r _).map (Phase.caught os a)).getD _) σ'
    cases hfound : readsCaughtUp r (hear (σ.said t) arrives error other r) with
    | none => exact h.forget hfleet hnone
    | some W => exact (h.hear_read hfound).forget hfleet hnone
  | caught os a W => exact h.forget hfleet hnone

/-! ### When the failover changes a role -/

/-- The promotion of `W`, and a repoint to it, keep it ahead. -/
theorem Leads.reassign {m : FakeFleet.Move} (h : Leads rs tail W F) (hmove : F.move m = some F')
    (hm : m = .promote W ∨ ∃ n, m = .repoint n (some W)) : Leads rs tail W F' := by
  have hs : F.Safe ∅ F' := FakeFleet.safe_of_move hmove fun n hn => hn.elim
  have hsemi := h.semiSynced.of_safe hs
  -- The one node that changes has no source then, or `W`.
  have hnode : ∀ r, F'.node r = F.node r ∨
      ((F'.node r).source = none ∨ (F'.node r).source = some W) ∧
        (F'.node r).rs = (F.node r).rs ∧ (F'.node r).executed = (F.node r).executed := by
    intro r
    rcases hm with rfl | ⟨n, rfl⟩
    · obtain ⟨-, ⟨⟩⟩ := Option.ite_none_right_eq_some.mp hmove
      by_cases hr : r = W
      · subst hr
        unfold FakeFleet.promote
        rw [FakeFleet.modify_node_self]
        exact .inr ⟨.inl rfl, rfl, rfl⟩
      · exact .inl (FakeFleet.modify_node_of_ne _ hr)
    · obtain ⟨-, ⟨⟩⟩ := Option.ite_none_right_eq_some.mp hmove
      by_cases hr : r = n
      · subst hr
        unfold FakeFleet.repoint
        rw [FakeFleet.modify_node_self]
        exact .inr ⟨.inr rfl, rfl, rfl⟩
      · exact .inl (FakeFleet.modify_node_of_ne _ hr)
  have hsources : ∀ r ∈ F'.order, (F'.node r).rs = rs → ∀ src, (F'.node r).source = some src →
      (F'.node r).ioStopped = true ∨ src = W := by
    intro r hr hrs src hsource
    rcases hnode r with heq | ⟨hnone | hW, -, -⟩
    · rw [heq] at hrs hsource ⊢
      exact h.sources r (hs.order ▸ hr) hrs src hsource
    · cases hnone.symm.trans hsource
    · exact .inr (Option.some.inj (hsource.symm.trans hW))
  refine ⟨hsemi, hsources, fun g hg => h.acked hsemi hsources hs ?_ hg⟩
  rcases hnode W with heq | ⟨-, -, heq⟩
  · rw [heq]
    exact GtidSet.Subset.refl _
  · rw [heq]
    exact GtidSet.Subset.refl _

end

/-! ### What the task has asked -/

section
variable {cfg : Config} {t : Nat} {ns : List Node} {l : List Step} {tr : List Asked} {j : Job}
  {r : Req} {s : Ctl} {V : Node}

/-- The calls of task `t` began with a poll, and then it asked for the IO threads of `ns` to be
stopped. -/
def Began (t : Nat) (ns : List Node) (l : List Step) : Prop :=
  ∃ tr s Y,
    dialog t l = Coop.Call.steps (S := sig) t .tick tr ++ .issued t .tick (.stopIo ns) s :: Y ∧
      ∀ c ∈ tr, ∃ p ns, c.req = .observe p ns

/-- A tick that asks for the stops has polled and done nothing else. -/
theorem began_of_last (hmode : cfg.mode = .dbguard)
    (htraced : Coop.Checked (Coop.Traced (body cfg)) (l ++ [.issued t .tick (.stopIo ns) s])) :
    Began t ns (l ++ [.issued t .tick (.stopIo ns) s]) ∧
      phase (dialog t (l ++ [.issued t .tick (.stopIo ns) s])) = .stopping := by
  obtain ⟨s₀, tr, hasks, hdialog⟩ := htraced l _ [] rfl
  have hpolls := asks_tick_stopIo hmode hasks
  have heq : dialog t (l ++ [.issued t .tick (.stopIo ns) s]) =
      Coop.Call.steps (S := sig) t .tick tr ++ [.issued t .tick (.stopIo ns) s] := by
    rw [Coop.dialog_append, hdialog]
    simp [dialog, Coop.Event.isCallOf]
  refine ⟨⟨tr, s, [], heq, hpolls⟩, ?_⟩
  -- The polls that follow the stop leave the phase where it is.
  have hstay : ∀ tr : List Asked, (∀ c ∈ tr, ∃ p ns, c.req = .observe p ns) →
      tr.foldl (fun p c => p.hear c.req c.answer) Phase.stopping = .stopping := by
    intro tr
    induction tr with
    | nil => exact fun _ => rfl
    | cons c tr ih =>
      intro hpolls
      obtain ⟨p, ns, hc⟩ := hpolls c List.mem_cons_self
      obtain ⟨s, r, x⟩ := c
      obtain rfl : r = .observe p ns := hc
      exact ih fun c hc => hpolls c (List.mem_cons_of_mem _ hc)
  rw [heq]
  unfold phase
  rw [List.foldl_append, next_steps, hstay tr hpolls]
  rfl

/-- More calls leave how it began. -/
theorem Began.append (h : Began t ns l) {l' Y : List Step} (heq : dialog t l' = dialog t l ++ Y) :
    Began t ns l' := by
  obtain ⟨tr, s, Y', hl, hpolls⟩ := h
  exact ⟨tr, s, Y' ++ Y, by rw [heq, hl, List.append_assoc, List.cons_append], hpolls⟩

/-- Any other request was asked by the tick after that. -/
theorem Began.asked (h : Began t ns l) (htraced : Coop.Checked (Coop.Traced (body cfg)) l)
    (hmem : .issued t j r s ∈ l) (hr : ¬r.Opens) : ∃ tr l₂ s₀, (tick cfg t).Asks s₀ tr r s ∧
      (∃ c ∈ tr, ∃ ns, c.req = .stopIo ns) ∧
        dialog t l = Coop.Call.steps (S := sig) t .tick tr ++ l₂ := by
  obtain ⟨l₁, l₂, rfl⟩ := List.append_of_mem hmem
  obtain ⟨s₀, tr, hasks, hdialog⟩ := htraced l₁ _ l₂ rfl
  obtain ⟨tr₀, s₁, Y, hbegan, hpolls⟩ := h
  have heq : dialog t (l₁ ++ .issued t j r s :: l₂) =
      Coop.Call.steps t j tr ++ .issued t j r s :: dialog t l₂ := by
    rw [Coop.dialog_append, hdialog]
    simp [dialog, Coop.Event.isCallOf]
  -- The request is not among the first calls, so the IO stop is among the calls before it.
  have hstop : .issued t .tick (.stopIo ns) s₁ ∈ Coop.Call.steps t j tr := by
    rw [heq] at hbegan
    rcases Coop.mem_or_mem_of_append_eq hbegan with hin | he | hin
    · obtain ⟨c, hc, he⟩ := List.mem_flatMap.mp hin
      obtain ⟨p, ns', hreq⟩ := hpolls c hc
      rcases List.mem_cons.mp he with he | he
      · cases he
        rw [hreq] at hr
        exact absurd trivial hr
      · cases List.mem_singleton.mp he
    · cases he
      exact absurd trivial hr
    · exact hin
  obtain ⟨⟨s₂, r', x⟩, hc, he⟩ := List.mem_flatMap.mp hstop
  rcases List.mem_cons.mp he with he | he
  · cases he
    exact ⟨tr, _, s₀, hasks, ⟨_, hc, ns, rfl⟩, heq⟩
  · cases List.mem_singleton.mp he

/-- A request that gives the set to `V` comes after `V` was found caught up. -/
theorem Began.phase_of_reassigns (hmode : cfg.mode = .dbguard) (h : Began t ns l)
    (htraced : Coop.Checked (Coop.Traced (body cfg)) l) (hmem : .issued t j r s ∈ l)
    (hr : r.Reassigns V) : ∃ os a, Best os a V ∧ phase (dialog t l) = .caught os a V := by
  have hlate : ¬r.Opens := by
    intro hopens
    cases r with
    | observe _ _ | stopIo _ => exact hr
    | _ => exact hopens
  obtain ⟨tr, l₂, s₀, hasks, hstop, hdialog⟩ := h.asked htraced hmem hlate
  obtain ⟨os, a, helects⟩ := asks_tick_reassigns hmode hasks hr hstop
  refine ⟨os, a, helects.best, ?_⟩
  have hphase := phase_of_elects (t := t) (j := .tick) helects hstop
  unfold phase at hphase ⊢
  rw [hdialog, List.foldl_append, hphase]
  exact next_caught l₂

end

/-! ### The run -/

/-- Nobody but task `t` changes a role or a source, and no node of `ns` is restarted, cloned or
torn. -/
def Undisturbed (t : Nat) (ns : List Node) (_ : Sim) : Move → Prop
  | .fleet m => m.Calms {n | n ∈ ns}
  | .effect t' r n => t' = t ∨ ∀ m ∈ effect n r, m.Calms {n | n ∈ ns}
  | _ => True

instance (ns : List Node) : ∀ m : FakeFleet.Move, Decidable (m.Calms {n | n ∈ ns})
  | .start n | .rebuilt n _ | .tear n _ => inferInstanceAs (Decidable (n ∉ ns))
  | .setup _ _ | .reroute _ _ | .promote _ | .repoint _ _ => .isFalse id
  | .step _ | .write _ | .partition _ _ | .heal | .cutManager _ | .kill _ | .hang _ _
  | .freeze _ _ | .mysqld _ _ | .receive _ _ | .applyPerStep _ _ | .sqlError _ _ | .hide _ _
  | .errant _ _ | .wait _ _ _ | .fence _ | .killed _ | .unfence _ | .rebuild _ _ | .stopIo _ =>
    .isTrue trivial

instance (t : Nat) (ns : List Node) (σ : Sim) : ∀ m : Move, Decidable (Undisturbed t ns σ m)
  | .fleet m => inferInstanceAs (Decidable (m.Calms {n | n ∈ ns}))
  | .effect t' r n =>
    inferInstanceAs (Decidable (t' = t ∨ ∀ m ∈ effect n r, m.Calms {n | n ∈ ns}))
  | .manager _ | .answer _ _ _ _ | .serve _ _ _ => .isTrue trivial

/-- A step that is clean. -/
def CleanStep (ns : List Node) : Step → Prop
  | .answered _ r x => Clean ns r x
  | _ => True

instance (ns : List Node) : DecidablePred (CleanStep ns)
  | .answered _ r x => inferInstanceAs (Decidable (Clean ns r x))
  | .created _ _ _ | .issued _ _ _ _ | .landed _ _ | .resent _ _ _ | .finished _ _ =>
    .isTrue trivial

section
variable {cfg : Config} {rs : String} {t : Nat} {ns : List Node} {tail : Node → GtidSet}
  {σ σ' : Sim} {m : Move} {n W : Node} {r : Req} {now : Time} {s : Said} {j : Job} {c : Ctl}

/-- What the requests of a tick do to a node. -/
theorem effect_of_tick {fm : FakeFleet.Move} (hr : Job.Asks .tick r)
    (heffect : effect n r = some fm) : fm = .stopIo n ∨
      ∃ V, r.Reassigns V ∧ (fm = .promote V ∨ ∃ n, fm = .repoint n (some V)) := by
  cases r with
  | stopIo ns =>
    obtain ⟨-, ⟨⟩⟩ := Option.ite_none_right_eq_some.mp heffect
    exact .inl rfl
  | promote V =>
    obtain ⟨rfl, ⟨⟩⟩ := Option.ite_none_right_eq_some.mp heffect
    exact .inr ⟨V, rfl, .inl rfl⟩
  | repointAll ns V =>
    obtain ⟨-, ⟨⟩⟩ := Option.ite_none_right_eq_some.mp heffect
    exact .inr ⟨V, rfl, .inr ⟨n, rfl⟩⟩
  | fence _ | repoint _ _ | rebuild _ _ =>
    rcases hr with ⟨_, _, heq⟩ | hr | hr
    · cases heq
    · exact hr.elim
    · exact hr.elim
  | _ => cases heffect

/-- Another move of the fleet than task `t` asked for. -/
theorem Holds.move {p : Phase} {F' : FakeFleet} {fm : FakeFleet.Move}
    (h : Holds rs ns tail t p σ) (hmove : σ.fleet.move fm = some F')
    (hcalm : fm.Calms {n | n ∈ ns}) : Holds rs ns tail t p { σ with fleet := F' } :=
  h.calm (FakeFleet.calm_of_move hmove hcalm) rfl

/-- A request of the failover takes effect. -/
theorem Holds.effect (hmode : cfg.mode = .dbguard)
    (htraced : Coop.Checked (Coop.Traced (body cfg)) σ.pool.world.log)
    (hbegan : Began t ns σ.pool.world.log) {F' : FakeFleet} {fm : FakeFleet.Move}
    (hmem : .issued t j r c ∈ σ.pool.world.log) (heffect : Sim.effect n r = some fm)
    (hmove : σ.fleet.move fm = some F')
    (h : Holds rs ns tail t (phase (dialog t σ.pool.world.log)) σ) :
    Holds rs ns tail t (phase (dialog t σ.pool.world.log)) { σ with fleet := F' } := by
  by_cases hopens : r.Opens
  · -- the IO stop, at one more node or once more
    cases r with
    | stopIo os =>
      obtain ⟨-, ⟨⟩⟩ := Option.ite_none_right_eq_some.mp heffect
      exact h.move hmove trivial
    | observe _ _ => cases heffect
    | _ => exact hopens.elim
  · obtain ⟨tr, l₂, s₀, hasks, -, -⟩ := hbegan.asked htraced hmem hopens
    rcases effect_of_tick (body_asks (t := t) (j := .tick) hasks) heffect with
      rfl | ⟨V, hgive, hV⟩
    · exact h.move hmove trivial
    · obtain ⟨os, a, hbest, hphase⟩ := hbegan.phase_of_reassigns hmode htraced hmem hgive
      rw [hphase] at h ⊢
      obtain ⟨hmem, hlead⟩ := h hbest
      exact fun _ => ⟨hmem, hlead.reassign hmove hV⟩

/-- One move. -/
theorem holds_step (hmode : cfg.mode = .dbguard) (hstep : step cfg σ m = some σ')
    (hok : Undisturbed t ns σ m)
    (htraced : Coop.Checked (Coop.Traced (body cfg)) σ.pool.world.log)
    (hbegan : Began t ns σ.pool.world.log)
    (hclean : ∀ e ∈ dialog t σ'.pool.world.log, CleanStep ns e)
    (h : Holds rs ns tail t (phase (dialog t σ.pool.world.log)) σ) :
    Holds rs ns tail t (phase (dialog t σ'.pool.world.log)) σ' := by
  -- The requests of a move leave the phase, an answer is heard.
  have hdialog := dialog_step (t := t) hstep
  cases m with
  | fleet fm =>
    obtain ⟨-, hstep⟩ := Option.ite_none_left_eq_some.mp hstep
    obtain ⟨F', hmove, rfl⟩ := Option.map_eq_some_iff.mp hstep
    exact h.move hmove hok
  | manager pm =>
    obtain ⟨-, hstep⟩ := Option.ite_none_left_eq_some.mp hstep
    obtain ⟨pool, -, rfl⟩ := Option.map_eq_some_iff.mp hstep
    obtain ⟨Y, hissued, heq | ⟨_, _, _, _, hm, -⟩⟩ := hdialog
    · rw [heq, phase_append hissued]
      exact h.calm (FakeFleet.Stepped.refl _).calm rfl
    · cases hm
  | answer u arrives error other =>
    have hgone : ∀ m, Function.update σ.said u (fun _ => none) u m = none := fun m => by
      rw [Function.update_self]
    obtain ⟨pool, -, rfl⟩ := Option.map_eq_some_iff.mp hstep
    obtain ⟨Y, hissued, heq | ⟨_, _, _, r, hm, heq⟩⟩ := hdialog
    · rw [heq, phase_append hissued]
      by_cases hu : u = t
      · subst hu
        exact h.forget rfl hgone
      · exact h.calm (FakeFleet.Stepped.refl _).calm (Function.update_of_ne (Ne.symm hu) _ _)
    · cases hm
      have hx : CleanStep ns (.answered t r (hear (σ.said t) arrives error other r)) := by
        refine hclean _ ?_
        rw [heq]
        exact List.mem_append_right _ List.mem_cons_self
      rw [heq, phase_answered hissued]
      exact h.answer hx rfl hgone
  | serve u n now =>
    simp only [step] at hstep
    split at hstep
    · rename_i r k hprog
      unfold serve at hstep
      split at hstep
      · cases hstep
      · rename_i s hreply heffect
        cases hstep
        exact h.tell (truthful_of_reply hreply heffect)
      · rename_i s fm hreply heffect
        obtain ⟨F', hmove, rfl⟩ := Option.map_eq_some_iff.mp hstep
        obtain ⟨hfm, htrue⟩ := request_of_reply hreply heffect hmove
        have hcalm : fm.Calms {n | n ∈ ns} := by
          rcases hfm with rfl | rfl
          · trivial
          · trivial
        exact (h.move hmove hcalm).tell htrue
    · cases hstep
  | effect u r n =>
    obtain ⟨hissued, hstep⟩ := Option.ite_none_right_eq_some.mp hstep
    obtain ⟨fm, heffect, hstep⟩ := Option.bind_eq_some_iff.mp hstep
    obtain ⟨F', hmove, rfl⟩ := Option.map_eq_some_iff.mp hstep
    rcases hok with rfl | hcalm
    · obtain ⟨j, c, hmem⟩ := mem_log_of_issued hissued
      exact h.effect hmode htraced hbegan hmem heffect hmove
    · exact h.move hmove (hcalm fm heffect)

end

/-- Task `t` has just asked for the IO threads of `ns` to be stopped, and no node has answered
yet. -/
structure Opened (t : Nat) (ns : List Node) (σ : Sim) : Prop where
  last : ∃ l s, σ.pool.world.log = l ++ [.issued t .tick (.stopIo ns) s]
  unsaid : ∀ n ∈ ns, σ.said t n = none

/-- `b` and `c` have received a second transaction from `a` and not applied it when `a` dies.
Task 3 has begun the failover. -/
def deadPrimary : Sim :=
  Machine.run (step DbGuard.fleet)
    (init DbGuard.fleet (.new [("rs1", ["a", "b", "c"])] true [] fun n => n))
    [.fleet (.setup "rs1" "a"), .manager (.arrive .tick), .manager (.start 0),
     delivered 0 (succeed true settled), .fleet (.write true), .fleet (.step 1),
     .fleet (.applyPerStep "b" 0), .fleet (.applyPerStep "c" 0), .fleet (.step 2),
     .fleet (.kill "a"), .manager (.outside (.clock 1000 1000)), .manager (.arrive .tick),
     .manager (.start 1), delivered 1 (succeed false orphaned),
     .manager (.outside (.clock 4000 4000)), .manager (.arrive .tick), .manager (.start 2),
     delivered 2 (succeed false orphaned), .manager (.outside (.clock 7000 7000)),
     .manager (.arrive .tick), .manager (.start 3), delivered 3 (succeed false orphaned)]

/-- `b` is promoted without an answer from `a`, and commits. Then `a` comes back. -/
def recovery : List Move :=
  let other : (r : Req) → r.Resp
    | .fence _ => .error ⟨"timeout"⟩
    | r => succeed false orphaned r
  [.serve 3 "b" 3, .serve 3 "c" 3, delivered 3 other, .serve 3 "b" 4, .serve 3 "c" 4,
   delivered 3 other, .fleet (.applyPerStep "b" 9), .fleet (.step 5), .serve 3 "b" 5,
   delivered 3 other, .effect 3 (.repointAll ["c"] "b") "c", delivered 3 other,
   .manager (.start 4), delivered 4 other, .manager (.wake 3), .effect 3 (.promote "b") "b",
   .fleet (.start "a"), .fleet (.step 6), .fleet (.step 7)]

end Sim

end DbGuard
