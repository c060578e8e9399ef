import DbGuard.Proofs.Verdict
import DbGuard.Proofs.Watching

/-!
# `DbGuard.Proofs.Evidence`: what a failover rests on

A poll that was out while ctl.primary changed finds the history empty (`Out`). It is then the
oldest observation for as long as it stays, so the newest of two is one of ctl.primary
(`Recorded`). A DEAD verdict needs two observations, and is about the primary of the newest.
-/

set_option autoImplicit false

namespace DbGuard

open Coop (Prog Pool Move World Contract Adds own)

namespace Watching

open Polling (firstStep looked looked_of_fire)

/-! ### The verdict -/

section
variable {history : List Observation} {members : List Node} {p : DetectParams} {last : Observation}
  {primary : Node}

/-- A DEAD verdict rests on probes that have failed for the whole window. -/
theorem window_le_of_dead (hlast : history.getLast? = some last)
    (hprimary : last.primary = some primary) (hwindow : 0 < p.detectWindowS)
    (hdead : (evaluate history members p none).dead = true) :
    p.detectWindowS ≤ age last.ts (failing history primary) := by
  have hkind : (evaluate history members p none).kind = .dead := by
    simpa [Verdict.dead] using hdead
  cases hmode : p.mode with
  | dbguard => exact ((kind_dead_iff hlast hprimary hmode hwindow members none).mp hkind).1.2
  | naive =>
      simp only [evaluate, hlast, hprimary, hmode] at hkind
      split at hkind
      · rename_i h
        exact h.2
      · split at hkind <;> cases hkind

/-- A walk back that reaches back for some time has two observations. -/
theorem two_le_walk {P : Observation → Bool} {rest : List Observation}
    (hpos : 0 < age last.ts ((last :: rest).takeWhile P)) :
    2 ≤ ((last :: rest).takeWhile P).length := by
  rw [List.takeWhile_cons] at hpos ⊢
  cases hP : P last with
  | false => simp [hP, age] at hpos
  | true =>
      cases htail : rest.takeWhile P with
      | nil =>
          -- The newest observation alone is no time.
          simp [hP, htail, age] at hpos
      | cons ob tail => simp

/-- A failing time of some length is that of two polls. -/
theorem two_le_failing (hlast : history.getLast? = some last) (hwindow : 0 < p.detectWindowS)
    (hage : p.detectWindowS ≤ age last.ts (failing history primary)) :
    2 ≤ (failing history primary).length := by
  obtain ⟨rest, hrev⟩ : ∃ rest, history.reverse = last :: rest := by
    rw [← List.head?_eq_some_iff, List.head?_reverse, hlast]
  have hpos := lt_of_lt_of_le hwindow hage
  unfold failing at hpos ⊢
  rw [hrev] at hpos ⊢
  exact two_le_walk hpos

/-- A DEAD verdict is about the primary of the newest observation. -/
theorem about_of_dead (hdead : (evaluate history members p none).dead = true) :
    ∃ last primary, history.getLast? = some last ∧ last.primary = some primary ∧
      (evaluate history members p none).primary = some primary := by
  cases hlast : history.getLast? with
  | none =>
      simp [evaluate, hlast, Verdict.dead] at hdead
  | some last =>
      cases hprimary : last.primary with
      | none => simp [evaluate, hlast, hprimary, Verdict.dead] at hdead
      | some primary =>
          refine ⟨last, primary, rfl, hprimary, ?_⟩
          cases hmode : p.mode with
          | naive | dbguard =>
              simp only [evaluate, hlast, hprimary, hmode, apply_ite Verdict.primary, ite_self]

/-! ### What supports a verdict -/

variable {cfg : Config} {ob : Observation}

/-- A poll at which the primary fails speaks against it. -/
theorem against_of_failing (h : ob ∈ failing history primary) :
    ob.primary = some primary ∧ cfg.against primary ob = true := by
  have hfailed := List.mem_takeWhile_imp h
  obtain ⟨hprimary, r, hr, hnot⟩ := (probeFailed_iff primary ob).mp hfailed
  refine ⟨hprimary, ?_⟩
  rw [Config.against, hr, Option.any_some, hnot]
  rfl

/-- So does one at which it is outvoted. -/
theorem against_of_outvoted (hmode : cfg.mode = .dbguard)
    (h : ob ∈ outvoted history members primary cfg.detectWindowS) :
    ob.primary = some primary ∧ cfg.against primary ob = true := by
  have houtvoted := List.mem_takeWhile_imp h
  dsimp only at houtvoted
  rw [Bool.and_eq_true, beq_iff_eq] at houtvoted
  obtain ⟨hprimary, hquorum⟩ := houtvoted
  refine ⟨hprimary, ?_⟩
  -- A majority has a voter, and a voter is a node of the poll.
  have hpos : 0 < (votesAt members primary cfg.detectWindowS ob).1.length := by
    simp only [hasQuorum, Bool.and_eq_true, decide_eq_true_eq] at hquorum
    exact hquorum.1.2
  obtain ⟨vote, hvote⟩ := List.exists_mem_of_length_pos hpos
  simp only [votesAt, List.mem_filterMap, List.mem_dedup, List.mem_filter] at hvote
  obtain ⟨m, ⟨-, hwitness⟩, hwhy⟩ := hvote
  have hkey : m ∈ ob.nodes.keys := by
    by_contra hnot
    rw [Views.get?, if_neg hnot] at hwitness
    cases hwitness
  have hne : replicaVote (ob.nodes.view m) primary cfg.detectWindowS ≠ [] := by
    intro hnil
    rw [if_pos hnil] at hwhy
    cases hwhy
  rw [Config.against, hmode, Bool.or_eq_true]
  right
  rw [Bool.and_eq_true, List.any_eq_true]
  exact ⟨rfl, m, hkey, by simpa using hne⟩

end

open Machine (Reach)

/-! ### The condition and the invariant -/

/-- A tick that has waited for the lock does not get it on a halted set, unless the verdict is not
DEAD or the cooldown has not passed. And no poll comes in with evidence against ctl.primary after
another node was it during the poll. -/
def Attentive (cfg : Config) (s : Watching) (m : Move sig) : Prop :=
  ((decided s.pool m).isSome = true → s.state.halted = true → (s.verdict cfg).dead = true →
    s.state.inCooldown = true) ∧
  ∀ x ∈ incoming s.pool m, x.tick ∈ s.strayed → ∀ old ∈ x.primary, s.state.primary = some old →
    cfg.against old (cfg.observation x.primary x.nodes x.answer s.state.time) = false

/-- What is known of a tick whose poll is out. -/
structure Out (s : Watching) (t : Nat) (primary : Option Node) : Prop where
  job : s.pool.world.jobs[t]? = some .tick
  live : t ∉ s.state.finished
  begun : own t s.pool.world.log ≠ []
  clear : t ∈ s.strayed ∨ s.state.primary ≠ primary → s.state.history = []

/-- What the polls say of the history. -/
structure Recorded (cfg : Config) (s : Watching) : Prop where
  polls : s.state.history.reverse <+: s.polls.map (·.1)
  newest : 2 ≤ s.state.history.length → ∀ x ∈ s.polls.head?, x.1.primary = s.state.primary
  steady : ∀ x ∈ s.polls.take s.state.history.length, ∀ old, s.state.primary = some old →
    x.1.primary = some old → cfg.against old x.1 = true → x.2 = true

/-- What holds between any two moves. -/
structure Tracked (cfg : Config) (s : Watching) : Prop where
  out : ∀ t primary ns k, s.pool.progs t = some (.await (.observe primary ns) k) →
    Out s t primary
  begun : ∀ t ∈ s.strayed, own t s.pool.world.log ≠ []
  recorded : Recorded cfg s

section
variable {cfg : Config} {s s' : Watching} {m : Move sig} {p p' : Pool sig} {t : Nat}

/-- The contracts hold in every run. -/
theorem holds_of_reach {ok : Watching → Move sig → Prop}
    (h : Reach (step cfg) ok (start cfg) s) : (tickBase.both (watching cfg)).Holds s.pool := by
  have hruns : Runs cfg (fun _ _ _ => True) s.pool := by
    refine Coop.Reach.of_machine Watching.pool (fun s m s' _ hm => ?_) h
    obtain ⟨henv, hfire⟩ := Option.ite_none_right_eq_some.mp hm
    obtain ⟨p, hp, rfl⟩ := Option.map_eq_some_iff.mp hfire
    exact .inr ⟨m, hp, henv, trivial⟩
  exact holds_of_ticks (watching_sound cfg) trivial hruns

/-- What a move of a task does. -/
theorem may_of_fire (hh : (tickBase.both (watching cfg)).Holds p) (henv : environment p m = true)
    (hf : p.fire (body cfg) m = some p') (ht : m.task = some t) :
    tickBase.may t p.world p'.world ∧ Watches cfg t p.world p'.world := by
  have hok : ∀ (p : Pool sig) m (p' : Pool sig), environment p m = true → environment p m = true :=
    fun _ _ _ h => h
  exact ((tickBase_sound cfg hok).both (watching_sound cfg)).may_of_fire hh hf henv ht

/-- The poll of a segment is the one that comes in by its move. -/
theorem polledIn_of_fire (hf : p.fire (body cfg) m = some p') (ht : m.task = some t) :
    polledIn p.world p'.world =
      (incoming p m).map fun x => (x.primary, x.nodes, x.answer) := by
  obtain ⟨j, a, l, e, hj, hlog, ha, hl, he⟩ := Pool.log_of_fire hf ht
  have hfirst : firstStep p.world p'.world = (a ++ (l ++ e)).head? := by
    rw [firstStep, hlog, List.append_assoc, List.drop_left]
  rcases ha with ⟨hne, rfl⟩ | ⟨f, r, k, rfl, hprog, rfl⟩
  · -- No answer comes first.
    have hnone : polledIn p.world p'.world = none := by
      unfold polledIn
      rw [hfirst, List.nil_append]
      cases hhead : (l ++ e).head? with
      | none => rfl
      | some x =>
          rcases List.mem_append.mp (List.mem_of_mem_head? hhead) with hx | hx
          -- The step's first event is the creation of a task.
          · obtain ⟨j', i, rfl⟩ := hl x hx
            rfl
          -- Or there is none, or it is a request or an end.
          · rcases he with rfl | ⟨r, rfl⟩ | ⟨s, rfl⟩
            · cases hx
            · cases List.mem_singleton.mp hx
              rfl
            · cases List.mem_singleton.mp hx
              rfl
    rw [hnone]
    cases m with
    | answer t' f => exact absurd (by cases ht; rfl) (hne f)
    | start | wake | arrive | outside | land | resend => rfl
  -- The answer comes first, and it is a poll's or another one.
  · unfold polledIn
    rw [hfirst]
    simp only [incoming, hprog]
    cases r with
    | observe primary ns => rfl
    | _ => rfl

/-- A poll that comes in was out. -/
theorem out_of_incoming {x : Incoming} (h : incoming p m = some x) :
    m.task = some x.tick ∧
      ∃ k, p.progs x.tick = some (.await (.observe x.primary x.nodes) k) := by
  cases m with
  | answer t f =>
      simp only [incoming] at h
      split at h
      · rename_i primary ns k hprog
        cases h
        exact ⟨rfl, k, hprog⟩
      · cases h
  | start | wake | arrive | outside | land | resend => cases h

/-- A task that is astray polls a primary that is not the set's. -/
theorem out_of_astray (h : t ∈ astray p) : ∃ primary ns k,
    p.progs t = some (.await (.observe primary ns) k) ∧ primary ≠ p.world.state.primary := by
  obtain ⟨-, ht⟩ := List.mem_filter.mp h
  split at ht
  · rename_i primary ns k hprog
    exact ⟨primary, ns, k, hprog, by simpa using ht⟩
  · cases ht


/-! ### One move -/

/-- A task that has done something has still done it later. -/
theorem own_ne_nil {l l' : List (Coop.Event sig)} (h : own t l ≠ []) (hl : l <+: l') :
    own t l' ≠ [] := by
  obtain ⟨l'', rfl⟩ := hl
  rw [Coop.own_append]
  exact List.append_ne_nil_of_left_ne_nil h _

/-- A poll that is out stays out. -/
theorem Out.mono {primary : Option Node} (h : Out s t primary)
    (hjobs : s.pool.world.jobs <+: s'.pool.world.jobs)
    (hlog : s.pool.world.log <+: s'.pool.world.log) (hlive : t ∉ s'.state.finished)
    (hclear : t ∈ s'.strayed ∨ s'.state.primary ≠ primary → s'.state.history = []) :
    Out s' t primary :=
  ⟨tick_of_jobs hjobs h.job, hlive, own_ne_nil h.begun hlog, hclear⟩

/-- A tick that strays has begun its poll. -/
theorem begun_of_strayed (hout : ∀ t primary ns k,
      s'.pool.progs t = some (.await (.observe primary ns) k) → Out s' t primary)
    (hstrayed : s'.strayed = astray s'.pool ++ s.strayed)
    (hbegun : ∀ t ∈ s.strayed, own t s.pool.world.log ≠ [])
    (hlog : s.pool.world.log <+: s'.pool.world.log) :
    ∀ t ∈ s'.strayed, own t s'.pool.world.log ≠ [] := by
  intro t ht
  rw [hstrayed] at ht
  rcases List.mem_append.mp ht with ht | ht
  · obtain ⟨primary, ns, k, hprog, -⟩ := out_of_astray ht
    exact (hout t primary ns k hprog).begun
  · exact own_ne_nil (hbegun t ht) hlog

/-- What a move of no task leaves alone. -/
structure Quiet (p p' : Pool sig) : Prop where
  progs : p'.progs = p.progs
  jobs : p.world.jobs <+: p'.world.jobs
  log : p.world.log <+: p'.world.log
  history : p'.world.state.history = p.world.state.history
  primary : p'.world.state.primary = p.world.state.primary
  finished : p'.world.state.finished = p.world.state.finished

/-- A move of no task leaves the history and the polls. -/
theorem quiet_of_fire (henv : environment p m = true) (hf : p.fire (body cfg) m = some p')
    (ht : m.task = none) : Quiet p p' := by
  cases m with
  | start t | answer t f | wake t => cases ht
  | arrive j =>
      cases hf
      exact ⟨rfl, List.prefix_append _ _, List.prefix_refl _, rfl, rfl, rfl⟩
  | outside u =>
      cases hf
      obtain ⟨time, mono, rfl⟩ := clock_of_environment henv
      exact ⟨rfl, List.prefix_refl _, List.prefix_refl _, rfl, rfl, rfl⟩
  | land t r | resend t r =>
      cases hf
      exact ⟨rfl, List.prefix_refl _, List.prefix_append _ _, rfl, rfl, rfl⟩

/-- A poll that strays in a move has found the history empty. -/
theorem clear_of_strayed {primary : Option Node} {ns : List Node} {k : PollAnswer → M Unit}
    (h : Out s t primary) (hprog : p.progs t = some (.await (.observe primary ns) k))
    (hsame : p.world.state.history = s.state.history ∧ p.world.state.primary = s.state.primary)
    (hor : t ∈ astray p ++ s.strayed ∨ p.world.state.primary ≠ primary) :
    p.world.state.history = [] := by
  rw [hsame.1]
  refine h.clear ?_
  rw [hsame.2] at hor
  rcases hor with ht | hne
  · rcases List.mem_append.mp ht with ht | ht
    · obtain ⟨primary', ns', k', hprog', hne⟩ := out_of_astray ht
      rw [hprog] at hprog'
      cases hprog'
      exact .inr (hsame.2 ▸ hne.symm)
    · exact .inl ht
  · exact .inr hne

/-- With the same history, polls and primary the records are kept. -/
theorem Recorded.keep (h : Recorded cfg s) (hpolls : s'.polls = s.polls)
    (hhistory : s'.state.history = s.state.history)
    (hprimary : s'.state.primary = s.state.primary) : Recorded cfg s' where
  polls := by
    rw [hhistory, hpolls]
    exact h.polls
  newest := by
    rw [hhistory, hpolls, hprimary]
    exact h.newest
  steady := by
    rw [hhistory, hpolls, hprimary]
    exact h.steady

/-- A history that is dropped has nothing to say. -/
theorem Recorded.drop (hnil : s'.state.history = []) : Recorded cfg s' := by
  refine ⟨?_, ?_, ?_⟩
  · rw [hnil]
    exact List.nil_prefix
  · rw [hnil]
    exact fun hle => absurd hle (by simp)
  · rw [hnil]
    exact fun x hx => absurd hx (by simp)

/-- A move of no task. -/
theorem Tracked.quiet (h : Tracked cfg s) (hq : Quiet s.pool p) (ht : m.task = none) :
    Tracked cfg { pool := p, strayed := astray p ++ s.strayed, polls := s.after m p } := by
  have hout : ∀ t primary ns k, p.progs t = some (.await (.observe primary ns) k) →
      Out { pool := p, strayed := astray p ++ s.strayed, polls := s.after m p } t primary := by
    intro t primary ns k hprog
    have hout := h.out t primary ns k (hq.progs ▸ hprog)
    refine hout.mono hq.jobs hq.log ?_ fun hor =>
      clear_of_strayed hout hprog ⟨hq.history, hq.primary⟩ hor
    show t ∉ p.world.state.finished
    rw [hq.finished]
    exact hout.live
  have hpolls : s.after m p = s.polls := by
    have hnone : incoming s.pool m = none := by
      cases hin : incoming s.pool m with
      | none => rfl
      | some x =>
          have htask := (out_of_incoming hin).1
          rw [ht] at htask
          cases htask
    unfold after
    rw [hnone]
  exact ⟨hout, begun_of_strayed hout rfl h.begun hq.log,
    h.recorded.keep hpolls hq.history hq.primary⟩


/-- The tick whose poll comes in is the only one. -/
theorem lone_of_out {primary : Option Node} {x : Incoming} (h : Tracked cfg s)
    (hh : (tickBase.both (watching cfg)).Holds s.pool) (hout : Out s t primary)
    (hx : incoming s.pool m = some x) : t = x.tick := by
  obtain ⟨-, k, hprog⟩ := out_of_incoming hx
  have hx := h.out _ _ _ _ hprog
  have hticking : Ticking s.pool.world := hh.inv.1.2
  by_contra hne
  rcases Nat.lt_or_gt_of_ne hne with hlt | hlt
  · exact hout.live (hticking.turn _ _ hout.job hx.job hlt)
  · exact hx.live (hticking.turn _ _ hx.job hout.job hlt)

/-- Without a poll, the history is kept or dropped. -/
theorem Drops.unpolled (h : Drops cfg s.pool.world p.world)
    (hnone : polledIn s.pool.world p.world = none) :
    p.world.state.history = s.state.history ∧ p.world.state.primary = s.state.primary ∨
      p.world.state.history = [] := by
  rcases h with ⟨l, hl, hhistory, hprimary⟩ | hnil
  · unfold Gathers at hl
    rw [hnone] at hl
    exact .inl ⟨hhistory.trans hl, hprimary⟩
  · exact .inr hnil

/-- The polls that are out after a move of task `t'`. -/
theorem out_of_task {t' : Nat} {primary : Option Node} {ns : List Node} {k : PollAnswer → M Unit}
    (h : Tracked cfg s) (hh : (tickBase.both (watching cfg)).Holds s.pool)
    (henv : environment s.pool m = true) (hf : s.pool.fire (body cfg) m = some p)
    (ht : m.task = some t') (hprog : p.progs t = some (.await (.observe primary ns) k)) :
    Out { pool := p, strayed := astray p ++ s.strayed, polls := s.after m p } t primary := by
  obtain ⟨hbase, hwatch⟩ := may_of_fire hh henv hf ht
  have hadds : Adds t' s.pool.world p.world := hbase.1.1
  have hjobs := hadds.jobs
  have hlog : s.pool.world.log <+: p.world.log := by
    obtain ⟨l, hl, -⟩ := hadds.log
    exact ⟨l, hl.symm⟩
  by_cases hne : t = t'
  · -- It has just begun.
    subst hne
    obtain ⟨j, hj, hissued⟩ := Pool.issued_of_fire hf ht hprog
    have hasks := hwatch.asks _ _ _ _ hissued
    refine ⟨tick_of_jobs hjobs (hasks.job ▸ hj), hasks.live, fun hnil => ?_, fun hor => ?_⟩
    · have hmem : .issued t j (.observe primary ns) p.world.state ∈ own t p.world.log :=
        List.mem_filter.mpr ⟨List.mem_of_mem_drop hissued, by simp [Coop.Event.isBy]⟩
      rw [show own t p.world.log = [] from hnil] at hmem
      exact absurd hmem List.not_mem_nil
    · rcases hor with ht' | hne
      · rcases List.mem_append.mp ht' with ht' | ht'
        · obtain ⟨primary', ns', k', hprog', hne⟩ := out_of_astray ht'
          rw [hprog] at hprog'
          cases hprog'
          exact absurd hasks.primary hne
        · exact absurd hasks.first (h.begun t ht')
      · exact absurd hasks.primary.symm hne
  · have hout := h.out t primary ns k (by rw [← Pool.progs_of_fire hf ht hne]; exact hprog)
    have hturns : Turns t' s.pool.world p.world := hbase.2
    refine hout.mono hjobs hlog (fun hdone => hout.live ((hturns.finished t hne).mp hdone))
      fun hor => ?_
    have hnone : polledIn s.pool.world p.world = none := by
      rw [polledIn_of_fire hf ht]
      cases hin : incoming s.pool m with
      | none => rfl
      | some x =>
          -- Two polls would be out.
          have htask := (out_of_incoming hin).1
          rw [ht, ← lone_of_out h hh hout hin] at htask
          exact absurd (Option.some.inj htask).symm hne
    rcases hwatch.drops.unpolled hnone with hsame | hnil
    · exact clear_of_strayed hout hprog hsame hor
    · exact hnil

/-- A poll that comes in. -/
theorem Recorded.poll {x : Incoming} {ts keep : Time} (h : Recorded cfg s)
    (hout : Out s x.tick x.primary)
    (hok : x.tick ∈ s.strayed → ∀ old ∈ x.primary, s.state.primary = some old →
      cfg.against old (cfg.observation x.primary x.nodes x.answer s.state.time) = false)
    (hpolls : s'.polls =
      (cfg.observation x.primary x.nodes x.answer ts, decide (x.tick ∉ s.strayed)) :: s.polls)
    (hhistory : s'.state.history =
      (s.state.observed (cfg.observation x.primary x.nodes x.answer ts) keep).history)
    (hprimary : s'.state.primary = s.state.primary) : Recorded cfg s' := by
  have hsuffix : s'.state.history <:+
      s.state.history ++ [cfg.observation x.primary x.nodes x.answer ts] := by
    rw [hhistory]
    exact List.dropWhile_suffix _
  have hlength := hsuffix.length_le
  rw [List.length_append, List.length_singleton] at hlength
  refine ⟨?_, fun hle y hy => ?_, fun y hy old hold hrecorded hagainst => ?_⟩
  · refine (List.reverse_prefix.mpr hsuffix).trans ?_
    rw [List.reverse_append, hpolls]
    exact List.prefix_cons_inj _ |>.mpr h.polls
  · rw [hpolls] at hy
    cases hy
    -- The history was not empty, so the poll has not strayed.
    by_contra hne
    have hnil := hout.clear (.inr fun heq => hne (heq.symm.trans hprimary.symm))
    rw [hnil] at hlength
    exact absurd (hle.trans hlength) (by decide)
  · rw [hpolls] at hy
    rw [hprimary] at hold
    cases hk : s'.state.history.length with
    | zero =>
        rw [hk] at hy
        cases hy
    | succ n =>
        rw [hk, List.take_succ_cons] at hy
        rcases List.mem_cons.mp hy with rfl | hy
        · have hstay : x.tick ∉ s.strayed := by
            intro hstrayed
            have hfalse : cfg.against old (cfg.observation x.primary x.nodes x.answer ts) = false :=
              hok hstrayed old hrecorded hold
            rw [hfalse] at hagainst
            cases hagainst
          exact decide_eq_true hstay
        · refine h.steady y ?_ old hold hrecorded hagainst
          rw [hk] at hlength
          exact (List.take_subset_take_left _ (Nat.le_of_succ_le_succ hlength)) hy


/-- What a move of a task leaves of the history. -/
theorem recorded_of_task {t' : Nat} (h : Tracked cfg s)
    (hh : (tickBase.both (watching cfg)).Holds s.pool) (henv : environment s.pool m = true)
    (hf : s.pool.fire (body cfg) m = some p) (ht : m.task = some t') (hok : Attentive cfg s m) :
    Recorded cfg { pool := p, strayed := astray p ++ s.strayed, polls := s.after m p } := by
  have hwatch := (may_of_fire hh henv hf ht).2
  have hpolled := polledIn_of_fire hf ht
  rcases hwatch.drops with ⟨l, hl, hhistory, hprimary⟩ | hnil
  · unfold Gathers at hl
    rw [hpolled] at hl
    cases hin : incoming s.pool m with
    | none =>
        rw [hin] at hl
        refine h.recorded.keep ?_ (hhistory.trans hl) hprimary
        show s.after m p = s.polls
        unfold after
        rw [hin]
    | some x =>
        rw [hin] at hl
        obtain ⟨ts, keep, hobs, hl⟩ := hl
        obtain ⟨-, k, hprog⟩ := out_of_incoming hin
        refine h.recorded.poll (h.out _ _ _ _ hprog) (hok.2 x hin) ?_ (hhistory.trans hl) hprimary
        show s.after m p = _
        unfold after
        rw [hin, hobs]
  · exact .drop hnil

/-- Every move keeps it. -/
theorem Tracked.step (h : Tracked cfg s) (hh : (tickBase.both (watching cfg)).Holds s.pool)
    (hok : Attentive cfg s m) (hm : s.step cfg m = some s') : Tracked cfg s' := by
  obtain ⟨henv, hfire⟩ := Option.ite_none_right_eq_some.mp hm
  obtain ⟨p, hf, rfl⟩ := Option.map_eq_some_iff.mp hfire
  cases ht : m.task with
  | none => exact h.quiet (quiet_of_fire henv hf ht) ht
  | some t' =>
      have hadds : Adds t' s.pool.world p.world := (may_of_fire hh henv hf ht).1.1.1
      obtain ⟨l, hl, -⟩ := hadds.log
      have hout : ∀ t primary ns k, p.progs t = some (.await (.observe primary ns) k) →
          Out { pool := p, strayed := astray p ++ s.strayed, polls := s.after m p } t primary :=
        fun _ _ _ _ hprog => out_of_task h hh henv hf ht hprog
      exact ⟨hout, begun_of_strayed hout rfl h.begun ⟨l, hl.symm⟩,
        recorded_of_task h hh henv hf ht hok⟩

/-- In every attentive run they are. -/
theorem tracked_of_reach (h : Reach (step cfg) (Attentive cfg) (start cfg) s) : Tracked cfg s := by
  refine Reach.invariant (I := Tracked cfg) h ⟨nofun, nofun, ?_⟩ fun _ _ _ hrun hi hok hm =>
    hi.step (holds_of_reach hrun) hok hm
  exact .drop rfl

/-! ### The failover -/

/-- The begin of a failover is found in its segment. -/
theorem fails_of_begins (hh : (tickBase.both (watching cfg)).Holds s.pool)
    (hm : s.step cfg m = some s') (hbegins : s.begins s' = true) :
    ∃ t old, m.task = some t ∧ Fails cfg t old s.pool.world s'.pool.world := by
  obtain ⟨henv, hfire⟩ := Option.ite_none_right_eq_some.mp hm
  obtain ⟨p, hf, rfl⟩ := Option.map_eq_some_iff.mp hfire
  obtain ⟨hne, hop⟩ := Bool.and_eq_true_iff.mp hbegins
  have hne : s.state.op ≠ some .failover := by simpa using hne
  have hop : p.world.state.op = some .failover := eq_of_beq hop
  cases ht : m.task with
  | none =>
      have hsame : p.world.state.op = s.pool.world.state.op := by
        cases m with
        | start t | answer t f | wake t => cases ht
        | arrive j =>
            cases hf
            rfl
        | outside u =>
            cases hf
            obtain ⟨time, mono, rfl⟩ := clock_of_environment henv
            rfl
        | land t r | resend t r =>
            cases hf
            rfl
      exact absurd (hsame.symm.trans hop) hne
  | some t =>
      obtain ⟨old, hfails⟩ := (may_of_fire hh henv hf ht).2.begins hne hop
      exact ⟨t, old, rfl, hfails⟩

/-- A set on which a failover begins is not halted. -/
theorem Fails.running {old : Node} (h : Fails cfg t old s.pool.world p.world)
    (hh : (tickBase.both (watching cfg)).Holds s.pool) (hf : s.pool.fire (body cfg) m = some p)
    (ht : m.task = some t) (hok : Attentive cfg s m) : p.world.state.halted = false := by
  rw [h.halted]
  by_contra hhalted
  have hhalted : s.state.halted = true := (Bool.not_eq_false _).mp hhalted
  have hlook : looked t s.pool.world p.world = decided s.pool m := looked_of_fire hh hf ht
  have hdecided : (decided s.pool m).isSome = true := hlook ▸ h.look
  -- It has waited for the lock, so its verdict is on the history before the move.
  have hnone : incoming s.pool m = none := by
    cases hin : incoming s.pool m with
    | none => rfl
    | some x =>
        obtain ⟨htask, k, hprog⟩ := out_of_incoming hin
        cases m with
        | answer t' f =>
            cases htask
            have hleaves : s.pool.world.state.leaves = true := by
              rw [Ctl.leaves, show s.pool.world.state.halted = true from hhalted]
              rfl
            simp only [decided, hprog, hleaves, Bool.true_or, if_true] at hdecided
            cases hdecided
        | start | wake | arrive | outside | land | resend => cases hin
  have hgathers := h.gathers
  unfold Gathers at hgathers
  rw [polledIn_of_fire hf ht, hnone] at hgathers
  have hdead : (s.verdict cfg).dead = true := by
    have hdead := h.dead
    rw [show p.world.state.history = s.state.history from hgathers,
      show p.world.state.members = s.state.members from h.members] at hdead
    exact hdead
  have hcooldown := hok.1 hdecided hhalted hdead
  rw [show s.state.inCooldown = p.world.state.inCooldown from h.cooled.symm, h.cooldown]
    at hcooldown
  cases hcooldown

/-- A recorded observation with evidence against the primary is of a poll during which it was the
primary all along. -/
theorem Recorded.steady_of_mem {old : Node} {l : List Observation} (h : Recorded cfg s)
    (hold : s.state.primary = some old) (hl : l <+: s.state.history.reverse)
    (hevidence : ∀ ob ∈ l, ob.primary = some old ∧ cfg.against old ob = true) {i : Nat}
    {ob : Observation} (hi : l[i]? = some ob) : s.polls[i]? = some (ob, true) := by
  have hlt : i < l.length := (List.getElem?_eq_some_iff.mp hi).1
  have hpolls : (s.polls.map (·.1))[i]? = some ob := by
    obtain ⟨rest, hrest⟩ := hl.trans h.polls
    rw [← hrest, List.getElem?_append_left hlt, hi]
  obtain ⟨x, hx, rfl⟩ := Option.map_eq_some_iff.mp (List.getElem?_map ▸ hpolls)
  have hmem : x ∈ s.polls.take s.state.history.length := by
    have hlength := hl.length_le
    rw [List.length_reverse] at hlength
    refine List.mem_of_getElem? (i := i) ?_
    rw [List.getElem?_take_of_lt (Nat.lt_of_lt_of_le hlt hlength), hx]
  obtain ⟨hprimary, hagainst⟩ := hevidence x.1 (List.mem_of_getElem? hi)
  rw [hx, ← h.steady x hmem old hold hprimary hagainst]

/-- The newest observation is of the last poll. -/
theorem Recorded.head_of_getLast {last : Observation} (h : Recorded cfg s)
    (hlast : s.state.history.getLast? = some last) : ∃ x ∈ s.polls.head?, x.1 = last := by
  obtain ⟨rest, hrest⟩ := h.polls
  have hhead : (s.polls.map (·.1)).head? = some last := by
    rw [← hrest, List.head?_append, List.head?_reverse, hlast]
    rfl
  rw [List.head?_map] at hhead
  exact Option.map_eq_some_iff.mp hhead

/-- In every run whose moves meet the condition, a failover rests on evidence about the primary
that it replaces. -/
theorem grounded_of_attentive (h : Reach (step cfg) (Attentive cfg) (start cfg) s)
    (hok : Attentive cfg s m) (hm : s.step cfg m = some s') (hwindow : 0 < cfg.detectWindowS)
    (hbegins : s.begins s' = true) : ∃ old, Grounded s cfg s' old := by
  have hh := holds_of_reach h
  have hrecorded := ((tracked_of_reach h).step hh hok hm).recorded
  obtain ⟨t, old, ht, hfails⟩ := fails_of_begins hh hm hbegins
  obtain ⟨henv, hfire⟩ := Option.ite_none_right_eq_some.mp hm
  obtain ⟨p, hf, rfl⟩ := Option.map_eq_some_iff.mp hfire
  refine ⟨old, ?_⟩
  -- The verdict rests on two observations, and the newest is of ctl.primary.
  obtain ⟨last, primary, hlast, hprimary, habout⟩ := about_of_dead hfails.dead
  have hage := window_le_of_dead hlast hprimary hwindow hfails.dead
  have htwo := two_le_failing hlast hwindow hage
  have hsame : primary = old := by
    have hprefix : failing p.world.state.history primary <+: p.world.state.history.reverse :=
      List.takeWhile_prefix _
    have hle := hprefix.length_le
    rw [List.length_reverse] at hle
    obtain ⟨x, hx, hfirst⟩ := hrecorded.head_of_getLast hlast
    have hnewest := hrecorded.newest (htwo.trans hle) x hx
    rw [hfirst, hprimary] at hnewest
    exact Option.some.inj (hnewest.trans hfails.primary)
  subst hsame
  exact
    { replaced := hfails.opens
      primary := hfails.primary
      dead := hfails.dead
      about := habout
      halted := hfails.running hh hf ht hok
      cooldown := hfails.cooldown
      probes := fun i ob hi => hrecorded.steady_of_mem hfails.primary (List.takeWhile_prefix _)
        (fun _ hob => against_of_failing hob) hi
      votes := fun hmode i ob hi => hrecorded.steady_of_mem hfails.primary
        (List.takeWhile_prefix _) (fun _ hob => against_of_outvoted hmode hob) hi }

end

/-! ### Runs -/

instance (cfg : Config) (s : Watching) (m : Move sig) : Decidable (Attentive cfg s m) :=
  inferInstanceAs (Decidable (((decided s.pool m).isSome = true → s.state.halted = true →
    (s.verdict cfg).dead = true → s.state.inCooldown = true) ∧
    ∀ x ∈ incoming s.pool m, x.tick ∈ s.strayed → ∀ old ∈ x.primary, s.state.primary = some old →
      cfg.against old (cfg.observation x.primary x.nodes x.answer s.state.time) = false))

/-- Two polls have found `a` dead, and the third one is out. -/
def polledTwice : Watching :=
  Machine.run (step fleet) (start fleet) ((untilFailover orphaned).dropLast)

/-- The failover of the example has its ground. -/
theorem grounded_of_attentive_dead :
    ∃ old, Grounded polledTwice fleet
      (Machine.run (step fleet) polledTwice [.answer 3 (succeed false orphaned)]) old :=
  grounded_of_attentive
    (Machine.reach_run_of_obeys (by decide +kernel) (by decide +kernel)) (by decide +kernel)
    (Machine.step_eq_run (by decide +kernel)) (by decide) (by decide +kernel)

/-- The poll comes in between a rejoin request that gives the lock back and another one that
waits for it, so the tick waits, too. Meanwhile the set is halted. -/
def haltedMeanwhile : Watching :=
  Machine.run (step fleet) polledTwice
    [.arrive (.rejoin "b"), .start 4, .arrive (.rejoin "c"), .start 5,
      .answer 4 (succeed true fun _ => down), .answer 3 (succeed false orphaned), .wake 5,
      .arrive (.halt none), .start 6, .answer 5 (succeed true fun _ => down)]

/-- A switchover between the two: `c` streams from the new primary already. -/
def handover (old new : Node) : Node → Except String StatusBody := fun n =>
  if n = old then primaryStatus 5
  else if n = new then replicaStatus old 5 5
  else if n = "c" then replicaStatus new 5 5
  else down

/-- While a poll of `a` is out, the set is switched over to `b` and back. Then the poll comes in,
and two more find `a` dead. -/
def cameBack : Watching :=
  Machine.run (step fleet) (start fleet)
    (discovery settled ++
      [.outside (.clock 1000 1000), .arrive .tick, .start 1,
        .arrive (.switchover (some "b")), .start 2] ++
      List.replicate 10 (.answer 2 (succeed true (handover "a" "b"))) ++
      [.start 3, .answer 3 (succeed true (handover "a" "b")),
        .arrive (.switchover (some "a")), .start 4] ++
      List.replicate 10 (.answer 4 (succeed true (handover "b" "a"))) ++
      [.answer 1 (succeed false orphaned),
        .outside (.clock 4000 4000), .arrive .tick, .start 6, .answer 6 (succeed false orphaned),
        .outside (.clock 7000 7000), .arrive .tick, .start 7])

/-- A tick gets the lock of a halted set, and fails it over. Another one rests on three polls, and
`a` was not the primary all along the first of them. -/
theorem failover_ungrounded :
    (Reach (step fleet) Machine.Free (start fleet) haltedMeanwhile ∧
      (haltedMeanwhile.step fleet (.wake 3)).any fun s' =>
        haltedMeanwhile.begins s' && s'.state.halted) ∧
    (Reach (step fleet) Machine.Free (start fleet) cameBack ∧
      (cameBack.step fleet (.answer 7 (succeed false orphaned))).any fun s' =>
        cameBack.begins s' && s'.state.primary == some "a" &&
          (failing s'.state.history "a").length == 3 && s'.polls[2]?.any fun x => !x.2) :=
  ⟨⟨(Machine.reach_run (by decide +kernel)).trans (Machine.reach_run (by decide +kernel)),
    by decide +kernel⟩, Machine.reach_run (by decide +kernel), by decide +kernel⟩

end Watching

end DbGuard
