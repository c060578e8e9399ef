import DbGuard.Degrading
import DbGuard.Proofs.Script
import DbGuard.Proofs.Ticks

/-!
# `DbGuard.Proofs.Healthy`: what HEALTHY rests on

A tick moves the set to HEALTHY when its poll shows the primary writable and enough members
streaming from it. The poll is still the last one then, and the primary still the same, also
when the tick had to wait for the lock. It counts the member list, so a member that is listed
twice counts twice.

A switchover at its end or when it gives up, and a resume, move the set to HEALTHY without a
look, and no other task does. `healthy_shown` is the result for runs without these moves, and
`healthy_without_replicas` a switchover that gives up on a set with one of two replicas.
-/

set_option autoImplicit false

namespace DbGuard

open Coop (Prog Pool Move World Contract Adds Grows frame)

/-- The last poll shows that the primary takes writes, and that enough distinct members stream
from it. -/
def Ctl.shownHealthy (cfg : Config) (s : Ctl) : Bool :=
  match s.lastObs, s.primary with
  | some ob, some primary =>
    (ob.nodes.get? primary).any (·.writable) &&
      decide (cfg.configuredReplicas ≤ (s.streaming ob primary).dedup.length)
  | _, _ => false

/-- The set's state becomes HEALTHY. -/
def turnsHealthy (s s' : Ctl) : Bool := s.st.state != .healthy && s'.st.state == .healthy

/-- The direct moves to HEALTHY, of a switchover and of a resume, are not taken, and a tick that
turns the set HEALTHY finds no member listed twice. -/
def byTick (p : Pool sig) (m : Move sig) (p' : Pool sig) : Bool :=
  !turnsHealthy p.world.state p'.world.state ||
    match m.task.bind (p.world.jobs[·]?) with
    | some .tick => decide p.world.state.members.Nodup
    | some (.switchover _) | some .resume => false
    | _ => true

/-! ### Changes that do not lead to HEALTHY -/

/-- The change does not move the set to HEALTHY. -/
def Update.Calm : Update → Prop
  | .goTo new _ _ _ => new ≠ .healthy
  | .resume => False
  | _ => True

/-- A move to another state leads there or nowhere. -/
theorem state_goTo (s : Ctl) (new : State) (note : Option String) (emit : Bool)
    (detect : Option Detect) :
    (s.goTo new note emit detect).st.state = s.st.state ∨
      (s.goTo new note emit detect).st.state = new := by
  unfold Ctl.goTo
  dsimp only
  split
  · exact .inl rfl
  · split
    · exact .inl rfl
    · split
      · exact .inl rfl
      · split <;> exact .inr rfl

/-- A calm change does not lead to HEALTHY. -/
theorem state_apply {u : Update} (hu : u.Calm) {s : Ctl}
    (h : (u.apply s).st.state = .healthy) : s.st.state = .healthy := by
  cases u with
  | goTo new note emit detect =>
      rcases state_goTo s new note emit detect with hsame | hnew
      · exact hsame ▸ h
      · exact absurd (hnew.symm.trans h) hu
  | halt reason =>
      rcases state_goTo s .halted (some reason) true none with hsame | hnew
      · exact hsame ▸ h
      · cases hnew.symm.trans h
  | resume => exact hu.elim
  | _ => exact h

/-- The tasks that never move the set to HEALTHY. -/
def Job.Calm : Job → Prop
  | .tick | .switchover _ | .resume => False
  | _ => True

/-- A calm job makes calm changes only. -/
theorem task_calm (cfg : Config) (t : Nat) {j : Job} (hj : j.Calm) {u : Update}
    (hu : (taskVocabulary cfg t j).edits u) : u.Calm := by
  cases u with
  | goTo new note emit detect =>
      cases j with
      | tick | switchover | resume => exact hj.elim
      | rejoin => rcases hu with h | h <;> exact h.elim
      | rebuildAndJoin => rcases hu with h | h <;> exact h.elim
      | replace =>
          rcases hu with h | h
          · exact h.elim
          · exact fun heq => by rw [show new = .rebuilding from h] at heq; cases heq
      | _ => exact hu.elim
  | resume =>
      cases j with
      | tick | switchover | resume => exact hj.elim
      | rejoin | rebuildAndJoin | replace => rcases hu with h | h <;> exact h.elim
      | _ => exact hu.elim
  | _ => trivial

/-! ### The contract -/

/-- What a segment of task `t` does to the state of the set. -/
def looking (cfg : Config) : Contract sig where
  inv _ := True
  rely _ _ _ := True
  allowed _ _ _ := True
  answers _ _ _ _ := True
  may t w₀ w := ∀ j, w₀.jobs[t]? = some j → turnsHealthy w₀.state w.state = true →
    ¬ j.Calm ∧ (j = .tick → w₀.state.members.Nodup → w.state.shownHealthy cfg = true)
  pre _ _ _ := True

/-- A segment so far of a task with job `j`. -/
structure Segments (t : Nat) (j : Job) (w₀ w : World sig) : Prop where
  job : w₀.jobs[t]? = some j
  jobs : w₀.jobs <+: w.jobs

/-- It has not moved the set to HEALTHY. -/
structure Calmly (t : Nat) (j : Job) (w₀ w : World sig) : Prop extends Segments t j w₀ w where
  calm : w.state.st.state = .healthy → w₀.state.st.state = .healthy

/-- A segment so far of a tick: it is calm, or the poll shows what it should. -/
structure Looked (cfg : Config) (t : Nat) (w₀ w : World sig) : Prop where
  job : w₀.jobs[t]? = some .tick
  looked : (w.state.st.state = .healthy → w₀.state.st.state = .healthy) ∨
    (w₀.state.members.Nodup → w.state.shownHealthy cfg = true)

section
variable {cfg : Config} {t : Nat} {j : Job} {w₀ w w' : World sig} {γ : Type} {m : M γ}

/-- A segment that has just begun. -/
theorem Segments.refl (hjob : w.jobs[t]? = some j) : Segments t j w w :=
  ⟨hjob, List.prefix_refl _⟩

/-- A task that it creates. -/
theorem Segments.spawn (h : Segments t j w₀ w) (j' : Job) : Segments t j w₀ (w.spawn t j') :=
  ⟨h.job, h.jobs.trans (List.prefix_append _ _)⟩

/-- The task keeps its job when it goes on. -/
theorem Segments.next (h : Segments t j w₀ w)
    (hr : (tickBase.upon (looking cfg)).rely t w w') : w'.jobs[t]? = some j := by
  refine hr.1.1.1.job ?_
  obtain ⟨l, hl⟩ := h.jobs
  rw [← hl, List.getElem?_append_left (List.getElem?_eq_some_iff.mp h.job).1, h.job]

/-- A segment that has just begun is calm. -/
theorem Calmly.refl (hjob : w.jobs[t]? = some j) : Calmly t j w w :=
  ⟨.refl hjob, fun h => h⟩

/-- A calm change. -/
theorem Calmly.edit {u : Update} (h : Calmly t j w₀ w) (hu : u.Calm) :
    Calmly t j w₀ (w.edit u) :=
  ⟨⟨h.job, h.jobs⟩, fun hs => h.calm (state_apply hu hs)⟩

/-- A record. -/
theorem Calmly.record (h : Calmly t j w₀ w) (e : Coop.Event sig) : Calmly t j w₀ (w.record e) :=
  ⟨⟨h.job, h.jobs⟩, h.calm⟩

/-- A task that it creates. -/
theorem Calmly.spawn (h : Calmly t j w₀ w) (j' : Job) : Calmly t j w₀ (w.spawn t j') :=
  ⟨h.toSegments.spawn j', h.calm⟩

/-- It is calm when it goes on. -/
theorem Calmly.next (h : Calmly t j w₀ w) (hr : (tickBase.upon (looking cfg)).rely t w w') :
    Calmly t j w' w' := .refl (h.toSegments.next hr)

/-- It is within what the contract allows. -/
theorem Calmly.may (h : Calmly t j w₀ w) : (looking cfg).may t w₀ w := by
  intro j' _ hturns
  simp only [turnsHealthy, Bool.and_eq_true, bne_iff_ne, ne_eq, beq_iff_eq] at hturns
  exact absurd (h.calm hturns.2) hturns.1

/-- A calm segment of a tick has looked as far as it had to. -/
theorem Calmly.looked (h : Calmly t .tick w₀ w) : Looked cfg t w₀ w := ⟨h.job, .inl h.calm⟩

/-- A tick that has looked is within what the contract allows. -/
theorem Looked.may (h : Looked cfg t w₀ w) : (looking cfg).may t w₀ w := by
  intro j hj hturns
  rw [h.job] at hj
  cases hj
  refine ⟨fun hcalm => hcalm, fun _ hnodup => ?_⟩
  simp only [turnsHealthy, Bool.and_eq_true, bne_iff_ne, ne_eq, beq_iff_eq] at hturns
  rcases h.looked with hcalm | hshown
  · exact absurd (hcalm hturns.2) hturns.1
  · exact hshown hnodup

/-- Calm words keep a segment calm. -/
theorem calmly_kept {V : Vocabulary} (hV : ∀ u, V.edits u → u.Calm) :
    V.Kept (tickBase.upon (looking cfg)) t j (Calmly t j) where
  edit h hu := h.edit (hV _ hu)
  await {w₀ w r} h _ _ := by
    have hissued := h.record (.issued t j r w.state)
    exact ⟨hissued.may, fun w' a _ hrely _ => (hissued.next hrely).record _⟩
  create h _ := h.spawn _
  nodeTask h _ _ := (h.spawn _).edit trivial
  maint h _ _ := (h.spawn _).edit trivial
  join h _ _ := h.edit trivial
  block _ h _ := ⟨h.may, fun w' _ hrely _ => h.next hrely⟩

/-- A program that never moves the set to HEALTHY. -/
theorem wp_calmly {V : Vocabulary} (hV : ∀ u, V.edits u → u.Calm) (hm : Speaks V m)
    (h : Calmly t j w₀ w) :
    m.wp (tickBase.upon (looking cfg)) t j (fun _ w₀ w => Calmly t j w₀ w) w₀ w :=
  (calmly_kept hV).wp hm h

end

/-! ### The tick -/

/-- A segment of a tick, so far, that has polled `ob` and not moved the set to HEALTHY. -/
structure Seen (ob : Observation) (t : Nat) (w₀ w : World sig) : Prop
    extends Calmly t .tick w₀ w where
  live : t ∉ w.state.finished
  lastObs : w.state.lastObs = some ob
  nodup : w₀.state.members.Nodup → w.state.members.Nodup

/-- The same once it has read the primary. -/
structure Keen (ob : Observation) (primary : Node) (t : Nat) (w₀ w : World sig) : Prop
    extends Seen ob t w₀ w where
  primary : w.state.primary = some primary

section
variable {cfg : Config} {t : Nat} {j : Job} {w₀ w w' : World sig} {γ : Type} {m : M γ}
  {ob : Observation} {primary : Node}

/-- What a tick has seen depends on its poll, on the members and on the state only. -/
theorem Seen.of_state (h : Seen ob t w₀ w) (hjobs : w.jobs <+: w'.jobs)
    (hstate : w'.state.st.state = w.state.st.state)
    (hfinished : w'.state.finished = w.state.finished)
    (hobs : w'.state.lastObs = w.state.lastObs)
    (hmembers : w.state.members.Nodup → w'.state.members.Nodup) : Seen ob t w₀ w' where
  job := h.job
  jobs := h.jobs.trans hjobs
  calm hs := h.calm (hstate ▸ hs)
  live := hfinished ▸ h.live
  lastObs := hobs.trans h.lastObs
  nodup hn := hmembers (h.nodup hn)

/-- So does what it is keen on. -/
theorem Keen.of_state (h : Keen ob primary t w₀ w) (hjobs : w.jobs <+: w'.jobs)
    (hst : w'.state.st = w.state.st) (hfinished : w'.state.finished = w.state.finished)
    (hobs : w'.state.lastObs = w.state.lastObs)
    (hmembers : w.state.members.Nodup → w'.state.members.Nodup) : Keen ob primary t w₀ w' where
  toSeen := h.toSeen.of_state hjobs (by rw [hst]) hfinished hobs hmembers
  primary := by
    show w'.state.st.primary = some primary
    rw [hst]
    exact h.primary

/-- A change of the repair. -/
theorem Keen.edit {u : Update} (h : Keen ob primary t w₀ w)
    (hu : (repairVocabulary cfg).edits u) : Keen ob primary t w₀ (w.edit u) := by
  have hsame : (u.apply w.state).st = w.state.st ∧
      (u.apply w.state).lastObs = w.state.lastObs ∧
      (u.apply w.state).members = w.state.members := by
    cases u <;> first | exact ⟨rfl, rfl, rfl⟩ | exact hu.elim
  refine h.of_state (List.prefix_refl _) hsame.1 (finished_apply u _) hsame.2.1 fun hn => ?_
  show (u.apply w.state).members.Nodup
  rw [hsame.2.2]
  exact hn

/-- A part of the repair. -/
theorem wp_keen_part (hm : (repairVocabulary cfg).StillPart γ m) (h : Keen ob primary t w₀ w) :
    m.wp (tickBase.upon (looking cfg)) t .tick (fun _ w₀ w => Keen ob primary t w₀ w) w₀ w := by
  cases hm with
  | ctl => exact h
  | edit hu => exact h.edit hu
  | nodeTask hj =>
      unfold spawnNodeTask
      rw [wp_look]
      split
      · exact h
      · exact h.of_state (List.prefix_append _ _) rfl rfl rfl fun hn => hn
  | join _ =>
      unfold joinMember
      rw [wp_look]
      split
      · exact h
      · rename_i n _ hn
        refine h.of_state (List.prefix_refl _) rfl rfl rfl fun hnodup => ?_
        -- The member is appended with a look.
        show (w.state.members ++ [n]).Nodup
        rw [List.nodup_append]
        refine ⟨hnodup, List.nodup_singleton n, fun a ha b hb => ?_⟩
        rw [List.mem_singleton.mp hb]
        rintro rfl
        exact hn ha

/-- The repairs of a tick. -/
theorem wp_keen (hm : Still (repairVocabulary cfg) m) (h : Keen ob primary t w₀ w) :
    m.wp (tickBase.upon (looking cfg)) t .tick (fun _ w₀ w => Keen ob primary t w₀ w) w₀ w :=
  Prog.wp_of_madeOf (fun _ _ hp _ _ hk => wp_keen_part hp hk) hm h

/-- What the repair changes is calm. -/
theorem repair_calm {u : Update} (hu : (repairVocabulary cfg).edits u) : u.Calm := by
  cases u <;> trivial

/-- What a cold start changes is calm. -/
theorem cold_calm {u : Update} (hu : coldVocabulary.edits u) : u.Calm := by
  cases u <;> trivial

/-- What a failover does, and it never moves the set to HEALTHY. -/
theorem failover_calm (old : Node) (v : Verdict) (h : Calmly t j w₀ w) :
    (failover cfg old v).wp (tickBase.upon (looking cfg)) t j
      (fun _ w₀ w => Calmly t j w₀ w) w₀ w := by
  let V : Vocabulary := { heldVocabulary cfg with edits := Update.Calm }
  have hlead : leadVocabulary.Le V :=
    { edits := fun u hu => by cases u <;> trivial
      awaits := fun _ _ => trivial
      creates := fun _ hj => hj
      nodeTasks := fun _ _ hj => hj.elim
      maints := fun _ _ hj => hj.elim
      joins := fun _ hn => hn.elim }
  have hspeaks : Speaks V (failover cfg old v) :=
    failover_speaks_of cfg old hlead trivial (fun _ => trivial) (fun _ _ _ => nofun)
      (fun _ _ _ => nofun) v
  exact wp_calmly (fun _ hu => hu) hspeaks h

/-- Where `reconcile` moves the set to HEALTHY, the poll shows it. -/
theorem Keen.shown (h : Keen ob primary t w₀ w)
    (hok : (ob.nodes.get? primary).any (·.writable) = true)
    (hcount : cfg.configuredReplicas ≤ (w.state.streaming ob primary).length)
    (hnodup : w₀.state.members.Nodup) : w.state.shownHealthy cfg = true := by
  have hdedup : (w.state.streaming ob primary).dedup = w.state.streaming ob primary :=
    List.dedup_eq_self.mpr ((h.nodup hnodup).filter _)
  simp only [Ctl.shownHealthy, h.lastObs, h.primary, hdedup, hok, hcount, decide_true,
    Bool.and_self]

/-- What the last poll shows does not depend on the state of the set. -/
theorem shownHealthy_congr {s s' : Ctl} (hobs : s'.lastObs = s.lastObs)
    (hprimary : s'.primary = s.primary) (hmembers : s'.members = s.members) :
    s'.shownHealthy cfg = s.shownHealthy cfg := by
  unfold Ctl.shownHealthy Ctl.streaming
  rw [hobs, hprimary, hmembers]

/-- A set that is not healthy by the poll does not become so. -/
theorem wp_reconcileUnhealthy_calmly (primaryOk : Bool) (healthy : List Node)
    (h : Calmly t j w₀ w) :
    (reconcileUnhealthy cfg ob primary primaryOk healthy).wp (tickBase.upon (looking cfg)) t j
      (fun _ w₀ w => Calmly t j w₀ w) w₀ w := by
  have hdegrade : ∀ since w₀ w, Calmly t j w₀ w →
      (degrade cfg ob primary primaryOk healthy since).wp (tickBase.upon (looking cfg)) t j
        (fun _ w₀ w => Calmly t j w₀ w) w₀ w := by
    intro since w₀ w h
    unfold degrade
    rw [wp_look]
    split
    · exact h.edit (u := .goTo .rebuilding _ true none) nofun
    · split
      · exact h.edit (u := .goTo .degraded _ true none) nofun
      · exact h
  unfold reconcileUnhealthy
  rw [wp_look, wp_edit]
  refine Prog.wp_seq (hdegrade _ _ _ (h.edit trivial)) fun _ w₀ w h => ?_
  rw [wp_look]
  split
  · exact wp_calmly (fun _ hu => repair_calm hu) (maybeReplace_speaks cfg ob healthy) h
  · exact h

/-- The reconciliation turns the set HEALTHY only upon what its poll shows. -/
theorem wp_reconcile_looked (h : Keen ob primary t w₀ w) :
    (reconcile cfg ob primary).wp (tickBase.upon (looking cfg)) t .tick
      (fun _ w₀ w => Looked cfg t w₀ w) w₀ w := by
  unfold reconcile
  refine Prog.wp_seq (wp_keen (adoptSpare_still cfg ob) h) fun _ w₀ w h => ?_
  refine Prog.wp_seq (wp_keen (rejoinActions_still cfg ob) h) fun _ w₀ w h => ?_
  rw [wp_look]
  dsimp only
  split
  · rename_i hok
    obtain ⟨hprimary, -, hcount⟩ := hok
    rw [wp_edit]
    have h' : Keen ob primary t w₀ (w.edit (.unhealthySince none)) :=
      h.edit (show (repairVocabulary cfg).edits _ from trivial)
    split
    · exact h'.toCalmly.looked
    · refine ⟨h.job, .inr fun hnodup => ?_⟩
      -- The move to HEALTHY itself.
      have hshown := h.shown hprimary hcount hnodup
      refine Eq.trans (shownHealthy_congr ?_ ?_ ?_) hshown
      · exact lastObs_apply (by simp) _
      · exact (goTo_same _ _ _ _ _).primary
      · exact members_goTo _ _ _ _ _
  · exact Prog.wp_mono (fun _ _ _ h => Calmly.looked h) _ _ _
      (wp_reconcileUnhealthy_calmly _ _ h.toCalmly)

/-- The decision of a tick. -/
theorem wp_act_looked (v : Verdict) (h : Keen ob primary t w₀ w) :
    (act cfg ob primary v).wp (tickBase.upon (looking cfg)) t .tick
      (fun _ w₀ w => Looked cfg t w₀ w) w₀ w := by
  have hcalm := h.toCalmly
  unfold act
  rw [wp_look]
  split
  · split
    · split
      · exact hcalm.looked
      · rw [wp_edit]
        have hlogged := hcalm.edit (u := .cooldownLogged true) trivial
        exact (hlogged.edit (u := .goTo .suspect _ true none) nofun).looked
    · refine Prog.wp_seq (failover_calm primary v hcalm) fun _ w₀ w h => ?_
      exact h.looked
  · rw [wp_edit]
    have hedit : Keen ob primary t w₀ (w.edit (.cooldownLogged false)) :=
      h.edit (show (repairVocabulary cfg).edits _ from trivial)
    split
    · rw [wp_edit]
      have hsuspect := fun note =>
        hedit.toCalmly.edit (u := .goTo .suspect note true (some v.detect)) nofun
      split
      · exact Prog.wp_mono (fun _ _ _ h => Calmly.looked h) _ _ _
          (wp_calmly (fun _ hu => repair_calm hu) (rejoinActions_still cfg ob).speaks
            (hsuspect _))
      · exact (hsuspect _).looked
    · exact wp_reconcile_looked hedit

/-- A tick that sees no cold start has not suspended. -/
theorem wp_coldStartCheck_looked (h : Keen ob primary t w₀ w) :
    (coldStartCheck ob).wp (tickBase.upon (looking cfg)) t .tick
      (fun acted w₀ w => Calmly t .tick w₀ w ∧ (acted = false → Keen ob primary t w₀ w))
      w₀ w := by
  have hseen : ∀ k, Keen ob primary t w₀ (w.edit (.coldStartSeen k)) :=
    fun k => h.of_state (List.prefix_refl _) rfl rfl rfl fun hn => hn
  unfold coldStartCheck
  rw [wp_look]
  split
  · rw [wp_edit]
    exact ⟨h.toCalmly.edit trivial, fun hacted => by cases hacted⟩
  · rw [wp_edit]
    exact ⟨(hseen _).toCalmly, fun _ => hseen _⟩
  · split
    · rw [wp_edit]
      exact ⟨(hseen _).toCalmly, fun _ => hseen _⟩
    · rw [wp_edit]
      refine Prog.wp_seq (wp_calmly (fun _ hu => cold_calm hu) (coldStart_speaks _ _)
        (hseen 0).toCalmly) fun _ w₀ w h => ?_
      exact ⟨h, fun hacted => by cases hacted⟩

/-- What a tick does under the lock turns it HEALTHY only then. -/
theorem wp_tickLocked_looked (h : Seen ob t w₀ w) :
    (tickLocked cfg ob).wp (tickBase.upon (looking cfg)) t .tick
      (fun _ w₀ w => Looked cfg t w₀ w) w₀ w := by
  unfold tickLocked
  rw [wp_look]
  split
  · exact Prog.wp_mono (fun _ _ _ h => Calmly.looked h) _ _ _
      (wp_calmly (fun _ hu => cold_calm hu) (discover_speaks cfg ob) h.toCalmly)
  · rename_i primary hprimary
    have hkeen : Keen ob primary t w₀ w := ⟨h, hprimary⟩
    refine Prog.wp_seq (wp_coldStartCheck_looked hkeen) fun acted w₀ w h => ?_
    cases acted with
    | true => exact h.1.looked
    | false =>
        have h := h.2 rfl
        simp only [Bool.false_eq_true, if_false]
        rw [wp_look]
        exact Prog.wp_seq (wp_keen (checkStall_still cfg primary ob) h) fun _ w₀ w h =>
          wp_act_looked _ h

/-- The lock is no part of what the poll shows. -/
theorem Looked.release (h : Looked cfg t w₀ w) : Looked cfg t w₀ (w.edit .release) :=
  ⟨h.job, h.looked⟩

/-- The end of a segment. -/
theorem Looked.finish (h : Looked cfg t w₀ w) : (looking cfg).may t w₀ (w.finish t) :=
  Looked.may ⟨h.job, h.looked⟩

/-- The next segment of a tick that waits for the lock. -/
theorem Seen.next (h : Seen ob t w₀ w) (hr : (tickBase.upon (looking cfg)).rely t w w') :
    Seen ob t w' w' := by
  have hjob : w.jobs[t]? = some .tick := tick_of_jobs h.jobs h.job
  refine ⟨h.toCalmly.next hr, hr.1.2.live h.live, ?_, fun hn => hn⟩
  exact (hr.1.2.lastObs hjob h.live).trans h.lastObs

/-- The poll of a tick. -/
theorem wp_poll_seen (hjob : w.jobs[t]? = some .tick) (hlive : t ∉ w.state.finished) :
    (poll cfg).wp (tickBase.upon (looking cfg)) t .tick (fun ob w₀ w => Seen ob t w₀ w) w w := by
  unfold poll
  rw [wp_look, wp_await]
  intro _
  have hissued := (Calmly.refl hjob).record
    (.issued t .tick (.observe w.state.primary (w.state.allNodes cfg)) w.state)
  refine ⟨hissued.may, fun w' ans _ hr _ => ?_⟩
  rw [wp_edit]
  have hanswered := (hissued.next hr).record
    (.answered t (.observe w.state.primary (w.state.allNodes cfg)) ans)
  exact ⟨⟨⟨hanswered.job, hanswered.jobs⟩, hanswered.calm⟩, hr.1.2.live hlive, rfl, fun hn => hn⟩

/-- A whole tick turns the set HEALTHY only upon its own poll. -/
theorem wp_tick_looked (hjob : w.jobs[t]? = some .tick) (hlive : t ∉ w.state.finished) :
    (tick cfg t).wp (tickBase.upon (looking cfg)) t .tick
      (fun _ w₀ w => Looked cfg t w₀ w) w w := by
  have hlocked : ∀ (ob : Observation) w₀ w, Seen ob t w₀ w →
      (tickLocked cfg ob >>= fun a => edit .release >>= fun _ => pure a).wp
        (tickBase.upon (looking cfg)) t .tick (fun _ w₀ w => Looked cfg t w₀ w) w₀ w :=
    fun ob w₀ w h => Prog.wp_seq (wp_tickLocked_looked h) fun _ w₀ w h => h.release
  have hlock : ∀ {ob : Observation} {w₀ w : World sig} (u : Update), Seen ob t w₀ w →
      u = .acquire t ∨ u = .enqueue t → Seen ob t w₀ (w.edit u) := by
    rintro ob w₀ w u h (rfl | rfl) <;>
      exact h.of_state (List.prefix_refl _) rfl rfl rfl fun hn => hn
  unfold tick
  refine Prog.wp_seq (wp_poll_seen hjob hlive) fun ob w₀ w h => ?_
  rw [wp_look]
  split
  · exact h.toCalmly.looked
  · unfold withLock
    refine wp_acquire (fun _ => hlocked ob _ _ (hlock _ h (.inl rfl))) fun _ => ?_
    have hwait := hlock _ h (.inr rfl)
    exact ⟨hwait.toCalmly.may, fun w' _ hr _ => hlocked ob _ _ (hlock _ (hwait.next hr) (.inl rfl))⟩

end

/-! ### Switchovers and resumes -/

section
variable {cfg : Config} {t : Nat} {j : Job} {w₀ w : World sig}

/-- A switchover and a resume may move the set to HEALTHY. -/
theorem Segments.may (h : Segments t j w₀ w) (hj : ¬ j.Calm) (htick : j ≠ .tick) :
    (looking cfg).may t w₀ w := by
  intro j' hj' _
  rw [h.job] at hj'
  cases hj'
  exact ⟨hj, fun heq => absurd heq htick⟩

/-- The other tasks are not bound. -/
theorem segments_kept {V : Vocabulary} (hj : ¬ j.Calm) (htick : j ≠ .tick) :
    V.Kept (tickBase.upon (looking cfg)) t j (Segments t j) where
  edit h _ := ⟨h.job, h.jobs⟩
  await {w₀ w r} h _ _ := by
    have hissued : Segments t j w₀ (w.issue t j r) := ⟨h.job, h.jobs⟩
    refine ⟨hissued.may hj htick, fun w' a _ hrely _ => ?_⟩
    exact ⟨hissued.next hrely, List.prefix_refl _⟩
  create h _ := h.spawn _
  nodeTask h _ _ := ⟨h.job, (h.spawn _).jobs⟩
  maint h _ _ := ⟨h.job, (h.spawn _).jobs⟩
  join h _ _ := ⟨h.job, h.jobs⟩
  block _ h _ := ⟨h.may hj htick, fun w' _ hrely _ => .refl (h.next hrely)⟩

end

/-! ### The runs -/

/-- Every task keeps the contract. -/
theorem looking_sound (cfg : Config) {ok : Pool sig → Move sig → Pool sig → Prop} :
    tickBase.SoundOver (looking cfg) (body cfg) ok where
  rely_refl _ _ := trivial
  rely_trans _ _ _ _ _ _ := trivial
  rely_of_may _ _ _ _ _ _ _ _ _ := trivial
  rely_arrive _ _ _ _ _ _ := trivial
  rely_outside _ _ _ _ _ _ := trivial
  rely_land _ _ _ _ _ _ _ := trivial
  rely_resend _ _ _ _ _ _ _ := trivial
  inv_may _ _ _ _ _ _ _ := trivial
  inv_arrive _ _ _ _ _ := trivial
  inv_outside _ _ _ _ _ := trivial
  inv_land _ _ _ _ _ _ := trivial
  inv_resend _ _ _ _ _ _ := trivial
  pre_rely _ _ _ _ _ _ _ := trivial
  pre_may _ _ _ _ _ _ _ _ _ _ _ := trivial
  pre_arrive _ _ _ _ _ := trivial
  allowed_start _ _ _ _ := trivial
  allowed_answer _ _ _ _ _ := trivial
  allowed_wake _ _ _ _ := trivial
  answers_ok _ _ _ _ _ _ _ _ := trivial
  body_wp t j w _ _ hjob hpre _ := by
    -- A tick has looked before it says healthy.
    by_cases htick : j = .tick
    · subst htick
      refine Prog.wp_mono (fun _ _ _ h => ?_) _ _ _ (wp_tick_looked hjob hpre.2)
      exact fun _ => Looked.finish h
    -- A calm task does not say it, and any other one does so in its own segment.
    · by_cases hcalm : j.Calm
      · refine Prog.wp_mono (fun _ _ _ h => ?_) _ _ _
          (wp_calmly (fun _ hu => task_calm cfg t hcalm hu) (body_speaks_task cfg t j)
            (.refl hjob))
        exact fun _ => Calmly.may ⟨⟨h.job, h.jobs⟩, h.calm⟩
      · refine Prog.wp_mono (fun _ _ _ h => ?_) _ _ _
          ((segments_kept hcalm htick).wp (body_speaks_task cfg t j) (.refl hjob))
        exact fun _ => Segments.may ⟨h.job, h.jobs⟩ hcalm htick

/-- In every run in which no switchover and no resume moves the set to HEALTHY, and a tick that
does finds no member listed twice: whenever the set becomes HEALTHY, the last poll shows it. -/
theorem healthy_shown (cfg : Config) {p p' : Pool sig} {m : Move sig}
    (hp : Runs cfg (fun p m p' => byTick p m p' = true) p)
    (henv : environment p m = true) (hf : p.fire (body cfg) m = some p')
    (htick : byTick p m p' = true)
    (hturns : turnsHealthy p.world.state p'.world.state = true) :
    p'.world.state.shownHealthy cfg = true := by
  have hbase : tickBase.Sound (body cfg)
      fun p m p' => environment p m = true ∧ byTick p m p' = true :=
    tickBase_sound cfg fun _ _ _ h => h.1
  have hsound := hbase.both (looking_sound cfg)
  have hholds := holds_of_ticks (looking_sound cfg) trivial hp
  cases htask : m.task with
  | none =>
      -- The environment does not change the state of the set.
      exfalso
      simp only [turnsHealthy, Bool.and_eq_true, bne_iff_ne, ne_eq, beq_iff_eq] at hturns
      cases m with
      | start | answer | wake => cases htask
      | arrive j =>
          cases hf
          exact hturns.1 hturns.2
      | outside u =>
          obtain ⟨time, mono, rfl⟩ := clock_of_environment henv
          cases hf
          exact hturns.1 hturns.2
      | land t r | resend t r =>
          cases hf
          exact hturns.1 hturns.2
  | some t =>
      have hmay := hsound.may_of_fire hholds hf ⟨henv, htick⟩ htask
      obtain ⟨j, hjob⟩ := Pool.job_of_fire hf htask
      obtain ⟨hj, hlooked⟩ := hmay.2 j hjob hturns
      simp only [byTick, hturns, Bool.not_true, Bool.false_or] at htick
      rw [htask, Option.bind_some, hjob] at htick
      cases j with
      | tick => exact hlooked rfl (of_decide_eq_true htick)
      | switchover target | resume => cases htick
      | _ => exact absurd trivial hj

/-- The second tick finds the primary and both replicas in place. -/
theorem settled_turns_healthy :
    ∃ p p' : Pool sig, p.fire (body fleet) (.answer 1 (succeed true settled)) = some p' ∧
      turnsHealthy p.world.state p'.world.state = true ∧
      p'.world.state.shownHealthy fleet = true := by
  obtain ⟨p, p', hp, henv, hf, htick, hturns⟩ := exists_fired fleet byTick
    (discovery settled ++ [.outside (.clock 1000 1000), .arrive .tick, .start 1])
    (.answer 1 (succeed true settled))
    (fun p p' => turnsHealthy p.world.state p'.world.state) (by decide +kernel)
  exact ⟨p, p', hf, hturns, healthy_shown fleet hp henv hf htick hturns⟩

/-- `a` is the primary, `b` its only replica. -/
def lonely : Node → Except String StatusBody := fun n =>
  if n = "a" then primaryStatus 5 else if n = "b" then replicaStatus "a" 5 5 else down

/-- Every request succeeds, but for the fence. -/
def unfenced : (r : Req) → r.Resp
  | .fence _ => .error { text := "timeout" }
  | r => succeed true lonely r

/-- The set is DEGRADED when a switchover begins, which waits for the answer of its fence. -/
def untilFence : List (Move sig) :=
  discovery lonely ++
  [.outside (.clock 1000 1000), .arrive .tick, .start 1, .answer 1 (succeed true lonely),
   .outside (.clock 4000 4000), .arrive .tick, .start 2, .answer 2 (succeed true lonely),
   .arrive (.switchover none), .start 3, .answer 3 unfenced, .answer 3 unfenced,
   .answer 3 unfenced]

/-- A switchover that cannot quiesce the primary changes nothing, and leaves the set HEALTHY
with one of two replicas. -/
theorem healthy_without_replicas :
    ¬ ∀ (cfg : Config) (p p' : Pool sig) (m : Move sig), Runs cfg (fun _ _ _ => True) p →
      environment p m = true → p.fire (body cfg) m = some p' →
      turnsHealthy p.world.state p'.world.state = true →
      p'.world.state.shownHealthy cfg = true := by
  intro h
  obtain ⟨p, p', hp, henv, hf, -, hshows⟩ := exists_fired fleet (fun _ _ _ => true) untilFence
    (.answer 3 unfenced)
    (fun p p' => turnsHealthy p.world.state p'.world.state &&
      !p'.world.state.shownHealthy fleet) (by decide +kernel)
  obtain ⟨hturns, hnot⟩ := Bool.and_eq_true_iff.mp hshows
  rw [h fleet p p' _ (hp.mono fun _ _ _ ho => ⟨ho.1, trivial⟩) henv hf hturns] at hnot
  cases hnot

end DbGuard
