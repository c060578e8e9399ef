import DbGuard.Agent.Sessions
import DbGuard.Coop.Beside
import DbGuard.Proofs.Agent.RoleLock
import DbGuard.Proofs.Agent.Script

/-!
# `DbGuard.Proofs.Agent.Sessions`: when configure releases nobody

Nobody enters the semi-sync wait while mysqld is read-only, and nobody waits when it becomes
read-only (`Unwaited.quiet`). So a configure that goes on to switch the source side off while
super_read_only=1 releases nobody: it holds the role lock, so mysqld stays read-only until the
SET is executed (`Unwaited.sent`).

The count of waiting sessions that configure reads is of another moment. On a writable mysqld a
commit can enter between the count and the SET, and `switchesOff_with_session` is a run in which
it does.
-/

set_option autoImplicit false

namespace DbGuard

namespace Agent

namespace Served

open Coop (Prog Pool Move World Contract frame)
open Machine (Reach)

/-! ### The condition and the invariant -/

/-- A configure sends the SET that switches the source side off only while super_read_only=1. Of
the SETs that were given up, mysqld executes none with super_read_only=0 while that SET is on
its way, and switches the source side off by none while it is writable. -/
def Decided (node : Node) (s : Served) : Turn → Prop
  | .agent m =>
    (∀ t ∈ m.task, ∀ p' ∈ s.pool.fire (body node) m,
      switching p' t = true → s.mysqld.superReadOnly = true) ∧
    (s.landed m = some (.superReadOnly false) →
      ∀ t < s.pool.world.jobs.length, switching s.pool t = false) ∧
    (s.landed m = some (.sourceEnabled false) → s.mysqld.superReadOnly = true)
  | .enter | .leave => True

/-- While mysqld is read-only nobody waits. It is read-only while a configure's SET is on its
way. -/
structure Unwaited (s : Served) : Prop where
  quiet : s.mysqld.superReadOnly = true → s.waiting = 0
  sent : ∀ t, switching s.pool t = true → s.mysqld.superReadOnly = true

section
variable {node : Node} {s s' : Served} {p : Pool sig} {t t' : Nat}

/-! ### A configure's SET -/

/-- A configure that switches has its SET on its way, to this start of mysqld and not executed. -/
theorem of_switching (h : switching p t = true) :
    (∃ b, p.world.jobs[t]? = some (.configure b)) ∧ ∃ c, p.world.state.calls t = some c ∧
      c.stmt = .sourceEnabled false ∧ c.row = none ∧ c.gen = p.world.state.mysqld.gen := by
  rw [switching, Bool.and_eq_true] at h
  obtain ⟨hj, hc⟩ := h
  refine ⟨?_, ?_⟩
  · split at hj
    · exact ⟨_, by assumption⟩
    · cases hj
  · obtain ⟨c, hc, h⟩ := (Option.any_eq_true _ _).mp hc
    simp only [Bool.and_eq_true, beq_iff_eq, Option.isNone_iff_eq_none] at h
    exact ⟨c, hc, h.1.1, h.1.2, h.2⟩

/-- And the other way round. -/
theorem switching_of {b : Option Bool} {c : Call} (hj : p.world.jobs[t]? = some (.configure b))
    (hc : p.world.state.calls t = some c) (hq : c.stmt = .sourceEnabled false)
    (hrow : c.row = none) (hgen : c.gen = p.world.state.mysqld.gen) : switching p t = true := by
  rw [switching, hj, hc]
  simp [hq, hrow, hgen]

/-- It has started. -/
theorem lt_of_switching (h : switching p t = true) : t < p.world.jobs.length := by
  obtain ⟨⟨b, hj⟩, -⟩ := of_switching h
  exact (List.getElem?_eq_some_iff.mp hj).1

/-- The configure whose SET is on its way holds the role lock. -/
theorem holder_of_switching (ho : Ordered p.world) (h : switching p t = true) :
    p.world.state.holder = some t := by
  obtain ⟨⟨b, hj⟩, c, hc, hq, -⟩ := of_switching h
  rcases ho.said t c hc with hown | ⟨-, hfence⟩
  · exact hown
  · rw [hq] at hfence
    exact absurd hfence (by decide)

/-! ### The runs of the tasks -/

/-- At the start nobody waits. -/
theorem unwaited_start (semisync supervised fenced : Bool) :
    (start semisync supervised fenced).Unwaited :=
  ⟨fun _ => rfl, fun t h => absurd (lt_of_switching h) (Nat.not_lt_zero t)⟩

/-- The tasks run as those of an agent, so their contract holds. -/
theorem turning_of_reach {semisync supervised fenced : Bool} {ok : Served → Turn → Prop}
    (h : Reach (step node) ok (start semisync supervised fenced) s) :
    ((frame sig).both turning).Holds s.pool := by
  refine turning_holds node (fun _ => rfl) rfl rfl (fun _ _ _ h => h)
    (Coop.Reach.of_machine Served.pool
      (fun s m s' _ hm => ?_) h)
  cases m with
  | agent m =>
      obtain ⟨henv, hfire⟩ := Option.ite_none_right_eq_some.mp hm
      obtain ⟨p, hp, rfl⟩ := Option.map_eq_some_iff.mp hfire
      rw [Bool.and_eq_true] at henv
      exact .inr ⟨m, hp, henv.1⟩
  | enter | leave =>
      obtain ⟨-, ⟨⟩⟩ := Option.ite_none_right_eq_some.mp hm
      exact .inl rfl

/-! ### What each move keeps -/

/-- A segment of a task. -/
theorem Unwaited.segment (h : s.Unwaited) {m : Move sig} {p' : Pool sig}
    (hh : ((frame sig).both turning).Holds s.pool) (henv : environment s.pool m = true)
    (hok : Decided node s (.agent m)) (hf : s.pool.fire (body node) m = some p')
    (ht : m.task = some t) : Unwaited { pool := p', waiting := s.waiting } := by
  have hsound := turnBase_sound node fun _ _ _ h => h
  obtain ⟨hadds, hturn⟩ := hsound.may_of_fire hh hf henv ht
  have hsro : p'.world.state.mysqld.superReadOnly = s.mysqld.superReadOnly :=
    hturn.turns.superReadOnly
  refine ⟨fun hro => h.quiet (hsro.symm.trans hro), fun t' hsw => hsro.trans ?_⟩
  by_cases hne : t' = t
  · subst hne
    exact hok.1 t' ht p' hf hsw
  · -- The SET of another task was on its way before.
    obtain ⟨⟨b, hj⟩, c, hc, hq, hrow, hgen⟩ := of_switching hsw
    have hlt : t' < s.pool.world.jobs.length := by
      by_contra hge
      rw [(hturn.unborn hh.inv.2 hne (Nat.le_of_not_lt hge)).1] at hc
      cases hc
    have hjob : s.pool.world.jobs[t']? = some (.configure b) := by
      rw [← hj]
      exact (List.prefix_iff_getElem?.mp hadds.jobs t' hlt ▸ List.getElem?_eq_getElem hlt)
    rw [hturn.turns.calls t' hne] at hc
    exact h.sent t' (switching_of hjob hc hq hrow (hgen.trans hturn.turns.gen))

/-- mysqld executes a statement `q`. If it sets super_read_only=1, nobody waits. If a configure's
SET is on its way, it does not set super_read_only=0. -/
theorem Unwaited.statement (h : s.Unwaited) {q : Stmt} {n : Nat}
    (hmysqld : p.world.state.mysqld = s.mysqld.exec q) (hle : n ≤ s.waiting)
    (hclose : q = .superReadOnly true → s.waiting = 0)
    (hopen : ∀ t, switching p t = true → switching s.pool t = true ∧ q ≠ .superReadOnly false) :
    Unwaited { pool := p, waiting := n } := by
  have hsro : (mysqld { pool := p, waiting := n }).superReadOnly = (s.mysqld.exec q).superReadOnly :=
    congrArg Mysqld.superReadOnly hmysqld
  rcases s.mysqld.superReadOnly_exec q with ⟨b, rfl, hb⟩ | ⟨-, hsame⟩
  · -- The statement sets super_read_only.
    rw [hb] at hsro
    refine ⟨fun hro => ?_, fun t hsw => ?_⟩
    · have hzero := hclose (congrArg Stmt.superReadOnly (hsro.symm.trans hro))
      show n = 0
      omega
    · cases b with
      | true => exact hsro
      | false => exact absurd rfl (hopen t hsw).2
  · rw [hsame] at hsro
    refine ⟨fun hro => ?_, fun t hsw => hsro.trans (h.sent t (hopen t hsw).1)⟩
    have hzero := h.quiet (hsro.symm.trans hro)
    show n = 0
    omega

/-- Fewer sessions wait after a move. -/
theorem stillWaiting_le (s : Served) (m : Move sig) : s.stillWaiting m ≤ s.waiting := by
  unfold stillWaiting
  split
  · omega
  · split <;> omega
  · omega

/-- A change from outside. -/
theorem Unwaited.outside (h : s.Unwaited) {u : Update}
    (hh : ((frame sig).both turning).Holds s.pool)
    (ho : s.pool.world.state.outside u = true) (hadm : s.admits (.outside u) = true)
    (hok : Decided node s (.agent (.outside u))) :
    Unwaited
      { pool := { s.pool with world := s.pool.world.edit u }
        waiting := s.stillWaiting (.outside u) } := by
  have hle := s.stillWaiting_le (.outside u)
  simp only [admits, Bool.and_eq_true, Bool.or_eq_true, bne_iff_ne, beq_iff_eq] at hadm
  have hclose : s.pool.world.state.executed u = some (.superReadOnly true) → s.waiting = 0 :=
    fun hq => hadm.1.resolve_left fun hne => hne hq
  cases u with
  | execute t row =>
      obtain ⟨c, hc, hgen, hrow, -⟩ := of_outside_execute ho
      have hs : (s.pool.world.edit (.execute t row)).state = _ := execute_of_call row hc
      have hexec : s.pool.world.state.executed (.execute t row) = some c.stmt := by
        simp [executed, hc]
      refine h.statement (congrArg Agent.mysqld hs) hle (fun hq => hclose (hexec.trans (by rw [hq])))
        fun t' hsw => ?_
      obtain ⟨⟨b, hj⟩, c', hc', hq, hrow', hgen'⟩ := of_switching hsw
      have hne : t' ≠ t := by
        rintro rfl
        have hself : some _ = some c' :=
          ((Function.update_self (f := s.pool.world.state.calls) t' _).symm.trans
            (congrArg (Agent.calls · t') hs).symm).trans hc'
        cases hself
        cases hrow'
      have hcalls : s.pool.world.state.calls t' = some c' :=
        ((congrArg (Agent.calls · t') hs).trans
          (Function.update_of_ne hne _ _)).symm.trans hc'
      have hbefore : switching s.pool t' = true :=
        switching_of hj hcalls hq hrow'
          (hgen'.trans ((congrArg (fun a => a.mysqld.gen) hs).trans (Mysqld.gen_exec _ _)))
      refine ⟨hbefore, fun hopens => ?_⟩
      -- A SET of super_read_only=0 is the holder's, and the holder is that configure.
      rcases hh.inv.2.said t c hc with hown | ⟨-, hfence⟩
      · have hboth := hown.symm.trans (holder_of_switching hh.inv.2 hbefore)
        exact hne (Option.some.inj hboth).symm
      · rw [hopens] at hfence
        exact absurd hfence (by decide)
  | land k =>
      obtain ⟨c, hc, -⟩ := of_outside_land ho
      have hs : (s.pool.world.edit (.land k)).state = _ := land_of_late hc
      have hexec : s.pool.world.state.executed (.land k) = some c.stmt := by
        simp [executed, hc]
      refine h.statement (congrArg Agent.mysqld hs) hle (fun hq => hclose (hexec.trans (by rw [hq])))
        fun t' hsw => ?_
      obtain ⟨⟨b, hj⟩, c', hc', hq, hrow', hgen'⟩ := of_switching hsw
      have hcalls : s.pool.world.state.calls t' = some c' :=
        (congrArg (Agent.calls · t') hs).symm.trans hc'
      have hbefore : switching s.pool t' = true :=
        switching_of hj hcalls hq hrow'
          (hgen'.trans ((congrArg (fun a => a.mysqld.gen) hs).trans (Mysqld.gen_exec _ _)))
      refine ⟨hbefore, fun hopens => ?_⟩
      have hnot := hok.2.1 (hexec.trans (by rw [hopens])) t' (lt_of_switching hbefore)
      rw [hbefore] at hnot
      cases hnot
  | boot b => exact ⟨fun _ => rfl, fun _ _ => rfl⟩
  | crash | expire t | disk b =>
      exact ⟨fun hro => Nat.le_zero.mp (le_trans hle (h.quiet hro).le), h.sent⟩
  | _ => cases ho

/-- Every move keeps it. -/
theorem Unwaited.step (h : s.Unwaited) (hh : ((frame sig).both turning).Holds s.pool) {m : Turn}
    (hok : Decided node s m) (hm : s.step node m = some s') : s'.Unwaited := by
  cases m with
  | agent m =>
      obtain ⟨henv, hfire⟩ := Option.ite_none_right_eq_some.mp hm
      obtain ⟨p, hp, rfl⟩ := Option.map_eq_some_iff.mp hfire
      rw [Bool.and_eq_true] at henv
      cases m with
      | start t | answer t f | wake t => exact h.segment (t := t) hh henv.1 hok hp rfl
      | arrive j =>
          cases hp
          refine ⟨h.quiet, fun t hsw => h.sent t ?_⟩
          obtain ⟨⟨b, hj⟩, c, hc, hq, hrow, hgen⟩ := of_switching hsw
          have hlt : t < s.pool.world.jobs.length := by
            by_contra hge
            have hnone := (hh.inv.2.new t (Nat.le_of_not_lt hge)).1
            exact absurd (hnone.symm.trans hc) (by simp)
          exact switching_of ((List.getElem?_append_left hlt).symm.trans hj) hc hq hrow hgen
      | outside u =>
          cases hp
          exact h.outside hh henv.1 henv.2 hok
      | land t r | resend t r => cases henv.1
  | enter =>
      obtain ⟨henter, ⟨⟩⟩ := Option.ite_none_right_eq_some.mp hm
      refine ⟨fun hro => ?_, h.sent⟩
      -- Nobody enters while mysqld is read-only.
      simp [canEnter, Mysqld.writable, show s.mysqld.superReadOnly = true from hro] at henter
  | leave =>
      obtain ⟨hpos, ⟨⟩⟩ := Option.ite_none_right_eq_some.mp hm
      refine ⟨fun hro => ?_, h.sent⟩
      have hzero := h.quiet hro
      show s.waiting - 1 = 0
      omega

/-- The invariant of every run that meets the condition. -/
theorem unwaited_of_reach {semisync supervised fenced : Bool}
    (h : Reach (Served.step node) (Decided node) (start semisync supervised fenced) s) :
    s.Unwaited :=
  h.invariant (unwaited_start _ _ _) fun _ _ _ hrun hi hok hm =>
    hi.step (turning_of_reach hrun) hok hm

/-- When a configure's SET is executed, nobody waits and nobody can enter the wait. -/
theorem quiet_switch {semisync supervised fenced : Bool}
    (h : Reach (Served.step node) (Decided node) (start semisync supervised fenced) s) {m : Turn}
    (hok : Decided node s m) (hoff : s.switchesOff m = true) :
    s.waiting = 0 ∧ s.canEnter = false := by
  have hi := unwaited_of_reach h
  have hro : s.mysqld.superReadOnly = true := by
    cases m with
    | agent m =>
        cases m with
        | outside u =>
            cases u with
            | execute t row => exact hi.sent t hoff
            | land k => exact hok.2.2 (eq_of_beq hoff)
            | _ => cases hoff
        | _ => cases hoff
    | enter | leave => cases hoff
  exact ⟨hi.quiet hro, by simp [canEnter, Mysqld.writable, hro]⟩

end

/-! ### Runs -/

instance decidableDecided (node : Node) (s : Served) : ∀ m, Decidable (Decided node s m)
  | .agent _ => inferInstanceAs (Decidable (_ ∧ _ ∧ _))
  | .enter | .leave => .isTrue trivial

/-- A primary with semi-sync, which task 0 promoted. -/
def promoted : List Turn :=
  (promoteSent 0 ++ ran 0 .none ++ [did 0] ++ ran 0 .none ++ [did 0]).map .agent

/-- A configure as task `t` up to the SET that switches the source side off, which is sent. -/
def switchSent (t : Nat) (semisync : Option Bool) (readOnly : Bool) : List Turn :=
  ([.arrive (.configure semisync), .start t, did t] ++ ran t (.superReadOnly readOnly) ++
    ran t (.semisync true false) ++ ran t (.waitSessions (some 0))).map .agent

/-- mysqld executes the statement of task `t`. -/
def executes (t : Nat) : Turn := .agent (.outside (.execute t .none))

/-- A fenced primary, and a configure that has sent the SET. -/
def fencedSwitch : Served :=
  Machine.run (step "a") (start true true false)
    (promoted ++ ([.arrive .fence, .start 1, did 1] ++ ran 1 .none ++ [did 1] ++
      ran 1 (.threads []) ++ ran 1 .none ++ [did 1]).map .agent ++ switchSent 2 none true)

/-- A primary whose operator switches semi-sync off. A commit enters the wait after configure
has counted. -/
def lateSession : Served :=
  Machine.run (step "a") (start true true false)
    (promoted ++ switchSent 1 (some false) false ++ [.enter])

/-- On the fenced primary the SET releases nobody. -/
theorem quiet_switch_fenced : fencedSwitch.waiting = 0 ∧ fencedSwitch.canEnter = false :=
  quiet_switch
    (Machine.reach_run_of_obeys (by decide +kernel) (by decide +kernel))
    (m := executes 2) (by decide +kernel) (by decide +kernel)

/-- The configure of the primary switches the source side off while a commit waits. -/
theorem switchesOff_with_session :
    Reach (step "a") Machine.Free (start true true false) lateSession ∧
      (lateSession.step "a" (executes 1)).isSome = true ∧
      lateSession.switchesOff (executes 1) = true ∧ lateSession.waiting = 1 :=
  ⟨Machine.reach_run (by decide +kernel), by decide +kernel, by decide +kernel,
    by decide +kernel⟩

end Served

end Agent

end DbGuard
