import DbGuard.Agent.PrimaryCheck
import DbGuard.Coop.Beside
import DbGuard.Proofs.Agent.RoleLock
import DbGuard.Proofs.Agent.Script
import DbGuard.Proofs.Agent.Window

/-!
# `DbGuard.Proofs.Agent.Rebuild`: what a failed rebuild leaves behind

A rebuild makes mysqld writable for the clone, and it is the restart after the clone that makes
it read-only again. Before that SET the node stays as it was (`Closed.ready`). After it, a wait
that fails ends the rebuild wherever mysqld is. Only the failure of CLONE itself is followed by
SET super_read_only=1, on the same session, and the error of this SET is suppressed. After an
error of CLONE that has closed the session it is not sent at all.

So a rebuild that fails leaves the node read-only if no wait of it fails while mysqld is
writable, a CLONE that leaves the session open apart (`Spared`). `closing` is the contract that
says so, over the one of the role lock. A rebuild does not refresh the sample of /primary either,
so one from its window outlives it (`Unmisled`).
-/

set_option autoImplicit false

namespace DbGuard

namespace Agent

open Coop (Prog Pool Move World Contract Triple Assertion Outcome Adds Grows frame)

/-! ### The condition -/

/-- By this move a wait of a rebuild fails. -/
def givesUp (p : Pool sig) : Move sig → Bool
  | .answer t f =>
    match p.progs t with
    | some (.await r _) => isRebuild p.world.jobs t && fails r (f r)
    | _ => false
  | _ => false

/-- By this move mysqld executes a SET that was given up and makes it writable. -/
def landsOpen (p : Pool sig) : Move sig → Bool
  | .outside (.land k) => (p.world.state.late[k]?).any (·.stmt.opens)
  | _ => false

/-- A rebuild takes the role lock, or fails without it, on a mysqld that is not writable and
while no other rebuild is in progress. While mysqld is writable under a rebuild, no wait of it
fails but that of CLONE, with an error that is bearable. No SET of super_read_only=0 that was
given up is executed later. -/
def Spared (p : Pool sig) (m : Move sig) (p' : Pool sig) : Prop :=
  (∀ t ∈ m.task, isRebuild p.world.jobs t = true → p.world.state.holder ≠ some t →
    p'.world.state.holder = some t ∨ refused t p p' = true →
      p.world.state.mysqld.writable = false ∧ p.world.state.rebuilding = false) ∧
  (givesUp p m = true → p.world.state.rebuilding = true →
    p.world.state.mysqld.writable = false) ∧
  landsOpen p m = false

/-! ### The contract -/

/-- A rebuild that has the role lock finds mysqld not writable until it sets `rebuilding`, and
so does its SET of super_read_only=1 once it is executed. -/
structure Closed (w : World sig) : Prop where
  ready : ∀ t, isRebuild w.jobs t = true → w.state.holder = some t →
    w.state.rebuilding = false → w.state.calls t = none ∧ w.state.mysqld.writable = false
  done : ∀ t c, isRebuild w.jobs t = true → w.state.holder = some t →
    w.state.calls t = some c → c.stmt = .superReadOnly true → c.row ≠ none →
      w.state.mysqld.writable = false

/-- What a segment of rebuild `t` does. -/
structure Shuts (t : Nat) (w₀ w : World sig) : Prop where
  ready : w.state.holder = some t → w.state.rebuilding = false →
    w.state.calls t = none ∧ w.state.mysqld.writable = false
  fresh : ∀ c, w.state.calls t = some c → c.row = none
  fenced : w.state.fenced = w₀.state.fenced
  left : (w.log.drop w₀.log.length).any (refuses t) = true →
    w.state.mysqld.writable = false ∧ w.state.rebuilding = false

/-- A failed rebuild leaves mysqld not writable. -/
def closing : Contract sig where
  inv := Closed
  rely _ _ _ := True
  allowed t w₀ w := isRebuild w₀.jobs t = true → w₀.state.holder ≠ some t →
    w.state.holder = some t ∨ (w.log.drop w₀.log.length).any (refuses t) = true →
      w₀.state.mysqld.writable = false ∧ w₀.state.rebuilding = false
  answers t w r a := isRebuild w.jobs t = true → fails r a = true → w.state.rebuilding = true →
    w.state.mysqld.writable = false
  may t w₀ w := isRebuild w.jobs t = true → Shuts t w₀ w
  pre _ _ _ := True

section
variable {t t' : Nat} {w w' w₀ : World sig} {j : Job} {d : Node}

/-- A rebuild is the task of a rebuild job. -/
theorem isRebuild_iff {jobs : List Job} :
    isRebuild jobs t = true ↔ ∃ d, jobs[t]? = some (.rebuild d) := by
  rw [isRebuild]
  constructor
  · intro h
    split at h
    · exact ⟨_, by assumption⟩
    · cases h
  · rintro ⟨d, h⟩
    rw [h]

/-- More tasks do not change it. -/
theorem isRebuild_append {jobs l : List Job} (h : t < jobs.length) :
    isRebuild (jobs ++ l) t = isRebuild jobs t := by
  rw [isRebuild, isRebuild, List.getElem?_append_left h]

/-- The task of a rebuild job is a rebuild. -/
theorem isRebuild_of_job (h : w.jobs[t]? = some (.rebuild d)) : isRebuild w.jobs t = true :=
  isRebuild_iff.mpr ⟨d, h⟩

/-- A task that was there keeps its job. -/
theorem isRebuild_of_jobs (hp : w₀.jobs <+: w.jobs) (hlt : t < w₀.jobs.length) :
    isRebuild w.jobs t = isRebuild w₀.jobs t := by
  obtain ⟨l, hl⟩ := hp
  exact (congrArg (isRebuild · t) hl).symm.trans (isRebuild_append hlt)

/-- A segment keeps the invariant. -/
theorem Shuts.closed (ho : Ordered w₀) (hi : Closed w₀) (ha : Adds t w₀ w) (h : Orderly t w₀ w)
    (hs : isRebuild w.jobs t = true → Shuts t w₀ w) : Closed w := by
  -- The holder after a segment of another task is the one before it.
  have hheld : ∀ t', t' ≠ t → w.state.holder = some t' → w₀.state.holder = some t' ∧
      w.state.rebuilding = w₀.state.rebuilding ∧
        isRebuild w.jobs t' = isRebuild w₀.jobs t' := by
    intro t' hne hown
    have hbefore := h.turns.taken t' hne hown
    have hlt : t' < w₀.jobs.length := by
      by_contra hge
      exact (ho.new t' (Nat.le_of_not_lt hge)).2 hbefore
    exact ⟨hbefore, (h.turns.held t' hne hbefore).2, isRebuild_of_jobs ha.jobs hlt⟩
  refine ⟨fun t' hj hown hreb => ?_, fun t' c hj hown hc hq hrow => ?_⟩
  · by_cases hne : t' = t
    · subst hne
      exact (hs hj).ready hown hreb
    · obtain ⟨hown', hsame, hjob⟩ := hheld t' hne hown
      obtain ⟨hnone, hw⟩ := hi.ready t' (hjob.symm.trans hj) hown' (hsame.symm.trans hreb)
      exact ⟨(h.turns.calls t' hne).trans hnone, h.turns.writable hw⟩
  · by_cases hne : t' = t
    · subst hne
      exact absurd ((hs hj).fresh c hc) hrow
    · obtain ⟨hown', -, hjob⟩ := hheld t' hne hown
      rw [h.turns.calls t' hne] at hc
      exact h.turns.writable (hi.done t' c (hjob.symm.trans hj) hown' hc hq hrow)

/-- mysqld executes a statement, or does something else. -/
theorem closed_outside {u : Update} (ho : w.state.outside u = true) (hord : Ordered w)
    (hland : ∀ k, u = .land k → (w.state.late[k]?).any (·.stmt.opens) = false) (hi : Closed w) :
    Closed (w.edit u) := by
  cases u with
  | execute t' row =>
      obtain ⟨c, hc, -, hrow, -⟩ := of_outside_execute ho
      have hs : (w.edit (.execute t' row)).state = _ := execute_of_call row hc
      have hholder : (w.edit (.execute t' row)).state.holder = w.state.holder := by
        rw [hs]
        rfl
      have hmysqld : (w.edit (.execute t' row)).state.mysqld = w.state.mysqld.exec c.stmt := by
        rw [hs]
      have hcalls : ∀ t, t ≠ t' →
          (w.edit (.execute t' row)).state.calls t = w.state.calls t := by
        intro t hne
        rw [hs]
        exact Function.update_of_ne hne _ _
      have hself : (w.edit (.execute t' row)).state.calls t' = some { c with row := some row } := by
        rw [hs]
        exact Function.update_self (f := w.state.calls) _ _
      -- A SET of super_read_only=0 is the holder's.
      have hopens : ∀ t, w.state.holder = some t → t ≠ t' → c.stmt.opens = false := by
        intro t hown hne
        by_contra hop
        rcases hord.said t' c hc with hown' | ⟨-, hfence⟩
        · exact hne (Option.some.inj (hown.symm.trans hown'))
        · have hq : c.stmt = .superReadOnly false := by simpa [Stmt.opens] using hop
          rw [hq] at hfence
          exact absurd hfence (by decide)
      refine ⟨fun t hj hown hreb => ?_, fun t c' hj hown hc' hq hrow' => ?_⟩
      · rw [hholder] at hown
        have hreb' : w.state.rebuilding = false := by
          rw [hs] at hreb
          exact hreb
        obtain ⟨hnone, hw⟩ := hi.ready t hj hown hreb'
        have hne : t ≠ t' := by
          intro heq
          rw [← heq, hnone] at hc
          cases hc
        rw [hcalls t hne, hmysqld]
        exact ⟨hnone, Mysqld.writable_exec (hopens t hown hne) hw⟩
      · rw [hholder] at hown
        rw [hmysqld]
        by_cases hne : t = t'
        · subst hne
          rw [hself] at hc'
          cases hc'
          rw [show c.stmt = .superReadOnly true from hq]
          exact Mysqld.writable_exec_readOnly _
        · rw [hcalls t hne] at hc'
          exact Mysqld.writable_exec (hopens t hown hne) (hi.done t c' hj hown hc' hq hrow')
  | land k =>
      obtain ⟨c, hc, -⟩ := of_outside_land ho
      have hs : (w.edit (.land k)).state = _ := land_of_late hc
      have hopens : c.stmt.opens = false := by simpa [hc] using hland k rfl
      refine ⟨fun t hj hown hreb => ?_, fun t c' hj hown hc' hq hrow' => ?_⟩
      · rw [hs] at hown hreb ⊢
        obtain ⟨hnone, hw⟩ := hi.ready t hj hown hreb
        exact ⟨hnone, Mysqld.writable_exec hopens hw⟩
      · rw [hs] at hown hc' ⊢
        exact Mysqld.writable_exec hopens (hi.done t c' hj hown hc' hq hrow')
  | boot b =>
      exact ⟨fun t hj hown hreb => ⟨(hi.ready t hj hown hreb).1, Mysqld.writable_boot _ b⟩,
        fun _ _ _ _ _ _ _ => Mysqld.writable_boot _ b⟩
  | crash =>
      exact ⟨fun t hj hown hreb => ⟨(hi.ready t hj hown hreb).1, Mysqld.writable_down _⟩,
        fun _ _ _ _ _ _ _ => Mysqld.writable_down _⟩
  | expire t' | disk b => exact ⟨hi.ready, hi.done⟩
  | _ => cases ho

end

/-! ### What a rebuild knows -/

/-- Task `t` has answered no failure in this segment. -/
def Unsaid (t : Nat) (w₀ w : World sig) : Prop :=
  ∃ l, w.log = w₀.log ++ l ∧ l.any (refuses t) = false

/-- The contracts of the frame, of the role lock and of a rebuild. -/
abbrev closeBase : Contract sig := ((frame sig).both turning).upon closing

section
variable {t : Nat} {d : Node} {b : Bool} {w₀ w w' : World sig}

namespace Unsaid

/-- A segment that has just begun. -/
theorem refl : Unsaid t w w := ⟨[], (List.append_nil _).symm, rfl⟩

/-- A record that is no failure of the task. -/
theorem record {e : Coop.Event sig} (he : refuses t e = false) (h : Unsaid t w₀ w) :
    Unsaid t w₀ (w.record e) := by
  obtain ⟨l, hl, hany⟩ := h
  refine ⟨l ++ [e], ?_, ?_⟩
  · show w.log ++ [e] = w₀.log ++ (l ++ [e])
    rw [hl, List.append_assoc]
  · simp [hany, he]

/-- There is none in the segment. -/
theorem drop (h : Unsaid t w₀ w) : (w.log.drop w₀.log.length).any (refuses t) = false := by
  obtain ⟨l, hl, hany⟩ := h
  rw [hl, List.drop_left]
  exact hany

end Unsaid

/-- Only a reply can be a failure. -/
theorem refuses_plain {j : Job} {r : Req} {s : Agent} (hr : ∀ status, r ≠ .reply status) :
    refuses t (.issued t j r s) = false := by
  cases r with
  | reply status => exact absurd rfl (hr status)
  | _ => rfl

/-- Rebuild `t` holds the role lock, without a statement on its way. -/
structure Working (t : Nat) (d : Node) (b : Bool) (w₀ w : World sig) : Prop where
  held : Held t (.rebuild d) b w₀ w
  first : isRebuild w₀.jobs t = true
  unsaid : Unsaid t w₀ w
  fenced : w.state.fenced = w₀.state.fenced

/-- It does so on a mysqld that is not writable, or has taken the lock in this segment. -/
structure Guarded (t : Nat) (d : Node) (b : Bool) (w₀ w : World sig) : Prop where
  working : Working t d b w₀ w
  shut : w₀.state.holder = some t → w.state.mysqld.writable = false

/-- Rebuild `t` does not hold the role lock. -/
structure Idle (t : Nat) (d : Node) (w₀ w : World sig) : Prop where
  aside : Aside t (.rebuild d) w₀ w
  first : isRebuild w₀.jobs t = true
  unsaid : Unsaid t w₀ w
  fenced : w.state.fenced = w₀.state.fenced

/-- It has failed: mysqld is not writable, if it held the lock before. -/
structure Over (t : Nat) (d : Node) (w₀ w : World sig) : Prop where
  idle : Idle t d w₀ w
  shut : w₀.state.holder = some t →
    w.state.mysqld.writable = false ∧ w.state.rebuilding = false

namespace Working

/-- A rebuild at work is a rebuild. -/
theorem rebuild (h : Working t d b w₀ w) : isRebuild w.jobs t = true :=
  isRebuild_of_job h.held.job

/-- A segment of a rebuild that holds the role lock. -/
theorem shuts (h : Working t d b w₀ w)
    (hshut : b = false → w.state.mysqld.writable = false) : Shuts t w₀ w where
  ready _ hreb := ⟨h.held.idle, hshut (h.held.rebuilding.symm.trans hreb)⟩
  fresh c hc := by rw [h.held.idle] at hc; cases hc
  fenced := h.fenced
  left hany := by rw [h.unsaid.drop] at hany; cases hany

/-- A record that is no failure of it. -/
theorem record {e : Coop.Event sig} (he : refuses t e = false) (h : Working t d b w₀ w) :
    Working t d b w₀ (w.record e) :=
  ⟨h.held.record e, h.first, h.unsaid.record he, h.fenced⟩

/-- It still holds the lock when it goes on. -/
theorem resume (h : Working t d b w₀ w) (hg : Grows t w w') (hr : Stays t w w') :
    Working t d b w' w' :=
  have hheld := h.held.resume hg hr
  ⟨hheld, isRebuild_of_job hheld.job, .refl, rfl⟩

/-- A session is opened. -/
theorem opened (gen : Nat) (h : Working t d b w₀ w) : Working t d b w₀ (w.edit (.opened t gen)) :=
  ⟨h.held.calm (calm_opened t _ gen), h.first, h.unsaid, h.fenced⟩

/-- What the answer of a wait says. -/
theorem answered {r : Req} (a : r.Resp) (h : Working t d b w w) :
    Working t d b w (w.answer t r a) :=
  h.record (e := .answered t r a) rfl

end Working

/-! ### While mysqld may be writable -/

/-- A wait under `rebuilding`. If it fails, mysqld is not writable. -/
theorem wp_window {r : Req} (hr : r.plain) (h : Working t d true w₀ w) :
    (await r).wp closeBase t (.rebuild d)
      (fun a w₀ w => Working t d true w₀ w ∧
        (fails r a = true → w.state.mysqld.writable = false)) w₀ w := by
  intro _
  have hne : ∀ status, r ≠ .reply status := by
    intro status heq
    rw [heq] at hr
    exact hr
  have hi : Working t d true w₀ (w.issue t (.rebuild d) r) := h.record (refuses_plain hne)
  refine ⟨fun _ => hi.shuts (fun hb => by cases hb), fun w' a _ hrely hans => ?_⟩
  have hw : Working t d true w' w' := hi.resume hrely.1.1 hrely.1.2
  exact ⟨hw.answered a, fun hf => hans.2 hw.rebuild hf hw.held.rebuilding⟩

/-- A statement under `rebuilding`. The SET of super_read_only=1 works, and if another one fails
but CLONE with a bearable error, mysqld is not writable. -/
theorem triple_window {gen : Nat} {q : Stmt} :
    Triple closeBase t (.rebuild d) (onOpen t (Working t d true)) (sql t gen q)
      (fun _ w₀ w => onOpen t (Working t d true) w₀ w ∧
        (q = .superReadOnly true → w.state.mysqld.writable = false))
      (fun e w₀ w => Working t d true w₀ w ∧
        ((q.clones && e.bearable) = false → w.state.mysqld.writable = false) ∧
          (e.closes = false → w.state.closed t = false)) := by
  refine triple_sql (fun w₀ w h hc => by rw [h.2] at hc; cases hc) fun w₀ w ⟨h, hopen⟩ _ => ?_
  have hcall : (sent t (.rebuild d) gen q w).state.calls t =
      some { gen, session := w.state.session t, stmt := q } := calls_send gen q
  have hunsaid : Unsaid t w₀ (sent t (.rebuild d) gen q w) :=
    Unsaid.record (w := w.edit (.send t gen q)) (refuses_plain (by simp)) h.unsaid
  refine ⟨fun _ => ⟨fun _ hreb => ?_, fun c hc => ?_, h.fenced, fun hany => ?_⟩,
    fun w' a hi hrely hans => ?_⟩
  · have hreb' : (sent t (.rebuild d) gen q w).state.rebuilding = true := h.held.rebuilding
    rw [hreb'] at hreb
    cases hreb
  · rw [hcall] at hc
    cases hc
    rfl
  · rw [hunsaid.drop] at hany
    cases hany
  · have hheld := h.held.answered (q := q) a hrely.1.1 hrely.1.2
    have hrebuild : isRebuild w'.jobs t = true := isRebuild_of_job hheld.job
    have hown : w'.state.holder = some t := (hrely.1.2.held h.held.holds).1
    have hw : Working t d true w' (answered t q a w') :=
      ⟨hheld, hrebuild, Unsaid.record (e := .answered t (.sql q) a) rfl .refl, rfl⟩
    have hstill : closes a = false → (answered t q a w').state.closed t = false :=
      hrely.1.2.open_answered hopen
    cases a with
    | ok row =>
        refine ⟨⟨hw, hstill rfl⟩, fun hq => ?_⟩
        -- The answer is the one of the statement that mysqld has executed.
        obtain ⟨row', hcall'⟩ := hrely.1.2.call _ hcall
        have hrow : row' = some row := by
          have hany : (w'.state.calls t).any (·.row == some row) = true := hans.1.2
          rw [hcall'] at hany
          simpa using hany
        exact hi.2.done t _ hrebuild hown hcall' hq (by rw [hrow]; simp)
    | error e =>
        refine ⟨hw, fun hq => hans.2 hrebuild ?_ hheld.rebuilding, hstill⟩
        show (!(q.clones && e.bearable)) = true
        rw [hq]
        rfl

/-- It is guarded while mysqld is not writable. -/
theorem Working.guarded (h : Working t d b w₀ w) (hw : w.state.mysqld.writable = false) :
    Guarded t d b w₀ w := ⟨h, fun _ => hw⟩

/-- What is known while `rebuilding` is set: when a wait fails, mysqld is not writable. -/
theorem window (t : Nat) (d : Node) : Window closeBase t (.rebuild d) (Working t d true)
    (Working t d true) (Guarded t d true) where
  running _ _ h := h
  fallen _ _ h := h.working
  wait r w₀ w hr h := Prog.wp_mono (fun _ _ _ ha => ⟨ha.1, fun hf => ha.1.guarded (ha.2 hf)⟩) _ _ _
    (wp_window hr h)
  opened gen _ _ h := h.opened gen
  asks gen q _ := triple_window.conseq (fun _ _ h => h) (fun _ _ _ h => h.1)
    fun _ _ _ h => ⟨h.1, fun hq => h.1.guarded (h.2.1 hq), h.2.2⟩
  shuts gen := triple_window.conseq (fun _ _ h => h)
    (fun _ _ _ h => ⟨h.1, h.1.1.guarded (h.2 rfl)⟩) fun _ _ _ h => h.1.guarded (h.2.1 rfl)
  reads gen q hq := triple_window.conseq (fun _ _ h => h) (fun _ _ _ h => h.1) fun _ _ _ h =>
    ⟨h.1, h.1.guarded (h.2.1 (by rcases hq with rfl | rfl <;> rfl))⟩

/-! ### Before and after -/

/-- A rebuild that took the lock in this segment did so on a mysqld that is not writable. -/
theorem Guarded.writable (h : Guarded t d b w₀ w) (ha : closing.allowed t w₀ w) :
    w.state.mysqld.writable = false := by
  by_cases hown : w₀.state.holder = some t
  · exact h.shut hown
  · exact h.working.held.turns.writable (ha h.working.first hown (.inl h.working.held.holds)).1

/-- The words of a rebuild before it sets `rebuilding`. -/
def waitWords : Words where
  edits _ := False
  stmts _ := False
  locks _ := False

/-- Until it sets `rebuilding`, it finds mysqld not writable when it goes on. -/
theorem Working.ready (h : Working t d false w' w) (hi : Closed w) :
    w.state.mysqld.writable = false :=
  (hi.ready t h.rebuild h.held.holds h.held.rebuilding).2

/-- What it says before it sets `rebuilding` keeps it guarded. -/
theorem guarded_carries (t : Nat) (d : Node) :
    waitWords.Carries closeBase t (.rebuild d) (Guarded t d false) where
  edit _ _ _ hu := hu.elim
  opened gen _ _ h := ⟨h.working.opened gen, h.shut⟩
  enqueue _ _ _ hl := hl.elim
  dequeue _ _ _ hl := hl.elim
  acquire _ _ _ hl := hl.elim
  release _ _ _ hl := hl.elim
  cut w₀ w h ha := by
    refine ⟨fun _ => h.working.shuts fun _ => h.writable ha.2, fun w' hi hr => ?_⟩
    have hw := h.working.resume hr.1.1 hr.1.2
    exact ⟨hw, fun _ => hw.ready hi.2⟩
  await r w₀ w hr h ha := by
    have hne : ∀ status, r ≠ .reply status := by
      intro status heq
      rw [heq] at hr
      exact hr
    have hissue : Guarded t d false w₀ (w.issue t (.rebuild d) r) :=
      ⟨h.working.record (refuses_plain hne), h.shut⟩
    refine ⟨fun _ => hissue.working.shuts fun _ => hissue.writable ha.2, fun w' a hi hrely _ => ?_⟩
    have hw := hissue.working.resume hrely.1.1 hrely.1.2
    exact ⟨hw.answered a, fun _ => hw.ready hi.2⟩
  sql _ _ _ _ hq := hq.elim

/-- The rebuild proper, with `rebuilding` set. -/
theorem triple_rebuildOn {gen started : Nat} {donor : Node} :
    Triple closeBase t (.rebuild d) (onOpen t (Guarded t d false))
      (rebuildOn t gen started donor) (fun _ => Working t d false) fun _ => Guarded t d false := by
  have hset : ∀ b b' w₀ w, Working t d b w₀ w → Working t d b' w₀ (w.edit (.rebuilding b')) :=
    fun b b' w₀ w h => ⟨⟨h.held.job, h.held.holds, h.held.idle, rfl,
      h.held.turns.trans (turns_apply (u := .rebuilding b') h.held.holds)⟩, h.first, h.unsaid,
      h.fenced⟩
  intro w₀ w h
  show ((do cloneFrom t gen donor; rebuildFinish t started : X Unit).run >>= fun r =>
    edit (.rebuilding false) >>= fun _ => pure r).wp closeBase t (.rebuild d) _ w₀
      (w.edit (.rebuilding true))
  refine Prog.wp_seq ((window t d).rebuilds w₀ _ ⟨hset _ true _ _ h.1.working, h.2⟩)
    fun r w₀ w hr => ?_
  cases r with
  | ok a => exact hset _ false _ _ hr
  | error e => exact ⟨hset _ false _ _ hr.working, hr.shut⟩

/-- The release of the lock. -/
theorem Working.release (h : Working t d false w₀ w) : Idle t d w₀ (w.edit (.release .role)) :=
  ⟨h.held.release, h.first, h.unsaid, h.fenced⟩

/-- It gives the lock back on a mysqld that is not writable. -/
theorem Guarded.release (h : Guarded t d false w₀ w) : Over t d w₀ (w.edit (.release .role)) :=
  ⟨h.working.release, fun hown => ⟨h.shut hown, h.working.held.rebuilding⟩⟩

/-- A rebuild, from a task without the role lock. -/
theorem triple_rebuild (node donor : Node) :
    Triple closeBase t (.rebuild d)
      (fun w₀ w => Idle t d w₀ w ∧ w₀.state.holder ≠ some t) (rebuild node t donor)
      (fun _ => Idle t d) fun _ => Over t d := by
  -- Without the role a task has nothing to give back.
  have hover : ∀ w₀ w, Idle t d w₀ w ∧ w₀.state.holder ≠ some t → Over t d w₀ w :=
    fun w₀ w h => ⟨h.1, fun hown => absurd hown h.2⟩
  unfold rebuild
  split
  · exact .throw hover
  refine triple_withLockDeadlined (H := Guarded t d false) (fun w₀ w h hfree => ?_)
    (fun w₀ w h ha => ?_) (.conseq (Q := fun _ => Working t d false)
      (E := fun _ => Guarded t d false) ?_ (fun _ _ h => h) (fun _ _ _ h => h.release)
      fun _ _ _ h => h.release)
  -- The lock is free, and the rebuild takes it.
  · exact ⟨⟨h.1.aside.acquire hfree, h.1.first, h.1.unsaid, h.1.fenced⟩,
      fun hown => absurd hown h.2⟩
  · -- It queues, and has the lock or is cancelled when it goes on.
    have hq := h.1.aside.enqueue
    refine ⟨fun _ => ⟨fun hown => absurd hown hq.away, fun c hc => ?_, h.1.fenced,
      fun hany => ?_⟩, fun w' hi hr => ?_⟩
    · rw [hq.idle] at hc
      cases hc
    · rw [Unsaid.drop (w := w.edit (.enqueue .role t)) h.1.unsaid] at hany
      cases hany
    · have haside := hq.resume hi.1.2 hr.1.1 hr.1.2
      have hfirst : isRebuild w'.jobs t = true := isRebuild_of_job haside.job
      exact ⟨fun _ hfree => ⟨⟨haside.acquire hfree, hfirst, .refl, rfl⟩,
        fun hown => absurd hown haside.away⟩,
        ⟨⟨haside.dequeue, hfirst, .refl, rfl⟩, fun hown => absurd hown haside.away⟩⟩
  -- Under the lock: the hold ends, the donor is asked, a session is opened, and then it runs.
  · have hkeeps := guarded_carries t d
    refine .bind (hkeeps.keeps says_endRestartHold) fun _ => ?_
    refine .bind (hkeeps.keeps (.leaf (.await (r := .ownGtid) trivial))) fun _ => ?_
    refine .bind (hkeeps.keeps says_askDonor) fun _ => .look fun s => ?_
    exact .bind (hkeeps.connects.pre fun _ _ h => h.1) fun gen => triple_rebuildOn

/-- A failure that it answers. -/
theorem Over.left (h : Over t d w₀ w)
    (ha : w₀.state.holder ≠ some t →
      w₀.state.mysqld.writable = false ∧ w₀.state.rebuilding = false) :
    w.state.mysqld.writable = false ∧ w.state.rebuilding = false := by
  by_cases hown : w₀.state.holder = some t
  · exact h.shut hown
  · obtain ⟨hw, hreb⟩ := ha hown
    have hturns := h.idle.aside.turns
    refine ⟨hturns.writable hw, ?_⟩
    -- `rebuilding` is the one of the holder, and another holder has kept the lock.
    cases hholder : w.state.holder with
    | none => exact h.idle.aside.free hholder
    | some t' =>
        have hne : t' ≠ t := by
          intro heq
          exact h.idle.aside.away (by rw [hholder, heq])
        have hbefore := hturns.taken t' hne hholder
        exact (hturns.held t' hne hbefore).2.trans hreb

/-- A segment of a rebuild that ends without the role lock. -/
theorem Aside.shuts (h : Aside t (.rebuild d) w₀ w)
    (hfenced : w.state.fenced = w₀.state.fenced)
    (hleft : (w.log.drop w₀.log.length).any (refuses t) = true →
      w.state.mysqld.writable = false ∧ w.state.rebuilding = false) : Shuts t w₀ w where
  ready hown := absurd hown h.away
  fresh c hc := by rw [h.idle] at hc; cases hc
  fenced := hfenced
  left := hleft

/-- The answer of a rebuild, and its end. -/
theorem wp_reply (status : Nat) (h : Idle t d w₀ w)
    (hleft : refuses t (.issued t (.rebuild d) (.reply status) w.state) = true →
      (w₀.state.holder ≠ some t →
        w₀.state.mysqld.writable = false ∧ w₀.state.rebuilding = false) →
          w.state.mysqld.writable = false ∧ w.state.rebuilding = false) :
    (await (.reply status)).wp closeBase t (.rebuild d) (closeBase.Ends t) w₀ w := by
  intro ha
  have haside : Aside t (.rebuild d) w₀ (w.issue t (.rebuild d) (.reply status)) :=
    h.aside.record _
  refine ⟨fun _ => haside.shuts h.fenced fun hany => ?_, fun w' a hi hr _ => fun _ _ => ?_⟩
  · refine hleft ?_ fun hown => ha.2 h.first hown (.inr hany)
    by_contra hno
    have hnone := Unsaid.record (Bool.eq_false_iff.mpr hno) h.unsaid
    exact absurd (hnone.drop.symm.trans hany) (by simp)
  · have hback := haside.resume hi.1.2 hr.1.1 hr.1.2
    have hend : Unsaid t w' ((w'.answer t (.reply status) a).finish t) :=
      Unsaid.record (w := w'.answer t (.reply status) a) (e := .finished t w'.state) rfl
        (Unsaid.record (e := .answered t (.reply status) a) rfl .refl)
    have hdone : Aside t (.rebuild d) w' ((w'.answer t (.reply status) a).finish t) :=
      (hback.record (.answered t (.reply status) a)).record (.finished t w'.state)
    refine hdone.shuts rfl fun hany => ?_
    rw [hend.drop] at hany
    cases hany

/-- A whole rebuild, with its answer. -/
theorem closing_rebuild (node donor : Node) (h : Idle t d w₀ w)
    (hown : w₀.state.holder ≠ some t) :
    (answer (rebuild node t donor)).wp closeBase t (.rebuild d) (closeBase.Ends t) w₀ w := by
  refine Prog.wp_seq (triple_rebuild node donor w₀ w ⟨h, hown⟩) fun r w₀ w hr => ?_
  cases r with
  | ok a => exact wp_reply 200 hr fun hrefuses => by simp [refuses] at hrefuses
  | error e => exact wp_reply e.status hr.idle fun _ ha => hr.left ha

/-- Only a rebuild can break the contract. -/
theorem closing_other {j : Job} {m : M Unit} (hj : isRebuild w.jobs t = false)
    (hlt : t < w.jobs.length) : m.wp closeBase t j (closeBase.Ends t) w₀ w := by
  refine Prog.wp_mono (fun _ w₀ w h _ hreb => ?_) _ _ _ (Prog.wp_of_stable
    (K := fun w : World sig => isRebuild w.jobs t = false ∧ t < w.jobs.length)
    (fun _ _ h => h) (fun _ _ h => h) (fun _ _ _ h => h) (fun j' w h => ?_) (fun w w' h _ hr => ?_)
    (fun w₀ w h hreb => ?_) m w₀ w ⟨hj, hlt⟩)
  · rw [show isRebuild w.jobs t = true from hreb] at h
    cases h.1
  · exact ⟨(isRebuild_append h.2).trans h.1,
      lt_of_lt_of_le h.2 (List.prefix_append w.jobs [j']).length_le⟩
  · have hp : w.jobs <+: w'.jobs := hr.1.1.jobs
    exact ⟨(isRebuild_of_jobs hp h.2).trans h.1, lt_of_lt_of_le h.2 hp.length_le⟩
  · rw [h.1] at hreb
    cases hreb

end

/-! ### The runs -/

/-- The contract is sound over the one of the role lock, in the runs that meet the condition. -/
theorem closing_sound (node : Node) {ok : Pool sig → Move sig → Pool sig → Prop}
    (hok : ∀ p m p', ok p m p' →
      environment p m = true ∧ Spared p m p' ∧ Ordered p.world) :
    ((frame sig).both turning).SoundOver closing (body node) ok where
  rely_refl _ _ := trivial
  rely_trans _ _ _ _ _ _ := trivial
  rely_of_may _ _ _ _ _ _ _ _ _ := trivial
  rely_arrive _ _ _ _ _ _ := trivial
  rely_outside _ _ _ _ _ _ := trivial
  rely_land _ _ _ _ _ _ _ := trivial
  rely_resend _ _ _ _ _ _ _ := trivial
  inv_may t w₀ w hB hi hmay hs := Shuts.closed hB.2 hi hmay.1 hmay.2 hs
  inv_arrive p j p' ho hi := by
    obtain ⟨-, -, hord⟩ := hok _ _ _ ho
    -- The holder is not the new task, so it is a rebuild as before.
    have hold : ∀ t, p.world.state.holder = some t →
        isRebuild (p.world.arrive j).jobs t = isRebuild p.world.jobs t := by
      intro t hown
      refine isRebuild_append ?_
      by_contra hge
      exact (hord.new t (Nat.le_of_not_lt hge)).2 hown
    exact ⟨fun t hj hown => hi.ready t ((hold t hown).symm.trans hj) hown,
      fun t c hj hown => hi.done t c ((hold t hown).symm.trans hj) hown⟩
  -- The SETs that were given up do not open mysqld by the condition.
  inv_outside p u p' ho hi := by
    obtain ⟨henv, hcond, hord⟩ := hok _ _ _ ho
    refine closed_outside henv hord (fun k hk => ?_) hi
    subst hk
    exact hcond.2.2
  inv_land p t r p' ho _ := by
    obtain ⟨henv, -⟩ := hok _ _ _ ho
    cases henv
  inv_resend p t r p' ho _ := by
    obtain ⟨henv, -⟩ := hok _ _ _ ho
    cases henv
  pre_rely _ _ _ _ _ _ _ := trivial
  pre_may _ _ _ _ _ _ _ _ _ _ _ := trivial
  pre_arrive _ _ _ _ _ := trivial
  allowed_start p t p' ho := (hok _ _ _ ho).2.1.1 t rfl
  allowed_answer p t f p' ho := (hok _ _ _ ho).2.1.1 t rfl
  allowed_wake p t p' ho := (hok _ _ _ ho).2.1.1 t rfl
  -- An answer fails only where the condition lets a wait fail.
  answers_ok p t f p' r k ho hp := by
    intro hj hfails
    refine (hok _ _ _ ho).2.1.2.1 ?_
    simp only [givesUp, hp, Bool.and_eq_true]
    exact ⟨hj, hfails⟩
  body_wp t j w hB hi hj hpre _ := by
    have hlt : t < w.jobs.length := (List.getElem?_eq_some_iff.mp hj).1
    -- Only a rebuild has to keep the contract.
    cases hreb : isRebuild w.jobs t with
    | false => exact closing_other hreb hlt
    | true =>
        obtain ⟨d, hd⟩ := isRebuild_iff.mp hreb
        cases Option.some.inj (hj.symm.trans hd)
        exact closing_rebuild node d ⟨.refl hj hpre.2.1 hpre.2.2 hB.2, hreb, .refl, rfl⟩ hpre.2.2

/-- Where the role changes take their turns, all three contracts are sound. -/
theorem closeBase_sound (node : Node) :
    (((frame sig).both turning).both closing).Sound (body node)
      fun p m p' => environment p m = true ∧ Spared p m p' ∧ Ordered p.world :=
  (turnBase_sound node fun _ _ _ h => h.1).both (closing_sound node fun _ _ _ h => h)

/-- Where there is no task, nothing has to be closed. -/
theorem closed_of_nil {w : World sig} (h : w.jobs = []) : Closed w := by
  have hnone : ∀ t, isRebuild w.jobs t ≠ true := by
    intro t hj
    obtain ⟨d, hd⟩ := isRebuild_iff.mp hj
    rw [h] at hd
    cases hd
  exact ⟨fun t hj => absurd hj (hnone t), fun t _ hj => absurd hj (hnone t)⟩

/-- The contracts hold of every run of a booted replica that meets the condition. -/
theorem closing_holds (node : Node) {semisync supervised fenced : Bool} {p : Pool sig}
    (hr : Coop.Reach (body node) (fun p m p' => environment p m = true ∧ Spared p m p')
      (Pool.init (init semisync supervised fenced) []) p) :
    (((frame sig).both turning).both closing).Holds p := by
  have hturn : ((frame sig).both turning).Sound (body node)
      fun p m p' => environment p m = true ∧ Spared p m p' :=
    turnBase_sound node fun _ _ _ h => h.1
  have hinit : ((frame sig).both turning).Holds (Pool.init (init semisync supervised fenced) []) :=
    turning_holds node (fun _ => rfl) rfl rfl
      (fun _ _ _ h => h) .refl
  refine (closeBase_sound node).holds_reach (Contract.holds_init ⟨hinit.inv, closed_of_nil rfl⟩
    fun t j hj => ?_) ((hturn.reach_holds hinit hr).mono fun p m p' h => ?_)
  · cases hj
  · exact ⟨h.1.1, h.1.2, h.2.inv.2⟩

namespace Watched

open Machine (Reach)

/-- While a rebuild holds the role lock, and a sample from before says that mysqld is writable,
nothing lets /primary answer from its sample: the fence flag is not cleared, the agent does not
get ready and no wake guard ends. -/
def Veiled (s s' : Watched) : Prop :=
  s.state.holder.any (isRebuild s.pool.world.jobs) = true →
    s.sample.any (fun x => x.old && !x.superReadOnly) = true → s'.shown = true → s.shown = true

/-- When a rebuild fails that holds the role lock, no fresh sample was taken while it had made
mysqld writable. -/
def Unmisled (s : Watched) (m : Move sig) (p' : Pool sig) : Prop :=
  ∀ t ∈ m.task, isRebuild s.pool.world.jobs t = true → s.state.holder = some t →
    refused t s.pool p' = true → s.sample.all (fun x => x.old || !x.window) = true

/-- The condition on the agent, on its sample and on what hides it. -/
def Safe (node : Node) (s : Watched) : Turn → Prop
  | .agent m => ∀ s' ∈ s.step node (.agent m),
      Spared s.pool m s'.pool ∧ s.Unmisled m s'.pool ∧ Veiled s s'
  | .ready b => Veiled s { s with ready := b }
  | .sample | .stale => True

/-- While a rebuild holds the role lock, a sample that says that mysqld is writable is from the
window of this rebuild, or from before. Then /primary is not shown what it was not shown. -/
def Sampled (s : Watched) : Prop :=
  ∀ t x, isRebuild s.pool.world.jobs t = true → s.state.holder = some t → s.sample = some x →
    x.superReadOnly = false → (x.old = false → x.window = true) ∧
      (x.old = true → s.shown = true → s.before t = true)

section
variable {node : Node} {semisync supervised fenced : Bool} {s s' : Watched}

/-- What a step of the agent does to the watch around it. -/
theorem of_step_agent {m : Move sig} (hm : s.step node (.agent m) = some s') :
    environment s.pool m = true ∧ s.pool.fire (body node) m = some s'.pool ∧
      s' = s.moved s'.pool := by
  obtain ⟨henv, hfire⟩ := Option.ite_none_right_eq_some.mp hm
  obtain ⟨p, hp, rfl⟩ := Option.map_eq_some_iff.mp hfire
  exact ⟨henv, hp, rfl⟩

/-- The contracts of the frame, of the role lock and of a rebuild hold in every safe run. -/
theorem holds_of_reach (h : Reach (step node) (Safe node) (start semisync supervised fenced) s) :
    (((frame sig).both turning).both closing).Holds s.pool := by
  refine closing_holds node (Coop.Reach.of_machine Watched.pool (fun s m s' hok hm => ?_) h)
  cases m with
  | agent m =>
      obtain ⟨henv, hp, -⟩ := of_step_agent hm
      exact .inr ⟨m, hp, henv, (hok s' hm).1⟩
  | sample =>
      obtain ⟨-, ⟨⟩⟩ := Option.ite_none_right_eq_some.mp hm
      exact .inl rfl
  | stale | ready b =>
      cases hm
      exact .inl rfl

/-- A segment of a rebuild leaves what hides the sample alone. -/
theorem shown_moved {p : Pool sig} {t : Nat} (h : Shuts t s.pool.world p.world) :
    (s.moved p).shown = s.shown := by
  show (!p.world.state.fenced && s.ready) = (!s.pool.world.state.fenced && s.ready)
  rw [h.fenced]

/-- What /primary says of a mysqld that no rebuild has opened. -/
theorem primary_of_shown {x : Sample} (hreb : s.state.rebuilding = false) (hx : s.sample = some x)
    (hro : x.superReadOnly = false) (hs : s.shown = true) : s.primary = true := by
  simp [primary, hs, hreb, hx, hro]

/-- A sample after a move of the agent. -/
theorem of_sample_moved {p : Pool sig} {x' : Sample} (h : (s.moved p).sample = some x') :
    ∃ x, s.sample = some x ∧ x'.superReadOnly = x.superReadOnly ∧ x'.window = x.window ∧
      x'.old =
        (x.old || p.world.state.holder.isSome && p.world.state.holder != s.state.holder) := by
  obtain ⟨x, hx, rfl⟩ := Option.map_eq_some_iff.mp h
  exact ⟨x, hx, rfl, rfl, rfl⟩

/-- A move of the agent under a rebuild that goes on. -/
theorem Sampled.held (h : s.Sampled) {p : Pool sig} {t : Nat} {x' : Sample}
    (hveiled : Veiled s (s.moved p)) (hj : isRebuild s.pool.world.jobs t = true)
    (hheld : s.state.holder = some t) (hown : p.world.state.holder = some t)
    (hx' : (s.moved p).sample = some x') (hro : x'.superReadOnly = false) :
    (x'.old = false → x'.window = true) ∧
      (x'.old = true → (s.moved p).shown = true → (s.moved p).before t = true) := by
  obtain ⟨x, hx, hsro, hwindow, hold⟩ := of_sample_moved hx'
  have hsame : x'.old = x.old := by rw [hold, hown, hheld]; simp
  rw [hsro] at hro
  obtain ⟨hfrom, hbefore⟩ := h t x hj hheld hx hro
  rw [hsame, hwindow]
  refine ⟨hfrom, fun ho hs => ?_⟩
  show (if s.state.holder = some t then s.before t else s.primary) = true
  rw [if_pos hheld]
  refine hbefore ho (hveiled ?_ ?_ hs)
  · rw [hheld]
    exact hj
  · rw [hx]
    simp [ho, hro]

/-- A rebuild takes the role lock: what /primary says then is what it has said before. -/
theorem Sampled.taken {p : Pool sig} {t : Nat} {x' : Sample} (hs : Shuts t s.pool.world p.world)
    (hreb : s.state.rebuilding = false) (haway : s.state.holder ≠ some t)
    (hown : p.world.state.holder = some t) (hx' : (s.moved p).sample = some x')
    (hro : x'.superReadOnly = false) :
    (x'.old = false → x'.window = true) ∧
      (x'.old = true → (s.moved p).shown = true → (s.moved p).before t = true) := by
  obtain ⟨x, hx, hsro, -, hold⟩ := of_sample_moved hx'
  rw [hsro] at hro
  refine ⟨fun hnew => ?_, fun _ hshown => ?_⟩
  · rw [hold, hown] at hnew
    have hne : (some t != s.state.holder) = true := bne_iff_ne.mpr (Ne.symm haway)
    rw [hne] at hnew
    simp at hnew
  · show (if s.state.holder = some t then s.before t else s.primary) = true
    rw [if_neg haway]
    exact primary_of_shown hreb hx hro ((shown_moved hs).symm.trans hshown)

/-- A move of the agent keeps it. -/
theorem Sampled.agent (h : s.Sampled) (hh : (((frame sig).both turning).both closing).Holds s.pool)
    {m : Move sig} (hok : Safe node s (.agent m)) (hm : s.step node (.agent m) = some s') :
    s'.Sampled := by
  obtain ⟨henv, hf, hs'⟩ := of_step_agent hm
  obtain ⟨hspared, -, hveiled⟩ := hok s' hm
  have hord : Ordered s.pool.world := hh.inv.1.2
  have hlt : ∀ t, s.state.holder = some t → t < s.pool.world.jobs.length := by
    intro t h
    by_contra hge
    exact (hord.new t (Nat.le_of_not_lt hge)).2 h
  generalize hp : s'.pool = p at *
  subst hs'
  intro t x' hj hown hx' hro
  by_cases hheld : s.state.holder = some t
  · refine h.held hveiled ?_ hheld hown hx' hro
    cases m with
    | start t' | answer t' f | wake t' =>
        obtain ⟨⟨hadds, -⟩, -⟩ :=
          (closeBase_sound node).may_of_fire (t := t') hh hf ⟨henv, hspared, hord⟩ rfl
        exact (isRebuild_of_jobs hadds.jobs (hlt t hheld)).symm.trans hj
    | arrive j =>
        cases hf
        exact (isRebuild_append (hlt t hheld)).symm.trans hj
    | outside u =>
        cases hf
        exact hj
    | land t' r | resend t' r => cases henv
  · cases m with
    | start t' | answer t' f | wake t' =>
        obtain ⟨⟨hadds, hturn⟩, hshuts⟩ :=
          (closeBase_sound node).may_of_fire (t := t') hh hf ⟨henv, hspared, hord⟩ rfl
        -- The task has taken the lock by this move.
        have heq : t = t' := by
          by_contra hne
          exact hheld (hturn.turns.taken t hne hown)
        subst heq
        have hj₀ := (isRebuild_of_jobs hadds.jobs hadds.lt).symm.trans hj
        exact Sampled.taken (hshuts hj) (hspared.1 t rfl hj₀ hheld (.inl hown)).2 hheld hown hx' hro
    | arrive j =>
        cases hf
        exact absurd hown hheld
    | outside u =>
        cases hf
        exact absurd hown ((stays_outside (t := t) henv).away hheld)
    | land t' r | resend t' r => cases henv

/-- A sample under a rebuild is one from its window. -/
theorem Sampled.sample (hh : (((frame sig).both turning).both closing).Holds s.pool)
    (hup : s.state.mysqld.up = true) : s.refresh.Sampled := by
  intro t x hj hown hx hro
  cases hx
  refine ⟨fun _ => ?_, fun ho => by cases ho⟩
  have hw : s.state.mysqld.writable = true := by
    have hsro : s.state.mysqld.superReadOnly = false := hro
    simp [Mysqld.writable, hup, hsro]
  show (s.state.rebuilding && s.state.mysqld.writable) = true
  rw [hw, Bool.and_true]
  by_contra hno
  -- The rebuild has not opened mysqld yet.
  have hshut := (hh.inv.2.ready t hj hown (Bool.eq_false_iff.mpr hno)).2
  rw [show s.pool.world.state.mysqld.writable = true from hw] at hshut
  cases hshut

/-- Every move keeps it. -/
theorem Sampled.step (h : s.Sampled) (hh : (((frame sig).both turning).both closing).Holds s.pool)
    {m : Turn} (hok : Safe node s m) (hm : s.step node m = some s') : s'.Sampled := by
  cases m with
  | agent m => exact h.agent hh hok hm
  | sample =>
      obtain ⟨hup, ⟨⟩⟩ := Option.ite_none_right_eq_some.mp hm
      exact Sampled.sample hh hup
  | stale =>
      cases hm
      exact fun _ _ _ _ hx => by cases hx
  | ready b =>
      cases hm
      refine fun t x hj hown hx hro => ⟨(h t x hj hown hx hro).1, fun ho hs => ?_⟩
      refine (h t x hj hown hx hro).2 ho (hok ?_ ?_ hs)
      · rw [show s.state.holder = some t from hown]
        exact hj
      · rw [show s.sample = some x from hx]
        simp [ho, hro]

/-- In a safe run each sample under a rebuild is from its window, or from before. -/
theorem sampled_of_reach
    (h : Reach (step node) (Safe node) (start semisync supervised fenced) s) : s.Sampled :=
  h.invariant (fun _ _ _ _ hx => by cases hx) fun _ _ _ hrun hi hok hm =>
    hi.step (holds_of_reach hrun) hok hm

/-- When a rebuild answers a failure, mysqld is not writable, `rebuilding` is clear, and /primary
answers 200 only if it did before. -/
theorem refused_rebuild
    (h : Reach (step node) (Safe node) (start semisync supervised fenced) s) {m : Move sig}
    (hok : Safe node s (.agent m)) (hm : s.step node (.agent m) = some s') {t : Nat}
    (ht : m.task = some t) (hj : isRebuild s.pool.world.jobs t = true)
    (hrefused : refused t s.pool s'.pool = true) :
    s'.state.mysqld.writable = false ∧ s'.state.rebuilding = false ∧
      (s'.primary = true → s'.before t = true) := by
  obtain ⟨henv, hf, hs'⟩ := of_step_agent hm
  -- The step was allowed, and what it did is a step of the rebuild's own program.
  have hh := holds_of_reach h
  obtain ⟨hspared, hsample, -⟩ := hok s' hm
  obtain ⟨⟨hadds, -⟩, hmay⟩ :=
    (closeBase_sound node).may_of_fire hh hf ⟨henv, hspared, hh.inv.1.2⟩ ht
  have hshuts := hmay ((isRebuild_of_jobs hadds.jobs hadds.lt).trans hj)
  obtain ⟨hw, hreb⟩ := hshuts.left hrefused
  refine ⟨hw, hreb, fun hprimary => ?_⟩
  -- From here on the pool after the step is a variable.
  generalize hp : s'.pool = p at *
  subst hs'
  -- The sample that shows a primary is the one that was taken before.
  simp only [primary, Bool.and_eq_true, Option.any_eq_true, Bool.not_eq_true'] at hprimary
  obtain ⟨⟨hshown, -⟩, x', hx', hro⟩ := hprimary
  obtain ⟨x, hx, hsro, -⟩ := of_sample_moved hx'
  rw [hsro] at hro
  have hshown₀ : s.shown = true := (shown_moved hshuts).symm.trans hshown
  show (if s.state.holder = some t then s.before t else s.primary) = true
  split
  -- With the role held, the sample may be from before the rebuild's window.
  · rename_i hheld
    obtain ⟨hfrom, hbefore⟩ := sampled_of_reach h t x hj hheld hx hro
    have hall := hsample t ht hj hheld hrefused
    rw [hx] at hall
    cases ho : x.old with
    | true => exact hbefore ho hshown₀
    | false =>
        have hnone : (x.old || !x.window) = true := hall
        rw [ho, hfrom ho] at hnone
        cases hnone
  -- Without it the rebuild has touched nothing.
  · rename_i haway
    exact primary_of_shown (hspared.1 t ht hj haway (.inr hrefused)).2 hx hro hshown₀

end

/-! ### Runs -/

instance (p : Pool sig) (m : Move sig) (p' : Pool sig) : Decidable (Spared p m p') :=
  inferInstanceAs (Decidable (_ ∧ _ ∧ _))

instance (s : Watched) (m : Move sig) (p' : Pool sig) : Decidable (s.Unmisled m p') :=
  inferInstanceAs (Decidable (∀ t ∈ m.task, isRebuild s.pool.world.jobs t = true →
    s.state.holder = some t → refused t s.pool p' = true → _ = true))

instance (s s' : Watched) : Decidable (Veiled s s') :=
  inferInstanceAs (Decidable (_ = true → _ = true → _ = true → _ = true))

instance decidableSafe (node : Node) (s : Watched) : ∀ m, Decidable (Safe node s m)
  | .agent m =>
    inferInstanceAs (Decidable (∀ s' ∈ s.step node (.agent m),
      Spared s.pool m s'.pool ∧ s.Unmisled m s'.pool ∧ Veiled s s'))
  | .ready b => inferInstanceAs (Decidable (Veiled s { s with ready := b }))
  | .sample | .stale => .isTrue trivial

/-- A rebuild of the replica up to its CLONE, which is sent. The refresher takes a sample. -/
def cloning : List Turn :=
  [.ready true] ++ ([.arrive (.rebuild "b"), .start 0, did 0, did 0, did 0] ++ ran 0 .none ++
    ran 0 .none ++ ran 0 .none).map .agent ++ [.sample]

/-- The clone is not permitted, and the replica is set read-only again. -/
def restored : Watched :=
  Machine.run (step "a") (start true true false)
    (cloning ++ [.agent (failed 0 (some 1227)), .agent (.outside (.execute 0 .none)), .sample])

/-- CLONE is sent. -/
def broken : Watched := Machine.run (step "a") (start true true false) cloning

/-- The rebuild that fails leaves the replica not writable, and /primary says so. -/
theorem refused_rebuild_restored :
    (Machine.run (step "a") restored [.agent (did 0)]).state.mysqld.writable = false ∧
      (Machine.run (step "a") restored [.agent (did 0)]).state.rebuilding = false ∧
        ((Machine.run (step "a") restored [.agent (did 0)]).primary = true →
          (Machine.run (step "a") restored [.agent (did 0)]).before 0 = true) :=
  refused_rebuild
    (Machine.reach_run_of_obeys (by decide +kernel) (by decide +kernel)) (by decide +kernel)
    (Machine.step_eq_run (by decide +kernel)) (t := 0) rfl (by decide +kernel)
    (by decide +kernel)

/-- The donor refuses the clone. The error closes the session, so the rebuild answers 500 on a
writable mysqld, and /primary, which has not done so before, answers 200. -/
theorem refused_rebuild_broken :
    Reach (step "a") Machine.Free (start true true false) broken ∧
      (broken.step "a" (.agent (failed 0 (some 3862)))).any fun s' =>
        refused 0 broken.pool s'.pool && s'.state.mysqld.writable && s'.primary &&
          !s'.before 0 :=
  ⟨Machine.reach_run (by decide +kernel), by decide +kernel⟩

end Watched

end Agent

end DbGuard
