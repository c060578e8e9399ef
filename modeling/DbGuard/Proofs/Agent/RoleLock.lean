import DbGuard.Coop.Frame
import DbGuard.Proofs.Agent.Words

/-!
# `DbGuard.Proofs.Agent.RoleLock`: what the role lock is good for

promote, repoint, configure and rebuild send their statements while they hold the role lock, and
a rebuild sets `rebuilding` under it and clears it again. A fence needs no role lock, and says
only super_read_only=1, two reads and KILL. So a statement on its way belongs to the holder of the
role lock or to a fence (`Ordered`), whatever fails and whatever is given up.

`turning` is the contract. Other contracts are stated over it, for what a role change knows of
mysqld while nobody else can change its role.
-/

set_option autoImplicit false

namespace DbGuard

/-- The statement is one of a fence. -/
def Stmt.ofFence : Stmt → Bool
  | .superReadOnly true | .clientThreads | .kill _ | .selectGtid => true
  | _ => false

namespace Agent

open Coop (Prog Pool Move World Contract Triple Assertion Adds Grows frame)

/-! ### What a segment does -/

/-- What a segment of task `t` does to the role changes of the others, and to mysqld. -/
structure Turns (t : Nat) (s s' : Agent) : Prop where
  mysqld : s'.mysqld = s.mysqld ∨ s'.mysqld = { s.mysqld with up := false }
  held : ∀ t', t' ≠ t → s.holder = some t' → s'.holder = some t' ∧ s'.rebuilding = s.rebuilding
  taken : ∀ t', t' ≠ t → s'.holder = some t' → s.holder = some t'
  calls : ∀ t', t' ≠ t → s'.calls t' = s.calls t'
  closed : ∀ t', t' ≠ t → s'.closed t' = s.closed t'

namespace Turns

variable {t : Nat} {s s' s'' : Agent}

/-- Nothing is done. -/
theorem refl : Turns t s s :=
  ⟨.inl rfl, fun _ _ h => ⟨h, rfl⟩, fun _ _ h => h, fun _ _ => rfl, fun _ _ => rfl⟩

/-- One change after another. -/
theorem trans (h : Turns t s s') (h' : Turns t s' s'') : Turns t s s'' where
  mysqld := by
    rcases h.mysqld with h1 | h1 <;> rcases h'.mysqld with h2 | h2 <;> rw [h1] at h2
    · exact .inl h2
    · exact .inr h2
    · exact .inr h2
    · exact .inr h2
  held t' hne hown := by
    obtain ⟨h1, h2⟩ := h.held t' hne hown
    obtain ⟨h3, h4⟩ := h'.held t' hne h1
    exact ⟨h3, h4.trans h2⟩
  taken t' hne hown := h.taken t' hne (h'.taken t' hne hown)
  calls t' hne := (h'.calls t' hne).trans (h.calls t' hne)
  closed t' hne := (h'.closed t' hne).trans (h.closed t' hne)

/-- A task leaves the start of mysqld. -/
theorem gen (h : Turns t s s') : s'.mysqld.gen = s.mysqld.gen := by
  rcases h.mysqld with h | h <;> rw [h]

/-- It leaves super_read_only to what mysqld executes. -/
theorem superReadOnly (h : Turns t s s') : s'.mysqld.superReadOnly = s.mysqld.superReadOnly := by
  rcases h.mysqld with h | h <;> rw [h]

/-- It leaves semi-sync to that, too. -/
theorem sourceEnabled (h : Turns t s s') : s'.mysqld.sourceEnabled = s.mysqld.sourceEnabled := by
  rcases h.mysqld with h | h <;> rw [h]

/-- mysqld gets writable by no segment. -/
theorem writable (h : Turns t s s') (hw : s.mysqld.writable = false) :
    s'.mysqld.writable = false := by
  rcases h.mysqld with h | h
  · rw [h]
    exact hw
  · rw [h]
    exact Mysqld.writable_down _

end Turns

/-- The changes that task `t` makes, and when. -/
def Update.turns (t : Nat) (s : Agent) : Update → Prop
  | .enqueue _ _ | .dequeue _ _ | .semisync _ | .fenced _ | .hold | .kill => True
  | .acquire l t' => l = .role → t' = t ∧ s.holder = none
  | .release l => l = .role → s.holder = some t
  | .rebuilding _ => s.holder = some t
  | .send t' _ _ | .opened t' _ | .settle t' _ => t' = t
  | _ => False

section
variable {t : Nat} {s : Agent}

/-- The fence lock is not the role lock. -/
theorem holder_onLock_of_ne {l : LockName} (h : l ≠ .role) (f : Mutex → Mutex) :
    (s.onLock l f).holder = s.holder :=
  congrArg Mutex.owner (locks_onLock_of_ne (Ne.symm h) f)

/-- The holder is the owner of the role lock. -/
theorem holder_onLock (f : Mutex → Mutex) :
    (s.onLock .role f).holder = (f (s.locks .role)).owner :=
  congrArg Mutex.owner (locks_onLock .role f)

/-- A change of a lock that leaves a role lock of another task to it, and gives it none. -/
theorem turns_onLock {l : LockName} {f : Mutex → Mutex}
    (h : l = .role → ∀ t', t' ≠ t →
      (s.holder = some t' ↔ (f (s.locks .role)).owner = some t')) : Turns t s (s.onLock l f) := by
  have hiff : ∀ t', t' ≠ t → (s.holder = some t' ↔ (s.onLock l f).holder = some t') := by
    intro t' hne
    by_cases hl : l = .role
    · subst hl
      rw [holder_onLock]
      exact h rfl t' hne
    · rw [holder_onLock_of_ne hl]
  exact ⟨.inl rfl, fun t' hne hown => ⟨(hiff t' hne).mp hown, rfl⟩,
    fun t' hne => (hiff t' hne).mpr, fun _ _ => rfl, fun _ _ => rfl⟩

/-- The changes of a task that it makes in its turn. -/
theorem turns_apply {u : Update} (hu : u.turns t s) : Turns t s (u.apply s) := by
  -- A task that enqueues or leaves the queue changes no owner.
  cases u with
  | enqueue l t' =>
      exact turns_onLock (l := l) (f := fun m => { m with waiters := m.waiters ++ [t'] })
        fun _ _ _ => Iff.rfl
  | dequeue l t' =>
      exact turns_onLock (l := l) (f := fun m => { m with waiters := m.waiters.erase t' })
        fun _ _ _ => Iff.rfl
  -- Taking a lock needs it free, so nobody loses it.
  | acquire l t' =>
      refine turns_onLock (l := l)
        (f := fun m => { owner := some t', waiters := m.waiters.erase t' }) fun hl t'' hne => ?_
      obtain ⟨rfl, hfree⟩ := hu hl
      rw [hfree]
      exact ⟨(fun h => by cases h), fun h => absurd (Option.some.inj h).symm hne⟩
  -- Only the owner gives it back.
  | release l =>
      refine turns_onLock (l := l) (f := fun m => { m with owner := none }) fun hl t'' hne => ?_
      rw [hu hl]
      exact ⟨fun h => absurd (Option.some.inj h).symm hne, (fun h => by cases h)⟩
  | semisync b | fenced b | hold =>
      exact ⟨.inl rfl, fun _ _ h => ⟨h, rfl⟩, fun _ _ h => h, fun _ _ => rfl, fun _ _ => rfl⟩
  | kill =>
      exact ⟨.inr rfl, fun _ _ h => ⟨h, rfl⟩, fun _ _ h => h, fun _ _ => rfl, fun _ _ => rfl⟩
  -- The rebuild's own flag belongs to the task that holds the role.
  | rebuilding b =>
      refine ⟨.inl rfl, fun t' hne h => ?_, fun _ _ h => h, fun _ _ => rfl, fun _ _ => rfl⟩
      have hown : s.holder = some t := hu
      rw [hown] at h
      exact absurd (Option.some.inj h).symm hne
  -- A session's call and its opening are entries of this one task.
  | send t' gen q =>
      cases hu
      exact ⟨.inl rfl, fun _ _ h => ⟨h, rfl⟩, fun _ _ h => h,
        fun t'' hne => Function.update_of_ne hne _ _, fun _ _ => rfl⟩
  | opened t' gen =>
      cases hu
      exact ⟨.inl rfl, fun _ _ h => ⟨h, rfl⟩, fun _ _ h => h, fun _ _ => rfl,
        fun t'' hne => Function.update_of_ne hne _ _⟩
  | settle t' shut =>
      cases hu
      refine ⟨.inl rfl, fun _ _ h => ⟨h, rfl⟩, fun _ _ h => h,
        fun t'' hne => Function.update_of_ne hne _ _, fun t'' hne => ?_⟩
      -- Settling a call closes the session or leaves the sessions alone.
      cases shut with
      | true => exact Function.update_of_ne hne _ _
      | false => rfl
  -- These the environment does.
  | execute t' row | land k | crash | boot b | expire t' | disk b => exact hu.elim

end

/-! ### The contract -/

/-- Task `t` may have this statement on its way. -/
def MaySay (t : Nat) (w : World sig) (c : Call) : Prop :=
  w.state.holder = some t ∨ w.jobs[t]? = some .fence ∧ c.stmt.ofFence = true

/-- What holds between any two segments. -/
structure Ordered (w : World sig) : Prop where
  said : ∀ t c, w.state.calls t = some c → MaySay t w c
  free : w.state.holder = none → w.state.rebuilding = false
  new : ∀ t, w.jobs.length ≤ t → w.state.calls t = none ∧ w.state.holder ≠ some t

/-- What a suspended task can rely on. -/
structure Stays (t : Nat) (w w' : World sig) : Prop where
  held : w.state.holder = some t →
    w'.state.holder = some t ∧ w'.state.rebuilding = w.state.rebuilding
  away : w.state.holder ≠ some t → w'.state.holder ≠ some t
  call : ∀ c, w.state.calls t = some c → ∃ row, w'.state.calls t = some { c with row }
  idle : w.state.calls t = none → w'.state.calls t = none
  closed : w'.state.closed t = w.state.closed t
  gen : w.state.mysqld.gen ≤ w'.state.mysqld.gen

/-- What a segment of task `t` does. -/
structure Orderly (t : Nat) (w₀ w : World sig) : Prop where
  turns : Turns t w₀.state w.state
  said : ∀ c, w.state.calls t = some c → MaySay t w c
  free : w.state.holder = none → w.state.rebuilding = false

/-- The role changes take turns. -/
def turning : Contract sig where
  inv := Ordered
  rely := Stays
  allowed _ _ _ := True
  answers t w r a := w.state.answers t r a = true
  may := Orderly
  pre t _ w := w.state.calls t = none ∧ w.state.holder ≠ some t

section
variable {t t' : Nat} {w w' w'' w₀ : World sig}

/-- Nothing happens to a suspended task. -/
theorem Stays.refl : Stays t w w where
  held h := ⟨h, rfl⟩
  away h := h
  call c h := ⟨c.row, h⟩
  idle h := h
  closed := rfl
  gen := le_refl _

/-- What it relies on holds over several moves. -/
theorem Stays.trans (h : Stays t w w') (h' : Stays t w' w'') : Stays t w w'' where
  held hown := by
    obtain ⟨h1, h2⟩ := h.held hown
    obtain ⟨h3, h4⟩ := h'.held h1
    exact ⟨h3, h4.trans h2⟩
  away hne := h'.away (h.away hne)
  call c hc := by
    obtain ⟨row, hrow⟩ := h.call c hc
    exact h'.call { c with row } hrow
  idle hn := h'.idle (h.idle hn)
  closed := h'.closed.trans h.closed
  gen := le_trans h.gen h'.gen

/-- The session is open after an answer that does not close it. -/
theorem Stays.open_answered {j : Job} {gen : Nat} {q : Stmt} {a : Except Failure Row}
    (h : Stays t (sent t j gen q w) w') (ho : w.state.closed t = false) (ha : closes a = false) :
    (answered t q a w').state.closed t = false := by
  show (if closes a then _ else w'.state.closed) t = false
  rw [ha]
  exact h.closed.trans ho

/-- A change that leaves the role lock, `rebuilding`, the calls and the sessions alone. -/
theorem stays_of_same (hlocks : w'.state.holder = w.state.holder)
    (hrebuilding : w'.state.rebuilding = w.state.rebuilding)
    (hcalls : w'.state.calls t = w.state.calls t)
    (hclosed : w'.state.closed t = w.state.closed t)
    (hgen : w.state.mysqld.gen ≤ w'.state.mysqld.gen) : Stays t w w' where
  held h := ⟨hlocks.trans h, hrebuilding⟩
  away h := by rwa [hlocks]
  call c h := ⟨c.row, hcalls.trans h⟩
  idle h := hcalls.trans h
  closed := hclosed
  gen := hgen

/-- A segment of another task. -/
theorem Orderly.stays (hne : t ≠ t') (h : Orderly t w₀ w) : Stays t' w₀ w where
  held hown := h.turns.held t' (Ne.symm hne) hown
  away hnot hown := hnot (h.turns.taken t' (Ne.symm hne) hown)
  call c hc := ⟨c.row, (h.turns.calls t' (Ne.symm hne)).trans hc⟩
  idle hn := (h.turns.calls t' (Ne.symm hne)).trans hn
  closed := h.turns.closed t' (Ne.symm hne)
  gen := h.turns.gen.ge

/-- A segment is no step of a task that is yet to come. -/
theorem Orderly.unborn (ho : Ordered w₀) (h : Orderly t w₀ w) (hne : t' ≠ t)
    (ht' : w₀.jobs.length ≤ t') : w.state.calls t' = none ∧ w.state.holder ≠ some t' := by
  obtain ⟨hcalls, hholder⟩ := ho.new t' ht'
  exact ⟨(h.turns.calls t' hne).trans hcalls, fun hown => hholder (h.turns.taken t' hne hown)⟩

/-- A segment in order leaves the world in order. -/
theorem Orderly.ordered (ho : Ordered w₀) (ha : Adds t w₀ w) (h : Orderly t w₀ w) :
    Ordered w where
  said t' c hc := by
    by_cases hne : t' = t
    · subst hne
      exact h.said c hc
    · rw [h.turns.calls t' hne] at hc
      rcases ho.said t' c hc with hown | ⟨hj, hq⟩
      · exact .inl (h.turns.held t' hne hown).1
      · exact .inr ⟨(ha.grows (Ne.symm hne)).job hj, hq⟩
  free := h.free
  new t' ht' := by
    have hle : w₀.jobs.length ≤ t' := le_trans ha.jobs.length_le ht'
    exact h.unborn ho (Nat.ne_of_gt (lt_of_lt_of_le ha.lt hle)) hle

/-- mysqld executes a statement. -/
theorem stays_execute {row : Row} (ho : w.state.outside (.execute t' row) = true) :
    Stays t w (w.edit (.execute t' row)) := by
  obtain ⟨c, hc, -⟩ := of_outside_execute ho
  have hs : (w.edit (.execute t' row)).state = _ := execute_of_call row hc
  have hgen : ∀ q, (w.state.mysqld.exec q).gen = w.state.mysqld.gen := by
    intro q
    cases q <;> rfl
  refine ⟨fun h => ?_, fun h => ?_, fun c' hc' => ?_, fun hn => ?_, ?_, ?_⟩
  · rw [hs]
    exact ⟨h, rfl⟩
  · rw [hs]
    exact h
  · rw [hs]
    by_cases ht : t = t'
    · subst ht
      rw [hc] at hc'
      cases hc'
      exact ⟨some row, Function.update_self (f := w.state.calls) _ _⟩
    · exact ⟨c'.row, (Function.update_of_ne ht _ _).trans hc'⟩
  · rw [hs]
    by_cases ht : t = t'
    · subst ht
      rw [hc] at hn
      cases hn
    · exact (Function.update_of_ne ht _ _).trans hn
  · rw [hs]
  · rw [hs]
    exact (hgen _).ge

/-- A change from outside. -/
theorem stays_outside {u : Update} (ho : w.state.outside u = true) : Stays t w (w.edit u) := by
  cases u with
  | execute t' row => exact stays_execute ho
  | land k =>
      obtain ⟨c, hc, -⟩ := of_outside_land ho
      have hs : (w.edit (.land k)).state = _ := land_of_late hc
      refine stays_of_same ?_ ?_ ?_ ?_ ?_
      · rw [hs]; rfl
      · rw [hs]
      · rw [hs]
      · rw [hs]
      · rw [hs]
        cases c.stmt <;> exact le_refl _
  | boot b => exact stays_of_same rfl rfl rfl rfl (Nat.le_succ _)
  | crash | expire t' | disk b => exact stays_of_same rfl rfl rfl rfl (le_refl _)
  | _ => cases ho

/-- So does what comes from outside. -/
theorem ordered_outside {u : Update} (ho : w.state.outside u = true) (h : Ordered w) :
    Ordered (w.edit u) := by
  -- Tasks that do not exist yet neither call nor hold.
  have hnew : ∀ t, w.jobs.length ≤ t →
      (w.edit u).state.calls t = none ∧ (w.edit u).state.holder ≠ some t := by
    intro t ht
    have hstays := stays_outside (t := t) ho
    exact ⟨hstays.idle (h.new t ht).1, hstays.away (h.new t ht).2⟩
  cases u with
  -- Executing a row rewrites the call that it belongs to, and that call keeps its statement.
  | execute t' row =>
      obtain ⟨c, hc, -⟩ := of_outside_execute ho
      have hs : (w.edit (.execute t' row)).state = _ := execute_of_call row hc
      refine ⟨fun t c' hc' => ?_, ?_, hnew⟩
      · rw [hs] at hc'
        rw [MaySay, hs]
        by_cases ht : t = t'
        · subst ht
          have heq : some _ = some c' :=
            (Function.update_self (f := w.state.calls) _ _).symm.trans hc'
          cases heq
          exact h.said t c hc
        · exact h.said t c' ((Function.update_of_ne ht _ _).symm.trans hc')
      · rw [hs]
        exact h.free
  -- A late statement lands: the calls are untouched.
  | land k =>
      obtain ⟨c, hc, -⟩ := of_outside_land ho
      have hs : (w.edit (.land k)).state = _ := land_of_late hc
      refine ⟨fun t c' hc' => ?_, ?_, hnew⟩
      · rw [hs] at hc'
        rw [MaySay, hs]
        exact h.said t c' hc'
      · rw [hs]
        exact h.free
  | boot b | crash | expire t' | disk b => exact ⟨h.said, h.free, hnew⟩
  | _ => cases ho

end

/-! ### The programs -/

/-- The contracts of the frame and of the role lock. -/
abbrev turnBase : Contract sig := (frame sig).upon turning

/-- A change by task `t` that touches neither the role lock nor its call nor `rebuilding`. -/
structure Calm (t : Nat) (s : Agent) (u : Update) : Prop where
  turns : u.turns t s
  holder : (u.apply s).holder = s.holder
  calls : (u.apply s).calls = s.calls
  rebuilding : (u.apply s).rebuilding = s.rebuilding

/-- The changes that a role change makes beside those of locks and of `rebuilding`. -/
def Update.plain : Update → Prop
  | .fenced _ | .semisync _ | .hold | .kill => True
  | _ => False

section
variable {t : Nat} {s : Agent} {l : LockName}

/-- The plain changes are calm. -/
theorem calm_plain {u : Update} (hu : u.plain) : Calm t s u := by
  cases u with
  | fenced b | semisync b | hold | kill => exact ⟨trivial, rfl, rfl, rfl⟩
  | _ => exact hu.elim

/-- A change of the fence lock leaves the holder. -/
theorem holder_fence (f : Mutex → Mutex) : (s.onLock .fence f).holder = s.holder :=
  holder_onLock_of_ne (by decide) f

/-- Waiting for the fence lock is calm. -/
theorem calm_enqueue (hl : l = .fence) : Calm t s (.enqueue l t) := by
  subst hl
  exact ⟨trivial, holder_fence fun m => { m with waiters := m.waiters ++ [t] }, rfl, rfl⟩

/-- So is giving up the wait. -/
theorem calm_dequeue (hl : l = .fence) : Calm t s (.dequeue l t) := by
  subst hl
  exact ⟨trivial, holder_fence fun m => { m with waiters := m.waiters.erase t }, rfl, rfl⟩

/-- So is taking it. -/
theorem calm_acquire (hl : l = .fence) : Calm t s (.acquire l t) := by
  subst hl
  exact ⟨(fun h => by cases h),
    holder_fence fun m => { owner := some t, waiters := m.waiters.erase t }, rfl, rfl⟩

/-- So is giving it back. -/
theorem calm_release (hl : l = .fence) : Calm t s (.release l) := by
  subst hl
  exact ⟨(fun h => by cases h), holder_fence fun m => { m with owner := none }, rfl, rfl⟩

end

/-- So is a new session. -/
theorem calm_opened (t : Nat) (s : Agent) (gen : Nat) : Calm t s (.opened t gen) :=
  ⟨rfl, rfl, rfl, rfl⟩

/-- Task `t` holds the role lock and has no statement on its way. -/
structure Held (t : Nat) (j : Job) (b : Bool) (w₀ w : World sig) : Prop where
  job : w.jobs[t]? = some j
  holds : w.state.holder = some t
  idle : w.state.calls t = none
  rebuilding : w.state.rebuilding = b
  turns : Turns t w₀.state w.state

/-- Task `t` does not hold the role lock and has no statement on its way. -/
structure Aside (t : Nat) (j : Job) (w₀ w : World sig) : Prop where
  job : w.jobs[t]? = some j
  away : w.state.holder ≠ some t
  idle : w.state.calls t = none
  free : w.state.holder = none → w.state.rebuilding = false
  turns : Turns t w₀.state w.state

section
variable {t : Nat} {j : Job} {b : Bool} {w₀ w w' : World sig}

namespace Held

/-- The holder stays one over a calm change. -/
theorem calm {u : Update} (hu : Calm t w.state u) (h : Held t j b w₀ w) :
    Held t j b w₀ (w.edit u) where
  job := h.job
  holds := hu.holder.trans h.holds
  idle := (congrFun hu.calls t).trans h.idle
  rebuilding := hu.rebuilding.trans h.rebuilding
  turns := h.turns.trans (turns_apply hu.turns)

/-- And over a record. -/
theorem record (e : Coop.Event sig) (h : Held t j b w₀ w) : Held t j b w₀ (w.record e) :=
  ⟨h.job, h.holds, h.idle, h.rebuilding, h.turns⟩

/-- Where the holder suspends. -/
theorem orderly (h : Held t j b w₀ w) : Orderly t w₀ w where
  turns := h.turns
  said c hc := by rw [h.idle] at hc; cases hc
  free hn := by rw [h.holds] at hn; cases hn

/-- It is the holder still when it goes on. -/
theorem resume (h : Held t j b w₀ w) (hg : Grows t w w') (hr : Stays t w w') :
    Held t j b w' w' where
  job := hg.job h.job
  holds := (hr.held h.holds).1
  idle := hr.idle h.idle
  rebuilding := (hr.held h.holds).2.trans h.rebuilding
  turns := .refl

/-- A statement of the holder. -/
theorem sent {gen : Nat} {q : Stmt} (h : Held t j b w₀ w) : Orderly t w₀ (sent t j gen q w) where
  turns := h.turns.trans (turns_apply (u := .send t gen q) rfl)
  said _ _ := .inl h.holds
  free hn := by
    have hholds : (Agent.sent t j gen q w).state.holder = some t := h.holds
    rw [hholds] at hn
    cases hn

/-- Its answer is read. -/
theorem answered {gen : Nat} {q : Stmt} (a : Except Failure Row) (h : Held t j b w₀ w)
    (hg : Grows t (Agent.sent t j gen q w) w') (hr : Stays t (Agent.sent t j gen q w) w') :
    Held t j b w' (answered t q a w') where
  job := hg.job h.job
  holds := (hr.held h.holds).1
  idle := calls_settle (closes a)
  rebuilding := (hr.held h.holds).2.trans h.rebuilding
  turns := turns_apply (u := .settle t (closes a)) rfl

/-- It gives the lock back, with no rebuild in progress. -/
theorem release (h : Held t j false w₀ w) : Aside t j w₀ (w.edit (.release .role)) := by
  have hnone : (w.edit (.release .role)).state.holder = none :=
    holder_onLock fun m => { m with owner := none }
  refine ⟨h.job, ?_, h.idle, fun _ => h.rebuilding,
    h.turns.trans (turns_apply (u := .release .role) fun _ => h.holds)⟩
  rw [hnone]
  exact fun hn => by cases hn

end Held

namespace Aside

/-- A segment that has just begun, of a task that does not hold the lock. -/
theorem refl (hj : w.jobs[t]? = some j) (hidle : w.state.calls t = none)
    (haway : w.state.holder ≠ some t) (ho : Ordered w) : Aside t j w w :=
  ⟨hj, haway, hidle, ho.free, .refl⟩

/-- The task stays aside over a calm change. -/
theorem calm {u : Update} (hu : Calm t w.state u) (h : Aside t j w₀ w) :
    Aside t j w₀ (w.edit u) where
  job := h.job
  away := by
    rw [show (w.edit u).state.holder = w.state.holder from hu.holder]
    exact h.away
  idle := (congrFun hu.calls t).trans h.idle
  free hn := hu.rebuilding.trans (h.free (hu.holder.symm.trans hn))
  turns := h.turns.trans (turns_apply hu.turns)

/-- And over a record. -/
theorem record (e : Coop.Event sig) (h : Aside t j w₀ w) : Aside t j w₀ (w.record e) :=
  ⟨h.job, h.away, h.idle, h.free, h.turns⟩

/-- A segment of a task aside is in order. -/
theorem orderly (h : Aside t j w₀ w) : Orderly t w₀ w where
  turns := h.turns
  said c hc := by rw [h.idle] at hc; cases hc
  free := h.free

/-- It is aside still when it goes on. -/
theorem resume (h : Aside t j w₀ w) (ho : Ordered w') (hg : Grows t w w') (hr : Stays t w w') :
    Aside t j w' w' :=
  .refl (hg.job h.job) (hr.idle h.idle) (hr.away h.away) ho

/-- Its segment may end. -/
theorem ends (h : Aside t j w₀ w) : turnBase.Ends t () w₀ w :=
  fun _ => (h.record (.finished t w.state)).orderly

/-- Queueing for the role lock. -/
theorem enqueue (h : Aside t j w₀ w) : Aside t j w₀ (w.edit (.enqueue .role t)) := by
  have hsame : (w.edit (.enqueue .role t)).state.holder = w.state.holder :=
    holder_onLock fun m => { m with waiters := m.waiters ++ [t] }
  refine ⟨h.job, ?_, h.idle, fun hn => h.free (hsame.symm.trans hn),
    h.turns.trans (turns_apply (u := .enqueue .role t) trivial)⟩
  rw [hsame]
  exact h.away

/-- It gives up the wait for the role lock. -/
theorem dequeue (h : Aside t j w₀ w) : Aside t j w₀ (w.edit (.dequeue .role t)) := by
  have hsame : (w.edit (.dequeue .role t)).state.holder = w.state.holder :=
    holder_onLock fun m => { m with waiters := m.waiters.erase t }
  refine ⟨h.job, ?_, h.idle, fun hn => h.free (hsame.symm.trans hn),
    h.turns.trans (turns_apply (u := .dequeue .role t) trivial)⟩
  rw [hsame]
  exact h.away

/-- The role lock is taken. -/
theorem acquire (h : Aside t j w₀ w) (hfree : w.state.holder = none) :
    Held t j false w₀ (w.edit (.acquire .role t)) where
  job := h.job
  holds := owner_acquire .role
  idle := h.idle
  rebuilding := h.free hfree
  turns := h.turns.trans (turns_apply (u := .acquire .role t) fun _ => ⟨rfl, hfree⟩)

end Aside

/-- The words of a role change under the role lock. -/
def heldWords : Words where
  edits := Update.plain
  stmts _ := True
  locks l := l = .fence

/-- What the holder says under the lock keeps it the holder. -/
theorem held_carries (t : Nat) (j : Job) (b : Bool) :
    heldWords.Carries turnBase t j (Held t j b) where
  edit u w₀ w hu h := h.calm (calm_plain hu)
  opened gen w₀ w h := h.calm (calm_opened t _ gen)
  enqueue l w₀ w hl h := h.calm (calm_enqueue hl)
  dequeue l w₀ w hl h := h.calm (calm_dequeue hl)
  acquire l w₀ w hl _ h := h.calm (calm_acquire hl)
  release l w₀ w hl h := h.calm (calm_release hl)
  cut w₀ w h _ := ⟨h.orderly, fun w' _ hr => h.resume hr.1 hr.2⟩
  await r w₀ w _ h _ := by
    have hi : Held t j b w₀ (w.issue t j r) := h.record _
    exact ⟨hi.orderly, fun w' a _ hr _ => (hi.resume hr.1 hr.2).record _⟩
  sql gen q w₀ w _ h _ := ⟨h.sent, fun w' a _ hr _ => h.answered a hr.1 hr.2⟩

/-- The words of a task without the role lock. Only a fence has statements. -/
def asideWords (j : Job) : Words where
  edits := Update.plain
  stmts q := j = .fence ∧ q.ofFence = true
  locks l := l = .fence

/-- What a task says without the lock keeps it aside. -/
theorem aside_carries (t : Nat) (j : Job) :
    (asideWords j).Carries turnBase t j (Aside t j) where
  edit u w₀ w hu h := h.calm (calm_plain hu)
  opened gen w₀ w h := h.calm (calm_opened t _ gen)
  enqueue l w₀ w hl h := h.calm (calm_enqueue hl)
  dequeue l w₀ w hl h := h.calm (calm_dequeue hl)
  acquire l w₀ w hl _ h := h.calm (calm_acquire hl)
  release l w₀ w hl h := h.calm (calm_release hl)
  cut w₀ w h _ := ⟨h.orderly, fun w' hi hr => h.resume hi.2 hr.1 hr.2⟩
  await r w₀ w _ h _ := by
    have hi : Aside t j w₀ (w.issue t j r) := h.record _
    exact ⟨hi.orderly, fun w' a hinv hr _ => (hi.resume hinv.2 hr.1 hr.2).record _⟩
  sql gen q w₀ w hq h _ := by
    have hcall : (sent t j gen q w).state.calls t =
        some { gen, session := w.state.session t, stmt := q } := calls_send gen q
    refine ⟨⟨h.turns.trans (turns_apply (u := .send t gen q) rfl), fun c hc => ?_, h.free⟩,
      fun w' a hi hr _ => ⟨hr.1.job h.job, hr.2.away h.away, calls_settle (closes a), hi.2.free,
        turns_apply (u := .settle t (closes a)) rfl⟩⟩
    rw [hcall] at hc
    cases hc
    obtain ⟨rfl, hfence⟩ := hq
    exact .inr ⟨h.job, hfence⟩

/-- What is done under the role lock. -/
theorem triple_role {α : Type} {m : X α}
    (hm : Triple turnBase t j (Held t j false) m (fun _ => Held t j false)
      fun _ => Held t j false) :
    Triple turnBase t j (Aside t j) (withLockDeadlined .role t m) (fun _ => Aside t j)
      fun _ => Aside t j := by
  refine triple_withLockDeadlined (fun w₀ w h hfree => h.acquire hfree) (fun w₀ w h _ => ?_)
    (hm.conseq (fun _ _ h => h) (fun _ _ _ h => h.release) fun _ _ _ h => h.release)
  have hq := h.enqueue
  refine ⟨hq.orderly, fun w' hi hr => ⟨fun _ hfree => ?_, ?_⟩⟩
  · exact (hq.resume hi.2 hr.1 hr.2).acquire hfree
  · exact (hq.resume hi.2 hr.1 hr.2).dequeue

/-- A promote takes the role lock, or fails without it, and gives it back. -/
theorem turns_promote : Triple turnBase t j (Aside t j) (promote t) (fun _ => Aside t j)
    fun _ => Aside t j := by
  refine triple_role ((held_carries t j false).keeps ?_)
  refine says_bind says_endRestartHold fun _ => says_bind says_connect fun gen => ?_
  exact says_promoteOn rfl trivial fun _ => trivial

/-- So does a repoint. -/
theorem turns_repoint (node source : Node) :
    Triple turnBase t j (Aside t j) (repoint node t source) (fun _ => Aside t j)
      fun _ => Aside t j := by
  unfold repoint
  split
  · exact .throw fun _ _ h => h
  refine triple_role ((held_carries t j false).keeps ?_)
  refine says_bind says_endRestartHold fun _ => says_bind says_connect fun gen => ?_
  exact says_repointOn fun _ _ => trivial

/-- So does a configure. -/
theorem turns_configure (semisync : Option Bool) :
    Triple turnBase t j (Aside t j) (configure t semisync) (fun _ => Aside t j)
      fun _ => Aside t j := by
  refine .bind ((aside_carries t j).keeps (says_setSemisync fun _ => trivial)) fun _ => ?_
  refine triple_role ((held_carries t j false).keeps ?_)
  exact says_bind says_connect fun gen => says_configureOn fun _ _ => trivial

/-- `rebuilding` is set and cleared under the role lock. -/
theorem turns_rebuildOn (gen started : Nat) (donor : Node) :
    Triple turnBase t j (Held t j false) (rebuildOn t gen started donor) (fun _ => Held t j false)
      fun _ => Held t j false := by
  have hset : ∀ b b' w₀ w, Held t j b w₀ w → Held t j b' w₀ (w.edit (.rebuilding b')) :=
    fun b b' w₀ w h => ⟨h.job, h.holds, h.idle, rfl,
      h.turns.trans (turns_apply (u := .rebuilding b') h.holds)⟩
  have hsays : Says heldWords t (do cloneFrom t gen donor; rebuildFinish t started : X Unit) :=
    says_bind (says_cloneFrom fun _ _ => trivial) fun _ => says_rebuildFinish fun _ _ => trivial
  intro w₀ w h
  show ((do cloneFrom t gen donor; rebuildFinish t started : X Unit).run >>= fun r =>
    edit (.rebuilding false) >>= fun _ => pure r).wp turnBase t j _ w₀ (w.edit (.rebuilding true))
  refine Prog.wp_seq ((held_carries t j true).keeps hsays w₀ _ (hset _ true _ _ h))
    fun r w₀ w hr => ?_
  cases r with
  | ok a => exact hset _ false _ _ hr
  | error e => exact hset _ false _ _ hr

/-- So does a rebuild. -/
theorem turns_rebuild (node donor : Node) :
    Triple turnBase t j (Aside t j) (rebuild node t donor) (fun _ => Aside t j)
      fun _ => Aside t j := by
  unfold rebuild
  split
  · exact .throw fun _ _ h => h
  have hkeeps := held_carries t j false
  refine triple_role (.bind (hkeeps.keeps says_endRestartHold) fun _ => ?_)
  refine .bind (hkeeps.keeps (.leaf (.await (r := .ownGtid) trivial))) fun _ => ?_
  refine .bind (hkeeps.keeps says_askDonor) fun _ => .bind (hkeeps.keeps says_state) fun s => ?_
  exact .bind (hkeeps.keeps says_connect) fun gen => turns_rebuildOn gen s.mysqld.gen donor

/-- A task without the role lock answers. -/
theorem aside_replies (status : Nat) (h : Aside t j w₀ w) :
    Orderly t w₀ (w.issue t j (.reply status)) ∧ ∀ w' a, turnBase.inv w' →
      turnBase.rely t (w.issue t j (.reply status)) w' →
        turnBase.Ends t () w' (w'.answer t (.reply status) a) := by
  have hi : Aside t j w₀ (w.issue t j (.reply status)) := h.record _
  refine ⟨hi.orderly, fun w' a hinv hr => ?_⟩
  exact ((hi.resume hinv.2 hr.1 hr.2).record (.answered t (.reply status) a)).ends

/-- The request answers, whatever came out. -/
theorem turns_answer {α : Type} {m : X α}
    (hm : Triple turnBase t j (Aside t j) m (fun _ => Aside t j) fun _ => Aside t j)
    (h : Aside t j w₀ w) : (answer m).wp turnBase t j (turnBase.Ends t) w₀ w := by
  refine wp_answer (K := Aside t j) (Prog.wp_mono (fun r w₀ w hr => ?_) _ _ _ (hm w₀ w h))
    fun status w₀ w h _ => aside_replies status h
  cases r <;> exact hr

/-- Every request takes its turn. -/
theorem turns_body (node : Node) (h : Aside t j w₀ w) :
    (body node t j).wp turnBase t j (turnBase.Ends t) w₀ w := by
  cases j with
  | fence =>
      have hsays : Says (asideWords .fence) t (fence t) :=
        says_fence rfl trivial trivial trivial ⟨rfl, rfl⟩ ⟨rfl, rfl⟩ (fun _ => ⟨rfl, rfl⟩)
          ⟨rfl, rfl⟩
      refine Prog.wp_seq ((aside_carries t .fence).keeps hsays w₀ w h) fun r w₀ w hr => ?_
      cases r with
      | ok status => exact fun _ => ⟨(aside_replies status hr).1,
          fun w' a hi hr' _ => (aside_replies status hr).2 w' a hi hr'⟩
      | error e => exact fun _ => ⟨(aside_replies e.status hr).1,
          fun w' a hi hr' _ => (aside_replies e.status hr).2 w' a hi hr'⟩
  | unfence => exact turns_answer ((aside_carries t _).keeps (says_unfence rfl trivial)) h
  | promote => exact turns_answer turns_promote h
  | repoint source => exact turns_answer (turns_repoint node source) h
  | configure semisync => exact turns_answer (turns_configure semisync) h
  | rebuild donor => exact turns_answer (turns_rebuild node donor) h

end

/-! ### The runs -/

/-- The contract is sound over the frame, under the rules of the environment. -/
theorem turning_sound (node : Node) {ok : Pool sig → Move sig → Pool sig → Prop}
    (hok : ∀ p m p', ok p m p' → environment p m = true) :
    (frame sig).SoundOver turning (body node) ok where
  rely_refl _ _ := .refl
  rely_trans _ _ _ _ := .trans
  rely_of_may _ _ _ _ hne _ _ _ h := h.stays hne
  rely_arrive p j p' t _ _ := stays_of_same rfl rfl rfl rfl (le_refl _)
  rely_outside p u p' t ho _ := stays_outside (hok _ _ _ ho)
  -- A landing and a resent request are not of this machine.
  rely_land p t' r p' t ho _ := by
    have h := hok _ _ _ ho
    cases h
  rely_resend p t' r p' t ho _ := by
    have h := hok _ _ _ ho
    cases h
  inv_may _ _ _ _ hi ha h := h.ordered hi ha
  inv_arrive p j p' _ hi := by
    -- A new job takes no lock and has no call, and the others keep their numbers.
    refine ⟨fun t c hc => ?_, hi.free, fun t ht => hi.new t ?_⟩
    · rcases hi.said t c hc with hown | ⟨hjob, hq⟩
      · exact .inl hown
      · have hlt := (List.getElem?_eq_some_iff.mp hjob).1
        exact .inr ⟨(List.getElem?_append_left hlt).trans hjob, hq⟩
    · exact le_trans (List.prefix_append p.world.jobs [j]).length_le ht
  inv_outside p u p' ho hi := ordered_outside (hok _ _ _ ho) hi
  inv_land p t r p' ho _ := by
    have h := hok _ _ _ ho
    cases h
  inv_resend p t r p' ho _ := by
    have h := hok _ _ _ ho
    cases h
  pre_rely _ _ _ _ h _ hr := ⟨hr.idle h.1, hr.away h.2⟩
  -- A task created by this step has done nothing yet.
  pre_may t w₀ w t' j _ hi ha h hlen _ :=
    h.unborn hi (Nat.ne_of_gt (lt_of_lt_of_le ha.lt hlen)) hlen
  pre_arrive p j p' _ hi := hi.new _ (le_refl _)
  allowed_start _ _ _ _ := trivial
  allowed_answer _ _ _ _ _ := trivial
  allowed_wake _ _ _ _ := trivial
  answers_ok p t f p' r k ho hp := by
    have h := hok _ _ _ ho
    simp only [environment, hp] at h
    exact h
  body_wp t j w _ hi hj _ hp := turns_body node (.refl hj hp.1 hp.2 hi)

/-- The frame and the role lock. -/
theorem turnBase_sound (node : Node) {ok : Pool sig → Move sig → Pool sig → Prop}
    (hok : ∀ p m p', ok p m p' → environment p m = true) :
    ((frame sig).both turning).Sound (body node) ok :=
  (Coop.frame_sound _ _).both (turning_sound node hok)

/-- The contract holds of every run from an agent that does nothing yet. -/
theorem turning_holds (node : Node) {s : Agent} (hcalls : ∀ t, s.calls t = none)
    (hholder : s.holder = none) (hrebuilding : s.rebuilding = false)
    {ok : Pool sig → Move sig → Pool sig → Prop}
    (hok : ∀ p m p', ok p m p' → environment p m = true) {p : Pool sig}
    (hr : Coop.Reach (body node) ok (Pool.init s []) p) : ((frame sig).both turning).Holds p := by
  have hinit : ((frame sig).both turning).inv (Pool.init s []).world := by
    refine ⟨fun e he => absurd he List.not_mem_nil, fun t c hc => ?_, fun _ => hrebuilding,
      fun t _ => ⟨hcalls t, fun hown => ?_⟩⟩
    · have hsome : s.calls t = some c := hc
      rw [hcalls t] at hsome
      cases hsome
    · have hsome : s.holder = some t := hown
      rw [hholder] at hsome
      cases hsome
  exact (turnBase_sound node hok).holds_reach
    (Contract.holds_init hinit fun t j hj => absurd hj (by simp)) hr

end Agent

end DbGuard
