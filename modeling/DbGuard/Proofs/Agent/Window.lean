import DbGuard.Proofs.Agent.Words

/-!
# `DbGuard.Proofs.Agent.Window`: while a rebuild runs

A rebuild makes mysqld writable, waits for the clone and for the restart after it, and sets
mysqld read-only again. `fails` says which answer ends it on the way. That of CLONE may be an
error that says the restart is to come, or one that leaves the session open for the SET
super_read_only=1, and mysqld may take its time to exit.

`Window` lists what a contract has to say of single waits and statements, for three assertions:
one that holds as long as the rebuild runs, one that holds from its SET super_read_only=1 on, one
that holds when it gives up. `Window.rebuilds` is the rule of the whole from there.
-/

set_option autoImplicit false

namespace DbGuard

/-- The statement is a clone. -/
def Stmt.clones : Stmt → Bool
  | .clone _ => true
  | _ => false

namespace Agent

open Coop (Prog World Contract Triple Assertion)

/-- A `DbError`. -/
def Failure.ofDb : Failure → Bool
  | .db _ _ => true
  | _ => false

/-- The restart is to come. -/
def Failure.pends : Failure → Bool
  | .db code _ => pendsRestart code
  | _ => false

/-- What CLONE may raise: an error that says the restart is to come, or one that leaves the
session open. -/
def Failure.bearable (e : Failure) : Bool := e.pends || e.ofDb && !e.closes

/-- The wait of a rebuild fails. CLONE may raise what is bearable, and mysqld may take its time
to exit. -/
def fails : (r : Req) → r.Resp → Bool
  | .sql q, a =>
    match (a : Except Failure Row) with
    | .ok _ => false
    | .error e => !(q.clones && e.bearable)
  | .connect, a => !Except.isOk (a : Except Failure Nat)
  | .sample, a | .ownGtid, a | .donorGtid _, a =>
    !Except.isOk (a : Except Failure Unit)
  | .waitExit, a => !Except.isOk (a : Except Failure Bool)
  | .waitRestart _, a | .waitResponsive, a =>
    match (a : Except Failure Bool) with
    | .ok ok => !ok
    | .error _ => true
  | .reply _, _ => false

/-- What a contract says of the waits of a rebuild. `P` holds throughout, `D` from the SET
super_read_only=1 on, and `G` when a wait has failed. -/
structure Window (C : Contract sig) (t : Nat) (j : Job) (P D G : Assertion sig) : Prop where
  running : ∀ w₀ w, D w₀ w → P w₀ w
  fallen : ∀ w₀ w, G w₀ w → P w₀ w
  opened : ∀ gen w₀ w, P w₀ w → P w₀ (w.edit (.opened t gen))
  wait : ∀ r w₀ w, r.plain → P w₀ w →
    (await r).wp C t j (fun a w₀ w => P w₀ w ∧ (fails r a = true → G w₀ w)) w₀ w
  asks : ∀ gen q, (∀ b, q ≠ .sourceEnabled b) →
    Triple C t j (onOpen t P) (sql t gen q) (fun _ => onOpen t P) fun e w₀ w => P w₀ w ∧
      ((q.clones && e.bearable) = false → G w₀ w) ∧
        (e.closes = false → w.state.closed t = false)
  shuts : ∀ gen, Triple C t j (onOpen t P) (sql t gen (.superReadOnly true))
    (fun _ w₀ w => onOpen t D w₀ w ∧ G w₀ w) fun _ => G
  reads : ∀ gen q, q = .selectGtid ∨ q = .selectCloneProgress →
    Triple C t j (onOpen t D) (sql t gen q) (fun _ => onOpen t D)
      fun _ w₀ w => D w₀ w ∧ G w₀ w

namespace Window

section
variable {C : Contract sig} {t gen started : Nat} {j : Job} {P D G : Assertion sig}

/-- Any statement but CLONE. -/
theorem statement (h : Window C t j P D G) {q : Stmt} (hs : ∀ b, q ≠ .sourceEnabled b)
    (hq : q.clones = false) :
    Triple C t j (onOpen t P) (sql t gen q) (fun _ => onOpen t P) fun _ => G :=
  (h.asks gen q hs).conseq (fun _ _ h => h) (fun _ _ _ h => h)
    fun _ _ _ h => h.2.1 (by rw [hq]; rfl)

/-- A rebuild connects again inside the window. -/
theorem connects (h : Window C t j P D G) :
    Triple C t j P (connect t) (fun _ => onOpen t P) fun _ => G := by
  refine .bind (Q := fun _ => P) (fun w₀ w hP => ?_) fun gen => ?_
  · refine Prog.wp_mono (fun a w₀ w ha => ?_) _ _ _ (h.wait .connect w₀ w trivial hP)
    cases a with
    | ok gen => exact ha.1
    | error e => exact ha.2 rfl
  · refine .bind (.update (Q := fun _ => onOpen t P) fun w₀ w hP => ⟨h.opened gen w₀ w hP, ?_⟩)
      fun _ => .pure fun _ _ h => h
    exact Function.update_self (f := w.state.closed) _ _

/-- It waits for the exit. -/
theorem exits (h : Window C t j P D G) : Triple C t j P waitExit (fun _ => P) fun _ => G := by
  intro w₀ w hP
  refine Prog.wp_mono (fun a w₀ w ha => ?_) _ _ _ (h.wait .waitExit w₀ w trivial hP)
  cases a with
  | ok exited => exact ha.1
  | error e => exact ha.2 rfl

/-- `if not ok: raise`, of the waits whose `False` is a failure. -/
theorem ensures (ok : Bool) (e : Failure) :
    Triple C t j (fun w₀ w => P w₀ w ∧ (ok = false → G w₀ w)) (ensure ok e) (fun _ => P)
      fun _ => G := by
  cases ok with
  | true => exact .pure fun _ _ h => h.1
  | false => exact .throw fun _ _ h => h.2 rfl

/-- It waits for the restart, and fails if there is none. -/
theorem restarts (h : Window C t j P D G) :
    Triple C t j P (waitRestart started) (fun ok w₀ w => P w₀ w ∧ (ok = false → G w₀ w))
      fun _ => G := by
  intro w₀ w hP
  refine Prog.wp_mono (fun a w₀ w ha => ?_) _ _ _ (h.wait (.waitRestart started) w₀ w trivial hP)
  cases a with
  | ok ok => exact ⟨ha.1, fun hok => ha.2 (by rw [hok]; rfl)⟩
  | error e => exact ha.2 rfl

/-- It waits for mysqld to respond, and fails if it does not. -/
theorem responds (h : Window C t j P D G) :
    Triple C t j P waitResponsive (fun ok w₀ w => P w₀ w ∧ (ok = false → G w₀ w))
      fun _ => G := by
  intro w₀ w hP
  refine Prog.wp_mono (fun a w₀ w ha => ?_) _ _ _ (h.wait .waitResponsive w₀ w trivial hP)
  cases a with
  | ok ok => exact ⟨ha.1, fun hok => ha.2 (by rw [hok]; rfl)⟩
  | error e => exact ha.2 rfl

/-- The SET super_read_only=1 after a CLONE that has failed. Its failure is suppressed. -/
theorem restores (h : Window C t j P D G) :
    Triple C t j (fun w₀ w => P w₀ w ∧ (w.state.closed t = true → G w₀ w))
      (sql t gen (.superReadOnly true)) (fun _ => G) fun _ => G := by
  intro w₀ w hP
  cases hc : w.state.closed t with
  | true => exact wp_sql (fun _ => hP.2 hc) fun ho => by rw [hc] at ho; cases ho
  | false =>
      exact ((h.shuts gen).conseq (fun _ _ h => h) (fun _ _ _ h => h.2) fun _ _ _ h => h) w₀ w
        ⟨hP.1, hc⟩

/-- The clone. A failure that is not the end is followed by SET super_read_only=1. -/
theorem clones (h : Window C t j P D G) {donor : Node} :
    Triple C t j (onOpen t P) (cloneFrom t gen donor) (fun _ => P) fun _ => G := by
  -- The statements before the CLONE.
  refine .bind (h.statement (by simp) rfl) fun _ => ?_
  refine .bind (h.statement (by simp) rfl) fun _ => ?_
  refine .bind (h.statement (by simp) rfl) fun _ => ?_
  refine .bind (Q := fun r w₀ w => P w₀ w ∧ ∀ e, r = .error e →
      (e.bearable = false → G w₀ w) ∧ (e.closes = false → w.state.closed t = false))
    (.attempt ((h.asks _ _ (by simp)).conseq (fun _ _ h => h)
      (fun _ _ _ h => ⟨h.1, fun e he => by cases he⟩) fun e _ _ h => ⟨h.1, fun e' he => ?_⟩))
    fun r => ?_
  -- A failure of the CLONE that is borne with has left the rebuild in the open.
  · cases he
    exact ⟨fun hb => h.2.1 (by rw [hb, Bool.and_false]), h.2.2⟩
  split
  · exact .pure fun _ _ h => h.1
  · rename_i code timeout
    split
    · exact .pure fun _ _ h => h.1
    · -- CLONE has failed. A closed session is the end, and another one is still good for the SET.
      rename_i hpends
      refine .bind (Q := fun _ => G) (.attempt (h.restores.pre fun w₀ w hr => ⟨hr.1, fun hc => ?_⟩))
        fun r => ?_
      · obtain ⟨hgone, hopen⟩ := hr.2 _ rfl
        refine hgone ?_
        have hcloses : (Failure.db code timeout).closes = true := by
          by_contra hno
          rw [hopen (Bool.eq_false_iff.mpr hno)] at hc
          cases hc
        simp [Failure.bearable, Failure.pends, hcloses, hpends]
      -- Whatever the SET answers, the failure of the CLONE is raised.
      · split <;> exact .throw fun _ _ h => h
  -- No failure of the database at all, and so none that is borne with.
  · rename_i e hne
    have hdb : e.bearable = false := by
      cases e with
      | db code timeout => exact absurd rfl (hne code timeout)
      | _ => rfl
    exact .throw fun _ _ h => (h.2 _ rfl).1 hdb

/-- It sends the statements after the copy. -/
theorem afterClone (h : Window C t j P D G) :
    Triple C t j P (Agent.afterClone t) (fun _ => D) fun _ => G := by
  refine .bind h.connects fun gen => .bind (h.statement (by simp) rfl) fun _ => ?_
  refine .bind (h.statement (by simp) rfl) fun _ => ?_
  refine .bind ((h.shuts gen).conseq (fun _ _ h => h) (fun _ _ _ h => h.1) fun _ _ _ h => h)
    fun _ => ?_
  refine .bind ((h.reads gen _ (.inl rfl)).conseq (fun _ _ h => h) (fun _ _ _ h => h)
    fun _ _ _ h => h.2) fun _ => ?_
  refine .bind (Q := fun r w₀ w => D w₀ w ∧ (∀ e, r = .error e → G w₀ w))
    (.attempt ((h.reads gen _ (.inr rfl)).conseq (fun _ _ h => h)
      (fun _ _ _ h => ⟨h.1, fun e he => by cases he⟩) fun _ _ _ h => ⟨h.1, fun _ _ => h.2⟩))
    fun r => ?_
  split
  · exact .pure fun _ _ h => h.1
  · exact .pure fun _ _ h => h.1
  · exact .throw fun _ _ h => h.2 _ rfl

/-- It tries a part again that failed. -/
theorem retries (h : Window C t j P D G) {m : X Unit}
    (hm : Triple C t j P m (fun _ => D) fun _ => G) :
    Triple C t j P (retried m) (fun _ => D) fun _ => G := by
  refine .bind (Q := fun r w₀ w => (r = .ok () → D w₀ w) ∧ ∀ e, r = .error e → G w₀ w)
    (.attempt (hm.conseq (fun _ _ h => h)
      (fun _ _ _ h => ⟨fun _ => h, (fun _ he => by cases he)⟩)
      fun _ _ _ h => ⟨(fun he => by cases he), fun _ _ => h⟩)) fun r => ?_
  split
  · exact .pure fun _ _ h => h.1 rfl
  · split
    · exact hm.pre fun w₀ w hr => h.fallen w₀ w (hr.2 _ rfl)
    · exact .throw fun _ _ h => h.2 _ rfl
  · exact .throw fun _ _ h => h.2 _ rfl

/-- It finishes. -/
theorem finishes (h : Window C t j P D G) :
    Triple C t j P (rebuildFinish t started) (fun _ => D) fun _ => G := by
  have hstarted : Triple C t j P (waitStarted started) (fun _ => P) fun _ => G := by
    refine .look fun s => ?_
    split
    · refine .bind (Q := fun _ => P) ?_ fun _ => .bind h.restarts fun ok => ensures ok _
      refine .bind (h.exits.pre fun _ _ h => h.1) fun exited => ?_
      split
      · exact .pure fun _ _ h => h
      · exact .bind h.exits fun _ => .pure fun _ _ h => h
    · exact .pure fun _ _ h => h.1
  refine .bind hstarted fun _ => .bind h.responds fun ok => .bind (ensures ok _) fun _ => ?_
  exact h.retries h.afterClone

/-- The rebuild while `rebuilding` is set. -/
theorem rebuilds (h : Window C t j P D G) {donor : Node} :
    Triple C t j (onOpen t P) (do cloneFrom t gen donor; rebuildFinish t started) (fun _ => D)
      fun _ => G :=
  .bind h.clones fun _ => h.finishes

end

end Window

end Agent

end DbGuard
