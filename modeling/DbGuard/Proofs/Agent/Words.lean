import DbGuard.Agent.Roles

/-!
# `DbGuard.Proofs.Agent.Words`: what the role changes say

`Words` bounds what a part of an agent's task does: its changes, its statements, the locks it
takes. `Says W me m` says that `m` keeps to `W` as task `me`. `Words.Kept` lists what an
assertion has to survive so that every such part keeps it.

`wp_sql`, `triple_connect`, `wp_acquire` and `wp_acquireDeadlined` are the rules of a statement,
of a connection and of the locks under any contract.
-/

set_option autoImplicit false

namespace DbGuard

/-- The statement makes mysqld writable. -/
def Stmt.opens (q : Stmt) : Bool := q = .superReadOnly false

namespace Mysqld

/-- Only one statement makes mysqld writable. -/
theorem writable_exec {m : Mysqld} {q : Stmt} (hq : q.opens = false) (hm : m.writable = false) :
    (m.exec q).writable = false := by
  cases q with
  | superReadOnly b =>
      cases b with
      | true => simp [exec, writable]
      | false => cases hq
  | _ => exact hm

/-- After SET super_read_only=1 mysqld is not writable. -/
theorem writable_exec_readOnly (m : Mysqld) : (m.exec (.superReadOnly true)).writable = false := by
  simp [exec, writable]

/-- A mysqld that boots is not writable. -/
theorem writable_boot (m : Mysqld) (b : Bool) : (m.boot b).writable = false := rfl

/-- One that is down is not writable. -/
theorem writable_down (m : Mysqld) : ({ m with up := false } : Mysqld).writable = false := rfl

/-- Only a SET of super_read_only changes it. -/
theorem superReadOnly_exec (m : Mysqld) (q : Stmt) :
    (∃ b, q = .superReadOnly b ∧ (m.exec q).superReadOnly = b) ∨
      (∀ b, q ≠ .superReadOnly b) ∧ (m.exec q).superReadOnly = m.superReadOnly := by
  cases q with
  | superReadOnly b => exact .inl ⟨b, rfl, rfl⟩
  | _ => exact .inr ⟨fun b h => Stmt.noConfusion h, rfl⟩

/-- A statement belongs to the start of mysqld that it found. -/
theorem gen_exec (m : Mysqld) (q : Stmt) : (m.exec q).gen = m.gen := by
  cases q <;> rfl

end Mysqld

namespace Agent

open Coop (Prog World Contract Triple Assertion Outcome)

/-! ### Changes -/

section
variable {s : Agent} {t : Nat}

/-- A change of one lock leaves the other. -/
theorem locks_onLock_of_ne {l l' : LockName} (h : l' ≠ l) (f : Mutex → Mutex) :
    (s.onLock l f).locks l' = s.locks l' :=
  Function.update_of_ne h _ _

/-- It changes its own lock. -/
theorem locks_onLock (l : LockName) (f : Mutex → Mutex) :
    (s.onLock l f).locks l = f (s.locks l) :=
  Function.update_self _ _ _

/-- Who takes a lock owns it. -/
theorem owner_acquire (l : LockName) : (((Update.acquire l t).apply s).locks l).owner = some t :=
  congrArg Mutex.owner
    (locks_onLock l fun m => { owner := some t, waiters := m.waiters.erase t })

/-- A statement that is sent is on its way, on the task's session. -/
theorem calls_send (gen : Nat) (q : Stmt) :
    ((Update.send t gen q).apply s).calls t = some { gen, session := s.session t, stmt := q } :=
  Function.update_self (f := s.calls) _ _

/-- Once its answer is read, none is. -/
theorem calls_settle (shut : Bool) : ((Update.settle t shut).apply s).calls t = none :=
  Function.update_self (f := s.calls) _ _

/-- mysqld executes a statement that a task waits for. -/
theorem execute_of_call {c : Call} (row : Row) (h : s.calls t = some c) :
    s.execute t row = { s with
      mysqld := s.mysqld.exec c.stmt
      calls := Function.update s.calls t (some { c with row := some row }) } := by
  simp only [execute, h]

/-- mysqld executes a statement that was given up. -/
theorem land_of_late {c : Call} {k : Nat} (h : s.late[k]? = some c) :
    s.land k = { s with mysqld := s.mysqld.exec c.stmt, late := s.late.eraseIdx k } := by
  simp only [land, h]

/-- mysqld executes a statement on its way that has no result yet, on a live session of its start.
-/
theorem of_outside_execute {row : Row} (h : s.outside (.execute t row) = true) :
    ∃ c, s.calls t = some c ∧ c.gen = s.mysqld.gen ∧ c.row = none ∧
      s.mysqld.shows c.stmt row = true ∧ s.mysqld.up = true ∧ c.session ∉ s.mysqld.killed := by
  simp only [outside, lives, Bool.and_eq_true, Option.any_eq_true, beq_iff_eq,
    decide_eq_true_eq, Option.isNone_iff_eq_none] at h
  obtain ⟨hup, c, hc, ⟨⟨⟨hgen, hlive⟩, hrow⟩, hshow⟩, -⟩ := h
  exact ⟨c, hc, hgen, hrow, hshow, hup, hlive⟩

/-- The same of a statement that was given up. -/
theorem of_outside_land {k : Nat} (h : s.outside (.land k) = true) :
    ∃ c, s.late[k]? = some c ∧ c.gen = s.mysqld.gen ∧ s.mysqld.up = true ∧
      c.session ∉ s.mysqld.killed := by
  simp only [outside, lives, Bool.and_eq_true, Option.any_eq_true, beq_iff_eq,
    decide_eq_true_eq] at h
  obtain ⟨hup, c, hc, hgen, hlive⟩ := h
  exact ⟨c, hc, hgen, hup, hlive⟩

end

/-! ### Words -/

/-- What a part of a task may do. -/
structure Words where
  edits : Update → Prop
  stmts : Stmt → Prop
  locks : LockName → Prop

/-- A wait for something else than a statement. The answer to the request is not one. -/
def Req.plain : Req → Prop
  | .sql _ | .reply _ => False
  | _ => True

/-- The parts of which the parts with these words are made. A statement is one part, from the
moment it is sent to the moment its answer is read. -/
inductive Words.Leaf (W : Words) (me : Nat) : (γ : Type) → M γ → Prop
  | state : W.Leaf me Agent state
  | edit {u : Update} : W.edits u → W.Leaf me Unit (edit u)
  | await {r : Req} : r.plain → W.Leaf me r.Resp (await r)
  | opened {gen : Nat} : W.Leaf me Unit (Agent.edit (.opened me gen))
  | sql {gen : Nat} {q : Stmt} : W.stmts q → W.Leaf me (Except Failure Row) (sql me gen q).run
  | acquire {l : LockName} : W.locks l → W.Leaf me Unit (acquire l me)
  | acquireDeadlined {l : LockName} : W.locks l →
      W.Leaf me (Except Failure Unit) (acquireDeadlined l me).run
  | release {l : LockName} : W.locks l → W.Leaf me Unit (Agent.edit (.release l))

/-- The part keeps to the words. -/
abbrev Says (W : Words) (me : Nat) {α : Type} (m : X α) : Prop := Prog.MadeOf (W.Leaf me) m.run

/-! ### What the programs say -/

section
variable {W : Words} {me gen : Nat} {α β : Type}

/-- One part after the other. -/
theorem says_bind {m : X α} {f : α → X β} (hm : Says W me m) (hf : ∀ a, Says W me (f a)) :
    Says W me (m >>= f) :=
  Prog.madeOf_bind hm hf

/-- A part that does nothing. -/
theorem says_pure (a : α) : Says W me (pure a : X α) := Prog.madeOf_pure a

/-- A part that raises. -/
theorem says_throw (e : Failure) : Says W me (throw e : X α) := Prog.madeOf_throw e

/-- A part whose failure is caught. -/
theorem says_attempt {m : X α} (hm : Says W me m) : Says W me (Coop.attempt m) :=
  Prog.madeOf_attempt hm

/-- A look at the agent. -/
theorem says_state : Says W me (liftM state : X Agent) := Prog.madeOf_lift (.leaf .state)

/-- A change. -/
theorem says_edit {u : Update} (h : W.edits u) : Says W me (liftM (edit u) : X Unit) :=
  Prog.madeOf_lift (.leaf (.edit h))

/-- A statement. -/
theorem says_sql {q : Stmt} (h : W.stmts q) : Says W me (sql me gen q) := .leaf (.sql h)

/-- A new connection. -/
theorem says_connect : Says W me (connect me) :=
  says_bind (.leaf (.await (r := .connect) trivial)) fun gen =>
    says_bind (Prog.madeOf_lift (.leaf .opened)) fun _ => says_pure gen

/-- A fresh sample of `/primary`. -/
theorem says_refreshSample : Says W me refreshSample := .leaf (.await (r := .sample) trivial)

/-- The wait for the killed mysqld to exit. -/
theorem says_waitExit : Says W me waitExit := .leaf (.await (r := .waitExit) trivial)

/-- The wait for a new mysqld. -/
theorem says_waitRestart {started : Nat} : Says W me (waitRestart started) :=
  .leaf (.await (r := .waitRestart started) trivial)

/-- The wait for mysqld to answer. -/
theorem says_waitResponsive : Says W me waitResponsive :=
  .leaf (.await (r := .waitResponsive) trivial)

/-- A check that raises. -/
theorem says_ensure (ok : Bool) (e : Failure) : Says W me (ensure ok e) := by
  cases ok with
  | true => exact says_pure ()
  | false => exact says_throw e

/-- A part under a lock that is released on every way out. -/
theorem says_holding {l : LockName} {m : X α} (hl : W.locks l) (hm : Says W me m) :
    Says W me (holding l m) :=
  .bind hm fun r => .bind (.leaf (.release hl)) fun _ => .pure r

/-- The same with the wait for the lock. -/
theorem says_withLock {l : LockName} {m : X α} (hl : W.locks l) (hm : Says W me m) :
    Says W me (withLock l me m) :=
  says_bind (Prog.madeOf_lift (.leaf (.acquire hl))) fun _ => says_holding hl hm

/-- The same where the wait may be cut. -/
theorem says_withLockDeadlined {l : LockName} {m : X α} (hl : W.locks l) (hm : Says W me m) :
    Says W me (withLockDeadlined l me m) :=
  says_bind (.leaf (.acquireDeadlined hl)) fun _ => says_holding hl hm

/-- A change of the flag. -/
theorem says_setFenced {b : Bool} (h : W.edits (.fenced b)) : Says W me (setFenced b) := by
  refine says_bind says_state fun s => ?_
  split
  · exact says_edit h
  · exact says_throw _

/-- The end of the restart hold. -/
theorem says_endRestartHold : Says W me endRestartHold := by
  refine says_bind says_state fun s => ?_
  split
  · refine says_bind says_waitRestart fun ok => ?_
    refine says_bind (says_ensure _ _) fun _ => ?_
    exact says_bind says_waitResponsive fun ok => says_ensure _ _
  · exact says_pure ()

/-- The KILLs of a list of threads. -/
theorem says_killAll (hk : ∀ id, W.stmts (.kill id)) (ids : List SessionId) :
    Says W me (killAll me gen ids) := by
  induction ids with
  | nil => exact says_pure ()
  | cons id ids ih =>
      refine says_bind (says_attempt (says_sql (hk id))) fun r => ?_
      split
      · exact ih
      · split
        · exact says_throw _
        · exact ih
      · exact says_throw _

/-- The list of the client threads and their KILLs. -/
theorem says_killClients (hc : W.stmts .clientThreads) (hk : ∀ id, W.stmts (.kill id)) :
    Says W me (killClients me gen) := by
  refine says_bind (says_sql hc) fun row => ?_
  split
  · exact says_killAll hk _
  · exact says_pure ()

/-- What a fence does after its SET. -/
theorem says_fenceAfterSet (hc : W.stmts .clientThreads) (hk : ∀ id, W.stmts (.kill id))
    (hg : W.stmts .selectGtid) : Says W me (fenceAfterSet me gen) := by
  refine says_bind (says_attempt says_refreshSample) fun _ => ?_
  refine says_bind (says_attempt ?_) fun _ => says_pure ()
  exact says_bind (says_killClients hc hk) fun _ => says_sql hg

/-- A fence says nothing that makes mysqld writable. -/
theorem says_fence (hl : W.locks .fence) (hf : W.edits (.fenced true)) (hh : W.edits .hold)
    (hk : W.edits .kill) (hset : W.stmts (.superReadOnly true)) (hc : W.stmts .clientThreads)
    (hids : ∀ id, W.stmts (.kill id)) (hg : W.stmts .selectGtid) : Says W me (fence me) := by
  refine says_withLock hl (says_bind (says_setFenced hf) fun _ => ?_)
  refine says_bind (says_attempt ?_) fun r => ?_
  · exact says_bind says_connect fun gen => says_bind (says_sql hset) fun _ => says_pure gen
  cases r with
  | ok gen => exact says_bind (says_fenceAfterSet hc hids hg) fun _ => says_pure 200
  | error e =>
      refine says_bind says_state fun s => ?_
      split
      · refine says_bind (says_edit hh) fun _ => ?_
        split
        · refine says_bind (says_edit hk) fun _ => ?_
          exact says_bind (says_attempt says_waitExit) fun _ => says_pure 200
        · exact says_pure 200
      · exact says_pure 500

/-- The whole of `unfence`. -/
theorem says_unfence (hl : W.locks .fence) (hf : W.edits (.fenced false)) :
    Says W me (unfence me) :=
  says_withLock hl (says_setFenced hf)

/-- `promote` once it is connected. -/
theorem says_promoteOn (hl : W.locks .fence) (hf : W.edits (.fenced false))
    (hq : ∀ q, W.stmts q) : Says W me (promoteOn me gen) := by
  refine says_bind (says_sql (hq _)) fun _ => says_bind (says_sql (hq _)) fun _ => ?_
  refine says_bind (says_sql (hq _)) fun _ => says_bind says_state fun s => ?_
  refine says_bind (says_sql (hq _)) fun _ => says_bind (says_sql (hq _)) fun _ => ?_
  refine says_bind (says_withLockDeadlined hl (says_setFenced hf)) fun _ => ?_
  refine says_bind says_refreshSample fun _ => ?_
  exact says_bind (says_sql (hq _)) fun _ => says_pure ()

/-- `repoint` once it is connected. It never makes mysqld writable. -/
theorem says_repointOn {source : Node} (hq : ∀ q, q ≠ .superReadOnly false → W.stmts q) :
    Says W me (repointOn me gen source) := by
  refine says_bind (says_sql (hq _ (by decide))) fun _ => ?_
  refine says_bind (says_sql (hq _ (by decide))) fun _ => ?_
  refine says_bind says_refreshSample fun _ => ?_
  refine says_bind (says_sql (hq _ (by decide))) fun _ => ?_
  refine says_bind says_state fun s => ?_
  refine says_bind (says_sql (hq _ (by simp))) fun _ => ?_
  refine says_bind (says_sql (hq _ (by simp))) fun _ => ?_
  exact says_bind (says_sql (hq _ (by decide))) fun _ => says_pure ()

/-- A repoint makes nothing writable. -/
theorem says_repoint {node source : Node} (hl : W.locks .role)
    (hq : ∀ q, q ≠ .superReadOnly false → W.stmts q) : Says W me (repoint node me source) := by
  unfold repoint
  split
  · exact says_throw _
  refine says_withLockDeadlined hl (says_bind says_endRestartHold fun _ => ?_)
  exact says_bind says_connect fun gen => says_repointOn hq

/-- The switch of rpl_semi_sync_source_enabled. -/
theorem says_wantSource {curSource want : Bool}
    (hq : ∀ q, q ≠ .superReadOnly false → W.stmts q) :
    Says W me (wantSource me gen curSource want) := by
  unfold wantSource
  split
  · refine says_bind (says_sql (hq _ (by decide))) fun row => ?_
    split
    · exact says_pure _
    · exact says_pure _
  · exact says_pure _

/-- The part of `configure` about the source. -/
theorem says_configureSource {curSource want : Bool}
    (hq : ∀ q, q ≠ .superReadOnly false → W.stmts q) :
    Says W me (configureSource me gen curSource want) := by
  refine says_bind (says_wantSource hq) fun want => ?_
  split
  · exact says_bind (says_sql (hq _ (by simp))) fun _ => says_pure ()
  · exact says_pure ()

/-- The part of `configure` about the replica. -/
theorem says_configureReplica {curReplica want : Bool}
    (hq : ∀ q, q ≠ .superReadOnly false → W.stmts q) :
    Says W me (configureReplica me gen curReplica want) := by
  unfold configureReplica
  split
  · refine says_bind (says_sql (hq _ (by simp))) fun _ => ?_
    refine says_bind (says_sql (hq _ (by decide))) fun row => ?_
    split
    · refine says_bind (says_sql (hq _ (by decide))) fun _ => ?_
      exact says_bind (says_sql (hq _ (by decide))) fun _ => says_pure ()
    · exact says_pure ()
  · exact says_pure ()

/-- `configure` once it is connected. -/
theorem says_configureOn (hq : ∀ q, q ≠ .superReadOnly false → W.stmts q) :
    Says W me (configureOn me gen) := by
  refine says_bind (says_sql (hq _ (by decide))) fun sro => ?_
  refine says_bind says_state fun s => ?_
  refine says_bind (says_sql (hq _ (by decide))) fun row => ?_
  split
  · refine says_bind says_state fun s' => ?_
    exact says_bind (says_configureSource hq) fun _ => says_configureReplica hq
  · exact says_pure ()

/-- The wish of `configure` is noted. -/
theorem says_setSemisync {b : Option Bool} (hb : ∀ b, W.edits (.semisync b)) :
    Says W me (setSemisync b) := by
  cases b with
  | none => exact says_pure ()
  | some b => exact says_edit (hb b)

/-- A configure makes nothing writable. -/
theorem says_configure {b : Option Bool} (hl : W.locks .role) (hb : ∀ b, W.edits (.semisync b))
    (hq : ∀ q, q ≠ .superReadOnly false → W.stmts q) : Says W me (configure me b) :=
  says_bind (says_setSemisync hb) fun _ => says_withLockDeadlined hl
    (says_bind says_connect fun _ => says_configureOn hq)

/-- A clone leaves the source side alone. -/
theorem says_cloneFrom {donor : Node} (hq : ∀ q, (∀ b, q ≠ .sourceEnabled b) → W.stmts q) :
    Says W me (cloneFrom me gen donor) := by
  refine says_bind (says_sql (hq _ (by simp))) fun _ => ?_
  refine says_bind (says_sql (hq _ (by simp))) fun _ => ?_
  refine says_bind (says_sql (hq _ (by simp))) fun _ => ?_
  refine says_bind (says_attempt (says_sql (hq _ (by simp)))) fun r => ?_
  split
  · exact says_pure ()
  · split
    · exact says_pure ()
    · refine says_bind (says_attempt (says_sql (hq _ (by simp)))) fun r => ?_
      split <;> exact says_throw _
  · exact says_throw _

/-- The statements after a copy leave semi-sync for the source as it is. -/
theorem says_afterClone (hq : ∀ q, (∀ b, q ≠ .sourceEnabled b) → W.stmts q) :
    Says W me (afterClone me) := by
  refine says_bind says_connect fun gen => ?_
  refine says_bind (says_sql (hq _ (by simp))) fun _ => ?_
  refine says_bind (says_sql (hq _ (by simp))) fun _ => ?_
  refine says_bind (says_sql (hq _ (by simp))) fun _ => ?_
  refine says_bind (says_sql (hq _ (by simp))) fun _ => ?_
  refine says_bind (says_attempt (says_sql (hq _ (by simp)))) fun r => ?_
  split
  · exact says_pure ()
  · exact says_pure ()
  · exact says_throw _

/-- The attempt is made again when it fails. -/
theorem says_retried {m : X Unit} (hm : Says W me m) : Says W me (retried m) := by
  refine says_bind (says_attempt hm) fun r => ?_
  split
  · exact says_pure ()
  · split
    · exact hm
    · exact says_throw _
  · exact says_throw _

/-- The wait for the clone's mysqld. -/
theorem says_waitStarted {started : Nat} : Says W me (waitStarted started) := by
  refine says_bind says_state fun s => ?_
  split
  · refine says_bind (says_bind says_waitExit fun exited => ?_) fun _ => ?_
    · split
      · exact says_pure ()
      · exact says_bind says_waitExit fun _ => says_pure ()
    · exact says_bind says_waitRestart fun _ => says_ensure _ _
  · exact says_pure ()

/-- The end of a rebuild, after the restart. -/
theorem says_rebuildFinish {started : Nat} (hq : ∀ q, (∀ b, q ≠ .sourceEnabled b) → W.stmts q) :
    Says W me (rebuildFinish me started) := by
  refine says_bind says_waitStarted fun _ => ?_
  refine says_bind says_waitResponsive fun ok => ?_
  exact says_bind (says_ensure _ _) fun _ => says_retried (says_afterClone hq)

/-- The question to the donor. -/
theorem says_askDonor {donor : Node} : Says W me (askDonor donor) := by
  refine says_bind (says_attempt (.leaf (.await (r := .donorGtid donor) trivial))) fun r => ?_
  split
  · exact says_pure ()
  · exact says_throw _
  · exact says_throw _

/-- A rebuild leaves the source side alone. -/
theorem says_rebuild {node donor : Node} (hl : W.locks .role)
    (hb : ∀ b, W.edits (.rebuilding b)) (hq : ∀ q, (∀ b, q ≠ .sourceEnabled b) → W.stmts q) :
    Says W me (rebuild node me donor) := by
  unfold rebuild
  split
  · exact says_throw _
  refine says_withLockDeadlined hl (says_bind says_endRestartHold fun _ => ?_)
  refine says_bind (.leaf (.await (r := .ownGtid) trivial)) fun _ => ?_
  refine says_bind says_askDonor fun _ => says_bind says_state fun s => ?_
  refine says_bind says_connect fun gen => ?_
  refine .bind (.leaf (.edit (hb true))) fun _ => .bind ?_ fun r => ?_
  · exact says_bind (says_cloneFrom hq) fun _ => says_rebuildFinish hq
  · exact .bind (.leaf (.edit (hb false))) fun _ => .pure r

end

/-! ### Rules under any contract -/

section
variable {C : Contract sig} {t : Nat} {j : Job} {α : Type} {P H : Assertion sig}
  {Q : α → Assertion sig} {E : Failure → Assertion sig}

/-- The world in which a statement is sent. -/
abbrev sent (t : Nat) (j : Job) (gen : Nat) (q : Stmt) (w : World sig) : World sig :=
  (w.edit (.send t gen q)).issue t j (.sql q)

/-- The world in which the answer of a statement is read. -/
abbrev answered (t : Nat) (q : Stmt) (a : Except Failure Row) (w : World sig) : World sig :=
  (w.answer t (.sql q) a).edit (.settle t (closes a))

/-- The rule of a statement. On a closed session it raises at once. -/
theorem wp_sql {gen : Nat} {q : Stmt} {Q : Row → Assertion sig} {w₀ w : World sig}
    (hclosed : w.state.closed t = true → E (.db none false) w₀ w)
    (h : w.state.closed t = false → C.allowed t w₀ (sent t j gen q w) →
      C.may t w₀ (sent t j gen q w) ∧
        ∀ w' (a : Except Failure Row), C.inv w' → C.rely t (sent t j gen q w) w' →
          C.answers t w' (.sql q) a → Outcome Q E a w' (answered t q a w')) :
    (sql t gen q).run.wp C t j (Outcome Q E) w₀ w := by
  show Prog.wp C t j (Outcome Q E)
    (ExceptT.run (if w.state.closed t then _ else _)) w₀ w
  split
  · rename_i hc
    exact hclosed hc
  · rename_i hc
    exact h (Bool.eq_false_iff.mpr hc)

/-- The rule of a statement, where an open session is nothing special. -/
theorem triple_sql {gen : Nat} {q : Stmt} {Q : Row → Assertion sig}
    (hclosed : ∀ w₀ w, P w₀ w → w.state.closed t = true → E (.db none false) w₀ w)
    (h : ∀ w₀ w, P w₀ w → C.allowed t w₀ (sent t j gen q w) →
      C.may t w₀ (sent t j gen q w) ∧
        ∀ w' (a : Except Failure Row), C.inv w' → C.rely t (sent t j gen q w) w' →
          C.answers t w' (.sql q) a → Outcome Q E a w' (answered t q a w')) :
    Triple C t j P (sql t gen q) Q E :=
  fun w₀ w hP => wp_sql (hclosed w₀ w hP) fun _ => h w₀ w hP

/-- The rule of `db.connect`. -/
theorem triple_connect {Q : Nat → Assertion sig}
    (h : ∀ w₀ w, P w₀ w → C.allowed t w₀ (w.issue t j .connect) →
      C.may t w₀ (w.issue t j .connect) ∧
        ∀ w' (a : Except Failure Nat), C.inv w' → C.rely t (w.issue t j .connect) w' →
          C.answers t w' .connect a →
            Outcome (fun gen w₀ w => Q gen w₀ (w.edit (.opened t gen))) E a w'
              (w'.answer t .connect a)) :
    Triple C t j P (connect t) Q E := by
  refine .bind (Q := fun gen w₀ w => Q gen w₀ (w.edit (.opened t gen))) h fun gen => ?_
  exact .bind (.update (Q := fun _ => Q gen) fun _ _ h => h) fun _ => .pure fun _ _ h => h

/-- The rule of `lock.acquire()`. -/
theorem wp_acquire {l : LockName} {Q : Unit → Assertion sig} {w₀ w : World sig}
    (hfree : (w.state.locks l).owner = none → Q () w₀ (w.edit (.acquire l t)))
    (hwait : C.allowed t w₀ (w.edit (.enqueue l t)) → C.may t w₀ (w.edit (.enqueue l t)) ∧
      ∀ w', C.inv w' → C.rely t (w.edit (.enqueue l t)) w' →
        (w'.state.locks l).owner = none → Q () w' (w'.edit (.acquire l t))) :
    (acquire l t).wp C t j Q w₀ w := by
  unfold acquire
  refine Prog.wp_bind _ _ _ _ ?_
  show Prog.wp C t j Q (if _ then _ else _) w₀ w
  split
  · rename_i h
    exact hfree h.1
  · intro ha
    obtain ⟨hmay, hk⟩ := hwait ha
    refine ⟨hmay, fun w' hi hr hc => hk w' hi hr ?_⟩
    simp only [Bool.and_eq_true, Option.isNone_iff_eq_none] at hc
    exact hc.1

/-- The rule of `lock.acquire()` under a deadline. -/
theorem wp_acquireDeadlined {l : LockName} {Q : Unit → Assertion sig} {w₀ w : World sig}
    (hfree : (w.state.locks l).owner = none → Q () w₀ (w.edit (.acquire l t)))
    (hwait : C.allowed t w₀ (w.edit (.enqueue l t)) → C.may t w₀ (w.edit (.enqueue l t)) ∧
      ∀ w', C.inv w' → C.rely t (w.edit (.enqueue l t)) w' →
        (t ∉ w'.state.expired → (w'.state.locks l).owner = none →
            Q () w' (w'.edit (.acquire l t))) ∧
          E .deadline w' (w'.edit (.dequeue l t))) :
    (acquireDeadlined l t).run.wp C t j (Outcome Q E) w₀ w := by
  show Prog.wp C t j (Outcome Q E)
    (ExceptT.run (if (w.state.locks l).owner = none ∧ (w.state.locks l).waiters = [] then _
      else _)) w₀ w
  split
  · rename_i h
    exact hfree h.1
  · intro ha
    obtain ⟨hmay, hk⟩ := hwait ha
    refine ⟨hmay, fun w' hi hr hc => ?_⟩
    obtain ⟨hget, hgive⟩ := hk w' hi hr
    show Prog.wp C t j (Outcome Q E) (ExceptT.run (if t ∈ w'.state.expired then _ else _)) w' w'
    split
    · exact hgive
    · rename_i hexp
      simp only [hexp, decide_false, Bool.false_or, Bool.and_eq_true,
        Option.isNone_iff_eq_none] at hc
      exact hget hexp hc.1

/-- The rule of what is done under a lock. -/
theorem triple_holding {l : LockName} {m : X α}
    (hm : Triple C t j H m (fun a w₀ w => Q a w₀ (w.edit (.release l)))
      fun e w₀ w => E e w₀ (w.edit (.release l))) :
    Triple C t j H (holding l m) Q E := by
  intro w₀ w hH
  refine Prog.wp_seq (hm w₀ w hH) fun r w₀ w hr => ?_
  cases r with
  | ok a => exact hr
  | error e => exact hr

/-- The rule of `async with lock`. -/
theorem triple_withLock {l : LockName} {m : X α}
    (hfree : ∀ w₀ w, P w₀ w → (w.state.locks l).owner = none → H w₀ (w.edit (.acquire l t)))
    (hwait : ∀ w₀ w, P w₀ w → C.allowed t w₀ (w.edit (.enqueue l t)) →
      C.may t w₀ (w.edit (.enqueue l t)) ∧
        ∀ w', C.inv w' → C.rely t (w.edit (.enqueue l t)) w' →
          (w'.state.locks l).owner = none → H w' (w'.edit (.acquire l t)))
    (hm : Triple C t j H m (fun a w₀ w => Q a w₀ (w.edit (.release l)))
      fun e w₀ w => E e w₀ (w.edit (.release l))) :
    Triple C t j P (withLock l t m) Q E :=
  .bind (.lift fun w₀ w hP => wp_acquire (hfree w₀ w hP) (hwait w₀ w hP))
    fun _ => triple_holding hm

/-- The rule of `async with lock` under a deadline. -/
theorem triple_withLockDeadlined {l : LockName} {m : X α}
    (hfree : ∀ w₀ w, P w₀ w → (w.state.locks l).owner = none → H w₀ (w.edit (.acquire l t)))
    (hwait : ∀ w₀ w, P w₀ w → C.allowed t w₀ (w.edit (.enqueue l t)) →
      C.may t w₀ (w.edit (.enqueue l t)) ∧
        ∀ w', C.inv w' → C.rely t (w.edit (.enqueue l t)) w' →
          (t ∉ w'.state.expired → (w'.state.locks l).owner = none → H w' (w'.edit (.acquire l t))) ∧
            E .deadline w' (w'.edit (.dequeue l t)))
    (hm : Triple C t j H m (fun a w₀ w => Q a w₀ (w.edit (.release l)))
      fun e w₀ w => E e w₀ (w.edit (.release l))) :
    Triple C t j P (withLockDeadlined l t m) Q E :=
  .bind (fun w₀ w hP => wp_acquireDeadlined (hfree w₀ w hP) (hwait w₀ w hP))
    fun _ => triple_holding hm

/-! ### What such a part keeps -/

/-- It holds, and the session of task `t` is open. -/
def onOpen (t : Nat) (P : Assertion sig) : Assertion sig :=
  fun w₀ w => P w₀ w ∧ w.state.closed t = false

/-- What an assertion has to survive to be kept by the parts with these words. The answer of a
statement may be used, and the segment may end in each wait. -/
structure Words.Carries (W : Words) (C : Contract sig) (t : Nat) (j : Job) (K : Assertion sig) :
    Prop where
  edit : ∀ u w₀ w, W.edits u → K w₀ w → K w₀ (w.edit u)
  opened : ∀ gen w₀ w, K w₀ w → K w₀ (w.edit (.opened t gen))
  enqueue : ∀ l w₀ w, W.locks l → K w₀ w → K w₀ (w.edit (.enqueue l t))
  dequeue : ∀ l w₀ w, W.locks l → K w₀ w → K w₀ (w.edit (.dequeue l t))
  acquire : ∀ l w₀ w, W.locks l → (w.state.locks l).owner = none → K w₀ w →
    K w₀ (w.edit (.acquire l t))
  release : ∀ l w₀ w, W.locks l → K w₀ w → K w₀ (w.edit (.release l))
  cut : ∀ w₀ w, K w₀ w → C.allowed t w₀ w →
    C.may t w₀ w ∧ ∀ w', C.inv w' → C.rely t w w' → K w' w'
  await : ∀ (r : Req) w₀ w, r.plain → K w₀ w → C.allowed t w₀ (w.issue t j r) →
    C.may t w₀ (w.issue t j r) ∧ ∀ w' a, C.inv w' → C.rely t (w.issue t j r) w' →
      C.answers t w' r a → K w' (w'.answer t r a)
  sql : ∀ gen q w₀ w, W.stmts q → K w₀ w → C.allowed t w₀ (sent t j gen q w) →
    C.may t w₀ (sent t j gen q w) ∧ ∀ w' (a : Except Failure Row), C.inv w' →
      C.rely t (sent t j gen q w) w' → C.answers t w' (.sql q) a → K w' (answered t q a w')

namespace Words.Carries

variable {W : Words} {K : Assertion sig}

/-- A wait under a lock's queue. -/
theorem wait (h : W.Carries C t j K) {l : LockName} (hl : W.locks l) {w₀ w : World sig}
    (hK : K w₀ w) (ha : C.allowed t w₀ (w.edit (.enqueue l t))) :
    C.may t w₀ (w.edit (.enqueue l t)) ∧
      ∀ w', C.inv w' → C.rely t (w.edit (.enqueue l t)) w' → K w' w' :=
  h.cut _ _ (h.enqueue l w₀ w hl hK) ha

/-- A part with these words keeps what they carry. -/
theorem leaf (h : W.Carries C t j K) (γ : Type) (m : M γ) (hm : W.Leaf t γ m) (w₀ w : World sig)
    (hK : K w₀ w) : m.wp C t j (fun _ w₀ w => K w₀ w) w₀ w := by
  cases hm with
  | state => exact hK
  | edit hu => exact h.edit _ _ _ hu hK
  | await hr => exact h.await _ _ _ hr hK
  | opened => exact h.opened _ _ _ hK
  | sql hq =>
      refine Prog.wp_mono (fun r w₀ w hr => ?_) _ _ _
        (wp_sql (Q := fun _ => K) (E := fun _ => K) (fun _ => hK) fun _ ha => ?_)
      · cases r <;> exact hr
      · obtain ⟨hmay, hk⟩ := h.sql _ _ _ _ hq hK ha
        refine ⟨hmay, fun w' a hi hr hans => ?_⟩
        cases a <;> exact hk w' _ hi hr hans
  | acquire hl =>
      refine wp_acquire (fun hfree => h.acquire _ _ _ hl hfree hK) fun ha => ?_
      obtain ⟨hmay, hk⟩ := h.wait hl hK ha
      exact ⟨hmay, fun w' hi hr hfree => h.acquire _ _ _ hl hfree (hk w' hi hr)⟩
  | @acquireDeadlined l hl =>
      refine Prog.wp_mono (fun r w₀ w hr => ?_) _ _ _
        (wp_acquireDeadlined (Q := fun _ => K) (E := fun _ => K)
          (fun hfree => h.acquire _ _ _ hl hfree hK) fun ha => ?_)
      · cases r <;> exact hr
      · obtain ⟨hmay, hk⟩ := h.wait hl hK ha
        exact ⟨hmay, fun w' hi hr => ⟨fun _ hfree => h.acquire _ _ _ hl hfree (hk w' hi hr),
          h.dequeue _ _ _ hl (hk w' hi hr)⟩⟩
  | release hl => exact h.release _ _ _ hl hK

/-- The part keeps the assertion. -/
theorem keeps (h : W.Carries C t j K) {m : X α} (hm : Says W t m) :
    Triple C t j K m (fun _ => K) fun _ => K :=
  Triple.madeOf h.leaf hm

/-- The connection leaves the session open. -/
theorem connects (h : W.Carries C t j K) :
    Triple C t j K (connect t) (fun _ => onOpen t K) fun _ => K := by
  refine .bind (h.keeps (.leaf (.await (r := .connect) trivial))) fun gen => ?_
  refine .bind (.update (Q := fun _ => onOpen t K) fun w₀ w hK => ⟨h.opened gen w₀ w hK, ?_⟩)
    fun _ => .pure fun _ _ h => h
  exact Function.update_self (f := w.state.closed) _ _

/-- What is done under a lock keeps the assertion. -/
theorem withLockDeadlined (h : W.Carries C t j K) {l : LockName} (hl : W.locks l) {m : X α}
    (hm : Triple C t j K m (fun _ => K) fun _ => K) :
    Triple C t j K (Agent.withLockDeadlined l t m) (fun _ => K) fun _ => K :=
  .bind (h.keeps (.leaf (.acquireDeadlined hl))) fun _ =>
    triple_holding (hm.conseq (fun _ _ hK => hK) (fun _ _ _ hK => h.release _ _ _ hl hK)
      fun _ _ _ hK => h.release _ _ _ hl hK)

end Words.Carries

/-- The answer of a task. -/
theorem wp_answer {m : X α} {K : Assertion sig} {w₀ w : World sig}
    (hm : m.run.wp C t j (fun _ => K) w₀ w)
    (hreply : ∀ status w₀ w, K w₀ w → C.allowed t w₀ (w.issue t j (.reply status)) →
      C.may t w₀ (w.issue t j (.reply status)) ∧ ∀ w' a, C.inv w' →
        C.rely t (w.issue t j (.reply status)) w' →
          C.Ends t () w' (w'.answer t (.reply status) a)) :
    (Agent.answer m).wp C t j (C.Ends t) w₀ w := by
  refine Prog.wp_seq hm fun r w₀ w hK => ?_
  have hcut : ∀ status, (await (.reply status)).wp C t j (C.Ends t) w₀ w := by
    intro status ha
    obtain ⟨hmay, hk⟩ := hreply status w₀ w hK ha
    exact ⟨hmay, fun w' a hi hr _ => hk w' a hi hr⟩
  cases r with
  | ok a => exact hcut _
  | error e => exact hcut _

/-- What an assertion has to survive to be kept by the parts with these words, step by step. `cut`
says that the segment may end where it holds, and that it holds again of the next one. -/
structure Words.Kept (W : Words) (C : Contract sig) (t : Nat) (j : Job) (K : Assertion sig) :
    Prop where
  edit : ∀ u w₀ w, W.edits u → K w₀ w → K w₀ (w.edit u)
  opened : ∀ gen w₀ w, K w₀ w → K w₀ (w.edit (.opened t gen))
  enqueue : ∀ l w₀ w, W.locks l → K w₀ w → K w₀ (w.edit (.enqueue l t))
  dequeue : ∀ l w₀ w, W.locks l → K w₀ w → K w₀ (w.edit (.dequeue l t))
  acquire : ∀ l w₀ w, W.locks l → (w.state.locks l).owner = none → K w₀ w →
    K w₀ (w.edit (.acquire l t))
  release : ∀ l w₀ w, W.locks l → K w₀ w → K w₀ (w.edit (.release l))
  send : ∀ gen q w₀ w, W.stmts q → K w₀ w → K w₀ (w.edit (.send t gen q))
  settle : ∀ shut w₀ w, K w₀ w → K w₀ (w.edit (.settle t shut))
  issue : ∀ r w₀ w, (∀ status, r ≠ .reply status) → K w₀ w → K w₀ (w.issue t j r)
  answer : ∀ r a w₀ w, K w₀ w → K w₀ (w.answer t r a)
  cut : ∀ w₀ w, K w₀ w → C.allowed t w₀ w →
    C.may t w₀ w ∧ ∀ w', C.inv w' → C.rely t w w' → K w' w'

namespace Words.Kept

variable {W : Words} {K : Assertion sig}

/-- What survives each step by itself is carried over a whole statement. -/
theorem carries (h : W.Kept C t j K) : W.Carries C t j K where
  edit := h.edit
  opened := h.opened
  enqueue := h.enqueue
  dequeue := h.dequeue
  acquire := h.acquire
  release := h.release
  cut := h.cut
  await r w₀ w hr hK ha := by
    have hne : ∀ status, r ≠ .reply status := by
      intro status heq
      rw [heq] at hr
      exact hr
    obtain ⟨hmay, hk⟩ := h.cut _ _ (h.issue r _ _ hne hK) ha
    exact ⟨hmay, fun w' a hi hr _ => h.answer _ a _ _ (hk w' hi hr)⟩
  sql gen q w₀ w hq hK ha := by
    have hne : ∀ status, Req.sql q ≠ .reply status := by simp
    obtain ⟨hmay, hk⟩ := h.cut _ _ (h.issue _ _ _ hne (h.send gen q _ _ hq hK)) ha
    exact ⟨hmay, fun w' a hi hr _ => h.settle _ _ _ (h.answer (.sql q) a _ _ (hk w' hi hr))⟩

/-- The part keeps the assertion. -/
theorem keeps (h : W.Kept C t j K) {m : X α} (hm : Says W t m) :
    Triple C t j K m (fun _ => K) fun _ => K :=
  h.carries.keeps hm

end Words.Kept

end

end Agent

end DbGuard
