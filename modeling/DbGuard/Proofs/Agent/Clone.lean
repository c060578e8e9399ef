import DbGuard.Agent.Clone
import DbGuard.Coop.Beside
import DbGuard.Proofs.Agent.RoleLock
import DbGuard.Proofs.Agent.Script

/-!
# `DbGuard.Proofs.Agent.Clone`: when a rebuild that reports ok has cloned

A rebuild answers 200 only after it has read its CLONE as done and then found mysqld responsive
(`reported`). It reads CLONE as done from a lost link too, and compares nothing with the donor.
So the answer is right if mysqld starts after that, and only with the copy complete
(`Complete`). Nobody else's copy takes its place then, and mysqld serves the donor's data.
-/

set_option autoImplicit false

namespace DbGuard

namespace Agent

open Coop (Prog Pool Move World Contract Triple Assertion Outcome Checked Adds Grows frame own)

/-! ### What the log says of a rebuild -/

section
variable {t : Nat} {c : Option Cloning} {e : Coop.Event sig} {l l' : List (Coop.Event sig)}

/-- The clone is read event by event. -/
theorem cloning_append : cloning t (l ++ l') = l'.foldl (Cloning.next t) (cloning t l) :=
  List.foldl_append

/-- The last event is read last. -/
theorem cloning_concat : cloning t (l ++ [e]) = Cloning.next t (cloning t l) e :=
  cloning_append

/-- Only the steps of the task itself count. -/
theorem next_of_not_isBy (h : e.isBy t = false) : Cloning.next t c e = c := by
  unfold Cloning.next
  split <;> simp_all [Coop.Event.isBy]

/-- The events of other tasks say nothing of it. -/
theorem foldl_next_own (l : List (Coop.Event sig)) :
    (own t l).foldl (Cloning.next t) c = l.foldl (Cloning.next t) c := by
  induction l generalizing c with
  | nil => rfl
  | cons e l ih =>
      cases he : e.isBy t with
      | true => simpa [own, he] using ih
      | false => simpa [own, he, next_of_not_isBy he] using ih

/-- It is read off the task's own part of the log. -/
theorem cloning_of_own_eq (h : own t l' = own t l) : cloning t l' = cloning t l := by
  rw [cloning, cloning, ← foldl_next_own l', h, foldl_next_own]

end

/-- The wait says nothing of the clone. -/
def Req.mute : Req → Bool
  | .sql q => match q with
    | .clone _ => false
    | _ => true
  | .waitResponsive | .reply _ => false
  | _ => true

section
variable {t : Nat} {c : Option Cloning} {r : Req}

/-- The request of a mute wait leaves it. -/
theorem next_issued_mute {t' : Nat} {j : Job} {s : Agent} (h : r.mute = true) :
    Cloning.next t c (.issued t' j r s) = c := by
  cases r with
  | sql q => cases q <;> first | rfl | cases h
  | _ => first | rfl | cases h

/-- So does its answer. -/
theorem next_answered_mute {t' : Nat} {a : r.Resp} (h : r.mute = true) :
    Cloning.next t c (.answered t' r a) = c := by
  cases r with
  | sql q => cases q <;> first | rfl | cases h
  | _ => first | rfl | cases h

end

/-! ### The contract -/

/-- A rebuild has read its CLONE as done, and has then found mysqld responsive. -/
def Finished (c : Option Cloning) : Prop := ∃ x, c = some x ∧ x.done = true ∧ x.responsive = true

/-- A rebuild answers 200 when it has come so far. -/
def Reports (l : List (Coop.Event sig)) : Coop.Event sig → Prop
  | .issued t (.rebuild _) (.reply 200) _ => Finished (cloning t l)
  | _ => True

/-- The contract of a rebuild's answer. -/
def reported : Contract sig where
  inv w := Checked Reports w.log
  rely _ _ _ := True
  allowed _ _ _ := True
  answers _ _ r a := r.raisable a = true
  may _ _ w := Checked Reports w.log
  pre _ _ _ := True

/-- The contracts of the frame and of the answer. -/
abbrev reportBase : Contract sig := (frame sig).upon reported

/-- What a rebuild knows of its clone. -/
structure Knows (t : Nat) (d : Node) (φ : Option Cloning → Prop) (w : World sig) : Prop where
  job : w.jobs[t]? = some (.rebuild d)
  checked : Checked Reports w.log
  known : φ (cloning t w.log)

/-- It has read its CLONE as done. -/
def Read (c : Option Cloning) : Prop := ∃ x, c = some x ∧ x.done = true

/-- It has raised what a wait or the code raises, so its answer is not 200. -/
def Raised (t : Nat) (d : Node) (φ : Option Cloning → Prop) (e : Failure) : Assertion sig :=
  fun _ w => Knows t d φ w ∧ e.status ≠ 200

section
variable {t : Nat} {d : Node} {φ φ' : Option Cloning → Prop} {w₀ w w' : World sig} {r : Req}

/-- What a wait or the code raises is answered with another status than 200. -/
theorem status_of_raisable {e : Failure} {α : Type}
    (h : raisable (.error e : Except Failure α) = true) : e.status ≠ 200 := by
  cases e with
  | db code timeout => cases timeout <;> simp [Failure.status]
  | deadline => simp [Failure.status]
  | agent status | os => cases h

namespace Knows

/-- To know more is to know less. -/
theorem mono (h : Knows t d φ w) (hle : ∀ c, φ c → φ' c) : Knows t d φ' w :=
  ⟨h.job, h.checked, hle _ h.known⟩

/-- A change of the agent says nothing of the clone. -/
theorem edit (u : Update) (h : Knows t d φ w) : Knows t d φ (w.edit u) :=
  ⟨h.job, h.checked, h.known⟩

/-- A step of its own. -/
theorem record {e : Coop.Event sig} (he : Reports w.log e)
    (hnext : φ' (Cloning.next t (cloning t w.log) e)) (h : Knows t d φ w) :
    Knows t d φ' (w.record e) :=
  ⟨h.job, h.checked.concat he, by
    rw [show (w.record e).log = w.log ++ [e] from rfl, cloning_concat]
    exact hnext⟩

/-- Only the task's own events do, so it knows the same when it goes on. -/
theorem resume (h : Knows t d φ w) (hi : reportBase.inv w') (hr : reportBase.rely t w w') :
    Knows t d φ w' :=
  ⟨hr.1.job h.job, hi.2, by rw [cloning_of_own_eq hr.1.own]; exact h.known⟩

end Knows

/-- What it knows after a wait. -/
def Heard (t : Nat) (d : Node) (φ : Option Cloning → Prop) (r : Req) (a : r.Resp)
    (c : Option Cloning) : Prop :=
  ∃ c₀ s, φ c₀ ∧
    c = Cloning.next t (Cloning.next t c₀ (.issued t (.rebuild d) r s)) (.answered t r a)

/-- A request that is no answer. -/
theorem Knows.issue (hr : ∀ status, r ≠ .reply status) (h : Knows t d φ w) :
    Knows t d (fun c => ∃ c₀ s, φ c₀ ∧ c = Cloning.next t c₀ (.issued t (.rebuild d) r s))
      (w.issue t (.rebuild d) r) := by
  refine h.record ?_ ⟨_, _, h.known, rfl⟩
  cases r with
  | reply status => exact absurd rfl (hr status)
  | _ => trivial

/-- The rule of a wait. -/
theorem wp_wait (hr : r.plain) (h : Knows t d φ w) :
    (await r).wp reportBase t (.rebuild d)
      (fun a _ w => Knows t d (Heard t d φ r a) w ∧ r.raisable a = true) w₀ w := by
  intro _
  have hne : ∀ status, r ≠ .reply status := by
    intro status heq
    rw [heq] at hr
    exact hr
  have hissue := h.issue hne
  refine ⟨hissue.checked, fun w' a hi hrely hans => ⟨?_, hans.2⟩⟩
  have hw := hissue.resume hi hrely
  obtain ⟨c₀, s, hφ, hc⟩ := hw.known
  exact hw.record trivial ⟨c₀, s, hφ, congrArg (Cloning.next t · (.answered t r a)) hc⟩

/-- The rule of a statement. On a closed session it is not heard. -/
theorem triple_told {gen : Nat} {q : Stmt} :
    Triple reportBase t (.rebuild d) (fun _ => Knows t d φ) (sql t gen q)
      (fun row _ => Knows t d (Heard t d φ (.sql q) (.ok row)))
      fun e _ w => Knows t d (fun c => Heard t d φ (.sql q) (.error e) c ∨
        φ c ∧ e = .db none false) w ∧ e.status ≠ 200 := by
  refine triple_sql (fun w₀ w h _ => ⟨h.mono fun _ hc => .inr ⟨hc, rfl⟩, by simp [Failure.status]⟩)
    fun w₀ w h _ => ?_
  have hissue : Knows t d _ (sent t (.rebuild d) gen q w) :=
    (h.edit (.send t gen q)).issue (r := .sql q) (by simp)
  refine ⟨hissue.checked, fun w' a hi hrely hans => ?_⟩
  have hw := hissue.resume hi hrely
  obtain ⟨c₀, s, hφ, hc⟩ := hw.known
  have hdone : Knows t d (Heard t d φ (.sql q) a) (answered t q a w') :=
    (hw.record (e := .answered t (.sql q) a) trivial
      ⟨c₀, s, hφ, congrArg (Cloning.next t · (.answered t (.sql q) a)) hc⟩).edit
        (.settle t (closes a))
  cases a with
  | ok row => exact hdone
  | error e => exact ⟨hdone.mono fun _ => .inl, status_of_raisable hans.2⟩

/-- What a wait that says nothing of the clone leaves known. -/
theorem heard_mute (hr : r.mute = true) {a : r.Resp} {c : Option Cloning}
    (h : Heard t d φ r a c) : φ c := by
  obtain ⟨c₀, s, hφ, hc⟩ := h
  have hsame : c = c₀ := hc.trans ((next_answered_mute hr).trans (next_issued_mute hr))
  rw [hsame]
  exact hφ

/-- Once CLONE is read as done. -/
theorem heard_clone {donor : Node} {a : Except Failure Row} {c : Option Cloning}
    (h : Heard t d φ (.sql (.clone donor)) a c) (ha : readsDone a = true) : Read c := by
  obtain ⟨c₀, s, -, rfl⟩ := h
  simp [Cloning.next, ha, Read]

/-- Once mysqld is found responsive. -/
theorem heard_responsive {a : Except Failure Bool} {c : Option Cloning}
    (h : Heard t d Read .waitResponsive a c) : Read c ∧ (readsTrue a = true → Finished c) := by
  obtain ⟨c₀, s, ⟨x, rfl, hx⟩, rfl⟩ := h
  cases ha : readsTrue a with
  | true => simp [Cloning.next, ha, Read, Finished, hx]
  | false => simp [Cloning.next, ha, Read, hx]

/-! ### The parts of a rebuild -/

/-- A statement other than CLONE. -/
theorem triple_other {gen : Nat} {q : Stmt} (hq : (Req.sql q).mute = true) :
    Triple reportBase t (.rebuild d) (fun _ => Knows t d φ) (sql t gen q)
      (fun _ _ => Knows t d φ) (Raised t d φ) :=
  triple_told.conseq (fun _ _ h => h) (fun _ _ _ h => h.mono fun _ => heard_mute hq)
    fun _ _ _ h => ⟨h.1.mono fun _ hc => hc.elim (heard_mute hq) (·.1), h.2⟩

/-- The connection says nothing of it. -/
theorem triple_reconnect :
    Triple reportBase t (.rebuild d) (fun _ => Knows t d φ) (connect t) (fun _ _ => Knows t d φ)
      (Raised t d φ) := by
  refine .bind (Q := fun _ _ => Knows t d φ) (fun w₀ w h => ?_) fun gen =>
    .bind (.update (Q := fun _ _ => Knows t d φ) fun w₀ w h => h.edit (.opened t gen))
      fun _ => .pure fun _ _ h => h
  refine Prog.wp_mono (fun a w₀ w ha => ?_) _ _ _ (wp_wait (r := .connect) trivial h)
  have hw := ha.1.mono fun _ => heard_mute (r := .connect) rfl
  cases a with
  | ok gen => exact hw
  | error e => exact ⟨hw, status_of_raisable ha.2⟩

/-- Nor does the wait for the exit. -/
theorem triple_exit :
    Triple reportBase t (.rebuild d) (fun _ => Knows t d φ) waitExit (fun _ _ => Knows t d φ)
      (Raised t d φ) := by
  intro w₀ w h
  refine Prog.wp_mono (fun a w₀ w ha => ?_) _ _ _ (wp_wait (r := .waitExit) trivial h)
  have hw := ha.1.mono fun _ => heard_mute (r := .waitExit) rfl
  cases a with
  | ok exited => exact hw
  | error e => exact ⟨hw, status_of_raisable ha.2⟩

/-- Nor does the wait for the restart. -/
theorem triple_restart {started : Nat} :
    Triple reportBase t (.rebuild d) (fun _ => Knows t d φ) (waitRestart started)
      (fun _ _ => Knows t d φ) (Raised t d φ) := by
  intro w₀ w h
  refine Prog.wp_mono (fun a w₀ w ha => ?_) _ _ _ (wp_wait (r := .waitRestart started) trivial h)
  have hw := ha.1.mono fun _ => heard_mute (r := .waitRestart started) rfl
  cases a with
  | ok ok => exact hw
  | error e => exact ⟨hw, status_of_raisable ha.2⟩

/-- `if not ok: raise`. -/
theorem triple_ensureRead (ok : Bool) {e : Failure} (he : e.status ≠ 200) :
    Triple reportBase t (.rebuild d) (fun _ => Knows t d φ) (ensure ok e)
      (fun _ _ => Knows t d φ) (Raised t d φ) := by
  cases ok with
  | true => exact .pure fun _ _ h => h
  | false => exact .throw fun _ _ h => ⟨h, he⟩

/-- A mysqld that is found responsive finishes the rebuild. -/
theorem triple_responsive :
    Triple reportBase t (.rebuild d) (fun _ => Knows t d Read) waitResponsive
      (fun ok _ => Knows t d fun c => Read c ∧ (ok = true → Finished c)) (Raised t d Read) := by
  intro w₀ w h
  refine Prog.wp_mono (fun a w₀ w ha => ?_) _ _ _ (wp_wait (r := .waitResponsive) trivial h)
  cases a with
  | ok ok => exact ha.1.mono fun _ hc => heard_responsive hc
  | error e => exact ⟨ha.1.mono fun _ hc => (heard_responsive hc).1, status_of_raisable ha.2⟩

/-- The clone. Unless the rebuild fails, it has read CLONE as done. -/
theorem triple_cloneRead {gen : Nat} {donor : Node} :
    Triple reportBase t (.rebuild d) (fun _ => Knows t d φ) (cloneFrom t gen donor)
      (fun _ _ => Knows t d Read) (Raised t d fun _ => True) := by
  -- The three statements before CLONE say nothing of it.
  have hother : ∀ {q : Stmt}, (Req.sql q).mute = true → Triple reportBase t (.rebuild d)
      (fun _ => Knows t d φ) (sql t gen q) (fun _ _ => Knows t d φ)
        (Raised t d fun _ => True) :=
    fun hq => (triple_other hq).conseq (fun _ _ h => h) (fun _ _ _ h => h)
      fun _ _ _ h => ⟨h.1.mono fun _ _ => trivial, h.2⟩
  refine .bind (hother rfl) fun _ => .bind (hother rfl) fun _ => .bind (hother rfl) fun _ => ?_
  -- The failure of CLONE is caught: it is read as done, or as the error that stands for done.
  refine .bind (Q := fun r _ w => Knows t d (fun c => readsDone r = true → Read c) w ∧
    ∀ e, r = .error e → e.status ≠ 200)
    (.attempt (triple_told.conseq (fun _ _ h => h)
      (fun _ _ _ h => ⟨h.mono fun _ => heard_clone, fun e he => by cases he⟩)
      fun e _ _ h => ⟨h.1.mono fun _ hc hread => ?_, fun e' he => by cases he; exact h.2⟩))
    fun r => ?_
  · rcases hc with hheard | ⟨-, rfl⟩
    · exact heard_clone hheard hread
    · cases hread
  split
  · exact .pure fun _ _ h => h.1.mono fun _ hread => hread rfl
  · split
    · rename_i hcode
      exact .pure fun _ _ h => h.1.mono fun _ hread => hread hcode
    · -- The SET of super_read_only=1 says nothing of the clone.
      refine .bind (Q := fun r _ w => Knows t d (fun _ => True) w ∧
        ∀ e, r = .error e → e.status ≠ 200)
        (.attempt ((triple_other rfl).conseq
          (fun _ _ h => h.1.mono fun _ _ => trivial)
          (fun _ _ _ h => ⟨h, fun e he => by cases he⟩)
          fun e _ _ h => ⟨h.1, fun e' he => by cases he; exact h.2⟩)) fun r => ?_
      split
      · exact .throw fun _ _ h => ⟨h.1, by simp [Failure.status]⟩
      · exact .throw fun _ _ h => ⟨h.1, by simp [Failure.status]⟩
      · exact .throw fun _ _ h => ⟨h.1, h.2 _ rfl⟩
  · exact .throw fun _ _ h => ⟨h.1.mono fun _ _ => trivial, h.2 _ rfl⟩

/-- The statements after the copy say nothing of it. -/
theorem triple_afterRead :
    Triple reportBase t (.rebuild d) (fun _ => Knows t d φ) (afterClone t)
      (fun _ _ => Knows t d φ) (Raised t d φ) := by
  refine .bind triple_reconnect fun gen => .bind (triple_other rfl) fun _ => ?_
  refine .bind (triple_other rfl) fun _ => .bind (triple_other rfl) fun _ => ?_
  refine .bind (triple_other rfl) fun _ => ?_
  refine .bind (Q := fun r _ w => Knows t d φ w ∧ ∀ e, r = .error e → e.status ≠ 200)
    (.attempt ((triple_other rfl).conseq (fun _ _ h => h)
      (fun _ _ _ h => ⟨h, fun e he => by cases he⟩)
      fun e _ _ h => ⟨h.1, fun e' he => by cases he; exact h.2⟩)) fun r => ?_
  split
  · exact .pure fun _ _ h => h.1
  · exact .pure fun _ _ h => h.1
  · exact .throw fun _ _ h => ⟨h.1, h.2 _ rfl⟩

/-- The rest of a rebuild. Unless it fails, it has found mysqld responsive. -/
theorem triple_finishRead {started : Nat} :
    Triple reportBase t (.rebuild d) (fun _ => Knows t d Read) (rebuildFinish t started)
      (fun _ _ => Knows t d Finished) (Raised t d fun _ => True) := by
  have hany : ∀ {e} w₀ w, Raised t d Read e w₀ w → Raised t d (fun _ => True) e w₀ w :=
    fun _ _ h => ⟨h.1.mono fun _ _ => trivial, h.2⟩
  have hstarted : Triple reportBase t (.rebuild d) (fun _ => Knows t d Read) (waitStarted started)
      (fun _ _ => Knows t d Read) (Raised t d fun _ => True) := by
    refine .look fun s => ?_
    split
    -- The agent waits for the exit first, where the supervisor has not seen it.
    · refine .conseq (Q := fun _ _ => Knows t d Read) (E := Raised t d Read)
        (.bind (Q := fun _ _ => Knows t d Read) (.bind triple_exit fun exited => ?_) fun _ =>
          .bind triple_restart fun ok => triple_ensureRead ok (by simp [Failure.status]))
        (fun _ _ h => h.1) (fun _ _ _ h => h) fun _ => hany
      split
      · exact .pure fun _ _ h => h
      · exact .bind triple_exit fun _ => .pure fun _ _ h => h
    · exact .pure fun _ _ h => h.1
  refine .bind hstarted fun _ => .bind (triple_responsive.conseq (fun _ _ h => h)
    (fun _ _ _ h => h) fun _ => hany) fun ok => ?_
  refine .bind (Q := fun _ _ => Knows t d Finished) ?_ fun _ => ?_
  · cases ok with
    | true => exact .pure fun _ _ h => h.mono fun _ hc => hc.2 rfl
    | false => exact .throw fun _ _ h => ⟨h.mono fun _ _ => trivial, by simp [Failure.status]⟩
  · -- The statements after it may be made twice.
    have hafter : Triple reportBase t (.rebuild d) (fun _ => Knows t d Finished) (afterClone t)
        (fun _ _ => Knows t d Finished) (Raised t d Finished) := triple_afterRead
    refine .bind (Q := fun r _ w => Knows t d Finished w ∧ ∀ e, r = .error e → e.status ≠ 200)
      (.attempt (hafter.conseq (fun _ _ h => h) (fun _ _ _ h => ⟨h, fun e he => by cases he⟩)
        fun e _ _ h => ⟨h.1, fun e' he => by cases he; exact h.2⟩)) fun r => ?_
    have hraise : ∀ {e} w₀ w, Raised t d Finished e w₀ w → Raised t d (fun _ => True) e w₀ w :=
      fun _ _ h => ⟨h.1.mono fun _ _ => trivial, h.2⟩
    split
    · exact .pure fun _ _ h => h.1
    · split
      · exact hafter.conseq (fun _ _ h => h.1) (fun _ _ _ h => h) fun _ => hraise
      · exact .throw fun _ _ h => ⟨h.1.mono fun _ _ => trivial, h.2 _ rfl⟩
    · exact .throw fun _ _ h => ⟨h.1.mono fun _ _ => trivial, h.2 _ rfl⟩

/-- Before the clone nothing is known. -/
theorem triple_startRead :
    Triple reportBase t (.rebuild d) (fun _ => Knows t d fun _ => True) endRestartHold
      (fun _ _ => Knows t d fun _ => True) (Raised t d fun _ => True) := by
  have hresponsive : Triple reportBase t (.rebuild d) (fun _ => Knows t d fun _ => True)
      waitResponsive (fun _ _ => Knows t d fun _ => True) (Raised t d fun _ => True) := by
    intro w₀ w h
    refine Prog.wp_mono (fun a w₀ w ha => ?_) _ _ _ (wp_wait (r := .waitResponsive) trivial h)
    have hw : Knows t d (fun _ => True) w := ha.1.mono fun _ _ => trivial
    cases a with
    | ok ok => exact hw
    | error e => exact ⟨hw, status_of_raisable ha.2⟩
  refine .look fun s => ?_
  split
  · refine .bind (triple_restart.pre fun _ _ h => h.1) fun ok => ?_
    refine .bind (triple_ensureRead ok (by simp [Failure.status])) fun _ => ?_
    exact .bind hresponsive fun ok => triple_ensureRead ok (by simp [Failure.status])
  · exact .pure fun _ _ h => h.1

/-- Nor does the read of gtid_executed. -/
theorem triple_gtidRead :
    Triple reportBase t (.rebuild d) (fun _ => Knows t d φ) (ExceptT.mk (await .ownGtid))
      (fun _ _ => Knows t d φ) (Raised t d φ) := by
  intro w₀ w h
  refine Prog.wp_mono (fun a w₀ w ha => ?_) _ _ _ (wp_wait (r := .ownGtid) trivial h)
  have hw := ha.1.mono fun _ => heard_mute (r := .ownGtid) rfl
  cases a with
  | ok x => exact hw
  | error e => exact ⟨hw, status_of_raisable ha.2⟩

/-- Nor does the question to the donor. -/
theorem triple_donorRead {donor : Node} :
    Triple reportBase t (.rebuild d) (fun _ => Knows t d φ) (askDonor donor)
      (fun _ _ => Knows t d φ) (Raised t d φ) := by
  refine .bind (Q := fun r _ w => Knows t d φ w ∧ ∀ e, r = .error e → e.status ≠ 200)
    (fun w₀ w h => ?_) fun r => ?_
  · refine Prog.wp_seq (wp_wait (r := .donorGtid donor) trivial h) fun a w₀ w ha => ?_
    refine ⟨ha.1.mono fun _ => heard_mute (r := .donorGtid donor) rfl, fun e he => ?_⟩
    cases he
    exact status_of_raisable ha.2
  · split
    · exact .pure fun _ _ h => h.1
    · exact .throw fun _ _ h => ⟨h.1, by simp [Failure.status]⟩
    · exact .throw fun _ _ h => ⟨h.1, h.2 _ rfl⟩

/-- A rebuild that returns has read its CLONE as done and found mysqld responsive. -/
theorem triple_rebuildRead (node donor : Node) :
    Triple reportBase t (.rebuild d) (fun _ => Knows t d fun _ => True) (rebuild node t donor)
      (fun _ _ => Knows t d Finished) (Raised t d fun _ => True) := by
  unfold rebuild
  split
  · exact .throw fun _ _ h => ⟨h, by simp [Failure.status]⟩
  refine triple_withLockDeadlined (H := fun _ => Knows t d fun _ => True)
    (fun w₀ w h _ => h.edit _) (fun w₀ w h _ => ?_) ?_
  · have hq := h.edit (.enqueue .role t)
    refine ⟨hq.checked, fun w' hi hr => ⟨fun _ _ => (hq.resume hi hr).edit _, ?_⟩⟩
    exact ⟨(hq.resume hi hr).edit _, by simp [Failure.status]⟩
  · refine .conseq (Q := fun _ _ => Knows t d Finished) (E := Raised t d fun _ => True) ?_
      (fun _ _ h => h) (fun _ _ _ h => h.edit _) fun _ _ _ h => ⟨h.1.edit _, h.2⟩
    refine .bind triple_startRead fun _ => ?_
    refine .bind triple_gtidRead fun _ => ?_
    refine .bind triple_donorRead fun _ => .look fun s => ?_
    refine .bind (triple_reconnect.pre fun _ _ h => h.1) fun gen => ?_
    intro w₀ w h
    show ((do cloneFrom t gen donor; rebuildFinish t s.mysqld.gen : X Unit).run >>= fun r =>
      edit (.rebuilding false) >>= fun _ => pure r).wp reportBase t (.rebuild d) _ w₀
        (w.edit (.rebuilding true))
    refine Prog.wp_seq (Triple.bind triple_cloneRead (fun _ => triple_finishRead) w₀ _
      (h.edit (.rebuilding true))) fun r w₀ w hr => ?_
    cases r with
    | ok a => exact Knows.edit (.rebuilding false) hr
    | error e => exact ⟨hr.1.edit (.rebuilding false), hr.2⟩

/-- What an answer has to say. -/
theorem reports_reply {l : List (Coop.Event sig)} {status : Nat} {s : Agent}
    (h : status = 200 → Finished (cloning t l)) :
    Reports l (.issued t (.rebuild d) (.reply status) s) := by
  unfold Reports
  split
  · rename_i heq
    cases heq
    exact h rfl
  · trivial

/-- The answer of a rebuild. -/
theorem reported_rebuild (node donor : Node) (h : Knows t d (fun _ => True) w) :
    (answer (rebuild node t donor)).wp reportBase t (.rebuild d) (reportBase.Ends t) w₀ w := by
  have hreply : ∀ status w₀ w, Knows t d (fun _ => True) w →
      Reports w.log (.issued t (.rebuild d) (.reply status) w.state) →
        (await (.reply status)).wp reportBase t (.rebuild d) (reportBase.Ends t) w₀ w := by
    intro status w₀ w h hreports _
    have hissue : Checked Reports (w.issue t (.rebuild d) (.reply status)).log :=
      h.checked.concat hreports
    refine ⟨hissue, fun w' a hi _ _ _ => ?_⟩
    have hanswer : Checked Reports (w'.answer t (.reply status) a).log := hi.2.concat trivial
    exact hanswer.concat (e := .finished t w'.state) trivial
  refine Prog.wp_seq (triple_rebuildRead node donor w₀ w h) fun r w₀ w hr => ?_
  cases r with
  | ok a => exact hreply 200 w₀ w (Knows.mono hr fun _ _ => trivial) (Knows.known hr)
  | error e =>
      -- The status of a failure is another one.
      exact hreply e.status w₀ w hr.1 (reports_reply fun h => absurd h hr.2)

end

/-! ### The runs of the tasks -/

/-- Another request says nothing of a rebuild's answer. -/
theorem reports_other {l : List (Coop.Event sig)} {t : Nat} {j : Job} {r : Req} {s : Agent}
    (hj : ∀ d, j ≠ .rebuild d) : Reports l (.issued t j r s) := by
  unfold Reports
  split
  · rename_i d _ heq
    cases heq
    exact absurd rfl (hj _)
  · trivial

/-- No other request answers for a rebuild. -/
theorem reported_other {t : Nat} {j : Job} (hj : ∀ d, j ≠ .rebuild d) (m : M Unit)
    {w₀ w : World sig} (h : Checked Reports w.log) :
    m.wp reportBase t j (reportBase.Ends t) w₀ w := by
  refine Prog.wp_mono (fun _ w₀ w h _ => ?_) _ _ _ (Prog.wp_of_stable
    (C := reportBase) (K := fun w : World sig => Checked Reports w.log) (fun _ _ h => h)
    (fun r w h => h.concat (reports_other hj)) (fun _ _ _ h => h.concat trivial)
    (fun _ _ h => h.concat trivial) (fun _ _ _ hi _ => hi.2) (fun _ _ h => h) m w₀ w h)
  exact Checked.concat (e := .finished t w.state) h trivial

/-- The contract is sound over the frame. -/
theorem reported_sound (node : Node) {ok : Pool sig → Move sig → Pool sig → Prop}
    (hok : ∀ p m p', ok p m p' → environment p m = true ∧ admits p m = true) :
    (frame sig).SoundOver reported (body node) ok where
  rely_refl _ _ := trivial
  rely_trans _ _ _ _ _ _ := trivial
  rely_of_may _ _ _ _ _ _ _ _ _ := trivial
  rely_arrive _ _ _ _ _ _ := trivial
  rely_outside _ _ _ _ _ _ := trivial
  rely_land _ _ _ _ _ _ _ := trivial
  rely_resend _ _ _ _ _ _ _ := trivial
  inv_may _ _ _ _ _ _ h := h
  inv_arrive _ _ _ _ hi := hi
  inv_outside _ _ _ _ hi := hi
  inv_land _ _ _ _ _ hi := hi.concat trivial
  inv_resend _ _ _ _ _ hi := hi.concat trivial
  pre_rely _ _ _ _ _ _ _ := trivial
  pre_may _ _ _ _ _ _ _ _ _ _ _ := trivial
  pre_arrive _ _ _ _ _ := trivial
  allowed_start _ _ _ _ := trivial
  allowed_answer _ _ _ _ _ := trivial
  allowed_wake _ _ _ _ := trivial
  answers_ok p t f p' r k ho hp := by
    have h := (hok _ _ _ ho).2
    simp only [admits, hp] at h
    exact h
  body_wp t j w _ hi hj _ _ := by
    cases j with
    | rebuild d => exact reported_rebuild node d ⟨hj, hi, trivial⟩
    | fence | unfence | promote | repoint source | configure semisync =>
        exact reported_other (fun d h => by cases h) _ hi

/-- In every run, a rebuild answers 200 only when it has come so far. -/
theorem reports_of_reach {node : Node} {s : Agent} {p : Pool sig}
    (hr : Coop.Reach (body node) (fun p m _ => environment p m = true ∧ admits p m = true)
      (Pool.init s []) p) : Checked Reports p.world.log :=
  (((Coop.frame_sound _ _).both (reported_sound node fun _ _ _ h => h)).holds_reach
    (Contract.holds_init ⟨by simp [frame, Pool.init], Coop.checked_nil⟩
      fun _ _ h => by cases h) hr).inv.2

namespace Cloned

open Machine (Reach)

/-! ### The condition and the invariant -/

/-- Task `t` reads a CLONE as done by this move. -/
def readsClone (p : Pool sig) (t : Nat) : Move sig → Bool
  | .answer t' f =>
    match p.progs t' with
    | some (.await (.sql (.clone donor)) _) =>
      t' == t && readsDone (f (.sql (.clone donor)) : Except Failure Row)
    | _ => false
  | _ => false

/-- Task `t` finds mysqld responsive by this move. -/
def findsResponsive (p : Pool sig) (t : Nat) : Move sig → Bool
  | .answer t' f =>
    match p.progs t' with
    | some (.await .waitResponsive _) =>
      t' == t && readsTrue (f .waitResponsive : Except Failure Bool)
    | _ => false
  | _ => false

/-- By this move mysqld starts. -/
def boots : Move sig → Bool
  | .outside (.boot _) => true
  | _ => false

/-- mysqld serves the copy of rebuild `t`, and no other copy waits for a start. -/
def Serves (s : Cloned) (t : Nat) : Prop :=
  s.data = some t ∧ (s.staged = none ∨ s.staged = some t)

/-- What the move finds of rebuild `t`. Once it has read its CLONE as done, mysqld starts only
with the copy complete, and has started when it is found responsive. When CLONE is read as done,
mysqld has not started since it was sent, or serves the copy. -/
def Follows (s : Cloned) (m : Move sig) (t : Nat) (c : Cloning) : Prop :=
  (boots m = true → c.done = true →
    s.staged = some t ∨ s.data = some t ∧ s.staged = none) ∧
  (readsClone s.pool t m = true → s.state.mysqld.gen = c.gen ∨ s.Serves t) ∧
  (findsResponsive s.pool t m = true → c.done = true → c.gen < s.state.mysqld.gen)

/-- The condition. No copy of another rebuild gets complete after a rebuild has read its CLONE
as done. -/
def Complete (s : Cloned) : Turn → Prop
  | .agent m =>
    ∀ t < s.pool.world.jobs.length, ∀ c ∈ cloning t s.pool.world.log, s.Follows m t c
  | .copied t =>
    ∀ t' < s.pool.world.jobs.length, t' ≠ t → ∀ c ∈ cloning t' s.pool.world.log, c.done = false

/-- Once a rebuild has read its CLONE as done, mysqld has not started yet, or it serves the
copy. -/
def Placed (s : Cloned) (log : List (Coop.Event sig)) : Prop :=
  ∀ t c, cloning t log = some c → c.done = true →
    s.state.mysqld.gen = c.gen ∧ c.responsive = false ∨ s.Serves t

section
variable {node : Node} {semisync supervised fenced : Bool} {s s' : Cloned} {t : Nat}
  {log : List (Coop.Event sig)} {e : Coop.Event sig}

/-- What is no answer leaves a rebuild as far as it is, or says that it has not come far. -/
theorem next_of_ne_answered {c : Option Cloning} (he : ∀ t r a, e ≠ .answered t r a) :
    Cloning.next t c e = c ∨ ∀ x, Cloning.next t c e = some x → x.done = false := by
  unfold Cloning.next
  split
  · split
    · exact .inr fun x hx => by cases hx; rfl
    · exact .inl rfl
  · split
    · exact .inr fun x hx => by cases hx
    · exact .inl rfl
  · exact absurd rfl (he _ _ _)
  · exact absurd rfl (he _ _ _)
  · exact .inl rfl

/-- An event that is no answer leaves the copies where they are. -/
theorem Placed.concat (h : s.Placed log) (he : ∀ t r a, e ≠ .answered t r a) :
    s.Placed (log ++ [e]) := by
  intro t c hc hdone
  rw [cloning_concat] at hc
  rcases next_of_ne_answered (t := t) (c := cloning t log) he with hsame | hnone
  · exact h t c (hsame.symm.trans hc) hdone
  · rw [hnone c hc] at hdone
    cases hdone

/-- An answer. -/
theorem Placed.answered (h : s.Placed s.pool.world.log) {r : Req} {f : (r : Req) → r.Resp}
    {k : r.Resp → M Unit} (hp : s.pool.progs t = some (.await r k))
    (hlt : ∀ t c, cloning t s.pool.world.log = some c → t < s.pool.world.jobs.length)
    (hok : Complete s (.agent (.answer t f))) :
    s.Placed (s.pool.world.log ++ [.answered t r (f r)]) := by
  intro t' c hc hdone
  rw [cloning_concat] at hc
  have hsame : Cloning.next t' (cloning t' s.pool.world.log) (.answered t r (f r)) =
      cloning t' s.pool.world.log → s.state.mysqld.gen = c.gen ∧ c.responsive = false ∨
        s.Serves t' := fun heq => h t' c (heq.symm.trans hc) hdone
  -- Only two answers change what is known of a clone.
  cases r with
  | sql q =>
      cases q with
      | clone donor =>
          by_cases hread : t = t' ∧ readsDone (f (.sql (.clone donor))) = true
          · -- CLONE is read as done.
            have hnext : Cloning.next t' (cloning t' s.pool.world.log)
                (.answered t (.sql (.clone donor)) (f (.sql (.clone donor)))) =
                  (cloning t' s.pool.world.log).map fun c =>
                    { c with done := true, responsive := false } := if_pos hread
            obtain ⟨c₀, hc₀, rfl⟩ := Option.map_eq_some_iff.mp (hnext.symm.trans hc)
            have hreads : readsClone s.pool t' (.answer t f) = true := by
              simp only [readsClone, hp, Bool.and_eq_true, beq_iff_eq]
              exact hread
            rcases (hok t' (hlt t' c₀ hc₀) c₀ hc₀).2.1 hreads with hgen | hserves
            · exact .inl ⟨hgen, rfl⟩
            · exact .inr hserves
          · exact hsame (if_neg hread)
      | _ => exact hsame (next_answered_mute rfl)
  | waitResponsive =>
      by_cases hread : t = t' ∧ readsTrue (f .waitResponsive) = true
      · -- mysqld is found responsive, so it has started since.
        have hnext : Cloning.next t' (cloning t' s.pool.world.log)
            (.answered t .waitResponsive (f .waitResponsive)) =
              (cloning t' s.pool.world.log).map fun c => { c with responsive := true } :=
          if_pos hread
        obtain ⟨c₀, hc₀, rfl⟩ := Option.map_eq_some_iff.mp (hnext.symm.trans hc)
        have hfinds : findsResponsive s.pool t' (.answer t f) = true := by
          simp only [findsResponsive, hp, Bool.and_eq_true, beq_iff_eq]
          exact hread
        have hgen := (hok t' (hlt t' c₀ hc₀) c₀ hc₀).2.2 hfinds hdone
        rcases h t' c₀ hc₀ hdone with ⟨heq, -⟩ | hserves
        · omega
        · exact .inr hserves
      · exact hsame (if_neg hread)
  | reply status => exact hsame rfl
  | _ => exact hsame (next_answered_mute rfl)

/-- Nothing is known of a task without steps. -/
theorem lt_of_cloning {w : World sig} (hi : (frame sig).inv w) {c : Cloning}
    (hc : cloning t w.log = some c) : t < w.jobs.length := by
  by_contra hge
  have hown : own t w.log = [] := by
    refine List.filter_eq_nil_iff.mpr fun e he hby => hge (hi e he t hby)
  rw [cloning, ← foldl_next_own, hown] at hc
  cases hc

/-- The contracts that the tasks keep. -/
theorem holds_of_reach (h : Reach (step node) Complete (start semisync supervised fenced) s) :
    ((frame sig).both turning).Holds s.pool ∧ Checked Reports s.pool.world.log := by
  have hpool : Coop.Reach (body node) (fun p m _ => environment p m = true ∧ admits p m = true)
      (Pool.init (init semisync supervised fenced) []) s.pool := by
    refine Coop.Reach.of_machine Cloned.pool (fun s m s' _ hm => ?_) h
    cases m with
    | agent m =>
        obtain ⟨henv, hfire⟩ := Option.ite_none_right_eq_some.mp hm
        obtain ⟨p, hp, rfl⟩ := Option.map_eq_some_iff.mp hfire
        rw [Bool.and_eq_true] at henv
        refine .inr ⟨m, ?_, henv⟩
        rw [hp]
        unfold after
        split <;> rfl
    | copied t =>
        obtain ⟨-, ⟨⟩⟩ := Option.ite_none_right_eq_some.mp hm
        exact .inl rfl
  exact ⟨turning_holds node (fun _ => rfl) rfl rfl (fun _ _ _ h => h.1) hpool,
    reports_of_reach hpool⟩

/-- The log before a task stops again. -/
theorem Placed.segment (h : s.Placed s.pool.world.log) (hi : (frame sig).inv s.pool.world)
    {m : Move sig} (hok : Complete s (.agent m)) {a l : List (Coop.Event sig)}
    (ha : a = [] ∨ ∃ f r k, m = .answer t f ∧ s.pool.progs t = some (.await r k) ∧
      a = [.answered t r (f r)]) (hl : ∀ x ∈ l, ∀ t r a, x ≠ .answered t r a) :
    s.Placed (s.pool.world.log ++ a ++ l) := by
  have hfirst : s.Placed (s.pool.world.log ++ a) := by
    rcases ha with rfl | ⟨f, r, k, rfl, hp, rfl⟩
    · rw [List.append_nil]
      exact h
    · exact h.answered hp (fun t c hc => lt_of_cloning hi hc) hok
  clear ha
  induction l using List.reverseRecOn with
  | nil => rwa [List.append_nil]
  | append_singleton l x ih =>
      rw [← List.append_assoc]
      exact (ih fun y hy => hl y (List.mem_append_left _ hy)).concat
        (hl x (List.mem_append_right _ (List.mem_singleton_self x)))

/-- It depends on mysqld's start and on the copies alone. -/
theorem Placed.congr (h : s.Placed log) (hgen : s'.state.mysqld.gen = s.state.mysqld.gen)
    (hstaged : s'.staged = s.staged) (hdata : s'.data = s.data) : s'.Placed log := by
  intro t c hc hdone
  rw [hgen, Serves, hstaged, hdata]
  exact h t c hc hdone

/-- Up to its answer, a segment leaves it. -/
theorem Placed.agent (h : s.Placed s.pool.world.log)
    (hh : ((frame sig).both turning).Holds s.pool) {m : Move sig} {p : Pool sig}
    (henv : environment s.pool m = true) (hok : Complete s (.agent m))
    (hf : s.pool.fire (body node) m = some p) (ht : m.task = some t) :
    s.Placed p.world.log ∧ p.world.state.mysqld.gen = s.state.mysqld.gen := by
  obtain ⟨j, a, l, e, -, hlog, ha, hl, he⟩ := Pool.log_of_fire hf ht
  have hbefore : s.Placed (s.pool.world.log ++ a ++ l) :=
    h.segment hh.inv.1 hok (ha.imp_left And.right) fun x hx t r b heq => by
      obtain ⟨j', i, hcreated⟩ := hl x hx
      cases hcreated.symm.trans heq
  have hmay := (turnBase_sound node
    fun _ _ _ h => h).may_of_fire hh hf henv ht
  refine ⟨?_, hmay.2.turns.gen⟩
  rw [hlog, ← List.append_assoc]
  rcases he with rfl | ⟨r, rfl⟩ | ⟨x, rfl⟩
  · rw [List.append_nil]
    exact hbefore
  · exact hbefore.concat fun t r b heq => by cases heq
  · exact hbefore.concat fun t r b heq => by cases heq

/-- mysqld starts. -/
theorem placed_boot (hi : (frame sig).inv s.pool.world)
    {b : Bool} (hok : Complete s (.agent (.outside (.boot b)))) {p : Pool sig} :
    (s.after p (.outside (.boot b))).Placed s.pool.world.log := by
  intro t c hc hdone
  refine .inr ⟨?_, .inl rfl⟩
  show s.staged.or s.data = some t
  rcases (hok t (lt_of_cloning hi hc) c hc).1 rfl hdone with hstaged | ⟨hdata, hnone⟩
  · rw [hstaged]
    rfl
  · rw [hnone, hdata]
    rfl

/-- A copy gets complete. -/
theorem Placed.copied (h : s.Placed s.pool.world.log) (hi : (frame sig).inv s.pool.world)
    (hok : Complete s (.copied t)) :
    ({ s with staged := some t } : Cloned).Placed s.pool.world.log := by
  intro t' c hc hdone
  by_cases heq : t' = t
  · subst heq
    rcases h t' c hc hdone with hbefore | ⟨hdata, -⟩
    · exact .inl hbefore
    · exact .inr ⟨hdata, .inr rfl⟩
  · have hnot := hok t' (lt_of_cloning hi hc) heq c hc
    rw [hdone] at hnot
    cases hnot

/-- No change from outside but a boot starts mysqld. -/
theorem gen_outside {s : Agent} {u : Update} (h : s.outside u = true) :
    (∃ b, u = .boot b) ∨ (u.apply s).mysqld.gen = s.mysqld.gen := by
  cases u with
  | boot b => exact .inl ⟨b, rfl⟩
  | execute t row =>
      refine .inr ?_
      show (s.execute t row).mysqld.gen = _
      unfold execute
      split
      · rfl
      · exact Mysqld.gen_exec _ _
  | land k =>
      refine .inr ?_
      show (s.land k).mysqld.gen = _
      unfold land
      split
      · rfl
      · exact Mysqld.gen_exec _ _
  | crash | expire t | disk b => exact .inr rfl
  | _ => cases h

/-- Every move keeps it. -/
theorem Placed.step (h : s.Placed s.pool.world.log)
    (hh : ((frame sig).both turning).Holds s.pool) {m : Turn} (hok : Complete s m)
    (hm : s.step node m = some s') : s'.Placed s'.pool.world.log := by
  cases m with
  | copied t =>
      obtain ⟨-, ⟨⟩⟩ := Option.ite_none_right_eq_some.mp hm
      exact h.copied hh.inv.1 hok
  | agent m =>
      obtain ⟨henv, hfire⟩ := Option.ite_none_right_eq_some.mp hm
      obtain ⟨p, hp, rfl⟩ := Option.map_eq_some_iff.mp hfire
      rw [Bool.and_eq_true] at henv
      cases m with
      | start t | answer t f | wake t =>
          obtain ⟨hplaced, hgen⟩ := h.agent hh henv.1 hok hp rfl
          exact hplaced.congr hgen rfl rfl
      | arrive j =>
          cases hp
          exact h.congr rfl rfl rfl
      | land t r | resend t r => cases henv.1
      | outside u =>
          cases hp
          rcases gen_outside henv.1 with ⟨b, rfl⟩ | hgen
          · exact placed_boot hh.inv.1 hok
          · cases u with
            | boot b => exact placed_boot hh.inv.1 hok
            | _ => exact h.congr hgen rfl rfl

/-- In every run whose turns meet the condition, each copy is in its place. -/
theorem placed_of_reach
    (h : Reach (step node) Complete (start semisync supervised fenced) s) :
    s.Placed s.pool.world.log :=
  Reach.invariant (I := fun s => s.Placed s.pool.world.log) h (fun _ _ hc => by cases hc)
    fun _ _ _ hrun hi hok hm => hi.step (holds_of_reach hrun).1 hok hm

/-- The log before the answer of a task. -/
theorem segment_of_agreed {p p' : Pool sig} {m : Move sig} {donor : Node}
    (hf : p.fire (body node) m = some p') (ht : m.task = some t)
    (hj : p.world.jobs[t]? = some (.rebuild donor)) (hagreed : agreed t p p' = true) :
    ∃ a l x, p'.world.log = p.world.log ++ a ++ (l ++ [.issued t (.rebuild donor) (.reply 200) x]) ∧
      (a = [] ∨ ∃ f r k, m = .answer t f ∧ p.progs t = some (.await r k) ∧
        a = [.answered t r (f r)]) ∧ ∀ y ∈ l, ∃ j i, y = .created t j i := by
  obtain ⟨j, a, l, e, hjob, hlog, ha, hl, he⟩ := Pool.log_of_fire hf ht
  cases hj.symm.trans hjob
  -- The segment has the reply in what it adds; it is neither the answer nor a creation, so it comes
  -- last.
  rw [agreed, hlog, List.append_assoc, List.drop_left] at hagreed
  obtain ⟨y, hy, hreply⟩ := List.any_eq_true.mp hagreed
  rcases List.mem_append.mp hy with hy | hy
  · rcases ha with ⟨-, rfl⟩ | ⟨f, r, k, -, -, rfl⟩
    · cases hy
    · cases List.mem_singleton.mp hy
      cases hreply
  · rcases List.mem_append.mp hy with hy | hy
    · obtain ⟨j', i, rfl⟩ := hl y hy
      cases hreply
    · rcases he with rfl | ⟨r, rfl⟩ | ⟨x, rfl⟩
      · cases hy
      · cases List.mem_singleton.mp hy
        refine ⟨a, l, p'.world.state, ?_, ha.imp_left And.right, hl⟩
        cases r with
        | reply status =>
            by_cases hstatus : status = 200
            · rw [hstatus] at hlog
              exact hlog
            · split at hreply
              · rename_i heq
                cases heq
                exact absurd rfl hstatus
              · cases hreply
        | _ => cases hreply
      · cases List.mem_singleton.mp hy
        cases hreply

/-- When a rebuild answers 200, mysqld serves the copy that its CLONE made of the donor. -/
theorem data_of_agreed (h : Reach (step node) Complete (start semisync supervised fenced) s)
    {m : Move sig} (hok : Complete s (.agent m)) (hm : s.step node (.agent m) = some s')
    (ht : m.task = some t) {donor : Node} (hj : s.pool.world.jobs[t]? = some (.rebuild donor))
    (hagreed : agreed t s.pool s'.pool = true) : s'.data = some t := by
  have hh := (holds_of_reach h).1
  have hreports := (holds_of_reach (h.tail hok hm)).2
  obtain ⟨henv, hfire⟩ := Option.ite_none_right_eq_some.mp hm
  obtain ⟨p, hp, rfl⟩ := Option.map_eq_some_iff.mp hfire
  -- The ghost state changes with the environment's moves only.
  have hpool : (s.after p m).pool = p ∧ (s.after p m).data = s.data := by
    cases m with
    | start t' | answer t' f | wake t' => exact ⟨rfl, rfl⟩
    | arrive j | outside u | land t' r | resend t' r => cases ht
  rw [hpool.1] at hagreed hreports
  rw [hpool.2]
  -- The step that answers 200 logs the reply last.
  obtain ⟨a, l, x, hlog, ha, hl⟩ := segment_of_agreed hp ht hj hagreed
  have hbefore : s.Placed (s.pool.world.log ++ a ++ l) :=
    (placed_of_reach h).segment hh.inv.1 hok (by
      rcases ha with rfl | ⟨f, r, k, rfl, hprog, rfl⟩
      · exact .inl rfl
      -- Or it is the answer that the task was waiting for.
      · exact .inr ⟨f, r, k, rfl, hprog, rfl⟩) fun y hy t' r b heq => by
        obtain ⟨j, i, hcreated⟩ := hl y hy
        cases hcreated.symm.trans heq
  -- Its reports say that a clone was finished.
  have hsays : Reports (s.pool.world.log ++ a ++ l)
      (.issued t (.rebuild donor) (.reply 200) x) :=
    hreports _ _ [] (by rw [hlog, ← List.append_assoc])
  obtain ⟨c, hc, hdone, hresponsive⟩ : Finished (cloning t (s.pool.world.log ++ a ++ l)) := hsays
  -- A clone that is served cannot be one that did not come up.
  rcases hbefore t c hc hdone with ⟨-, hnot⟩ | hserves
  · rw [hresponsive] at hnot
    cases hnot
  · exact hserves.1

end

/-! ### Runs -/

instance (s : Cloned) (t : Nat) : Decidable (s.Serves t) :=
  inferInstanceAs (Decidable (_ ∧ _))

instance (s : Cloned) (m : Move sig) (t : Nat) (c : Cloning) : Decidable (s.Follows m t c) :=
  inferInstanceAs (Decidable (_ ∧ _ ∧ _))

instance decidableComplete (s : Cloned) : ∀ m, Decidable (Complete s m)
  | .agent m =>
    inferInstanceAs (Decidable (∀ t < s.pool.world.jobs.length,
      ∀ c ∈ cloning t s.pool.world.log, s.Follows m t c))
  | .copied t =>
    inferInstanceAs (Decidable (∀ t' < s.pool.world.jobs.length, t' ≠ t →
      ∀ c ∈ cloning t' s.pool.world.log, c.done = false))

/-- A rebuild of the replica up to its CLONE, which is sent. -/
def cloneSent : List Turn :=
  ([.arrive (.rebuild "b"), .start 0, did 0, did 0, did 0] ++ ran 0 .none ++ ran 0 .none ++
    ran 0 .none).map .agent

/-- Task 0 connects to the mysqld of this start. -/
def connected (gen : Nat) : Move sig :=
  .answer 0 fun r => match r with
    | .connect => .ok gen
    | r => succeed .none r

/-- mysqld goes away, the link with it, and the supervisor starts mysqld again. -/
def restarted : List Turn :=
  ([.outside .crash, failed 0 (some 2013), did 0, .outside (.boot false), did 0, did 0,
    connected 2] : List (Move sig)).map .agent

/-- The statements after the clone. The last one is executed. -/
def readOnlyAgain : List Turn :=
  (ran 0 .none ++ ran 0 .none ++ ran 0 .none ++ ran 0 .none).map .agent ++
    [.agent (.outside (.execute 0 .none))]

/-- A clone whose copy is complete before mysqld goes away. -/
def copied : Cloned :=
  Machine.run (step "a") (start true true false)
    (cloneSent ++ [.copied 0] ++ restarted ++ readOnlyAgain)

/-- mysqld goes away before the copy is complete. -/
def interrupted : Cloned :=
  Machine.run (step "a") (start true true false) (cloneSent ++ restarted ++ readOnlyAgain)

/-- A rebuild that answers serves its own copy. -/
theorem data_of_agreed_copied :
    (Machine.run (step "a") copied [.agent (did 0)]).data = some 0 :=
  data_of_agreed
    (Machine.reach_run_of_obeys (by decide +kernel) (by decide +kernel)) (by decide +kernel)
    (Machine.step_eq_run (by decide +kernel)) (t := 0) rfl
    (show copied.pool.world.jobs[0]? = some (.rebuild "b") by rfl)
    (by decide +kernel)

/-- The rebuild answers 200, and mysqld serves the data it had before. -/
theorem agreed_interrupted :
    Reach (step "a") Machine.Free (start true true false) interrupted ∧
      (interrupted.step "a" (.agent (did 0))).any fun s' =>
        agreed 0 interrupted.pool s'.pool && s'.data.isNone :=
  ⟨Machine.reach_run (by decide +kernel), by decide +kernel⟩

end Cloned

end Agent

end DbGuard
