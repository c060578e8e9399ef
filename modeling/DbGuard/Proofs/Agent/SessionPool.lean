import DbGuard.Agent.SessionPool
import Mathlib.Data.Finset.Card
import Mathlib.Data.Finset.Range
import Mathlib.Data.List.Nodup

/-!
# `DbGuard.Proofs.Agent.SessionPool`: a session has one borrower

`Sound` is what holds of the pool at any moment, and each move keeps it. A session that is not
closed is idle or lent, to one task, and a session with an unread answer is never idle. The last
part rests on the bodies in `agent/core.py`: a body that was cancelled in a statement ends by
the cancellation (`Disciplined`).
-/

set_option autoImplicit false

namespace DbGuard.MySQL

open Machine (Reach)

/-- A body that was cancelled in a statement does not end as if nothing had been raised. -/
def Disciplined (p : MySQL) : Move → Prop
  | .leave u ok => ok = true → (p.tasks u).isCut = false
  | _ => True

instance : ∀ p : MySQL, DecidablePred (Disciplined p)
  | p, .leave u ok => inferInstanceAs (Decidable (ok = true → (p.tasks u).isCut = false))
  | _, .enter _ | _, .connected _ _ | _, .send _ | _, .result _ _ | _, .lose _ | _, .dropIdle =>
    .isTrue trivial

/-- Task `u` has session `s`. -/
def Has (p : MySQL) (u s : Nat) : Prop := (p.tasks u).session = some s

/-- What holds of the pool at any moment. A session can be in hand: it has left the idle ones or
its task, or was just opened, and nobody has it yet. -/
structure Sound (p : MySQL) (hand : Option Nat) : Prop where
  lent : ∀ u s, p.Has u s → s < p.opened ∧ s ∉ p.idle ∧ hand ≠ some s
  alone : ∀ u v s, p.Has u s → p.Has v s → u = v
  idle : ∀ s ∈ p.idle, s < p.opened ∧ hand ≠ some s
  nodup : p.idle.Nodup
  bound : p.idle.length ≤ p.maxIdle
  kept : ∀ s < p.opened, p.isClosed s = false →
    s ∈ p.idle ∨ (∃ u, p.Has u s) ∨ hand = some s
  whole : ∀ s, p.isClosed s = false → (p.session s).midway = true →
    (∃ u, p.Has u s ∧ (p.tasks u).isCut = true) ∨ hand = some s
  unopened : ∀ s, p.opened ≤ s → (p.session s).midway = false
  hand_lt : ∀ s, hand = some s → s < p.opened

section
variable {p p' : MySQL} {u v s : Nat} {b : Borrower} {f : MySQLSession → MySQLSession}

/-! ### The updates -/

/-- The sessions that tasks have after a change of one task. -/
theorem has_setTask :
    (p.setTask u b).Has v s ↔ if v = u then b.session = some s else p.Has v s := by
  by_cases h : v = u <;> simp [Has, setTask, Function.update, h]

/-- Which bodies are cut after it. -/
theorem isCut_setTask :
    ((p.setTask u b).tasks v).isCut = if v = u then b.isCut else (p.tasks v).isCut := by
  by_cases h : v = u <;> simp [setTask, Function.update, h]

/-- It leaves the idle sessions. -/
@[simp] theorem idle_setTask : (p.setTask u b).idle = p.idle := rfl
/-- It leaves the number of sessions. -/
@[simp] theorem opened_setTask : (p.setTask u b).opened = p.opened := rfl
/-- It leaves their bound. -/
@[simp] theorem maxIdle_setTask : (p.setTask u b).maxIdle = p.maxIdle := rfl
/-- It leaves each session. -/
@[simp] theorem session_setTask : (p.setTask u b).session = p.session := rfl
/-- It leaves those that are closed. -/
@[simp] theorem isClosed_setTask : (p.setTask u b).isClosed s = p.isClosed s := rfl

/-- A change of a session leaves who has it. -/
@[simp] theorem has_modifySession {t : Nat} : (p.modifySession t f).Has u s ↔ p.Has u s := Iff.rfl

/-- It changes that session only. -/
theorem session_modifySession {t : Nat} :
    (p.modifySession t f).session s = if s = t then f (p.session s) else p.session s := by
  by_cases h : s = t <;> simp [modifySession, Function.update, h]

/-- A session that is closed stays closed, whatever a statement does to it. -/
theorem isClosed_run {x : MySQLSession} {o : MySQLSession.Outcome} (h : x.isClosed = true) :
    (x.run o).isClosed = true := by
  cases o with
  | answer => exact h
  | mysqlError code =>
      simp only [MySQLSession.run]
      split
      · simp [MySQLSession.close, MySQLSession.isClosed]
      · exact h
  | timeout | broken => simp [MySQLSession.run, MySQLSession.close, MySQLSession.isClosed]
  | cancelled => exact h

/-- A statement that leaves its session open and its answer unread was cancelled. -/
theorem midway_run {x : MySQLSession} {o : MySQLSession.Outcome} (hopen : (x.run o).isClosed = false)
    (hmid : (x.run o).midway = true) : x.midway = true ∨ o = .cancelled := by
  cases o with
  | answer => exact .inl hmid
  | mysqlError code =>
      simp only [MySQLSession.run] at hopen hmid
      split at hmid
      · rename_i hcode
        simp [hcode, MySQLSession.close, MySQLSession.isClosed] at hopen
      · exact .inl hmid
  | timeout | broken =>
      simp [MySQLSession.run, MySQLSession.close, MySQLSession.isClosed] at hopen
  | cancelled => exact .inr rfl

/-! ### What a task does with a session -/

/-- The task goes on with its session. -/
theorem Sound.setTask (h : p.Sound none) (hsame : b.session = (p.tasks u).session)
    (hcut : (p.tasks u).isCut = true → b.isCut = true) : (p.setTask u b).Sound none := by
  have hhas : ∀ v s, (p.setTask u b).Has v s ↔ p.Has v s := fun v s => by
    rw [has_setTask]
    split
    · rename_i heq
      rw [heq, hsame]
      rfl
    · rfl
  refine ⟨fun v s hv => h.lent v s ((hhas v s).mp hv),
    fun v w s hv hw => h.alone v w s ((hhas v s).mp hv) ((hhas w s).mp hw), h.idle, h.nodup,
    h.bound, fun s hs hopen => ?_, fun s hopen hmid => ?_, h.unopened, h.hand_lt⟩
  · exact (h.kept s hs hopen).imp_right (.imp_left fun ⟨v, hv⟩ => ⟨v, (hhas v s).mpr hv⟩)
  · refine (h.whole s hopen hmid).imp_left fun ⟨v, hv, hc⟩ => ⟨v, (hhas v s).mpr hv, ?_⟩
    rw [isCut_setTask]
    split
    · rename_i heq
      exact hcut (heq ▸ hc)
    · exact hc

/-- A task without a session gets the one in hand. -/
theorem Sound.give (h : p.Sound (some s)) (hnone : (p.tasks u).session = none)
    (hwhole : p.isClosed s = false → (p.session s).midway = false) :
    (p.setTask u (.body s false)).Sound none := by
  have hno : ∀ t, ¬p.Has u t := fun t ht => by rw [Has, hnone] at ht; cases ht
  have hhas : ∀ v t, (p.setTask u (.body s false)).Has v t ↔
      (v = u ∧ t = s) ∨ (v ≠ u ∧ p.Has v t) := fun v t => by
    rw [has_setTask]
    by_cases hv : v = u <;> simp [hv, Borrower.session, eq_comm]
  have hkeep : ∀ {v t}, p.Has v t → (p.setTask u (.body s false)).Has v t := fun {v t} hv =>
    (hhas v t).mpr (.inr ⟨fun heq => hno t (heq ▸ hv), hv⟩)
  have hmine : (p.setTask u (.body s false)).Has u s := (hhas u s).mpr (.inl ⟨rfl, rfl⟩)
  constructor
  case lent =>
    intro v t hv
    rcases (hhas v t).mp hv with ⟨-, rfl⟩ | ⟨-, hv⟩
    · exact ⟨h.hand_lt t rfl, fun hmem => (h.idle t hmem).2 rfl, by simp⟩
    · exact ⟨(h.lent v t hv).1, (h.lent v t hv).2.1, by simp⟩
  case alone =>
    -- Nobody else has the session that was in hand.
    intro v w t hv hw
    rcases (hhas v t).mp hv with ⟨rfl, rfl⟩ | ⟨-, hv'⟩
    · rcases (hhas w t).mp hw with ⟨rfl, -⟩ | ⟨-, hw'⟩
      · rfl
      · exact absurd rfl (h.lent w t hw').2.2
    · rcases (hhas w t).mp hw with ⟨rfl, rfl⟩ | ⟨-, hw'⟩
      · exact absurd rfl (h.lent v t hv').2.2
      · exact h.alone v w t hv' hw'
  case idle => exact fun t ht => ⟨(h.idle t ht).1, by simp⟩
  case nodup => exact h.nodup
  case bound => exact h.bound
  case kept =>
    intro t ht hopen
    rcases h.kept t ht hopen with hidle | ⟨v, hv⟩ | hhand
    · exact .inl hidle
    · exact .inr (.inl ⟨v, hkeep hv⟩)
    · cases hhand
      exact .inr (.inl ⟨u, hmine⟩)
  case whole =>
    intro t hopen hmid
    rcases h.whole t hopen hmid with ⟨v, hv, hcut⟩ | hhand
    · have hvu : v ≠ u := fun heq => hno t (heq ▸ hv)
      refine .inl ⟨v, hkeep hv, ?_⟩
      rw [isCut_setTask, if_neg hvu]
      exact hcut
    · cases hhand
      exact absurd hmid (by simp [hwhole hopen])
  case unopened => exact h.unopened
  case hand_lt => simp

/-- A task gives its session back into the hand. -/
theorem Sound.take (h : p.Sound none) (hhas : p.Has u s) :
    (p.setTask u .outside).Sound (some s) := by
  -- Only task `u` has lost its session, which is in hand now.
  have hleft : ∀ v t, (p.setTask u .outside).Has v t ↔ v ≠ u ∧ p.Has v t := fun v t => by
    rw [has_setTask]
    by_cases hv : v = u <;> simp [hv, Borrower.session]
  have hother : ∀ {v t}, p.Has v t → t ≠ s → (p.setTask u .outside).Has v t := by
    intro v t hv hne
    refine (hleft v t).mpr ⟨fun heq => hne ?_, hv⟩
    subst heq
    exact Option.some.inj (hv.symm.trans hhas)
  constructor
  case lent =>
    intro v t hv
    obtain ⟨hne, hv⟩ := (hleft v t).mp hv
    refine ⟨(h.lent v t hv).1, (h.lent v t hv).2.1, fun heq => hne ?_⟩
    cases heq
    exact h.alone v u s hv hhas
  case alone =>
    intro v w t hv hw
    exact h.alone v w t ((hleft v t).mp hv).2 ((hleft w t).mp hw).2
  case idle =>
    intro t ht
    refine ⟨(h.idle t ht).1, fun heq => ?_⟩
    cases heq
    exact (h.lent u s hhas).2.1 ht
  -- One case for each field of the invariant.
  case nodup => exact h.nodup
  case bound => exact h.bound
  case kept =>
    intro t ht hopen
    by_cases hts : t = s
    · exact .inr (.inr (hts ▸ rfl))
    · rcases h.kept t ht hopen with hidle | ⟨v, hv⟩ | hhand
      · exact .inl hidle
      · exact .inr (.inl ⟨v, hother hv hts⟩)
      · cases hhand
  case whole =>
    intro t hopen hmid
    by_cases hts : t = s
    · exact .inr (hts ▸ rfl)
    · rcases h.whole t hopen hmid with ⟨v, hv, hcut⟩ | hhand
      · refine .inl ⟨v, hother hv hts, ?_⟩
        rw [isCut_setTask, if_neg ((hleft v t).mp (hother hv hts)).1]
        exact hcut
      · cases hhand
  case unopened => exact h.unopened
  case hand_lt =>
    intro t ht
    cases ht
    exact (h.lent u s hhas).1

/-- The session in hand becomes idle. -/
theorem Sound.put (h : p.Sound (some s)) (hroom : p.idle.length < p.maxIdle)
    (hwhole : (p.session s).midway = false) :
    ({ p with idle := s :: p.idle } : MySQL).Sound none := by
  constructor
  -- Nobody holds the session any more that was in the hand.
  case lent =>
    intro v t hv
    obtain ⟨hlt, hidle, hne⟩ := h.lent v t hv
    refine ⟨hlt, fun hmem => ?_, by simp⟩
    rcases List.mem_cons.mp hmem with rfl | hmem
    · exact hne rfl
    · exact hidle hmem
  case alone => exact h.alone
  case idle =>
    intro t ht
    rcases List.mem_cons.mp ht with rfl | ht
    · exact ⟨h.hand_lt t rfl, by simp⟩
    · exact ⟨(h.idle t ht).1, by simp⟩
  case nodup => exact List.nodup_cons.mpr ⟨fun hmem => (h.idle s hmem).2 rfl, h.nodup⟩
  case bound => exact hroom
  -- An open session stays in somebody's keeping, now in that of the pool.
  case kept =>
    intro t ht hopen
    rcases h.kept t ht hopen with hidle | hlent | hhand
    · exact .inl (List.mem_cons_of_mem _ hidle)
    · exact .inr (.inl hlent)
    · cases hhand
      exact .inl List.mem_cons_self
  -- It is not in the middle of a statement, which is the condition of returning it.
  case whole =>
    intro t hopen hmid
    refine (h.whole t hopen hmid).imp_right fun hhand => ?_
    cases hhand
    exact absurd hmid (by simp [hwhole])
  case unopened => exact h.unopened
  case hand_lt => simp

/-- A session changes. What is closed stays closed, and an answer is left unread only where the
body of its task is cut. -/
theorem Sound.modifySession {hand : Option Nat} (h : p.Sound hand)
    (hopen : (f (p.session s)).isClosed = false → p.isClosed s = false)
    (hmid : (f (p.session s)).midway = true → (f (p.session s)).isClosed = false →
      (p.session s).midway = true ∨ ∃ u, p.Has u s ∧ (p.tasks u).isCut = true)
    (hnew : p.opened ≤ s → (f (p.session s)).midway = false) :
    (p.modifySession s f).Sound hand := by
  -- A session that is open now was open before.
  have hclosed : ∀ t, (p.modifySession s f).isClosed t = false → p.isClosed t = false := by
    intro t ht
    rw [isClosed, session_modifySession] at ht
    split at ht
    · rename_i heq
      subst heq
      exact hopen ht
    · exact ht
  refine ⟨h.lent, h.alone, h.idle, h.nodup, h.bound, fun t ht ho => h.kept t ht (hclosed t ho),
    -- Only for the session that is modified there is something to show.
    fun t ho hm => ?_, fun t ht => ?_, h.hand_lt⟩
  · have ho' := hclosed t ho
    rw [isClosed, session_modifySession] at ho
    rw [session_modifySession] at hm
    split at hm
    · rename_i heq
      subst heq
      rw [if_pos rfl] at ho
      exact (hmid hm ho).elim (fun hbefore => h.whole t ho' hbefore) .inl
    · exact h.whole t ho' hm
  · rw [session_modifySession]
    split
    · rename_i heq
      subst heq
      exact hnew ht
    · exact h.unopened t ht

/-- The session in hand is closed. -/
theorem Sound.close (h : p.Sound (some s)) : (p.modifySession s .close).Sound none := by
  have hs : ((p.modifySession s .close).session s).isClosed = true := by
    simp [session_modifySession, MySQLSession.close, MySQLSession.isClosed]
  have hclosed := h.modifySession (s := s) (f := .close)
    (fun ho => by simp [MySQLSession.close, MySQLSession.isClosed] at ho)
    (fun _ ho => by simp [MySQLSession.close, MySQLSession.isClosed] at ho)
    (fun hle => absurd (h.hand_lt s rfl) (Nat.not_lt.mpr hle))
  refine ⟨fun v t hv => ⟨(h.lent v t hv).1, (h.lent v t hv).2.1, by simp⟩, h.alone,
    fun t ht => ⟨(h.idle t ht).1, by simp⟩, h.nodup, h.bound, fun t ht ho => ?_, fun t ho hm => ?_,
    hclosed.unopened, by simp⟩
  · rcases hclosed.kept t ht ho with hidle | hlent | hhand
    · exact .inl hidle
    · exact .inr (.inl hlent)
    · cases hhand
      exact absurd ho (by simp [isClosed, hs])
  · rcases hclosed.whole t ho hm with hlent | hhand
    · exact .inl hlent
    · cases hhand
      exact absurd ho (by simp [isClosed, hs])

/-! ### The moves -/

/-- A session that is not dropped stays in the list. -/
theorem mem_dropWhile {q : Nat → Bool} {l : List Nat} (hmem : s ∈ l) (hq : q s = false) :
    s ∈ l.dropWhile q := by
  induction l with
  | nil => exact hmem
  | cons t l ih =>
      rw [List.dropWhile_cons]
      split
      · rename_i ht
        rcases List.mem_cons.mp hmem with rfl | hmem
        · rw [hq] at ht
          cases ht
        · exact ih hmem
      · exact hmem

/-- Closed sessions at the end of `idle` are forgotten, and the open one before them is taken. -/
theorem Sound.pop (h : p.Sound none) {rest : List Nat}
    (heq : p.idle.dropWhile p.isClosed = s :: rest) :
    ({ p with idle := rest } : MySQL).Sound (some s) ∧ p.isClosed s = false := by
  have hsuffix : s :: rest <:+ p.idle := heq ▸ List.dropWhile_suffix _
  have hnodup := List.nodup_cons.mp (hsuffix.sublist.nodup h.nodup)
  have hs : s ∈ p.idle := hsuffix.subset List.mem_cons_self
  have hrest : ∀ t ∈ rest, t ∈ p.idle := fun t ht => hsuffix.subset (List.mem_cons_of_mem _ ht)
  have hopen : p.isClosed s = false := by
    have := List.head_dropWhile_not p.isClosed (l := p.idle) (by simp [heq])
    simpa [heq] using this
  refine ⟨?_, hopen⟩
  constructor
  -- The session in hand was idle, so no task has it.
  case lent =>
    intro v t hv
    refine ⟨(h.lent v t hv).1, fun hmem => (h.lent v t hv).2.1 (hrest t hmem), fun hhand => ?_⟩
    cases hhand
    exact (h.lent v s hv).2.1 hs
  case alone => exact h.alone
  case idle =>
    intro t ht
    refine ⟨(h.idle t (hrest t ht)).1, fun hhand => ?_⟩
    cases hhand
    exact hnodup.1 ht
  case nodup => exact hnodup.2
  case bound =>
    have hlen := hsuffix.length_le
    have hbound := h.bound
    simp only [List.length_cons] at hlen
    show rest.length ≤ p.maxIdle
    omega
  -- The closed ones before it are dropped; an open one stays idle or is in hand.
  case kept =>
    intro t ht ho
    rcases h.kept t ht ho with hidle | hlent | hhand
    · have hmem : t ∈ p.idle.dropWhile p.isClosed := mem_dropWhile hidle ho
      rw [heq] at hmem
      rcases List.mem_cons.mp hmem with rfl | hmem
      · exact .inr (.inr rfl)
      · exact .inl hmem
    · exact .inr (.inl hlent)
    · cases hhand
  case whole => exact fun t ho hm => (h.whole t ho hm).imp_right fun hhand => by cases hhand
  case unopened => exact h.unopened
  case hand_lt =>
    intro t ht
    cases ht
    exact (h.idle s hs).1

/-- An idle session has no unread answer. -/
theorem Sound.idle_whole (h : p.Sound none) (hidle : s ∈ p.idle) (hopen : p.isClosed s = false) :
    (p.session s).midway = false := by
  by_contra hmid
  rcases h.whole s hopen (by simpa using hmid) with ⟨v, hv, -⟩ | hhand
  · exact (h.lent v s hv).2.1 hidle
  · cases hhand

/-- A task that enters takes an idle session, or opens one. -/
theorem Sound.enter (h : p.Sound none) (hout : p.tasks u = .outside) :
    (p.enter u).Sound none := by
  have hnone : (p.tasks u).session = none := by simp [hout, Borrower.session]
  unfold MySQL.enter
  split
  · rename_i s rest heq
    obtain ⟨hhand, hopen⟩ := h.pop heq
    have hs : s ∈ p.idle :=
      (heq ▸ List.dropWhile_suffix p.isClosed : s :: rest <:+ p.idle).subset List.mem_cons_self
    exact hhand.give hnone fun _ => h.idle_whole hs hopen
  · rename_i heq
    have hidle : ({ p with idle := [] } : MySQL).Sound none := by
      refine ⟨fun v s hv => ⟨(h.lent v s hv).1, List.not_mem_nil, by simp⟩, h.alone, by simp, .nil,
        Nat.zero_le _, fun s hs hopen => ?_, h.whole, h.unopened, by simp⟩
      refine (h.kept s hs hopen).imp_left fun hmem => ?_
      have hmem : s ∈ p.idle.dropWhile p.isClosed := mem_dropWhile hmem hopen
      rw [heq] at hmem
      exact absurd hmem List.not_mem_nil
    exact hidle.setTask (by simp [hout, Borrower.session]) (by simp [hout, Borrower.isCut])

/-- A new session is in hand. -/
theorem Sound.open (h : p.Sound none) :
    ({ p with opened := p.opened + 1,
              session := Function.update p.session p.opened .new } : MySQL).Sound
      (some p.opened) := by
  -- The new session has the next number.
  have hsession : ∀ s, Function.update p.session p.opened .new s =
      if s = p.opened then .new else p.session s := fun s => by
    by_cases hs : s = p.opened <;> simp [Function.update, hs]
  constructor
  case lent =>
    intro v s hv
    obtain ⟨hlt, hidle, -⟩ := h.lent v s hv
    refine ⟨Nat.lt_succ_of_lt hlt, hidle, fun hhand => ?_⟩
    cases hhand
    exact Nat.lt_irrefl _ hlt
  case alone => exact h.alone
  case idle =>
    intro s hs
    refine ⟨Nat.lt_succ_of_lt (h.idle s hs).1, fun hhand => ?_⟩
    cases hhand
    exact Nat.lt_irrefl _ (h.idle _ hs).1
  case nodup => exact h.nodup
  case bound => exact h.bound
  case kept =>
    intro s hs hopen
    -- Of the sessions that were there nothing has changed.
    rcases Nat.lt_succ_iff_lt_or_eq.mp hs with hlt | rfl
    · have hopen : (Function.update p.session p.opened .new s).isClosed = false := hopen
      rw [hsession, if_neg (Nat.ne_of_lt hlt)] at hopen
      exact (h.kept s hlt hopen).imp_right (.imp_right fun hhand => by cases hhand)
    · exact .inr (.inr rfl)
  case whole =>
    intro s hopen hmid
    have hopen : (Function.update p.session p.opened .new s).isClosed = false := hopen
    have hmid : (Function.update p.session p.opened .new s).midway = true := hmid
    rw [hsession] at hopen hmid
    split at hmid
    · cases hmid
    · rename_i hne
      rw [if_neg hne] at hopen
      exact (h.whole s hopen hmid).imp_right fun hhand => by cases hhand
  case unopened =>
    intro s hs
    show (Function.update p.session p.opened .new s).midway = false
    rw [hsession]
    split
    · rfl
    · exact h.unopened s (Nat.le_of_succ_le hs)
  case hand_lt =>
    intro s hs
    cases hs
    exact Nat.lt_succ_self _

/-- A session that was opened is the task's. -/
theorem Sound.connected (h : p.Sound none) {left : Nat} (hconn : p.tasks u = .connecting left)
    (r : Opened) : (p.connected u left r).Sound none := by
  have hstay : ∀ b : Borrower, b.session = none → (p.setTask u b).Sound none := fun b hb =>
    h.setTask (by rw [hb, hconn]; rfl) (by simp [hconn, Borrower.isCut])
  cases r with
  | timeout | otherError | cancelled => exact hstay _ rfl
  | operationalError code =>
      simp only [MySQL.connected]
      split
      · cases left with
        | zero => exact hstay _ rfl
        | succ left => exact hstay _ rfl
      · exact hstay _ rfl
  | opened =>
      refine h.open.give (by simp [hconn, Borrower.session]) fun _ => ?_
      simp [Function.update, MySQLSession.new]

/-- A statement ends, and the task keeps its session. -/
theorem Sound.result (h : p.Sound none) {cut : Bool} (htask : p.tasks u = .statement s cut)
    (o : MySQLSession.Outcome) :
    ((p.modifySession s (·.run o)).setTask u (.body s (cut || o = .cancelled))).Sound none := by
  have hcut : (p.setTask u (.body s (cut || o = .cancelled))).Sound none :=
    h.setTask (by simp [htask, Borrower.session])
      (by simp [htask, Borrower.isCut]; exact fun hc => .inl hc)
  have hu : (p.setTask u (.body s (cut || o = .cancelled))).Has u s := by
    simp [has_setTask, Borrower.session]
  show ((p.setTask u (.body s (cut || o = .cancelled))).modifySession s (·.run o)).Sound none
  refine hcut.modifySession (fun ho => ?_) (fun hmid ho => ?_) fun hle => ?_
  · by_contra hclosed
    have hclosed : (p.session s).isClosed = true := by simpa [isClosed] using hclosed
    exact absurd (isClosed_run hclosed) (Bool.eq_false_iff.mp ho)
  · refine (midway_run ho hmid).imp_right fun ho => ⟨u, hu, ?_⟩
    rw [isCut_setTask, if_pos rfl]
    simp [Borrower.isCut, ho]
  · exact absurd (hcut.lent u s hu).1 (Nat.not_lt.mpr hle)

/-- A task that leaves gives its session back, or closes it. -/
theorem Sound.leave (h : p.Sound none) {cut ok : Bool} (htask : p.tasks u = .body s cut)
    (hok : ok = true → cut = false) : (p.leave u s ok).Sound none := by
  have hu : p.Has u s := by simp [Has, htask, Borrower.session]
  have hhand := h.take hu
  unfold MySQL.leave
  split
  · rename_i hput
    simp only [Bool.and_eq_true, Bool.not_eq_true', decide_eq_true_eq] at hput
    refine hhand.put hput.2 ?_
    by_contra hmid
    rcases h.whole s hput.1.2 (by simpa using hmid) with ⟨v, hv, hcut⟩ | hno
    · obtain rfl := h.alone v u s hv hu
      simp [htask, Borrower.isCut, hok hput.1.1] at hcut
    · cases hno
  · exact hhand.close

/-- The idle sessions are dropped. -/
theorem Sound.dropIdle (h : p.Sound none) : p.dropIdle.Sound none := by
  have hsession : ∀ s, p.dropIdle.session s =
      if s ∈ p.idle then (p.session s).close else p.session s := fun _ => rfl
  have hopen : ∀ s, p.dropIdle.isClosed s = false → s ∉ p.idle ∧ p.isClosed s = false := by
    intro s hs
    rw [isClosed, hsession] at hs
    split at hs
    · simp [MySQLSession.close, MySQLSession.isClosed] at hs
    · rename_i hidle
      exact ⟨hidle, hs⟩
  refine ⟨fun v s hv => ⟨(h.lent v s hv).1, List.not_mem_nil, by simp⟩, h.alone,
    fun s hs => absurd hs List.not_mem_nil, .nil, Nat.zero_le _, fun s hs ho => ?_,
    fun s ho hm => ?_, fun s hs => ?_, by simp⟩
  · exact .inr ((h.kept s hs (hopen s ho).2).resolve_left (hopen s ho).1)
  · rw [hsession, if_neg (hopen s ho).1] at hm
    exact h.whole s (hopen s ho).2 hm
  · rw [hsession]
    split
    · exact h.unopened s hs
    · exact h.unopened s hs

/-- Every move of a disciplined task keeps the pool sound. -/
theorem Sound.step {m : Move} (h : p.Sound none) (hok : p.Disciplined m)
    (hstep : p.step m = some p') : p'.Sound none := by
  -- Every move hands a session over, or changes the one that its task has.
  cases m with
  | enter u =>
      obtain ⟨hout, heq⟩ := Option.ite_none_right_eq_some.mp hstep
      cases heq
      exact h.enter hout
  | connected u r =>
      simp only [MySQL.step] at hstep
      split at hstep
      · rename_i hconn
        cases hstep
        exact h.connected hconn r
      · cases hstep
  -- A statement is sent on the task's own session.
  | send u =>
      simp only [MySQL.step] at hstep
      split at hstep
      · rename_i s cut hbody
        cases hstep
        split
        · exact h
        · exact h.setTask (by simp [hbody, Borrower.session]) (by simp [hbody, Borrower.isCut])
      · cases hstep
  | result u o =>
      simp only [MySQL.step] at hstep
      split at hstep
      · rename_i htask
        cases hstep
        exact h.result htask o
      · cases hstep
  -- A body that was cut does not end well, by the discipline.
  | leave u ok =>
      simp only [MySQL.step] at hstep
      split at hstep
      · rename_i s cut hbody
        cases hstep
        refine h.leave hbody fun ho => ?_
        have := hok ho
        rwa [hbody] at this
      · cases hstep
  | lose s =>
      cases hstep
      refine h.modifySession (fun ho => ?_) (fun hm _ => .inl hm) fun hle => h.unopened s hle
      simp [MySQLSession.isClosed] at ho
  | dropIdle =>
      cases hstep
      exact h.dropIdle

/-- A new session does not change the bound. -/
theorem maxIdle_connected {left : Nat} (r : Opened) :
    (p.connected u left r).maxIdle = p.maxIdle := by
  cases r with
  | operationalError code =>
      simp only [connected]
      split
      · cases left <;> rfl
      · rfl
  | _ => rfl

/-- No move changes `max_idle`. -/
theorem maxIdle_step {m : Move} (hstep : p.step m = some p') : p'.maxIdle = p.maxIdle := by
  cases m with
  -- Taking a session from the pool or opening one leaves the bound.
  | enter u =>
      obtain ⟨-, heq⟩ := Option.ite_none_right_eq_some.mp hstep
      cases heq
      simp only [enter]
      split <;> rfl
  | connected u r =>
      simp only [MySQL.step] at hstep
      split at hstep
      · cases hstep
        exact maxIdle_connected r
      · cases hstep
  | send u =>
      simp only [MySQL.step] at hstep
      split at hstep
      · cases hstep
        split <;> rfl
      · cases hstep
  | result u o =>
      simp only [MySQL.step] at hstep
      split at hstep
      · cases hstep
        rfl
      · cases hstep
  -- Leaving returns the session or closes it.
  | leave u ok =>
      simp only [MySQL.step] at hstep
      split at hstep
      · cases hstep
        simp only [leave]
        split <;> rfl
      · cases hstep
  | lose s | dropIdle =>
      cases hstep
      rfl

end

/-! ### Whole runs -/

/-- A new pool is sound. -/
theorem sound_new (fallback : Bool) (maxIdle : Nat) : (new fallback maxIdle).Sound none where
  lent _ _ h := by cases h
  alone _ _ _ h := by cases h
  idle _ h := absurd h List.not_mem_nil
  nodup := .nil
  bound := Nat.zero_le _
  kept _ h := absurd h (Nat.not_lt_zero _)
  whole _ _ h := by cases h
  unopened _ _ := rfl
  hand_lt _ h := by cases h

/-- The sessions that are open. -/
def openSessions (p : MySQL) : Finset Nat :=
  (Finset.range p.opened).filter fun s => p.isClosed s = false

/-- An open session is idle or lent, so there are only so many. -/
theorem Sound.card_openSessions_le {p : MySQL} (h : p.Sound none) {us : Finset Nat}
    (hus : ∀ u, p.tasks u ≠ .outside → u ∈ us) :
    p.openSessions.card ≤ p.maxIdle + us.card := by
  have hsub : p.openSessions ⊆
      p.idle.toFinset ∪ us.image fun u => (p.tasks u).session.getD 0 := by
    intro s hs
    obtain ⟨hlt, hopen⟩ := Finset.mem_filter.mp hs
    rcases h.kept s (Finset.mem_range.mp hlt) hopen with hidle | ⟨u, hu⟩ | hhand
    · exact Finset.mem_union_left _ (List.mem_toFinset.mpr hidle)
    · have hin : u ∈ us := hus u fun hout => by simp [Has, hout, Borrower.session] at hu
      exact Finset.mem_union_right _ (Finset.mem_image.mpr ⟨u, hin, by rw [hu]; rfl⟩)
    · cases hhand
  calc p.openSessions.card
      ≤ (p.idle.toFinset ∪ us.image fun u => (p.tasks u).session.getD 0).card :=
        Finset.card_le_card hsub
    _ ≤ p.idle.toFinset.card + (us.image fun u => (p.tasks u).session.getD 0).card :=
        Finset.card_union_le _ _
    _ ≤ p.maxIdle + us.card :=
        Nat.add_le_add ((List.toFinset_card_le _).trans h.bound) Finset.card_image_le

/-- In a disciplined run the pool is sound. -/
theorem sound_of_reach {fallback : Bool} {maxIdle : Nat} {p : MySQL}
    (hrun : Reach step Disciplined (new fallback maxIdle) p) :
    p.Sound none ∧ p.maxIdle = maxIdle :=
  hrun.invariant (I := fun p => p.Sound none ∧ p.maxIdle = maxIdle)
    ⟨sound_new fallback maxIdle, rfl⟩
    fun _ _ _ _ h hok hstep => ⟨h.1.step hok hstep, (maxIdle_step hstep).trans h.2⟩

/-- The pool lends a session to one task at a time, and never one whose last answer is unread.
No open session is forgotten: at most `max_idle` and one for each task in `session()` are open. -/
theorem lends_apart {fallback : Bool} {maxIdle : Nat} {p : MySQL}
    (hrun : Reach step Disciplined (new fallback maxIdle) p) :
    (∀ u s, p.Has u s → s ∉ p.idle ∧ ∀ v, p.Has v s → v = u) ∧
    (∀ u s, p.tasks u = .body s false → p.isClosed s = false →
      (p.session s).midway = false) ∧
    ∀ us : Finset Nat, (∀ u, p.tasks u ≠ .outside → u ∈ us) →
      p.openSessions.card ≤ maxIdle + us.card := by
  obtain ⟨h, rfl⟩ := sound_of_reach hrun
  refine ⟨fun u s hu => ⟨(h.lent u s hu).2.1, fun v hv => h.alone v u s hv hu⟩,
    fun u s hbody hopen => ?_, fun us hus => h.card_openSessions_le hus⟩
  by_contra hmid
  rcases h.whole s hopen (by simpa using hmid) with ⟨v, hv, hcut⟩ | hhand
  · -- the task whose body is cut is this one, and its body is not
    obtain rfl := h.alone v u s hv (by simp [Has, hbody, Borrower.session])
    simp [hbody, Borrower.isCut] at hcut
  · cases hhand

/-- Task 0 is cancelled in a statement and its session is closed. Task 1 gives its own back, and
task 2 gets that one. -/
def cancelledMoves : List Move :=
  [.enter 0, .connected 0 (.operationalError (some accessDenied)), .connected 0 .opened,
    .enter 1, .connected 1 .opened, .send 0, .result 0 .cancelled, .send 1, .result 1 .answer,
    .leave 0 false, .leave 1 true, .enter 2, .send 2]

/-- After the cancelled statement no session is lent twice. -/
theorem lends_apart_cancelled :
    let p := Machine.run step (new true 4) cancelledMoves
    (1 ∉ p.idle ∧ ∀ v, p.Has v 1 → v = 2) ∧ p.openSessions.card ≤ 4 + 3 :=
  have h := lends_apart (p := Machine.run step (new true 4) cancelledMoves)
    (Machine.reach_run_of_obeys (by decide +kernel) (by decide +kernel))
  ⟨h.1 2 1 rfl, h.2.2 (Finset.range 3) fun u hu => by
    match u with
    | 0 | 1 | 2 => decide
    | u + 3 => exact absurd rfl hu⟩

end DbGuard.MySQL
