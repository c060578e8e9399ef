import DbGuard.Coop.Frame
import DbGuard.Proofs.Agent.Script
import DbGuard.Proofs.Agent.Words

/-!
# `DbGuard.Proofs.Agent.Fenced`: a fence that has answered

`fence` takes only the fence lock, so the statements of a promote fall between its steps and
after its answer. Its KILLs end the sessions that are open when it lists the client threads. A
promote that has read the answer of its last SET by then needs no session to clear the flag, and
one that connects afterwards makes mysqld writable behind the fence.

`unopposed` says that nothing of this kind is left when the fence answers, and `Undisturbed`
that nothing of it got in between the SET of the fence and its answer. Then the node stays
fenced until a promote, an unfence or a rebuild arrives.

`Minds` is what a segment of any task does to the flag, to mysqld, and to the sessions and
statements of the others. A promote goes through `Phase`, a fence from `held` over `flagged` to
`closed`.
-/

set_option autoImplicit false

namespace DbGuard

namespace Agent

open Coop (Prog Pool Move World Contract Triple Assertion Outcome Adds Grows frame own)

/-! ### The condition -/

/-- The requests that can end a fence. -/
def Job.lifts : Job → Bool
  | .promote | .unfence | .rebuild _ => true
  | .fence | .repoint _ | .configure _ => false

/-- The request is a rebuild. -/
def Job.rebuilds : Job → Bool
  | .rebuild _ => true
  | _ => false

/-- By this change mysqld executes a statement that makes it writable. -/
def opens (s : Agent) : Update → Bool
  | .execute t _ => (s.calls t).any (·.stmt.opens)
  | .land k => (s.late[k]?).any (·.stmt.opens)
  | _ => false

/-- Task `t` reads that its SET of super_read_only=1 is done, or waits for the killed mysqld to
exit. -/
def shuts (t : Nat) : Coop.Event sig → Bool
  | .answered t' (.sql (.superReadOnly true)) a => t' = t && Except.isOk (a : Except Failure Row)
  | .issued t' _ .waitExit _ => t' = t
  | _ => false

/-- mysqld has executed the SET of super_read_only=1 of task `t`, or the task has killed it. -/
def shut (w : World sig) (t : Nat) : Bool :=
  w.log.any (shuts t) ||
    (w.state.calls t).any fun c => c.stmt = .superReadOnly true && c.row.isSome

/-- This is the request of task `t`. -/
def does (jobs : List Job) (t : Nat) (j : Job) : Bool := jobs[t]? = some j

/-- A fence holds its lock, and its SET or its kill is done. -/
def shutting (w : World sig) : Bool :=
  (w.state.locks .fence).owner.any fun t => does w.jobs t .fence && shut w t

/-- From there to its answer, mysqld executes nothing that makes it writable. -/
def Undisturbed (p : Pool sig) (m : Move sig) (_ : Pool sig) : Prop :=
  match m with
  | .outside u => shutting p.world = true → p.world.state.opens u = false
  | _ => True

instance (p : Pool sig) (m : Move sig) (p' : Pool sig) : Decidable (Undisturbed p m p') :=
  match m with
  | .outside _ => inferInstanceAs (Decidable (shutting p.world = true → _ = false))
  | .start _ | .answer _ _ | .wake _ | .arrive _ | .land _ _ | .resend _ _ =>
    isTrue trivial

/-- fence() answers 200. -/
def answersFence : Coop.Event sig → Bool
  | .issued _ .fence (.reply 200) _ => true
  | _ => false

/-- A fence() answers 200 in the step from `p` to `p'`. -/
def fenceAnswered (p p' : Pool sig) : Bool :=
  (p'.world.log.drop p.world.log.length).any answersFence

/-- The sessions of task `t`. -/
def mine (s : Agent) (t : Nat) : List (Nat × SessionId) := s.sessions.filter (·.2.task = t)

/-- mysqld executes nothing more that was sent on this session: it was opened to an earlier
start of mysqld or to one that is down, or it was killed. -/
def dead (s : Agent) (x : Nat × SessionId) : Bool :=
  x.1 < s.mysqld.gen || x.1 = s.mysqld.gen && (!s.mysqld.up || x.2 ∈ s.mysqld.killed)

/-- Task `t` answers, or it is a promote that has cleared the flag and takes its sample. -/
def isThrough (t : Nat) : Coop.Event sig → Bool
  | .issued t' _ (.reply _) _ => t' = t
  | .issued t' .promote .sample _ => t' = t
  | _ => false

/-- Task `t` reads that its SET of super_read_only=0 is done. -/
def hasOpened (t : Nat) : Coop.Event sig → Bool
  | .answered t' (.sql (.superReadOnly false)) a => t' = t && Except.isOk (a : Except Failure Row)
  | _ => false

/-- Task `t` has lost its session before mysqld executed its SET of super_read_only=0. -/
def stranded (w : World sig) (t : Nat) : Bool :=
  !(w.state.mine t).isEmpty && (w.state.mine t).all w.state.dead &&
    !w.log.any (hasOpened t) && (w.state.calls t).all fun c => !c.stmt.opens || c.row.isNone

/-- Task `t` has done its worst. It has answered, or it is a promote that has cleared the flag
or will not get to it: it has lost its session, or its deadline has passed while it waits for
the fence lock. -/
def spent (w : World sig) (t : Nat) : Bool :=
  w.log.any (isThrough t) || (does w.jobs t .promote &&
    (stranded w t || w.log.any (hasOpened t) && t ∈ w.state.expired))

/-- Each request in progress that can end a fence has done its worst, and no SET of
super_read_only=0 that was given up can reach mysqld. -/
def unopposed (p : Pool sig) : Bool :=
  (List.range p.world.jobs.length).all (fun t =>
    (p.world.jobs[t]?).all fun j => !Job.lifts j || spent p.world t) &&
    p.world.state.late.all fun c => !c.stmt.opens || p.world.state.dead (c.gen, c.session)

/-- The task has ended. -/
def ended : Option (M Unit) → Bool
  | some (.done _) => true
  | _ => false

/-- A rebuild is in progress. -/
def rebuildRuns (p : Pool sig) : Bool :=
  (List.range p.world.jobs.length).any fun t =>
    (p.world.jobs[t]?).any Job.rebuilds && !ended (p.progs t)

/-- No request that can end a fence arrives. -/
def Move.lifts : Move sig → Bool
  | .arrive j => Job.lifts j
  | _ => false

/-- An agent that has opened no session and sent no statement yet. -/
structure Unused (s : Agent) : Prop where
  calls : ∀ t, s.calls t = none
  sessions : s.sessions = []
  owner : (s.locks .fence).owner = none

/-! ### What is spent stays so -/

section
variable {t : Nat} {s s' : Agent} {w w' : World sig} {x : Nat × SessionId}

/-- A dead session belongs to an earlier start, or to one that is down, or it was killed. -/
theorem dead_iff : s.dead x = true ↔
    x.1 < s.mysqld.gen ∨ x.1 = s.mysqld.gen ∧ (s.mysqld.up = false ∨ x.2 ∈ s.mysqld.killed) := by
  simp [dead]

/-- What it is to be stranded, spelled out. -/
theorem stranded_iff : stranded w t = true ↔ w.state.mine t ≠ [] ∧
    (∀ x ∈ w.state.mine t, w.state.dead x = true) ∧ w.log.any (hasOpened t) = false ∧
      ∀ c, w.state.calls t = some c → c.stmt.opens = true → c.row = none := by
  simp only [stranded, Bool.and_eq_true, Bool.not_eq_true', List.isEmpty_eq_false_iff,
    List.all_eq_true, and_assoc]
  refine and_congr_right fun _ => and_congr_right fun _ => and_congr_right fun _ => ?_
  cases hc : w.state.calls t with
  | none => simp
  | some c => cases hop : c.stmt.opens <;> simp [hop]

/-- A request is that of its task. -/
theorem does_iff {jobs : List Job} {j : Job} : does jobs t j = true ↔ jobs[t]? = some j :=
  decide_eq_true_iff

/-- What it is to be spent, spelled out. -/
theorem spent_iff : spent w t = true ↔ w.log.any (isThrough t) = true ∨
    w.jobs[t]? = some .promote ∧ (stranded w t = true ∨
      w.log.any (hasOpened t) = true ∧ t ∈ w.state.expired) := by
  rw [spent, Bool.or_eq_true, Bool.and_eq_true]
  refine or_congr_right (and_congr does_iff ?_)
  simp only [Bool.or_eq_true, Bool.and_eq_true, decide_eq_true_eq]

/-- mysqld comes no nearer to a dead session. -/
theorem dead_of_le (hgen : s.mysqld.gen ≤ s'.mysqld.gen)
    (hsame : s'.mysqld.gen = s.mysqld.gen →
      (s.mysqld.up = false → s'.mysqld.up = false) ∧ s.mysqld.killed ⊆ s'.mysqld.killed)
    (h : s.dead x = true) : s'.dead x = true := by
  rw [dead_iff] at h ⊢
  rcases h with h | ⟨h, hwhy⟩
  · exact .inl (Nat.lt_of_lt_of_le h hgen)
  · rcases Nat.eq_or_lt_of_le hgen with heq | hlt
    · obtain ⟨hup, hkilled⟩ := hsame heq.symm
      exact .inr ⟨h.trans heq, hwhy.imp hup (@hkilled _)⟩
    · exact .inl (h ▸ hlt)

/-- A mysqld that is the same, or the same but down or restarted, leaves a dead session dead. -/
theorem dead_of_mysqld (h : s'.mysqld = s.mysqld ∨ s'.mysqld = { s.mysqld with up := false })
    (hx : s.dead x = true) : s'.dead x = true := by
  refine dead_of_le ?_ (fun _ => ⟨fun hup => ?_, ?_⟩) hx
  · rcases h with h | h <;> rw [h]
  · rcases h with h | h <;> rw [h]
    exact hup
  · rcases h with h | h <;> rw [h]
    · exact List.Subset.refl _
    · exact List.Subset.refl _

/-- A statement that mysqld executes leaves it dead, too. -/
theorem dead_exec (m : Mysqld) (q : Stmt) (hm : s.mysqld = m) (hm' : s'.mysqld = m.exec q)
    (h : s.dead x = true) : s'.dead x = true := by
  subst hm
  refine dead_of_le (by rw [hm', Mysqld.gen_exec]) (fun _ => ⟨fun hup => ?_, ?_⟩) h
  · rw [hm']
    cases q <;> exact hup
  · rw [hm']
    cases q with
    | kill id => exact List.subset_cons_self _ _
    | _ => exact List.Subset.refl _

/-- What keeps a spent task spent. -/
theorem spent_of (hjobs : w'.jobs[t]? = w.jobs[t]?)
    (hover : w.log.any (isThrough t) = true → w'.log.any (isThrough t) = true)
    (hopened : w.log.any (hasOpened t) = true → w'.log.any (hasOpened t) = true)
    (hexpired : t ∈ w.state.expired → t ∈ w'.state.expired)
    (hstranded : w.jobs[t]? = some .promote → stranded w t = true → stranded w' t = true)
    (h : spent w t = true) : spent w' t = true := by
  rw [spent_iff] at h ⊢
  refine h.imp hover fun ⟨hj, hwhy⟩ => ⟨hjobs.trans hj, ?_⟩
  exact hwhy.imp (hstranded hj) fun ⟨ho, he⟩ => ⟨hopened ho, hexpired he⟩

/-- A task stays stranded while it opens no session and none of its SETs is executed. -/
theorem stranded_of (hmine : w'.state.mine t = w.state.mine t)
    (hdead : ∀ x, w.state.dead x = true → w'.state.dead x = true)
    (hopened : w.log.any (hasOpened t) = false → w'.log.any (hasOpened t) = false)
    (hcalls : (∀ c, w.state.calls t = some c → c.stmt.opens = true → c.row = none) →
      ∀ c, w'.state.calls t = some c → c.stmt.opens = true → c.row = none)
    (h : stranded w t = true) : stranded w' t = true := by
  rw [stranded_iff] at h ⊢
  rw [hmine]
  exact ⟨h.1, fun x hx => hdead x (h.2.1 x hx), hopened h.2.2.1, hcalls h.2.2.2⟩

/-- The event by which a task is through is its own. -/
theorem isBy_of_isThrough {e : Coop.Event sig} (h : isThrough t e = true) : e.isBy t = true := by
  unfold isThrough at h
  split at h
  · exact h
  · exact h
  · cases h

/-- So is the answer of its SET of super_read_only=0. -/
theorem isBy_of_hasOpened {e : Coop.Event sig} (h : hasOpened t e = true) : e.isBy t = true := by
  unfold hasOpened at h
  split at h
  · exact (Bool.and_eq_true_iff.mp h).1
  · cases h

/-- So is that of its SET of super_read_only=1, and the wait for the exit. -/
theorem isBy_of_shuts {e : Coop.Event sig} (h : shuts t e = true) : e.isBy t = true := by
  unfold shuts at h
  split at h
  · exact (Bool.and_eq_true_iff.mp h).1
  · exact h
  · cases h

/-- What a log says of task `t` is in the steps of the task. -/
theorem any_own {f : Coop.Event sig → Bool} (hf : ∀ e, f e = true → e.isBy t = true)
    (l : List (Coop.Event sig)) : l.any f = (own t l).any f := by
  rw [Bool.eq_iff_iff, List.any_eq_true, List.any_eq_true]
  constructor
  · rintro ⟨e, he, hfe⟩
    exact ⟨e, List.mem_filter.mpr ⟨he, hf e hfe⟩, hfe⟩
  · rintro ⟨e, he, hfe⟩
    exact ⟨e, Coop.mem_of_mem_own he, hfe⟩

/-- Events of its own are found by a look at its part of the log. -/
theorem any_of_own {f : Coop.Event sig → Bool} (hf : ∀ e, f e = true → e.isBy t = true)
    {l l' : List (Coop.Event sig)} (h : own t l' = own t l) : l'.any f = l.any f := by
  rw [any_own hf, any_own hf l, h]

/-- For what another task sees of a segment or of a change from outside. -/
theorem spent_of_grows (hg : Grows t w w') (hlt : t < w.jobs.length)
    (hmine : w'.state.mine t = w.state.mine t)
    (hdead : ∀ x, w.state.dead x = true → w'.state.dead x = true)
    (hexpired : t ∈ w.state.expired → t ∈ w'.state.expired)
    (hcalls : (∀ c, w.state.calls t = some c → c.stmt.opens = true → c.row = none) →
      ∀ c, w'.state.calls t = some c → c.stmt.opens = true → c.row = none)
    (h : spent w t = true) : spent w' t = true := by
  have hjobs : w'.jobs[t]? = w.jobs[t]? := by
    rw [List.getElem?_eq_getElem hlt]
    exact hg.job (List.getElem?_eq_getElem hlt)
  have hopened := any_of_own (fun _ => isBy_of_hasOpened) hg.own
  exact spent_of hjobs (any_of_own (fun _ => isBy_of_isThrough) hg.own).trans hopened.trans
    hexpired (fun _ => stranded_of hmine hdead hopened.trans hcalls) h

end

/-! ### What a segment does -/

/-- What a segment of task `t` with job `j` does to mysqld, to the flag, and to the lock, the
statements and the sessions of the others. -/
structure Minds (t : Nat) (j : Job) (w₀ w : World sig) : Prop where
  jobs : w.jobs = w₀.jobs
  mysqld : w.state.mysqld = w₀.state.mysqld ∨
    w.state.mysqld = { w₀.state.mysqld with up := false }
  held : ∀ t', t' ≠ t → (w₀.state.locks .fence).owner = some t' →
    (w.state.locks .fence).owner = some t' ∧ w.state.fenced = w₀.state.fenced
  taken : ∀ t', t' ≠ t → (w.state.locks .fence).owner = some t' →
    (w₀.state.locks .fence).owner = some t'
  calls : ∀ t', t' ≠ t → w.state.calls t' = w₀.state.calls t'
  mine : ∀ t', t' ≠ t → w.state.mine t' = w₀.state.mine t'
  late : ∀ c ∈ w.state.late, c ∈ w₀.state.late ∨ w₀.state.calls t = some c
  expired : w.state.expired = w₀.state.expired
  flag : j.lifts = false ∨ spent w₀ t = true → w₀.state.fenced = true → w.state.fenced = true
  spent : spent w₀ t = true → spent w t = true

/-- mysqld gets writable by no segment. -/
theorem Minds.writable {t : Nat} {j : Job} {w₀ w : World sig} (h : Minds t j w₀ w)
    (hw : w₀.state.mysqld.writable = false) : w.state.mysqld.writable = false := by
  rcases h.mysqld with h1 | h1
  · rw [h1]
    exact hw
  · rw [h1]
    exact Mysqld.writable_down _

/-- Task `t` may have the SET of super_read_only=0 on its way. -/
structure Lifting (t : Nat) (w : World sig) (c : Call) : Prop where
  lifts : ∃ j, w.jobs[t]? = some j ∧ j.lifts = true
  unanswered : w.log.any (isThrough t) = false
  promote : w.jobs[t]? = some .promote →
    w.log.any (hasOpened t) = false ∧ (c.gen, c.session) ∈ w.state.mine t

/-- What holds between any two segments. -/
structure Sane (w : World sig) : Prop where
  said : ∀ t c, w.state.calls t = some c → c.stmt.opens = true → Lifting t w c
  shut : ∀ t, (w.state.locks .fence).owner = some t → does w.jobs t .fence = true →
    shut w t = true → w.state.mysqld.writable = false
  new : ∀ t, w.jobs.length ≤ t →
    w.state.calls t = none ∧ w.state.mine t = [] ∧ (w.state.locks .fence).owner ≠ some t

/-- What a suspended task can rely on. -/
structure Waits (t : Nat) (w w' : World sig) : Prop where
  held : (w.state.locks .fence).owner = some t →
    (w'.state.locks .fence).owner = some t ∧ w'.state.fenced = w.state.fenced
  away : (w.state.locks .fence).owner ≠ some t → (w'.state.locks .fence).owner ≠ some t
  call : ∀ c, w.state.calls t = some c → ∃ row, w'.state.calls t = some { c with row }
  idle : w.state.calls t = none → w'.state.calls t = none
  mine : w'.state.mine t = w.state.mine t

/-- What a segment of task `t` does. -/
structure Works (t : Nat) (w₀ w : World sig) : Prop where
  minds : ∃ j, w₀.jobs[t]? = some j ∧ Minds t j w₀ w
  said : ∀ c, w.state.calls t = some c → c.stmt.opens = true → Lifting t w c
  shut : (w.state.locks .fence).owner = some t → does w.jobs t .fence = true →
    shut w t = true → w.state.mysqld.writable = false
  answers : (w.log.drop w₀.log.length).any answersFence = true →
    w.state.fenced = true ∧ w.state.mysqld.writable = false

/-- A fence is not disturbed by the other tasks. -/
def fencing : Contract sig where
  inv := Sane
  rely := Waits
  allowed _ _ _ := True
  answers t w r a := w.state.answers t r a = true
  may := Works
  pre t _ w := w.state.calls t = none ∧ w.state.mine t = [] ∧
    (w.state.locks .fence).owner ≠ some t

section
variable {t t' : Nat} {w w' w₀ : World sig}

/-- Nothing happens. -/
theorem Waits.refl : Waits t w w where
  held h := ⟨h, rfl⟩
  away h := h
  call c h := ⟨c.row, h⟩
  idle h := h
  mine := rfl

/-- What a suspended task relies on holds over several moves. -/
theorem Waits.trans {w₁ w₂ w₃ : World sig} (h : Waits t w₁ w₂) (h' : Waits t w₂ w₃) :
    Waits t w₁ w₃ where
  held hown := by
    obtain ⟨h1, h2⟩ := h.held hown
    obtain ⟨h3, h4⟩ := h'.held h1
    exact ⟨h3, h4.trans h2⟩
  away hne := h'.away (h.away hne)
  call c hc := by
    obtain ⟨row, hrow⟩ := h.call c hc
    exact h'.call { c with row } hrow
  idle hn := h'.idle (h.idle hn)
  mine := h'.mine.trans h.mine

/-- A segment of another task. -/
theorem Works.waits (hne : t ≠ t') (h : Works t w₀ w) : Waits t' w₀ w := by
  obtain ⟨j, -, hm⟩ := h.minds
  have hne' : t' ≠ t := Ne.symm hne
  exact ⟨hm.held t' hne', fun haway hown => haway (hm.taken t' hne' hown),
    fun c hc => ⟨c.row, (hm.calls t' hne').trans hc⟩, (hm.calls t' hne').trans, hm.mine t' hne'⟩

/-- What another task has done is not touched by a segment. -/
theorem shut_of_segment (hg : Grows t' w₀ w) (hcalls : w.state.calls t' = w₀.state.calls t') :
    shut w t' = shut w₀ t' := by
  rw [shut, shut, any_of_own (fun _ => isBy_of_shuts) hg.own, hcalls]

/-- A statement on its way stays one while the task only adds to the log. -/
theorem Lifting.grow {c : Call} (h : Lifting t w₀ c) (hg : Grows t w₀ w)
    (hmine : w.state.mine t = w₀.state.mine t) : Lifting t w c := by
  obtain ⟨j, hj, hl⟩ := h.lifts
  refine ⟨⟨j, hg.job hj, hl⟩, (any_of_own (fun _ => isBy_of_isThrough) hg.own).trans h.unanswered,
    fun hp => ?_⟩
  have hp₀ : w₀.jobs[t]? = some .promote := by
    rw [hg.job hj] at hp
    rw [hj, hp]
  obtain ⟨ho, hm⟩ := h.promote hp₀
  exact ⟨(any_of_own (fun _ => isBy_of_hasOpened) hg.own).trans ho, hmine ▸ hm⟩

/-- A segment that works leaves the world sane. -/
theorem Works.sane (hs : Sane w₀) (ha : Adds t w₀ w) (h : Works t w₀ w) : Sane w := by
  obtain ⟨j, hj, hm⟩ := h.minds
  refine ⟨fun t' c hc hop => ?_, fun t' hown hfence hshut => ?_, fun t' ht' => ?_⟩
  · by_cases hne : t' = t
    · subst hne
      exact h.said c hc hop
    · rw [hm.calls t' hne] at hc
      exact (hs.said t' c hc hop).grow (ha.grows (Ne.symm hne)) (hm.mine t' hne)
  · by_cases hne : t' = t
    · subst hne
      exact h.shut hown hfence hshut
    · rw [shut_of_segment (ha.grows (Ne.symm hne)) (hm.calls t' hne)] at hshut
      rw [hm.jobs] at hfence
      exact hm.writable (hs.shut t' (hm.taken t' hne hown) hfence hshut)
  · rw [hm.jobs] at ht'
    have hne : t' ≠ t := Nat.ne_of_gt (Nat.lt_of_lt_of_le ha.lt ht')
    obtain ⟨hcalls, hmine, hown⟩ := hs.new t' ht'
    exact ⟨(hm.calls t' hne).trans hcalls, (hm.mine t' hne).trans hmine,
      fun h => hown (hm.taken t' hne h)⟩

/-! ### Changes from outside -/

/-- A change from outside leaves the locks, the flag and the sessions alone. -/
structure Passes (s s' : Agent) : Prop where
  locks : s'.locks = s.locks
  fenced : s'.fenced = s.fenced
  sessions : s'.sessions = s.sessions
  call : ∀ t c, s.calls t = some c → ∃ row, s'.calls t = some { c with row }
  idle : ∀ t, s.calls t = none → s'.calls t = none
  dead : ∀ x, s.dead x = true → s'.dead x = true
  expired : s.expired ⊆ s'.expired

/-- What comes from outside leaves the locks, the flag and the sessions alone. -/
theorem passes_outside {s : Agent} {u : Update} (ho : s.outside u = true) :
    Passes s (u.apply s) := by
  cases u with
  -- The call gets its row; the other calls stay.
  | execute t row =>
      obtain ⟨c, hc, -⟩ := of_outside_execute ho
      have hs : (Update.execute t row).apply s = _ := execute_of_call row hc
      rw [hs]
      refine ⟨rfl, rfl, rfl, fun t' c' hc' => ?_, fun t' hn => ?_,
        fun x => dead_exec _ c.stmt rfl rfl, List.Subset.refl _⟩
      · by_cases ht : t' = t
        · subst ht
          cases hc.symm.trans hc'
          exact ⟨some row, Function.update_self (f := s.calls) _ _⟩
        · exact ⟨c'.row, (Function.update_of_ne ht _ _).trans hc'⟩
      · have ht : t' ≠ t := by
          rintro rfl
          rw [hc] at hn
          cases hn
        exact (Function.update_of_ne ht _ _).trans hn
  -- A statement that was given up belongs to no call.
  | land k =>
      obtain ⟨c, hc, -⟩ := of_outside_land ho
      have hs : (Update.land k).apply s = _ := land_of_late hc
      rw [hs]
      exact ⟨rfl, rfl, rfl, fun t c hc => ⟨c.row, hc⟩, fun _ h => h,
        fun x => dead_exec _ c.stmt rfl rfl, List.Subset.refl _⟩
  -- After a boot the sessions are those of an earlier start, hence dead.
  | boot b =>
      refine ⟨rfl, rfl, rfl, fun t c hc => ⟨c.row, hc⟩, fun _ h => h, fun x => ?_,
        List.Subset.refl _⟩
      refine dead_of_le (Nat.le_succ _) fun heq => ?_
      exact absurd heq (Nat.succ_ne_self _)
  | crash =>
      exact ⟨rfl, rfl, rfl, fun t c hc => ⟨c.row, hc⟩, fun _ h => h,
        fun x => dead_of_mysqld (.inr rfl), List.Subset.refl _⟩
  -- A deadline passes.
  | expire t =>
      exact ⟨rfl, rfl, rfl, fun t c hc => ⟨c.row, hc⟩, fun _ h => h, fun _ h => h,
        List.subset_cons_self _ _⟩
  | disk b =>
      exact ⟨rfl, rfl, rfl, fun t c hc => ⟨c.row, hc⟩, fun _ h => h, fun _ h => h,
        List.Subset.refl _⟩
  | _ => cases ho

/-- The sessions of a task are part of all sessions. -/
theorem mine_of_sessions {s s' : Agent} (h : s'.sessions = s.sessions) (t : Nat) :
    s'.mine t = s.mine t :=
  congrArg (List.filter _) h

/-- It leaves those of every task. -/
theorem Passes.mine {s s' : Agent} (h : Passes s s') (t : Nat) : s'.mine t = s.mine t :=
  mine_of_sessions h.sessions t

/-- A suspended task may rely on that. -/
theorem waits_outside {u : Update} (ho : w.state.outside u = true) : Waits t w (w.edit u) := by
  have h : Passes w.state (w.edit u).state := passes_outside ho
  refine ⟨fun hown => ⟨?_, h.fenced⟩, fun haway => ?_, h.call t, h.idle t, h.mine t⟩
  · rw [h.locks]
    exact hown
  · rw [h.locks]
    exact haway

/-- A fence under its lock with its SET done is shutting. -/
theorem shutting_of (hown : (w.state.locks .fence).owner = some t)
    (hj : does w.jobs t .fence = true) (hs : shut w t = true) : shutting w = true := by
  rw [shutting, hown]
  show (does w.jobs t .fence && shut w t) = true
  rw [hj, hs]
  rfl

/-- mysqld gets writable only by a SET. -/
theorem writable_outside {s : Agent} {u : Update} (ho : s.outside u = true)
    (hu : s.opens u = false) (hw : s.mysqld.writable = false) :
    (u.apply s).mysqld.writable = false := by
  cases u with
  | execute t row =>
      obtain ⟨c, hc, -⟩ := of_outside_execute ho
      have hs : (Update.execute t row).apply s = _ := execute_of_call row hc
      rw [hs]
      exact Mysqld.writable_exec (by simpa [opens, hc] using hu) hw
  | land k =>
      obtain ⟨c, hc, -⟩ := of_outside_land ho
      have hs : (Update.land k).apply s = _ := land_of_late hc
      rw [hs]
      exact Mysqld.writable_exec (by simpa [opens, hc] using hu) hw
  | boot b => exact Mysqld.writable_boot _ b
  | crash => exact Mysqld.writable_down _
  | expire t | disk b => exact hw
  | _ => cases ho

/-- By this change mysqld executes the SET of a fence, or nothing changes for it. -/
theorem shut_outside {u : Update} (ho : w.state.outside u = true) (hs : shut (w.edit u) t = true) :
    shut w t = true ∨ (w.edit u).state.mysqld.writable = false := by
  -- Unless the log has it, the SET was done by this change.
  by_cases hlog : w.log.any (shuts t) = true
  · exact .inl (by rw [shut, hlog, Bool.true_or])
  · cases u with
    | execute t' row =>
        obtain ⟨c, hc, -⟩ := of_outside_execute ho
        have he : (w.edit (.execute t' row)).state = _ := execute_of_call row hc
        -- It was the SET of this task: mysqld is read-only now.
        by_cases ht : t = t'
        · subst ht
          refine .inr ?_
          have hcall : (w.edit (.execute t row)).state.calls t =
              some { c with row := some row } := by
            rw [he]
            exact Function.update_self (f := w.state.calls) _ _
          have hq : c.stmt = .superReadOnly true := by
            rw [shut, hcall] at hs
            have hlog' : (w.edit (.execute t row)).log.any (shuts t) = false :=
              Bool.eq_false_iff.mpr hlog
            rw [hlog', Bool.false_or] at hs
            simpa using hs
          rw [he, hq]
          exact Mysqld.writable_exec_readOnly _
        -- It was another task's, and this call is as it was.
        · refine .inl ?_
          have hcall : (w.edit (.execute t' row)).state.calls t = w.state.calls t := by
            rw [he]
            exact Function.update_of_ne ht _ _
          rw [shut, hcall] at hs
          exact hs
    | land k =>
        obtain ⟨c, hc, -⟩ := of_outside_land ho
        have he : (w.edit (.land k)).state = _ := land_of_late hc
        rw [shut, he] at hs
        exact .inl hs
    | boot b | crash | expire t' | disk b => exact .inl hs
    | _ => cases ho

/-- A statement on its way stays one under what comes from outside. -/
theorem Lifting.spared {u : Update} {c : Call} {row : Option Row}
    (h : Passes w.state (w.edit u).state) (hl : Lifting t w c) :
    Lifting t (w.edit u) { c with row } :=
  ⟨hl.lifts, hl.unanswered, fun hp => ⟨(hl.promote hp).1, by
    rw [h.mine]
    exact (hl.promote hp).2⟩⟩

/-- Between two segments, where the fence is not disturbed. -/
theorem sane_outside {u : Update} (ho : w.state.outside u = true)
    (hu : shutting w = true → w.state.opens u = false) (hs : Sane w) : Sane (w.edit u) := by
  have h : Passes w.state (w.edit u).state := passes_outside ho
  refine ⟨fun t c hc hop => ?_, fun t hown hj hshut => ?_, fun t ht => ?_⟩
  · cases hc₀ : w.state.calls t with
    | none =>
        rw [h.idle t hc₀] at hc
        cases hc
    | some c₀ =>
        obtain ⟨row, hrow⟩ := h.call t c₀ hc₀
        cases hrow.symm.trans hc
        exact (hs.said t c₀ hc₀ hop).spared h
  · rw [h.locks] at hown
    rcases shut_outside ho hshut with hbefore | hw
    · exact writable_outside ho (hu (shutting_of hown hj hbefore)) (hs.shut t hown hj hbefore)
    · exact hw
  · obtain ⟨hcalls, hmine, hown⟩ := hs.new t ht
    refine ⟨h.idle t hcalls, (h.mine t).trans hmine, ?_⟩
    rw [h.locks]
    exact hown

end

/-! ### What a task keeps to -/

/-- What task `t` keeps to in each of its segments, between its statements. -/
structure Minding (t : Nat) (j : Job) (w₀ w : World sig) : Prop where
  started : w₀.jobs[t]? = some j
  minds : Minds t j w₀ w
  idle : w.state.calls t = none
  log : ∃ l, w.log = w₀.log ++ l ∧ l.any answersFence = false

/-- The contracts of the frame and of the fence. -/
abbrev fenceBase : Contract sig := (frame sig).upon fencing

/-- A change by task `t` that clears no flag and touches no session or statement. -/
structure Harmless (t : Nat) (s s' : Agent) : Prop where
  mysqld : s'.mysqld = s.mysqld ∨ s'.mysqld = { s.mysqld with up := false }
  held : ∀ t', t' ≠ t → (s.locks .fence).owner = some t' → (s'.locks .fence).owner = some t'
  taken : ∀ t', t' ≠ t → (s'.locks .fence).owner = some t' → (s.locks .fence).owner = some t'
  calls : s'.calls = s.calls
  sessions : s'.sessions = s.sessions
  late : s'.late = s.late
  expired : s'.expired = s.expired
  fenced : s'.fenced = s.fenced ∨ s'.fenced = true ∧ (s.locks .fence).owner = some t

/-- The changes that are harmless, and when. -/
def Update.minds (t : Nat) (s : Agent) : Update → Prop
  | .enqueue _ _ | .dequeue _ _ | .semisync _ | .rebuilding _ | .hold | .kill => True
  | .acquire l t' => l = .fence → t' = t ∧ (s.locks .fence).owner = none
  | .release l => l = .fence → (s.locks .fence).owner = some t
  | .fenced b => b = true ∧ (s.locks .fence).owner = some t
  | _ => False

section
variable {t : Nat} {j : Job} {s : Agent}

/-- A change of a lock that leaves a fence lock of another task to it, and gives it none. -/
theorem harmless_onLock {l : LockName} {f : Mutex → Mutex}
    (h : l = .fence → ∀ t', t' ≠ t →
      ((s.locks .fence).owner = some t' ↔ (f (s.locks .fence)).owner = some t')) :
    Harmless t s (s.onLock l f) := by
  have hiff : ∀ t', t' ≠ t → ((s.locks .fence).owner = some t' ↔
      ((s.onLock l f).locks .fence).owner = some t') := by
    intro t' hne
    by_cases hl : l = .fence
    · subst hl
      rw [locks_onLock]
      exact h rfl t' hne
    · rw [locks_onLock_of_ne (Ne.symm hl)]
  exact ⟨.inl rfl, fun t' hne => (hiff t' hne).mp, fun t' hne => (hiff t' hne).mpr,
    rfl, rfl, rfl, rfl, .inl rfl⟩

/-- The changes that a task minds are harmless. -/
theorem harmless_apply {u : Update} (hu : u.minds t s) : Harmless t s (u.apply s) := by
  cases u with
  | enqueue l t' =>
      exact harmless_onLock (l := l) (f := fun m => { m with waiters := m.waiters ++ [t'] })
        fun _ _ _ => Iff.rfl
  | dequeue l t' =>
      exact harmless_onLock (l := l) (f := fun m => { m with waiters := m.waiters.erase t' })
        fun _ _ _ => Iff.rfl
  | acquire l t' =>
      refine harmless_onLock (l := l)
        (f := fun m => { owner := some t', waiters := m.waiters.erase t' }) fun hl t'' hne => ?_
      obtain ⟨rfl, hfree⟩ := hu hl
      rw [hfree]
      exact ⟨(fun h => by cases h), fun h => absurd (Option.some.inj h).symm hne⟩
  | release l =>
      refine harmless_onLock (l := l) (f := fun m => { m with owner := none }) fun hl t'' hne => ?_
      rw [hu hl]
      exact ⟨fun h => absurd (Option.some.inj h).symm hne, (fun h => by cases h)⟩
  | fenced b =>
      obtain ⟨rfl, hown⟩ := hu
      exact ⟨.inl rfl, fun _ _ h => h, fun _ _ h => h, rfl, rfl, rfl, rfl, .inr ⟨rfl, hown⟩⟩
  | semisync b | rebuilding b | hold =>
      exact ⟨.inl rfl, fun _ _ h => h, fun _ _ h => h, rfl, rfl, rfl, rfl, .inl rfl⟩
  | kill => exact ⟨.inr rfl, fun _ _ h => h, fun _ _ h => h, rfl, rfl, rfl, rfl, .inl rfl⟩
  | _ => exact hu.elim

end

namespace Minding

variable {t : Nat} {j : Job} {w₀ w w' : World sig}

/-- A segment that has just begun. -/
theorem refl (hj : w.jobs[t]? = some j) (hidle : w.state.calls t = none) : Minding t j w w where
  started := hj
  minds := ⟨rfl, .inl rfl, fun _ _ h => ⟨h, rfl⟩, fun _ _ h => h, fun _ _ => rfl, fun _ _ => rfl,
    fun _ h => .inl h, rfl, fun _ h => h, fun h => h⟩
  idle := hidle
  log := ⟨[], by simp⟩

/-- The task keeps its job. -/
theorem job (h : Minding t j w₀ w) : w.jobs[t]? = some j := by
  rw [h.minds.jobs]
  exact h.started

/-- What the task has said in this segment it had not said before. -/
theorem before {f : Coop.Event sig → Bool} (h : Minding t j w₀ w) (hf : w.log.any f = false) :
    w₀.log.any f = false := by
  obtain ⟨l, hl, -⟩ := h.log
  rw [hl, List.any_append, Bool.or_eq_false_iff] at hf
  exact hf.1

/-- A harmless change. -/
theorem edit {u : Update} (hu : u.minds t w.state) (h : Minding t j w₀ w) :
    Minding t j w₀ (w.edit u) := by
  -- An edit of this task is harmless to what the others have been promised.
  have hk : Harmless t w.state (w.edit u).state := harmless_apply hu
  have hm := h.minds
  have hmine := mine_of_sessions hk.sessions
  refine ⟨h.started, ⟨hm.jobs, ?_, fun t' hne hown => ?_, fun t' hne hown => ?_,
    fun t' hne => ?_, fun t' hne => (hmine t').trans (hm.mine t' hne), fun c hc => ?_,
    hk.expired.trans hm.expired, fun hcalm hf => ?_, fun hs => ?_⟩,
    (congrFun hk.calls t).trans h.idle, h.log⟩
  -- The server is as it was, or closed by now.
  · rcases hm.mysqld with h1 | h1 <;> rcases hk.mysqld with h2 | h2 <;> rw [h1] at h2
    · exact .inl h2
    · exact .inr h2
    · exact .inr h2
    · exact .inr h2
  -- The lock is held by another task, which an edit of this one does not set free.
  · obtain ⟨h1, h2⟩ := hm.held t' hne hown
    refine ⟨hk.held t' hne h1, ?_⟩
    rcases hk.fenced with h3 | ⟨-, h3⟩
    · exact h3.trans h2
    · rw [h1] at h3
      exact absurd (Option.some.inj h3) hne
  · exact hm.taken t' hne (hk.taken t' hne hown)
  · exact (congrFun hk.calls t').trans (hm.calls t' hne)
  · rw [hk.late] at hc
    exact hm.late c hc
  · rcases hk.fenced with h3 | ⟨h3, -⟩
    · exact h3.trans (hm.flag hcalm hf)
    · exact h3
  -- What was spent stays spent: its session stays dead.
  · refine spent_of (w := w) rfl id id (fun he => by rw [hk.expired]; exact he) (fun _ => ?_)
      (hm.spent hs)
    refine stranded_of (hmine t) (fun x => dead_of_mysqld hk.mysqld) id fun hc c hc' => ?_
    exact hc c ((congrFun hk.calls t).symm.trans hc')

/-- One more step of the task. -/
theorem record {e : Coop.Event sig} (ha : answersFence e = false)
    (ho : j = .promote → hasOpened t e = false) (h : Minding t j w₀ w) :
    Minding t j w₀ (w.record e) := by
  obtain ⟨l, hl, hans⟩ := h.log
  have hm := h.minds
  have hmore : ∀ f : Coop.Event sig → Bool, w.log.any f = true → (w.record e).log.any f = true := by
    intro f hf
    show (w.log ++ [e]).any f = true
    rw [List.any_append, hf, Bool.true_or]
  refine ⟨h.started, ⟨hm.jobs, hm.mysqld, hm.held, hm.taken, hm.calls, hm.mine, hm.late,
    hm.expired, hm.flag, fun hs => ?_⟩, h.idle, l ++ [e], ?_, ?_⟩
  · refine spent_of (w := w) rfl (hmore _) (hmore _) id (fun hj => ?_) (hm.spent hs)
    refine stranded_of rfl (fun _ h => h) (fun hopened => ?_) id
    have hp : j = .promote := Option.some.inj (h.job.symm.trans hj)
    show (w.log ++ [e]).any (hasOpened t) = false
    rw [List.any_append, hopened, List.any_cons, ho hp]
    rfl
  · show w.log ++ [e] = w₀.log ++ (l ++ [e])
    rw [hl, List.append_assoc]
  · simp [hans, ha]

/-- A session is opened. -/
theorem connected {gen : Nat} (hs : j = .promote → spent w₀ t = false) (h : Minding t j w₀ w) :
    Minding t j w₀ (w.edit (.opened t gen)) := by
  have hm := h.minds
  refine ⟨h.started, ⟨hm.jobs, hm.mysqld, hm.held, hm.taken, hm.calls, fun t' hne => ?_, hm.late,
    hm.expired, hm.flag, fun hsp => ?_⟩, h.idle, h.log⟩
  · refine Eq.trans ?_ (hm.mine t' hne)
    show (w.state.sessions ++ [_]).filter _ = w.state.sessions.filter _
    rw [List.filter_append]
    simp [Ne.symm hne]
  · refine spent_of (w := w) rfl id id id (fun hj => ?_) (hm.spent hsp)
    have hp : j = .promote := Option.some.inj (h.job.symm.trans hj)
    rw [hs hp] at hsp
    cases hsp

/-- The flag is cleared. -/
theorem clear (hl : j.lifts = true) (hs : spent w₀ t = false)
    (hown : (w.state.locks .fence).owner = some t) (h : Minding t j w₀ w) :
    Minding t j w₀ (w.edit (.fenced false)) := by
  have hm := h.minds
  refine ⟨h.started, ⟨hm.jobs, hm.mysqld, fun t' hne hown' => ?_, hm.taken, hm.calls, hm.mine,
    hm.late, hm.expired, fun hcalm => ?_, fun hsp => ?_⟩, h.idle, h.log⟩
  · have howner := (hm.held t' hne hown').1
    rw [hown] at howner
    exact absurd (Option.some.inj howner).symm hne
  · rw [hl, hs] at hcalm
    rcases hcalm with hc | hc <;> cases hc
  · rw [hs] at hsp
    cases hsp

/-- Where the task suspends. A fence has to know what it has shut. -/
theorem works (h : Minding t j w₀ w)
    (hshut : j = .fence → (w.state.locks .fence).owner = some t → w.log.any (shuts t) = true →
      w.state.mysqld.writable = false) : Works t w₀ w where
  minds := ⟨j, h.started, h.minds⟩
  said c hc := by rw [h.idle] at hc; cases hc
  shut hown hfence hs := by
    have hj : j = .fence := Option.some.inj (h.job.symm.trans (does_iff.mp hfence))
    refine hshut hj hown ?_
    rw [shut, h.idle] at hs
    simpa using hs
  answers hany := by
    obtain ⟨l, hl, hans⟩ := h.log
    rw [hl, List.drop_left, hans] at hany
    cases hany

/-- A statement is sent. -/
theorem sent {gen : Nat} {q : Stmt} (h : Minding t j w₀ w)
    (hsaid : q.opens = true → Lifting t w { gen, session := w.state.session t, stmt := q })
    (hshut : j = .fence → (w.state.locks .fence).owner = some t → w.log.any (shuts t) = true →
      w.state.mysqld.writable = false) : Works t w₀ (sent t j gen q w) := by
  have hm := h.minds
  have hcall : (Agent.sent t j gen q w).state.calls t =
      some { gen, session := w.state.session t, stmt := q } := calls_send gen q
  -- The request itself is none of the events that a fence or a promote watches for.
  have hlog : ∀ f : Coop.Event sig → Bool,
      f (.issued t j (.sql q) (w.edit (.send t gen q)).state) = false →
        (Agent.sent t j gen q w).log.any f = w.log.any f := by
    intro f hf
    show (w.log ++ [_]).any f = _
    rw [List.any_append, List.any_cons, hf]
    simp
  refine ⟨⟨j, h.started, hm.jobs, hm.mysqld, hm.held, hm.taken, fun t' hne => ?_, hm.mine,
    hm.late, hm.expired, hm.flag, fun hs => ?_⟩, fun c hc hop => ?_, fun hown hfence hs => ?_,
    fun hany => ?_⟩
  · exact (Function.update_of_ne hne _ _).trans (hm.calls t' hne)
  -- A spent task stays spent: what it sends to a dead session is not executed.
  · refine spent_of (w := w) rfl (hlog _ (by cases j <;> rfl)).trans (hlog _ rfl).trans id
      (fun _ => ?_) (hm.spent hs)
    refine stranded_of rfl (fun _ h => h) (hlog _ rfl).trans fun _ c hc _ => ?_
    rw [hcall] at hc
    cases hc
    rfl
  -- A SET of super_read_only=0 needs the promote to be lifting, which the caller has shown.
  · rw [hcall] at hc
    cases hc
    obtain ⟨hl, hover, hp⟩ := hsaid hop
    exact ⟨hl, (hlog _ (by cases j <;> rfl)).trans hover,
      fun hj => ⟨(hlog _ rfl).trans (hp hj).1, (hp hj).2⟩⟩
  -- A fence that has its SET done sends it on a read-only mysqld.
  · have hj : j = .fence := Option.some.inj (h.job.symm.trans (does_iff.mp hfence))
    refine hshut hj hown ?_
    rw [shut, hcall, hlog _ (by cases q <;> rfl)] at hs
    simpa using hs
  -- The segment so far has answered no fence, and neither does this request.
  · obtain ⟨l, hl, hans⟩ := h.log
    have hsame : (Agent.sent t j gen q w).log =
        w₀.log ++ (l ++ [.issued t j (.sql q) (w.edit (.send t gen q)).state]) := by
      show w.log ++ [_] = _
      rw [hl, List.append_assoc]
    rw [hsame, List.drop_left, List.any_append, hans] at hany
    have hno : answersFence (.issued t j (.sql q) (w.edit (.send t gen q)).state) = false := by
      cases j <;> rfl
    rw [List.any_cons, hno] at hany
    cases hany

/-- The answer of a statement is read. -/
theorem answered {q : Stmt} (a : Except Failure Row) (hj : w'.jobs[t]? = some j)
    (hs : j = .promote → spent w' t = true → hasOpened t (.answered t (.sql q) a) = false) :
    Minding t j w' (answered t q a w') := by
  have hmore : ∀ f : Coop.Event sig → Bool, w'.log.any f = true →
      (Agent.answered t q a w').log.any f = true := by
    intro f hf
    show (w'.log ++ [_]).any f = true
    rw [List.any_append, hf, Bool.true_or]
  refine ⟨hj, ⟨rfl, .inl rfl, fun _ _ h => ⟨h, rfl⟩, fun _ _ h => h,
    fun t' hne => Function.update_of_ne hne _ _, fun _ _ => rfl, fun c hc => ?_, rfl,
    fun _ h => h, fun hsp => ?_⟩, calls_settle (s := (w'.answer t (.sql q) a).state) _,
    [.answered t (.sql q) a], rfl, rfl⟩
  · rcases List.mem_append.mp hc with h | h
    · exact .inl h
    · rw [Option.mem_toList, Option.filter_eq_some_iff] at h
      exact .inr h.1
  · refine spent_of (w := w') rfl (hmore _) (hmore _) id (fun hp => ?_) hsp
    refine stranded_of rfl (fun _ h => h) (fun hopened => ?_) fun _ c hc => ?_
    · have hj' : j = .promote := Option.some.inj (hj.symm.trans hp)
      show (w'.log ++ [_]).any (hasOpened t) = false
      rw [List.any_append, hopened, List.any_cons, hs hj' hsp]
      rfl
    · have hnone := calls_settle (s := (w'.answer t (.sql q) a).state) (t := t) (closes a)
      rw [show (Agent.answered t q a w').state.calls t = none from hnone] at hc
      cases hc

/-- The next segment begins with nothing done. -/
theorem resume (h : Minding t j w₀ w) (hg : Grows t w w') (hr : Waits t w w') :
    Minding t j w' w' :=
  refl (hg.job h.job) (hr.idle h.idle)

/-- The segment of any task but a fence may end. -/
theorem ends (h : Minding t j w₀ w) (hj : j ≠ .fence) : fenceBase.Ends t () w₀ w :=
  fun _ => (h.record (e := .finished t w.state) rfl fun _ => rfl).works fun hf => absurd hf hj

end Minding

/-! ### The role changes -/

/-- How far a task is: it has opened no session, it has one that was opened to the mysqld of
this start and has not made it writable, it has not answered, or nothing is known. -/
inductive Phase
  | fresh
  | opened (gen : Nat)
  | unanswered
  | free

/-- What a task knows in each phase. -/
def Phase.Holds (t : Nat) (w : World sig) : Phase → Prop
  | .fresh => w.state.mine t = [] ∧ w.log.any (isThrough t) = false ∧
      w.log.any (hasOpened t) = false
  | .opened gen => (gen, w.state.session t) ∈ w.state.mine t ∧ w.log.any (isThrough t) = false ∧
      w.log.any (hasOpened t) = false
  | .unanswered => w.log.any (isThrough t) = false
  | .free => True

/-- Task `t` keeps to its segments and is in this phase. -/
def At (g : Phase) (t : Nat) (j : Job) (w₀ w : World sig) : Prop :=
  Minding t j w₀ w ∧ g.Holds t w

section
variable {t : Nat} {j : Job} {g : Phase} {w₀ w w' : World sig}

/-- A change of the world that leaves the sessions of the task and what it has said alone. -/
theorem Phase.Holds.same (hmine : w'.state.mine t = w.state.mine t)
    (hover : w'.log.any (isThrough t) = w.log.any (isThrough t))
    (hopened : w'.log.any (hasOpened t) = w.log.any (hasOpened t)) (h : g.Holds t w) :
    g.Holds t w' := by
  cases g with
  | fresh => exact ⟨hmine.trans h.1, hover.trans h.2.1, hopened.trans h.2.2⟩
  | opened gen =>
      have hsession : w'.state.session t = w.state.session t :=
        congrArg (fun l : List (Nat × SessionId) => SessionId.mk t l.length) hmine
      refine ⟨?_, hover.trans h.2.1, hopened.trans h.2.2⟩
      rw [hmine, hsession]
      exact h.1
  | unanswered => exact hover.trans h
  | free => trivial

/-- A record that is neither its end nor the answer of its SET keeps the phase. -/
theorem Phase.Holds.record {e : Coop.Event sig} (ho : isThrough t e = false)
    (hh : g ≠ .unanswered → g ≠ .free → hasOpened t e = false) (h : g.Holds t w) :
    g.Holds t (w.record e) := by
  have hlog : ∀ f : Coop.Event sig → Bool, f e = false →
      (w.record e).log.any f = w.log.any f := by
    intro f hf
    show (w.log ++ [e]).any f = _
    rw [List.any_append, List.any_cons, hf]
    simp
  cases g with
  | fresh => exact .same (w := w) rfl (hlog _ ho) (hlog _ (hh nofun nofun)) h
  | opened gen => exact .same (w := w) rfl (hlog _ ho) (hlog _ (hh nofun nofun)) h
  | unanswered => exact (hlog _ ho).trans h
  | free => trivial

/-- A suspended task stays in its phase. -/
theorem Phase.Holds.stay (hg : Grows t w w') (hr : Waits t w w') (h : g.Holds t w) :
    g.Holds t w' :=
  h.same hr.mine (any_of_own (fun _ => isBy_of_isThrough) hg.own)
    (any_of_own (fun _ => isBy_of_hasOpened) hg.own)

/-- Only a promote is spent before it answers. -/
theorem spent_of_unanswered (hj : w.jobs[t]? = some j) (hp : j ≠ .promote)
    (h : w.log.any (isThrough t) = false) : spent w t = false := by
  rw [← Bool.not_eq_true, spent_iff]
  rintro (ho | ⟨hj', -⟩)
  · rw [h] at ho
    cases ho
  · exact hp (Option.some.inj (hj.symm.trans hj'))

/-- And not before it has a session. -/
theorem spent_of_fresh (h : Phase.fresh.Holds t w) : spent w t = false := by
  rw [← Bool.not_eq_true, spent_iff]
  rintro (ho | ⟨-, hs | ⟨ho, -⟩⟩)
  · rw [h.2.1] at ho
    cases ho
  · exact (stranded_iff.mp hs).1 h.1
  · rw [h.2.2] at ho
    cases ho

namespace At

/-- Every phase is free in the end. -/
theorem free (h : At g t j w₀ w) : At .free t j w₀ w := ⟨h.1, trivial⟩

/-- A harmless change keeps the phase. -/
theorem edit {u : Update} (hu : u.minds t w.state) (h : At g t j w₀ w) :
    At g t j w₀ (w.edit u) := by
  have hk : Harmless t w.state (w.edit u).state := harmless_apply hu
  exact ⟨h.1.edit hu, .same (w := w) (mine_of_sessions hk.sessions t) rfl rfl h.2⟩

/-- So does a record that is neither an answer of a fence nor the task's own end. -/
theorem record {e : Coop.Event sig} (ha : answersFence e = false) (ho : isThrough t e = false)
    (hh : hasOpened t e = false) (h : At g t j w₀ w) : At g t j w₀ (w.record e) :=
  ⟨h.1.record ha fun _ => hh, h.2.record ho fun _ _ => hh⟩

/-- The task goes on in the same phase. -/
theorem resume (h : At g t j w₀ w) (hg : Grows t w w') (hr : Waits t w w') : At g t j w' w' :=
  ⟨h.1.resume hg hr, h.2.stay hg hr⟩

/-- Where a role change suspends. -/
theorem cut (hj : j ≠ .fence) (h : At g t j w₀ w) :
    Works t w₀ w ∧ ∀ w', fenceBase.inv w' → fenceBase.rely t w w' → At g t j w' w' :=
  ⟨h.1.works fun hf => absurd hf hj, fun _ _ hr => h.resume hr.1 hr.2⟩

end At

/-- A wait of a role change. The sample of a promote tells that it is over. -/
theorem wp_mind {r : Req} (hj : j ≠ .fence) (hr : r.plain) (hs : j = .promote → r ≠ .sample)
    (h : At g t j w₀ w) :
    (await r).wp fenceBase t j (fun _ => At g t j) w₀ w := by
  intro _
  have hissue : At g t j w₀ (w.issue t j r) := by
    refine h.record ?_ ?_ rfl
    · cases j <;> first | rfl | exact absurd rfl hj
    · cases r with
      | reply status => exact hr.elim
      | sample => cases j <;> first | rfl | exact absurd rfl (hs rfl)
      | _ => cases j <;> rfl
  obtain ⟨hworks, hback⟩ := hissue.cut hj
  refine ⟨hworks, fun w' a hi hr' _ => (hback w' hi hr').record rfl rfl ?_⟩
  cases r <;> first | rfl | exact hr.elim

/-- A statement that leaves mysqld as writable as it is. -/
theorem triple_mind {gen : Nat} {q : Stmt} (hj : j ≠ .fence) (hq : q.opens = false) :
    Triple fenceBase t j (At g t j) (sql t gen q) (fun _ => At g t j) fun _ => At g t j := by
  have hquiet : ∀ a, hasOpened t (.answered t (.sql q) a) = false := by
    intro a
    cases q with
    | superReadOnly b =>
        cases b with
        | false => cases hq
        | true => rfl
    | _ => rfl
  refine triple_sql (fun _ _ h _ => h) fun w₀ w h _ => ?_
  refine ⟨h.1.sent (fun hop => by rw [hq] at hop; cases hop) fun hf => absurd hf hj,
    fun w' a _ hr _ => ?_⟩
  have hsend : g.Holds t (w.edit (.send t gen q)) := .same (w := w) rfl rfl rfl h.2
  have hold : g.Holds t (sent t j gen q w) :=
    hsend.record (by cases j <;> rfl) fun _ _ => rfl
  have hback : At g t j w' (answered t q a w') :=
    ⟨.answered a (hr.1.job h.1.job) fun _ _ => hquiet a,
      (((hold.stay hr.1 hr.2).record (e := .answered t (.sql q) a) rfl
        fun _ _ => hquiet a).same rfl rfl rfl)⟩
  cases a <;> exact hback

/-- What repoint, configure and rebuild say. -/
def roleWords (j : Job) : Words where
  edits u := (∃ b, u = .semisync b) ∨ ∃ b, u = .rebuilding b
  stmts q := q.opens = true → j.lifts = true
  locks l := l = .role

/-- A role change that is no promote. It may send the SET of super_read_only=0 if it can end a
fence. -/
theorem role_carries (t : Nat) (hj : j ≠ .fence) (hp : j ≠ .promote) :
    (roleWords j).Carries fenceBase t j (At .unanswered t j) where
  edit u w₀ w hu h := by
    rcases hu with ⟨b, rfl⟩ | ⟨b, rfl⟩ <;> exact h.edit trivial
  opened gen w₀ w h := ⟨h.1.connected fun hpj => absurd hpj hp, h.2⟩
  enqueue l w₀ w _ h := h.edit trivial
  dequeue l w₀ w _ h := h.edit trivial
  acquire l w₀ w hl _ h := h.edit fun hf => by rw [hl] at hf; cases hf
  release l w₀ w hl h := h.edit fun hf => by rw [hl] at hf; cases hf
  cut w₀ w h _ := h.cut hj
  await r w₀ w hr h ha := by
    exact wp_mind hj hr (fun hpj => absurd hpj hp) h ha
  sql gen q w₀ w hq h _ := by
    refine ⟨h.1.sent (fun hop => ⟨⟨j, h.1.job, hq hop⟩, h.2, fun hpj => ?_⟩)
      fun hf => absurd hf hj, fun w' a _ hr _ => ⟨.answered a (hr.1.job h.1.job)
        fun hpj => absurd hpj hp, ?_⟩⟩
    · exact absurd (Option.some.inj (h.1.job.symm.trans hpj)) hp
    · have hold : Phase.unanswered.Holds t (sent t j gen q w) :=
        Phase.Holds.record (w := w.edit (.send t gen q)) (by cases j <;> rfl)
          (fun hne => absurd rfl hne) h.2
      exact ((hold.stay hr.1 hr.2).record (e := .answered t (.sql q) a) rfl
        fun hne => absurd rfl hne).same rfl rfl rfl

/-- The task holds the fence lock, and may clear the flag. -/
structure Holding (t : Nat) (j : Job) (w₀ w : World sig) : Prop where
  minding : Minding t j w₀ w
  eager : spent w₀ t = false
  owner : (w.state.locks .fence).owner = some t

/-- The task takes the fence lock and may then clear the flag, as long as it is not spent. -/
theorem Minding.holding (h : Minding t j w₀ w) (hs : spent w₀ t = false)
    (hfree : (w.state.locks .fence).owner = none) :
    Holding t j w₀ (w.edit (.acquire .fence t)) :=
  ⟨h.edit fun _ => ⟨rfl, hfree⟩, hs, owner_acquire .fence⟩

/-- It gives the lock back. -/
theorem Holding.release (h : Holding t j w₀ w) : At .free t j w₀ (w.edit (.release .fence)) :=
  ⟨h.minding.edit fun _ => h.owner, trivial⟩

/-- The flag is cleared under the fence lock. -/
theorem minds_clear (hl : j.lifts = true) :
    Triple fenceBase t j (Holding t j) (setFenced false)
      (fun _ w₀ w => At .free t j w₀ (w.edit (.release .fence)))
      fun _ w₀ w => At .free t j w₀ (w.edit (.release .fence)) := by
  refine .look fun s => ?_
  split
  · exact .update fun w₀ w h =>
      Holding.release ⟨h.1.minding.clear hl h.1.eager h.1.owner, h.1.eager, h.1.owner⟩
  · exact .throw fun w₀ w h => h.1.release

/-- An unfence clears the flag under the fence lock and answers. -/
theorem minds_unfence :
    Triple fenceBase t .unfence (At .unanswered t .unfence) (unfence t)
      (fun _ => At .free t .unfence) fun _ => At .free t .unfence := by
  have heager : ∀ w₀ w, At .unanswered t .unfence w₀ w → spent w₀ t = false := fun w₀ w h =>
    spent_of_unanswered h.1.started nofun (h.1.before h.2)
  refine triple_withLock (H := Holding t .unfence) (fun w₀ w h => h.1.holding (heager w₀ w h))
    (fun w₀ w h _ => ?_) (minds_clear rfl)
  obtain ⟨hworks, hback⟩ := (h.edit (u := .enqueue .fence t) trivial).cut (by simp)
  refine ⟨hworks, fun w' hi hr => ?_⟩
  have hw' := hback w' hi hr
  exact hw'.1.holding (heager _ _ hw')

/-! ### A promote -/

/-- A promote that has read that mysqld is writable now, and may clear the flag. -/
structure Done (t : Nat) (w₀ w : World sig) : Prop where
  minding : Minding t .promote w₀ w
  unanswered : w.log.any (isThrough t) = false
  opened : w.log.any (hasOpened t) = true
  eager : spent w₀ t = false

/-- A new session is among those of its task. -/
theorem mine_opened (s : Agent) (t gen : Nat) :
    (gen, (s.opened t gen).session t) ∈ (s.opened t gen).mine t := by
  have hno : (s.opened t gen).session t = { task := t, no := (s.session t).no + 1 } := by
    simp [opened, session, List.filter_append]
  rw [hno]
  refine List.mem_filter.mpr ⟨List.mem_append_right _ (List.mem_singleton.mpr rfl), ?_⟩
  exact decide_eq_true rfl

/-- A promote ends the restart hold before it opens a session. -/
theorem promote_holds :
    Triple fenceBase t .promote (At .fresh t .promote) endRestartHold
      (fun _ => At .fresh t .promote) fun _ => At .free t .promote := by
  have hrestart : ∀ gen, Triple fenceBase t .promote (At .fresh t .promote) (waitRestart gen)
      (fun _ => At .fresh t .promote) fun _ => At .free t .promote := fun gen w₀ w h =>
    Prog.wp_mono (fun a _ _ h => by cases a; exacts [h.free, h]) _ _ _
      (wp_mind (r := .waitRestart gen) (by simp) trivial (fun _ => by simp) h)
  have hresponsive : Triple fenceBase t .promote (At .fresh t .promote) waitResponsive
      (fun _ => At .fresh t .promote) fun _ => At .free t .promote := fun w₀ w h =>
    Prog.wp_mono (fun a _ _ h => by cases a; exacts [h.free, h]) _ _ _
      (wp_mind (r := .waitResponsive) (by simp) trivial (fun _ => by simp) h)
  have hensure : ∀ (ok : Bool) (e : Failure), Triple fenceBase t .promote (At .fresh t .promote)
      (ensure ok e) (fun _ => At .fresh t .promote) fun _ => At .free t .promote := by
    intro ok e
    cases ok with
    | true => exact .pure fun _ _ h => h
    | false => exact .throw fun _ _ h => h.free
  refine .look fun s => ?_
  split
  · refine .bind ((hrestart _).pre fun _ _ h => h.1) fun ok => .bind (hensure _ _) fun _ => ?_
    exact .bind hresponsive fun ok => hensure _ _
  · exact .pure fun _ _ h => h.1

/-- It opens its session to the mysqld of this start. -/
theorem promote_connects :
    Triple fenceBase t .promote (At .fresh t .promote) (connect t)
      (fun gen => At (.opened gen) t .promote) fun _ => At .free t .promote := by
  refine triple_connect fun w₀ w h ha => ?_
  obtain ⟨hworks, hback⟩ := wp_mind (r := .connect) (by simp) trivial (fun _ => by simp) h ha
  refine ⟨hworks, fun w' a hi hr hans => ?_⟩
  have hat : At .fresh t .promote w' (w'.answer t .connect a) := hback w' a hi hr hans
  cases a with
  | error e => exact hat.free
  | ok gen =>
      have hfresh : Phase.fresh.Holds t w' :=
        ⟨hat.2.1, hat.1.before hat.2.2.1, hat.1.before hat.2.2.2⟩
      exact ⟨hat.1.connected fun _ => spent_of_fresh hfresh,
        mine_opened w'.state t gen, hat.2.2.1, hat.2.2.2⟩

/-- The last SET. If its answer is read, mysqld has executed it, so the promote is not
stranded. -/
theorem promote_opens (gen : Nat) :
    Triple fenceBase t .promote (At (.opened gen) t .promote) (sql t gen (.superReadOnly false))
      (fun _ => Done t) fun _ => At .free t .promote := by
  refine triple_sql (fun _ _ h _ => h.free) fun w₀ w h _ => ?_
  -- A promote with an open session, and without an answer of its SET, is lifting.
  have hlift : Lifting t w { gen, session := w.state.session t, stmt := .superReadOnly false } :=
    ⟨⟨.promote, h.1.job, rfl⟩, h.2.2.1, fun _ => ⟨h.2.2.2, h.2.1⟩⟩
  have hcall : (sent t .promote gen (.superReadOnly false) w).state.calls t =
      some { gen, session := w.state.session t, stmt := .superReadOnly false } := calls_send gen _
  have hsend : (Phase.opened gen).Holds t (w.edit (.send t gen (.superReadOnly false))) :=
    .same (w := w) rfl rfl rfl h.2
  have hold : (Phase.opened gen).Holds t (sent t .promote gen (.superReadOnly false) w) :=
    hsend.record rfl fun _ _ => rfl
  refine ⟨h.1.sent (fun _ => hlift) nofun, fun w' a _ hr hans => ?_⟩
  have hjob : w'.jobs[t]? = some .promote := hr.1.job h.1.job
  have hheld := hold.stay hr.1 hr.2
  cases a with
  -- The SET failed: the promote goes on to its answer.
  | error e => exact ⟨.answered (.error e) hjob fun _ _ => Bool.and_false _, trivial⟩
  | ok row =>
      obtain ⟨row', hcall'⟩ := hr.2.call _ hcall
      have hrow : row' = some row := by
        have : (w'.state.calls t).any (·.row == some row) = true := hans.2
        simpa [hcall'] using this
      -- It is done: mysqld has executed it, so the promote was not stranded when it sent it.
      have heager : spent w' t = false := by
        rw [← Bool.not_eq_true, spent_iff]
        rintro (ho | ⟨-, hs | ⟨ho, -⟩⟩)
        · rw [hheld.2.1] at ho
          cases ho
        · have hnone := (stranded_iff.mp hs).2.2.2 _ hcall' rfl
          rw [hrow] at hnone
          cases hnone
        · rw [hheld.2.2] at ho
          cases ho
      refine ⟨.answered (.ok row) hjob fun _ hsp => ?_, ?_, ?_, heager⟩
      · rw [heager] at hsp
        cases hsp
      · show (w'.log ++ [_]).any (isThrough t) = false
        rw [List.any_append, hheld.2.1]
        rfl
      · show (w'.log ++ [_]).any (hasOpened t) = true
        rw [List.any_append]
        simp [hasOpened, Except.isOk, Except.toBool]

/-- The flag is cleared, unless the deadline passes while the promote waits for the lock. -/
theorem promote_clears :
    Triple fenceBase t .promote (Done t) (withLockDeadlined .fence t (setFenced false))
      (fun _ => At .free t .promote) fun _ => At .free t .promote := by
  refine triple_withLockDeadlined (H := Holding t .promote)
    (fun w₀ w h hfree => h.minding.holding h.eager hfree) (fun w₀ w h _ => ?_) (minds_clear rfl)
  have hq : At .unanswered t .promote w₀ (w.edit (.enqueue .fence t)) :=
    At.edit (u := .enqueue .fence t) trivial ⟨h.minding, h.unanswered⟩
  obtain ⟨hworks, hback⟩ := hq.cut (by simp)
  refine ⟨hworks, fun w' hi hr => ⟨fun hlate hfree => ?_, ?_⟩⟩
  · have hat := hback w' hi hr
    have hopened : w'.log.any (hasOpened t) = true :=
      (any_of_own (fun _ => isBy_of_hasOpened) hr.1.own).trans h.opened
    refine hat.1.holding ?_ hfree
    rw [← Bool.not_eq_true, spent_iff]
    rintro (ho | ⟨-, hs | ⟨-, he⟩⟩)
    · rw [show w'.log.any (isThrough t) = false from hat.2] at ho
      cases ho
    · rw [(stranded_iff.mp hs).2.2.1] at hopened
      cases hopened
    · exact hlate he
  · exact ((hback w' hi hr).edit (u := .dequeue .fence t) trivial).free

/-- The sample after the flag is cleared. -/
theorem promote_samples :
    Triple fenceBase t .promote (At .free t .promote) refreshSample
      (fun _ => At .free t .promote) fun _ => At .free t .promote := by
  intro w₀ w h _
  have hissue : At .free t .promote w₀ (w.issue t .promote .sample) :=
    ⟨h.1.record rfl fun _ => rfl, trivial⟩
  obtain ⟨hworks, hback⟩ := hissue.cut (by simp)
  refine ⟨hworks, fun w' a hi hr _ => ?_⟩
  have hat := (hback w' hi hr).record (e := .answered t .sample a) rfl rfl rfl
  cases a <;> exact hat

/-- A promote clears the flag only after its SET was answered. -/
theorem minds_promote :
    Triple fenceBase t .promote (At .fresh t .promote) (promote t)
      (fun _ => At .free t .promote) fun _ => At .free t .promote := by
  have hlock : ∀ (g : Phase) w₀ w, At g t .promote w₀ w →
      (w.state.locks .role).owner = none → At g t .promote w₀ (w.edit (.acquire .role t)) :=
    fun g w₀ w h _ => h.edit fun hf => by cases hf
  have hrelease : ∀ w₀ w, At .free t .promote w₀ w →
      At .free t .promote w₀ (w.edit (.release .role)) := fun w₀ w h => h.edit fun hf => by cases hf
  have hsql : ∀ gen q, q.opens = false → Triple fenceBase t .promote (At (.opened gen) t .promote)
      (sql t gen q) (fun _ => At (.opened gen) t .promote) fun _ => At .free t .promote :=
    fun gen q hq => (triple_mind (by simp) hq).conseq (fun _ _ h => h) (fun _ _ _ h => h)
      fun _ _ _ h => h.free
  refine triple_withLockDeadlined (H := At .fresh t .promote) (hlock .fresh) (fun w₀ w h _ => ?_)
    (.conseq (Q := fun _ => At .free t .promote) (E := fun _ => At .free t .promote) ?_
      (fun _ _ h => h) (fun _ _ _ h => hrelease _ _ h) fun _ _ _ h => hrelease _ _ h)
  · obtain ⟨hworks, hback⟩ := (h.edit (u := .enqueue .role t) trivial).cut (by simp)
    exact ⟨hworks, fun w' hi hr => ⟨fun _ hfree => hlock .fresh w' w' (hback w' hi hr) hfree,
      ((hback w' hi hr).edit (u := .dequeue .role t) trivial).free⟩⟩
  · refine .bind promote_holds fun _ => .bind promote_connects fun gen => ?_
    refine .bind (hsql gen _ rfl) fun _ => .bind (hsql gen _ rfl) fun _ => ?_
    refine .bind (hsql gen _ rfl) fun _ => .look fun s => ?_
    refine .bind ((hsql gen _ rfl).pre fun _ _ h => h.1) fun _ => ?_
    refine .bind (promote_opens gen) fun _ => ?_
    refine .bind promote_clears fun _ => .bind promote_samples fun _ => ?_
    exact .bind (triple_mind (by simp) rfl) fun _ => .pure fun _ _ h => h

/-- Every request but a fence. -/
theorem minds_body (node : Node) (hj : j ≠ .fence) (h : At .fresh t j w₀ w) :
    (body node t j).wp fenceBase t j (fenceBase.Ends t) w₀ w := by
  -- The answer of a handler is its reply, after which the task has ended.
  have hreply : ∀ {m : X Unit}, Triple fenceBase t j (At .fresh t j) m (fun _ => At .free t j)
      (fun _ => At .free t j) → (answer m).wp fenceBase t j (fenceBase.Ends t) w₀ w := by
    intro m hm
    refine wp_answer (K := At .free t j) (Prog.wp_mono (fun r w₀ w hr => ?_) _ _ _ (hm w₀ w h))
      fun status w₀ w h _ => ?_
    · cases r <;> exact hr
    · have hissue : At .free t j w₀ (w.issue t j (.reply status)) := by
        refine ⟨h.1.record ?_ fun _ => rfl, trivial⟩
        cases j <;> first | rfl | exact absurd rfl hj
      obtain ⟨hworks, hback⟩ := hissue.cut hj
      exact ⟨hworks, fun w' a hi hr =>
        ((hback w' hi hr).record (e := .answered t (.reply status) a) rfl rfl rfl).1.ends hj⟩
  -- A handler under the role lock takes it from a clean state and leaves it clean.
  have hrole : ∀ {m : X Unit}, j ≠ .promote → Says (roleWords j) t m →
      (answer m).wp fenceBase t j (fenceBase.Ends t) w₀ w := fun hp hm =>
    hreply (((role_carries t hj hp).keeps hm).conseq (fun _ _ h => ⟨h.1, h.2.2.1⟩)
      (fun _ _ _ h => h.free) fun _ _ _ h => h.free)
  -- What each handler says; none but a fence sets the flag.
  cases j with
  | fence => exact absurd rfl hj
  | unfence => exact hreply (minds_unfence.pre fun _ _ h => ⟨h.1, h.2.2.1⟩)
  | promote => exact hreply minds_promote
  | repoint source =>
      refine hrole nofun (says_repoint rfl fun q hq hop => ?_)
      exact absurd (of_decide_eq_true hop) hq
  | configure semisync =>
      refine hrole nofun (says_configure rfl (fun b => .inl ⟨b, rfl⟩) fun q hq hop => ?_)
      exact absurd (of_decide_eq_true hop) hq
  | rebuild donor =>
      exact hrole nofun (says_rebuild rfl (fun b => .inr ⟨b, rfl⟩) fun _ _ _ => rfl)

end

/-! ### The fence -/

/-- How far a fence is: it waits for its lock, it has it, the flag is set, mysqld is read-only. -/
inductive Stage
  | waiting
  | held
  | flagged
  | closed

/-- What a fence knows at each stage. -/
def Stage.Holds (t : Nat) (w : World sig) : Stage → Prop
  | .waiting => w.log.any (shuts t) = false
  | .held => (w.state.locks .fence).owner = some t ∧ w.log.any (shuts t) = false
  | .flagged => (w.state.locks .fence).owner = some t ∧ w.log.any (shuts t) = false ∧
      w.state.fenced = true
  | .closed => (w.state.locks .fence).owner = some t ∧ w.log.any (shuts t) = true ∧
      w.state.fenced = true ∧ w.state.mysqld.writable = false

/-- The fence keeps to its segments and is at this stage. -/
def Fencing (t : Nat) (g : Stage) (w₀ w : World sig) : Prop :=
  Minding t .fence w₀ w ∧ g.Holds t w

section
variable {t : Nat} {g : Stage} {w₀ w w' : World sig}

/-- What a fence that suspends has to know of what it has shut. -/
theorem Stage.Holds.shut (h : g.Holds t w) (hs : w.log.any (shuts t) = true) :
    w.state.mysqld.writable = false := by
  cases g with
  | waiting =>
      rw [show w.log.any (shuts t) = false from h] at hs
      cases hs
  | held | flagged =>
      have hnone : w.log.any (shuts t) = false := by
        first | exact h.2 | exact h.2.1
      rw [hnone] at hs
      cases hs
  | closed => exact h.2.2.2

/-- A record that is not about the SET or the kill keeps the stage of a fence. -/
theorem Stage.Holds.record {e : Coop.Event sig} (he : shuts t e = false) (h : g.Holds t w) :
    g.Holds t (w.record e) := by
  have hlog : (w.record e).log.any (shuts t) = w.log.any (shuts t) := by
    show (w.log ++ [e]).any (shuts t) = _
    rw [List.any_append, List.any_cons, he]
    simp
  cases g with
  | waiting => exact hlog.trans h
  | held => exact ⟨h.1, hlog.trans h.2⟩
  | flagged => exact ⟨h.1, hlog.trans h.2.1, h.2.2⟩
  | closed => exact ⟨h.1, hlog.trans h.2.1, h.2.2⟩

/-- A fence that has shut mysqld finds it so: `Sane` says it of every world. -/
theorem Stage.Holds.stay (hj : w'.jobs[t]? = some .fence) (hs : Sane w') (hg : Grows t w w')
    (hr : Waits t w w') (h : g.Holds t w) : g.Holds t w' := by
  have hlog : w'.log.any (shuts t) = w.log.any (shuts t) :=
    any_of_own (fun _ => isBy_of_shuts) hg.own
  cases g with
  | waiting => exact hlog.trans h
  | held => exact ⟨(hr.held h.1).1, hlog.trans h.2⟩
  | flagged => exact ⟨(hr.held h.1).1, hlog.trans h.2.1, (hr.held h.1).2.trans h.2.2⟩
  | closed =>
      have hown := (hr.held h.1).1
      have hpast := hlog.trans h.2.1
      refine ⟨hown, hpast, (hr.held h.1).2.trans h.2.2.1, ?_⟩
      exact hs.shut t hown (decide_eq_true hj) (by rw [Agent.shut, hpast, Bool.true_or])

namespace Fencing

/-- Its segment so far does what the contract allows. -/
theorem works (h : Fencing t g w₀ w) : Works t w₀ w := h.1.works fun _ _ => h.2.shut

/-- It goes on at the same stage. -/
theorem resume (hi : Sane w') (hg : Grows t w w') (hr : Waits t w w') (h : Fencing t g w₀ w) :
    Fencing t g w' w' :=
  ⟨h.1.resume hg hr, h.2.stay (hg.job h.1.job) hi hg hr⟩

/-- A record that is neither its answer nor about its SET. -/
theorem record {e : Coop.Event sig} (ha : answersFence e = false) (hs : shuts t e = false)
    (h : Fencing t g w₀ w) : Fencing t g w₀ (w.record e) :=
  ⟨h.1.record ha nofun, h.2.record hs⟩

end Fencing

/-- What a fence says once mysqld is read-only. -/
def fenceWords : Words where
  edits _ := False
  stmts q := q.opens = false ∧ q ≠ .superReadOnly true
  locks _ := False

/-- What a fence says once mysqld is read-only keeps it so. -/
theorem closed_carries (t : Nat) : fenceWords.Carries fenceBase t .fence (Fencing t .closed) where
  edit _ _ _ hu := hu.elim
  opened gen w₀ w h := ⟨h.1.connected nofun, h.2⟩
  enqueue _ _ _ hl := hl.elim
  dequeue _ _ _ hl := hl.elim
  acquire _ _ _ hl := hl.elim
  release _ _ _ hl := hl.elim
  cut w₀ w h _ := ⟨h.works, fun w' hi hr => h.resume hi.2 hr.1 hr.2⟩
  -- What it waits for is no SET and no answer.
  await r w₀ w hr h _ := by
    have hissue : Fencing t .closed w₀ (w.issue t .fence r) := by
      refine ⟨h.1.record ?_ nofun, h.2.1, ?_, h.2.2.2.1, h.2.2.2.2⟩
      · cases r with
        | reply status => exact hr.elim
        | _ => rfl
      · show (w.log ++ [_]).any (shuts t) = true
        rw [List.any_append, h.2.2.1, Bool.true_or]
    have hquiet : ∀ a, shuts t (.answered t r a) = false := by
      intro a
      cases r with
      | sql q => exact hr.elim
      | _ => rfl
    exact ⟨hissue.works, fun w' a hi hr _ =>
      (hissue.resume hi.2 hr.1 hr.2).record rfl (hquiet a)⟩
  -- The statements after the SET are reads and KILLs.
  sql gen q w₀ w hq h _ := by
    have hquiet : ∀ a, shuts t (.answered t (.sql q) a) = false := by
      intro a
      cases q with
      | superReadOnly b =>
          cases b with
          | true => exact absurd rfl hq.2
          | false => rfl
      | _ => rfl
    have hsent : Stage.closed.Holds t (sent t .fence gen q w) :=
      Stage.Holds.record (w := w.edit (.send t gen q)) (g := .closed) rfl h.2
    refine ⟨h.1.sent (fun hop => ?_) fun _ _ => h.2.shut, fun w' a hi hr _ => ?_⟩
    · rw [hq.1] at hop
      cases hop
    · have hjob : w'.jobs[t]? = some .fence := hr.1.job h.1.job
      exact ⟨.answered a hjob nofun, (hsent.stay hjob hi.2 hr.1 hr.2).record (hquiet a)⟩

/-- The connection of a fence. -/
theorem fence_connects :
    Triple fenceBase t .fence (Fencing t .flagged) (connect t) (fun _ => Fencing t .flagged)
      fun _ => Fencing t .flagged := by
  refine triple_connect fun w₀ w h _ => ?_
  have hissue : Fencing t .flagged w₀ (w.issue t .fence .connect) := h.record rfl rfl
  refine ⟨hissue.works, fun w' a hi hr _ => ?_⟩
  have hback : Fencing t .flagged w' (w'.answer t .connect a) :=
    (hissue.resume hi.2 hr.1 hr.2).record rfl rfl
  cases a with
  | ok gen => exact ⟨hback.1.connected nofun, hback.2⟩
  | error e => exact hback

/-- The SET of a fence. If its answer is read, mysqld has executed it. -/
theorem closes_set (gen : Nat) :
    Triple fenceBase t .fence (Fencing t .flagged) (sql t gen (.superReadOnly true))
      (fun _ => Fencing t .closed) fun _ => Fencing t .flagged := by
  refine triple_sql (fun _ _ h _ => h) fun w₀ w h _ => ?_
  have hcall : (sent t .fence gen (.superReadOnly true) w).state.calls t =
      some { gen, session := w.state.session t, stmt := .superReadOnly true } := calls_send gen _
  have hsent : Stage.flagged.Holds t (sent t .fence gen (.superReadOnly true) w) :=
    Stage.Holds.record (w := w.edit (.send t gen (.superReadOnly true))) (g := .flagged) rfl h.2
  refine ⟨h.1.sent nofun fun _ _ => h.2.shut, fun w' a hi hr hans => ?_⟩
  have hjob : w'.jobs[t]? = some .fence := hr.1.job h.1.job
  have hheld := hsent.stay hjob hi.2 hr.1 hr.2
  have hback : Minding t .fence w' (answered t (.superReadOnly true) a w') :=
    .answered a hjob nofun
  cases a with
  | error e => exact ⟨hback, hheld.record (e := .answered t (.sql (.superReadOnly true)) (.error e))
      (Bool.and_false _)⟩
  | ok row =>
      obtain ⟨row', hcall'⟩ := hr.2.call _ hcall
      have hrow : row' = some row := by
        have : (w'.state.calls t).any (·.row == some row) = true := hans.2
        simpa [hcall'] using this
      have hshut : shut w' t = true := by simp [shut, hcall', hrow]
      refine ⟨hback, hheld.1, ?_, hheld.2.2, ?_⟩
      · show (w'.log ++ [_]).any (shuts t) = true
        rw [List.any_append]
        simp [shuts, Except.isOk, Except.toBool]
      · exact hi.2.shut t hheld.1 (decide_eq_true hjob) hshut

/-- What a fence has done when it leaves its lock with this status. -/
structure Fenced (t : Nat) (status : Nat) (w₀ w : World sig) : Prop where
  minding : Minding t .fence w₀ w
  away : (w.state.locks .fence).owner ≠ some t
  closed : status = 200 → w.state.fenced = true ∧ w.state.mysqld.writable = false

/-- A fence that leaves its lock with 200 has set the flag and found mysqld read-only. -/
theorem Minding.fenced {status : Nat} (h : Minding t .fence w₀ w)
    (hown : (w.state.locks .fence).owner = some t)
    (hclosed : status = 200 → w.state.fenced = true ∧ w.state.mysqld.writable = false) :
    Fenced t status w₀ (w.edit (.release .fence)) where
  minding := h.edit fun _ => hown
  away := by
    rw [show (w.edit (.release .fence)).state.locks .fence = _ from
      locks_onLock .fence fun m => { m with owner := none }]
    exact fun h => by cases h
  closed := hclosed

/-- Every fence whose SET is done leaves it so. -/
theorem Fencing.fenced (h : Fencing t .closed w₀ w) (status : Nat) :
    Fenced t status w₀ (w.edit (.release .fence)) :=
  h.1.fenced h.2.1 fun _ => h.2.2.2

/-- mysqld is killed, or the answer is not 200. -/
theorem closes_kill :
    Triple fenceBase t .fence (Fencing t .flagged) fenceKillMysqld
      (fun status w₀ w => Fenced t status w₀ (w.edit (.release .fence)))
      fun _ _ _ => False := by
  refine .look fun s => ?_
  split
  -- Mysqld is supervised: the hold is set, and then it is killed.
  · refine .bind (.update (Q := fun _ w₀ w => Fencing t .flagged w₀ w ∧
      w.state.mysqld = s.mysqld) fun w₀ w h => ⟨⟨h.1.1.edit trivial, h.1.2⟩, ?_⟩) fun _ => ?_
    · rw [← h.2]
      rfl
    split
    · refine .bind (.update (Q := fun _ w₀ w => Fencing t .flagged w₀ w ∧
        w.state.mysqld.writable = false) fun w₀ w h => ⟨⟨h.1.1.edit trivial, h.1.2⟩, rfl⟩)
        fun _ => ?_
      -- Killed, nothing is writable, and the exit is waited for.
      refine .bind (Q := fun _ => Fencing t .closed) (.attempt ?_) fun _ =>
        .pure fun w₀ w h => h.fenced 200
      intro w₀ w h _
      have hclosed : Fencing t .closed w₀ (w.issue t .fence .waitExit) := by
        refine ⟨h.1.1.record rfl nofun, h.1.2.1, ?_, h.1.2.2.2, h.2⟩
        show (w.log ++ [_]).any (shuts t) = true
        simp [shuts]
      -- While the fence waits, the others act; the flag stays.
      refine ⟨hclosed.works, fun w' a hi hr _ => ?_⟩
      have hback : Fencing t .closed w' (w'.answer t .waitExit a) :=
        (hclosed.resume hi.2 hr.1 hr.2).record rfl rfl
      cases a <;> exact hback
    -- Mysqld is down already, and it is held there.
    · rename_i hup
      refine .pure fun w₀ w h => h.1.1.fenced h.1.2.1 fun _ => ⟨h.1.2.2.2, ?_⟩
      rw [h.2]
      simp [Mysqld.writable, hup]
  -- Without a supervisor the fence has to say that it failed.
  · exact .pure fun w₀ w h => h.1.1.fenced h.1.2.1 fun hs => absurd hs (by decide)

/-- A fence that returns 200 has set the flag and closed mysqld. -/
theorem closes_fence :
    Triple fenceBase t .fence (Fencing t .waiting) (fence t) (Fenced t)
      fun e w₀ w => e = .os ∧ Fenced t 500 w₀ w := by
  have hlock : ∀ w₀ w, Fencing t .waiting w₀ w → (w.state.locks .fence).owner = none →
      Fencing t .held w₀ (w.edit (.acquire .fence t)) := fun w₀ w h hfree =>
    ⟨h.1.edit fun _ => ⟨rfl, hfree⟩, owner_acquire .fence, h.2⟩
  refine triple_withLock (H := Fencing t .held) hlock (fun w₀ w h _ => ?_) ?_
  · have hq : Fencing t .waiting w₀ (w.edit (.enqueue .fence t)) := ⟨h.1.edit trivial, h.2⟩
    exact ⟨hq.works, fun w' hi hr => hlock w' w' (hq.resume hi.2 hr.1 hr.2)⟩
  have hset : Triple fenceBase t .fence (Fencing t .held) (setFenced true)
      (fun _ => Fencing t .flagged)
      fun e w₀ w => e = .os ∧ Fenced t 500 w₀ (w.edit (.release .fence)) := by
    refine .look fun s => ?_
    split
    · exact .update fun w₀ w h => ⟨h.1.1.edit ⟨rfl, h.1.2.1⟩, h.1.2.1, h.1.2.2, rfl⟩
    · exact .throw fun w₀ w h => ⟨rfl, h.1.1.fenced h.1.2.1 fun hs => absurd hs (by decide)⟩
  refine .bind hset fun _ =>
    .bind (Q := fun r => Fencing t (bif r.isOk then .closed else .flagged)) (.attempt ?_)
      fun r => ?_
  · refine .bind fence_connects fun gen => ?_
    exact .bind (closes_set gen) fun _ => .pure fun _ _ h => h
  cases r with
  | error e => exact closes_kill.conseq (fun _ _ h => h) (fun _ _ _ h => h) fun _ _ _ h => h.elim
  | ok gen =>
      have hkeeps := closed_carries t
      refine .bind (Q := fun _ => Fencing t .closed) ?_ fun _ => .pure fun w₀ w h => h.fenced 200
      -- `fenceAfterSet` raises nothing: what it does is under `attempt`.
      refine .bind (Q := fun _ => Fencing t .closed) (.attempt ?_) fun _ =>
        .bind (Q := fun _ => Fencing t .closed) (.attempt ?_) fun _ => .pure fun _ _ h => h
      · exact hkeeps.keeps says_refreshSample
      · exact hkeeps.keeps (says_bind (says_killClients ⟨rfl, nofun⟩ fun _ => ⟨rfl, nofun⟩)
          fun _ => says_sql ⟨rfl, nofun⟩)

/-- The answer of a fence. -/
theorem fence_replies (status : Nat) (h : Fenced t status w₀ w) :
    (await (.reply status)).wp fenceBase t .fence (fenceBase.Ends t) w₀ w := by
  intro _
  have haway : (w.state.locks .fence).owner = some t →
      w.log.any (shuts t) = true → w.state.mysqld.writable = false :=
    fun hown => absurd hown h.away
  -- Up to the answer itself the segment is one of those that answer nothing.
  have hplain := h.minding.works fun _ => haway
  refine ⟨?_, fun w' a hi hr _ _ => ?_⟩
  · have hmore : ∀ f : Coop.Event sig → Bool, w.log.any f = true →
        (w.issue t .fence (.reply status)).log.any f = true := by
      intro f hf
      show (w.log ++ [_]).any f = true
      rw [List.any_append, hf, Bool.true_or]
    obtain ⟨j, hj, hm⟩ := hplain.minds
    cases Option.some.inj (hj.symm.trans h.minding.started)
    refine ⟨⟨.fence, hj, hm.jobs, hm.mysqld, hm.held, hm.taken, hm.calls, hm.mine, hm.late,
      hm.expired, hm.flag, fun hs => ?_⟩, fun c hc => ?_, fun hown => absurd hown h.away,
      fun hany => ?_⟩
    · refine spent_of (w := w) rfl (hmore _) (hmore _) id (fun hp => ?_) (hm.spent hs)
      cases Option.some.inj (h.minding.job.symm.trans hp)
    · rw [show (w.issue t .fence (.reply status)).state.calls t = none from h.minding.idle] at hc
      cases hc
    · refine h.closed ?_
      obtain ⟨l, hl, hans⟩ := h.minding.log
      have hlog : (w.issue t .fence (.reply status)).log =
          w₀.log ++ (l ++ [.issued t .fence (.reply status) w.state]) := by
        show w.log ++ [_] = _
        rw [hl, List.append_assoc]
      rw [hlog, List.drop_left, List.any_append, hans, Bool.false_or, List.any_cons, List.any_nil,
        Bool.or_false] at hany
      unfold answersFence at hany
      split at hany
      · rename_i heq
        cases heq
        rfl
      · cases hany
  · have hjob : w'.jobs[t]? = some .fence := hr.1.job h.minding.job
    have hmind : Minding t .fence w' w' := .refl hjob (hr.2.idle h.minding.idle)
    refine ((hmind.record (e := .answered t (.reply status) a) rfl (fun hp => by cases hp)).record
      (e := .finished t w'.state) rfl (fun hp => by cases hp)).works fun _ hown =>
        absurd hown (hr.2.away h.away)

/-- A fence does what its contract demands from the first segment to the last. -/
theorem fence_body (node : Node) (h : Fencing t .waiting w₀ w) :
    (body node t .fence).wp fenceBase t .fence (fenceBase.Ends t) w₀ w := by
  refine Prog.wp_seq (closes_fence w₀ w h) fun r w₀ w hr => ?_
  cases r with
  | ok status => exact fence_replies status hr
  | error e =>
      obtain ⟨rfl, hm⟩ := hr
      exact fence_replies _ hm

end

/-! ### The runs -/

/-- The contract is sound over the frame. -/
theorem fencing_sound (node : Node) :
    (frame sig).SoundOver fencing (body node)
      (fun p m p' => environment p m = true ∧ Undisturbed p m p') where
  rely_refl _ _ := .refl
  rely_trans _ _ _ _ := .trans
  rely_of_may _ _ _ _ hne _ _ _ h := h.waits hne
  rely_arrive p j p' t _ _ :=
    ⟨fun h => ⟨h, rfl⟩, fun h => h, fun c hc => ⟨c.row, hc⟩, fun h => h, rfl⟩
  rely_outside p u p' t ho _ := waits_outside ho.1
  rely_land p t' r p' t ho _ := by cases ho.1
  rely_resend p t' r p' t ho _ := by cases ho.1
  inv_may _ _ _ _ hs ha h := h.sane hs ha
  -- A new task has no statement on its way and holds no lock.
  inv_arrive p j p' _ hs := by
    have hjobs : ∀ {t : Nat} {j' : Job}, p.world.jobs[t]? = some j' →
        (p.world.arrive j).jobs[t]? = some j' := fun hj' =>
      (List.getElem?_append_left (List.getElem?_eq_some_iff.mp hj').1).trans hj'
    refine ⟨fun t c hc hop => ?_, fun t hown hfence => ?_, fun t ht => hs.new t ?_⟩
    · obtain ⟨⟨j', hj', hl⟩, hover, hp⟩ := hs.said t c hc hop
      refine ⟨⟨j', hjobs hj', hl⟩, hover, fun hpj => hp ?_⟩
      rw [hjobs hj'] at hpj
      exact hj'.trans hpj
    · refine hs.shut t hown ?_
      have hlt : t < p.world.jobs.length := by
        by_contra hge
        exact (hs.new t (Nat.le_of_not_lt hge)).2.2 hown
      exact does_iff.mpr ((List.getElem?_append_left hlt).symm.trans (does_iff.mp hfence))
    · exact le_trans (List.prefix_append p.world.jobs [j]).length_le ht
  inv_outside p u p' ho hs := sane_outside ho.1 ho.2 hs
  inv_land p t r p' ho _ := by cases ho.1
  inv_resend p t r p' ho _ := by cases ho.1
  pre_rely _ _ _ _ h _ hr := ⟨hr.idle h.1, hr.mine.trans h.2.1, hr.away h.2.2⟩
  -- A task that this one creates has none either.
  pre_may t w₀ w t' j _ hs ha h hlen _ := by
    obtain ⟨j', -, hm⟩ := h.minds
    have hne : t' ≠ t := Nat.ne_of_gt (lt_of_lt_of_le ha.lt hlen)
    obtain ⟨hcalls, hmine, hown⟩ := hs.new t' hlen
    exact ⟨(hm.calls t' hne).trans hcalls, (hm.mine t' hne).trans hmine,
      fun h => hown (hm.taken t' hne h)⟩
  pre_arrive p j p' _ hs := hs.new _ (le_refl _)
  allowed_start _ _ _ _ := trivial
  allowed_answer _ _ _ _ _ := trivial
  allowed_wake _ _ _ _ := trivial
  answers_ok p t f p' r k ho hp := by
    have h := ho.1
    simp only [environment, hp] at h
    exact h
  body_wp t j w _ _ hj hown hpre := by
    have hnone : ∀ f : Coop.Event sig → Bool, (∀ e, f e = true → e.isBy t = true) →
        w.log.any f = false := by
      intro f hf
      rw [any_own hf, hown.2]
      rfl
    -- A fence goes through its stages; every other job only has to mind them.
    by_cases hfence : j = .fence
    · subst hfence
      exact fence_body node ⟨.refl hj hpre.1, hnone _ fun _ => isBy_of_shuts⟩
    · exact minds_body node hfence ⟨.refl hj hpre.1, hpre.2.1, hnone _ fun _ => isBy_of_isThrough,
        hnone _ fun _ => isBy_of_hasOpened⟩

/-- The frame and the fence. -/
theorem fenceBase_sound (node : Node) :
    ((frame sig).both fencing).Sound (body node)
      (fun p m p' => environment p m = true ∧ Undisturbed p m p') :=
  (Coop.frame_sound _ _).both (fencing_sound node)

/-- The contracts of the frame and of the fence hold in every undisturbed run. -/
theorem fencing_holds {node : Node} {s : Agent} {p : Pool sig} (hs : Unused s)
    (hr : Runs node s Undisturbed p) : ((frame sig).both fencing).Holds p := by
  have hinit : ((frame sig).both fencing).inv (Pool.init s []).world := by
    refine ⟨fun e he => absurd he List.not_mem_nil, fun t c hc => ?_, fun t hown => ?_,
      fun t _ => ⟨hs.calls t, ?_, fun hown => ?_⟩⟩
    · cases (hs.calls t).symm.trans hc
    · cases hs.owner.symm.trans hown
    · show s.sessions.filter _ = []
      rw [hs.sessions]
      rfl
    · cases hs.owner.symm.trans hown
  exact (fenceBase_sound node).holds_reach
    (Contract.holds_init hinit fun t j hj => absurd hj (by simp)) hr

/-- What holds from the answer of a fence on. -/
structure Lasting (p : Pool sig) : Prop where
  fenced : p.world.state.fenced = true
  closed : p.world.state.mysqld.writable = false
  past : ∀ t j, p.world.jobs[t]? = some j → j.lifts = true → spent p.world t = true
  late : ∀ c ∈ p.world.state.late, c.stmt.opens = true →
    p.world.state.dead (c.gen, c.session) = true

/-- No SET of super_read_only=0 that a task waits for can reach mysqld. -/
theorem Lasting.call {p : Pool sig} {t : Nat} {c : Call} (h : Lasting p) (hs : Sane p.world)
    (hc : p.world.state.calls t = some c) (hop : c.stmt.opens = true) :
    p.world.state.dead (c.gen, c.session) = true := by
  obtain ⟨⟨j, hj, hl⟩, hover, hpromote⟩ := hs.said t c hc hop
  rcases spent_iff.mp (h.past t j hj hl) with ho | ⟨hp, hwhy⟩
  · rw [hover] at ho
    cases ho
  · obtain ⟨hopened, hmine⟩ := hpromote hp
    rcases hwhy with hstranded | ⟨ho, -⟩
    · exact (stranded_iff.mp hstranded).2.1 _ hmine
    · rw [hopened] at ho
      cases ho

/-- mysqld executes nothing on a dead session. -/
theorem not_dead {s : Agent} {c : Call} (hup : s.mysqld.up = true) (hgen : c.gen = s.mysqld.gen)
    (hlive : c.session ∉ s.mysqld.killed) : s.dead (c.gen, c.session) = false := by
  rw [← Bool.not_eq_true, dead_iff]
  rintro (hlt | ⟨-, hdown | hkilled⟩)
  · exact absurd hgen (Nat.ne_of_lt hlt)
  · rw [hup] at hdown
    cases hdown
  · exact hlive hkilled

/-- No statement that is left opens mysqld. -/
theorem Lasting.shut {p : Pool sig} {u : Update} (h : Lasting p) (hs : Sane p.world)
    (ho : p.world.state.outside u = true) : p.world.state.opens u = false := by
  cases u with
  | execute t row =>
      obtain ⟨c, hc, hgen, -, -, hup, hlive⟩ := of_outside_execute ho
      show (p.world.state.calls t).any (·.stmt.opens) = false
      rw [hc, Option.any_some, ← Bool.not_eq_true]
      intro hop
      have hdead := h.call hs hc hop
      rw [not_dead hup hgen hlive] at hdead
      cases hdead
  | land k =>
      obtain ⟨c, hc, hgen, hup, hlive⟩ := of_outside_land ho
      show (p.world.state.late[k]?).any (·.stmt.opens) = false
      rw [hc, Option.any_some, ← Bool.not_eq_true]
      intro hop
      have hdead := h.late c (List.mem_of_getElem? hc) hop
      rw [not_dead hup hgen hlive] at hdead
      cases hdead
  | _ => rfl

/-- From the answer on, no step is disturbed: there is nobody left to do it. -/
theorem Lasting.undisturbed {p p' : Pool sig} {m : Move sig} (h : Lasting p) (hs : Sane p.world)
    (he : environment p m = true) : Undisturbed p m p' := by
  cases m with
  | outside u => exact fun _ => h.shut hs he
  | _ => trivial

/-- A segment of any task. -/
theorem Lasting.segment {p p' : Pool sig} {t : Nat} (h : Lasting p) (hs : Sane p.world)
    (ha : Adds t p.world p'.world) (hw : Works t p.world p'.world) : Lasting p' := by
  obtain ⟨j, hj, hm⟩ := hw.minds
  have hdead : ∀ x, p.world.state.dead x = true → p'.world.state.dead x = true :=
    fun x => dead_of_mysqld hm.mysqld
  refine ⟨hm.flag ?_ h.fenced, hm.writable h.closed, fun t' j' hj' hl' => ?_, fun c hc hop => ?_⟩
  · cases hl : j.lifts with
    | false => exact .inl rfl
    | true => exact .inr (h.past t j hj hl)
  · rw [hm.jobs] at hj'
    have hbefore := h.past t' j' hj' hl'
    by_cases ht : t' = t
    · subst ht
      exact hm.spent hbefore
    · refine spent_of_grows (ha.grows (Ne.symm ht)) (List.getElem?_eq_some_iff.mp hj').1
        (hm.mine t' ht) hdead (by rw [hm.expired]; exact id) (fun hc c hc' => ?_) hbefore
      rw [hm.calls t' ht] at hc'
      exact hc c hc'
  · rcases hm.late c hc with hold | hcall
    · exact hdead _ (h.late c hold hop)
    · exact hdead _ (h.call hs hcall hop)

/-- A change from outside. -/
theorem Lasting.outside {p : Pool sig} {u : Update} (h : Lasting p) (hs : Sane p.world)
    (ho : p.world.state.outside u = true) : Lasting { p with world := p.world.edit u } := by
  have hsp : Passes p.world.state (p.world.edit u).state := passes_outside ho
  refine ⟨hsp.fenced.trans h.fenced, writable_outside ho (h.shut hs ho) h.closed,
    fun t j hj hl => ?_, fun c hc hop => ?_⟩
  · refine spent_of_grows (w := p.world) ⟨List.prefix_refl _, List.prefix_refl _, rfl⟩
      (List.getElem?_eq_some_iff.mp hj).1 (hsp.mine t) hsp.dead (hsp.expired ·)
      (fun hnone c hc hop => ?_) (h.past t j hj hl)
    -- The SET of a stranded task is not the statement that mysqld executes.
    cases u with
    | execute t' row =>
        obtain ⟨c₀, hc₀, -⟩ := of_outside_execute ho
        have he : (p.world.edit (.execute t' row)).state = _ := execute_of_call row hc₀
        by_cases ht : t = t'
        · subst ht
          have hcall : (p.world.edit (.execute t row)).state.calls t =
              some { c₀ with row := some row } := by
            rw [he]
            exact Function.update_self (f := p.world.state.calls) _ _
          cases hcall.symm.trans hc
          have hquiet : (p.world.state.calls t).any (·.stmt.opens) = false := h.shut hs ho
          rw [hc₀] at hquiet
          have hop' : c₀.stmt.opens = true := hop
          rw [Option.any_some, hop'] at hquiet
          cases hquiet
        · have hsame : (p.world.edit (.execute t' row)).state.calls t = p.world.state.calls t := by
            rw [he]
            exact Function.update_of_ne ht _ _
          exact hnone c (hsame.symm.trans hc) hop
    | land k =>
        obtain ⟨c₀, hc₀, -⟩ := of_outside_land ho
        have he : (p.world.edit (.land k)).state = _ := land_of_late hc₀
        rw [he] at hc
        exact hnone c hc hop
    | boot b | crash | expire t' | disk b => exact hnone c hc hop
    | _ => cases ho
  · refine hsp.dead _ (h.late c ?_ hop)
    cases u with
    | execute t' row =>
        obtain ⟨c₀, hc₀, -⟩ := of_outside_execute ho
        have he : (p.world.edit (.execute t' row)).state = _ := execute_of_call row hc₀
        rw [show ({ p with world := p.world.edit (.execute t' row) } : Pool sig).world.state = _
          from he] at hc
        exact hc
    | land k =>
        obtain ⟨c₀, hc₀, -⟩ := of_outside_land ho
        have he : (p.world.edit (.land k)).state = _ := land_of_late hc₀
        rw [show ({ p with world := p.world.edit (.land k) } : Pool sig).world.state = _
          from he] at hc
        exact List.mem_of_mem_eraseIdx hc
    | boot b | crash | expire t' | disk b => exact hc
    | _ => cases ho

/-- One step after the answer. -/
theorem Lasting.fire {node : Node} {p p' : Pool sig} {m : Move sig} (h : Lasting p)
    (hh : ((frame sig).both fencing).Holds p) (hf : p.fire (body node) m = some p')
    (he : environment p m = true) (hm : Move.lifts m = false) : Lasting p' := by
  have hs : Sane p.world := hh.inv.2
  have htask : ∀ t, m.task = some t → Lasting p' := by
    intro t ht
    obtain ⟨ha, hw⟩ := (fenceBase_sound node).may_of_fire hh hf ⟨he, h.undisturbed hs he⟩ ht
    exact h.segment hs ha hw
  cases m with
  | start t | answer t _ | wake t => exact htask t rfl
  | arrive j =>
      cases hf
      refine ⟨h.fenced, h.closed, fun t j' hj' hl' => ?_, h.late⟩
      rcases Nat.lt_or_ge t p.world.jobs.length with hlt | hge
      · refine spent_of_grows (w := p.world)
          ⟨List.prefix_append _ _, List.prefix_refl _, rfl⟩ hlt rfl (fun _ hx => hx) id
          (fun hc => hc) (h.past t j' ?_ hl')
        exact (List.getElem?_append_left hlt).symm.trans hj'
      · have hj'' : (p.world.jobs ++ [j])[t]? = some j' := hj'
        rw [List.getElem?_append_right hge] at hj''
        have hmem : j' ∈ [j] := List.mem_of_getElem? hj''
        obtain rfl := List.mem_singleton.mp hmem
        have hl : Job.lifts j' = false := hm
        rw [hl] at hl'
        cases hl'
  | outside u =>
      cases hf
      exact h.outside hs he
  | land t r | resend t r => cases he

/-- The answer of a fence begins the time in which it lasts. -/
theorem lasting_of_answer {node : Node} {p p' : Pool sig} {m : Move sig}
    (hh : ((frame sig).both fencing).Holds p) (hf : p.fire (body node) m = some p')
    (he : environment p m = true) (hu : Undisturbed p m p') (ha : fenceAnswered p p' = true)
    (hq : unopposed p' = true) : Lasting p' := by
  simp only [unopposed, Bool.and_eq_true, List.all_eq_true, List.mem_range] at hq
  obtain ⟨htasks, hlate⟩ := hq
  have hanswer : p'.world.state.fenced = true ∧ p'.world.state.mysqld.writable = false := by
    cases ht : m.task with
    | some t => exact ((fenceBase_sound node).may_of_fire hh hf ⟨he, hu⟩ ht).2.answers ha
    | none =>
        cases m with
        | start t | answer t _ | wake t => cases ht
        | arrive j | outside u =>
            cases hf
            rw [fenceAnswered] at ha
            simp at ha
        | land t r | resend t r => cases he
  refine ⟨hanswer.1, hanswer.2, fun t j hj hl => ?_, fun c hc hop => ?_⟩
  · have htask := htasks t (List.getElem?_eq_some_iff.mp hj).1
    rw [hj] at htask
    have : (!Job.lifts j || spent p'.world t) = true := htask
    rw [hl] at this
    exact this
  · have := hlate c hc
    rw [hop] at this
    exact this

/-- From the answer of a fence on, the flag is set and mysqld is read-only. -/
theorem fence_lasts {node : Node} {s : Agent} {p p' q : Pool sig} {m : Move sig}
    (hs : Unused s) (hr : Runs node s Undisturbed p)
    (hf : p.fire (body node) m = some p') (he : environment p m = true)
    (hu : Undisturbed p m p') (ha : fenceAnswered p p' = true) (hq : unopposed p' = true)
    (hr' : Coop.Reach (body node)
      (fun p m _ => environment p m = true ∧ Move.lifts m = false) p' q) :
    q.world.state.fenced = true ∧ q.world.state.mysqld.writable = false := by
  have hp' : Runs node s Undisturbed p' := .step m hr hf ⟨he, hu⟩
  have hlast : Runs node s Undisturbed q ∧ Lasting q := by
    induction hr' with
    | refl => exact ⟨hp', lasting_of_answer (fencing_holds hs hr) hf he hu ha hq⟩
    | step m' _ hf' ho ih =>
        obtain ⟨hrun, hl⟩ := ih
        have hh := fencing_holds hs hrun
        exact ⟨.step m' hrun hf' ⟨ho.1, hl.undisturbed hh.inv.2 ho.1⟩, hl.fire hh hf' ho.1 ho.2⟩
  exact ⟨hlast.2.fenced, hlast.2.closed⟩

/-- The replica of the examples is unused. -/
theorem unused_replica : Unused replica := ⟨fun _ => rfl, rfl, rfl⟩

/-- A fence as task `t` up to the last read. It kills the sessions that it lists. -/
def fenceRead (t : Nat) (ids : List SessionId) : List (Move sig) :=
  [.arrive .fence, .start t, did t] ++ ran t .none ++ [did t] ++ ran t (.threads ids) ++
    ids.flatMap (fun _ => ran t .none) ++ [.outside (.execute t .none)]

/-- The start of a configure as task `t`, which finds the node fenced. -/
def configured (t : Nat) : List (Move sig) :=
  [.arrive (.configure none), .start t, did t] ++ ran t (.superReadOnly true) ++
    ran t (.semisync false false) ++ ran t .none ++ ran t (.ioRunning false)

/-- A promote has begun when the fence kills its session. The replica stays fenced through the
failure of the promote and a configure. -/
theorem fenced_when_configured :
    ∃ q : Pool sig, q.world.state.mysqld.replicaEnabled = true ∧
      q.world.state.fenced = true ∧ q.world.state.mysqld.writable = false := by
  have hrun : (play "a" (fun p m => decide (Undisturbed p m p)) (Pool.init replica [])
      ([.arrive .promote, .start 0, did 0] ++ fenceRead 1 [⟨0, 1⟩])).any (fun p =>
        environment p (did 1) && decide (Undisturbed p (did 1) p) &&
          (p.fire (body "a") (did 1)).any fun p' => fenceAnswered p p' && unopposed p' &&
            (play "a" (fun _ m => !Move.lifts m) p'
              ([failed 0 (some 2013), did 0] ++ configured 2)).any fun q =>
                q.world.state.mysqld.replicaEnabled) = true := by decide +kernel
  obtain ⟨p, hp, h⟩ := (Option.any_eq_true _ _).mp hrun
  simp only [Bool.and_eq_true] at h
  obtain ⟨⟨he, hu⟩, h⟩ := h
  obtain ⟨p', hf, h⟩ := (Option.any_eq_true _ _).mp h
  simp only [Bool.and_eq_true] at h
  obtain ⟨⟨ha, hq⟩, h⟩ := h
  obtain ⟨q, hplay, henabled⟩ := (Option.any_eq_true _ _).mp h
  refine ⟨q, henabled, fence_lasts (s := replica) unused_replica
    (reach_of_play (fun p m p' h => ?_) hp) hf he (of_decide_eq_true hu) ha hq
    (reach_of_play (fun p m p' h => ?_) hplay)⟩
  · exact of_decide_eq_true h
  · simpa using h

/-- A promote waits for its connection when a fence begins and ends. Behind the fence it makes
mysqld writable. -/
theorem fence_overtaken :
    ¬ ∀ (node : Node) (s : Agent) (p p' q : Pool sig) (m : Move sig),
      Unused s → Runs node s (fun _ _ _ => True) p →
      p.fire (body node) m = some p' → environment p m = true →
      fenceAnswered p p' = true → rebuildRuns p' = false →
      Coop.Reach (body node) (fun p m _ => environment p m = true ∧ Move.lifts m = false) p' q →
      q.world.state.fenced = true ∧ q.world.state.mysqld.writable = false := by
  intro h
  have hrun : (play "a" (fun _ _ => true) (Pool.init replica [])
      ([.arrive .promote, .start 0] ++ fenceRead 1 [])).any (fun p => environment p (did 1) &&
          (p.fire (body "a") (did 1)).any fun p' => fenceAnswered p p' && !rebuildRuns p' &&
            (play "a" (fun _ m => !Move.lifts m) p'
              ((promoteSent 0).drop 2 ++ [.outside (.execute 0 .none)])).any
                fun q => q.world.state.mysqld.writable) = true := by decide +kernel
  obtain ⟨p, hp, hstep⟩ := (Option.any_eq_true _ _).mp hrun
  simp only [Bool.and_eq_true] at hstep
  obtain ⟨he, hstep⟩ := hstep
  obtain ⟨p', hf, hq⟩ := (Option.any_eq_true _ _).mp hstep
  simp only [Bool.and_eq_true] at hq
  obtain ⟨⟨ha, hreb⟩, hq⟩ := hq
  obtain ⟨q, hplay, hw⟩ := (Option.any_eq_true _ _).mp hq
  have hshut := (h "a" replica p p' q (did 1) unused_replica
    (reach_of_play (fun _ _ _ _ => trivial) hp) hf he ha (by simpa using hreb)
    (reach_of_play (fun p m p' h => by simpa using h) hplay)).2
  rw [hw] at hshut
  cases hshut

end Agent

end DbGuard
