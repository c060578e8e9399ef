import DbGuard.Proofs.Agent.Fenced
import DbGuard.Proofs.Agent.Rebuild

/-!
# `DbGuard.Proofs.Agent.Semisync`: writable only with the source side on

promote switches the source side of semi-sync on before it makes mysqld writable, and repoint
makes mysqld read-only before it switches the source side off. configure decides from the fence
flag and a read of super_read_only. The two disagree after a promote that was cut short before it
cleared the flag, and during a fence, whose flag goes first: a configure then switches the source
side off on a writable mysqld.

`Prudent` leaves this out, a rebuild that gives up on a writable mysqld without the source side,
and a SET that was given up and is executed later, where it does harm. `backing` is the contract,
over the one of the role lock. What the holder of the lock sends fits what mysqld is (`Fits`), and
what it has made of mysqld stays until it opens it again (`Job.secured`).
-/

set_option autoImplicit false

namespace DbGuard

/-- The statement switches the source side off. -/
def Stmt.darkens (q : Stmt) : Bool := q = .sourceEnabled false

namespace Mysqld

variable (m : Mysqld)

/-- Clients cannot write, or their commits wait for a replica. -/
def covered : Bool := !m.writable || m.sourceEnabled

/-- A session to the mysqld of generation `gen` has the source side on, or has ended. -/
def Lit (gen : Nat) : Prop := gen < m.gen ∨ gen = m.gen ∧ m.sourceEnabled = true

variable {m} {q : Stmt} {gen : Nat}

/-- A mysqld that is not writable is covered. -/
theorem covered_of_shut (h : m.writable = false) : m.covered = true := by
  simp [covered, h]

/-- One whose source side is on is covered. -/
theorem covered_of_source (h : m.sourceEnabled = true) : m.covered = true := by
  simp [covered, h]

/-- Only a statement that darkens it switches the source side off. -/
theorem source_exec (hq : q.darkens = false) (h : m.sourceEnabled = true) :
    (m.exec q).sourceEnabled = true := by
  cases q with
  | sourceEnabled b =>
      cases b with
      | true => rfl
      | false => cases hq
  | _ => exact h

/-- A statement that neither opens mysqld nor darkens it keeps it covered. -/
theorem covered_exec (hopens : q.opens = false) (hdarkens : q.darkens = false)
    (h : m.covered = true) : (m.exec q).covered = true := by
  cases hw : m.writable with
  | false => exact covered_of_shut (writable_exec hopens hw)
  | true =>
      have hon : m.sourceEnabled = true := by simpa [covered, hw] using h
      exact covered_of_source (source_exec hdarkens hon)

/-- Only a statement that darkens it makes a session's mysqld unlit. -/
theorem Lit.exec (hq : q.darkens = false) (h : m.Lit gen) : (m.exec q).Lit gen := by
  rw [Lit, gen_exec]
  exact h.imp_right fun h => ⟨h.1, source_exec hq h.2⟩

/-- The sessions to a mysqld end with it. -/
theorem Lit.boot (b : Bool) (h : m.Lit gen) : (m.boot b).Lit gen := by
  refine .inl (Nat.lt_succ_of_le ?_)
  rcases h with h | ⟨rfl, -⟩
  · exact Nat.le_of_lt h
  · exact le_refl _

end Mysqld

namespace Agent

open Coop (Prog Pool Move World Contract Triple Assertion Outcome Adds Grows frame)

/-! ### The condition -/

/-- The requests that switch the source side off. -/
def Job.turnsOff : Job → Bool
  | .repoint _ | .configure _ => true
  | .fence | .unfence | .promote | .rebuild _ => false

/-- A role change of this kind holds the role lock. -/
def underWay (w : World sig) (f : Job → Bool) : Bool :=
  w.state.holder.any fun t => (w.jobs[t]?).any f

/-- The answer says that no session waits for an ack. -/
def unwaited : (r : Req) → r.Resp → Bool
  | .sql .showWaitSessions, a =>
    match (a : Except Failure Row) with
    | .ok (.waitSessions (some n)) => n == 0
    | .ok _ => true
    | .error _ => false
  | _, _ => false

/-- By this move a configure that wants the source side off reads that no session waits for an
ack, and goes on to switch it off. -/
def switchesOff (p : Pool sig) : Move sig → Bool
  | .answer t f =>
    match p.progs t with
    | some (.await r _) => unwaited r (f r)
    | _ => false
  | _ => false

/-- By this move mysqld executes a SET that was given up: it gets writable with the source side
off or under a repoint or configure, or the source side goes off on a writable mysqld or under a
promote. -/
def strays (p : Pool sig) : Move sig → Bool
  | .outside (.land k) => (p.world.state.late[k]?).any fun c =>
      c.stmt.opens &&
        (!p.world.state.mysqld.sourceEnabled || underWay p.world Job.turnsOff) ||
      c.stmt.darkens && (p.world.state.mysqld.writable || underWay p.world (· == .promote))
  | _ => false

/-- `semisync` stays set. A configure switches the source side off on a mysqld that is not
writable. While mysqld is writable with the source side off under a rebuild, no wait of it fails
but that of CLONE, with an error that is bearable. A SET that was given up does no harm. -/
def Prudent (p : Pool sig) (m : Move sig) (p' : Pool sig) : Prop :=
  p'.world.state.semisync = true ∧
  (switchesOff p m = true → p.world.state.mysqld.writable = false) ∧
  (givesUp p m = true → p.world.state.rebuilding = true →
    p.world.state.mysqld.covered = true) ∧
  strays p m = false

/-! ### The contract -/

/-- What a role change can rely on once it has made mysqld read-only. -/
def Job.secured : Job → Mysqld → Prop
  | .repoint _, m | .configure _, m => m.writable = false
  | .rebuild _, m => m.covered = true
  | .fence, _ | .unfence, _ | .promote, _ => True

/-- The statement that a role change with job `j` waits for fits what mysqld is. -/
structure Fits (j : Job) (s : Agent) (gen : Nat) (q : Stmt) (row : Option Row) : Prop where
  opens : q.opens = true → row = none → s.rebuilding = true ∨ j = .promote ∧ s.mysqld.Lit gen
  darkens : q.darkens = true → j.turnsOff = true ∧ (row = none → s.mysqld.writable = false)
  lit : j = .promote → q = .sourceEnabled true → row ≠ none → s.mysqld.Lit gen
  shut : q = .superReadOnly true → row ≠ none → j.secured s.mysqld

/-- What holds between any two segments. -/
structure Backed (w : World sig) : Prop where
  semisync : w.state.semisync = true
  covered : w.state.rebuilding = false → w.state.mysqld.covered = true
  fits : ∀ t j c, w.state.holder = some t → w.jobs[t]? = some j → w.state.calls t = some c →
    Fits j w.state c.gen c.stmt c.row

/-- Task `t` has no SET of super_read_only=0 on its way. -/
def Quiet (t : Nat) (s : Agent) : Prop := ∀ c, s.calls t = some c → c.stmt.opens = false

/-- What a role change that waits for no SET of super_read_only=0 can rely on. -/
def Assured (t : Nat) (w w' : World sig) : Prop :=
  ∀ j, w.jobs[t]? = some j → w.state.holder = some t → Quiet t w.state →
    w'.jobs[t]? = some j ∧ w'.state.holder = some t ∧ Quiet t w'.state ∧
      (j.secured w.state.mysqld → j.secured w'.state.mysqld)

/-- A segment that clears `rebuilding` leaves mysqld covered. -/
def Steady (w₀ w : World sig) : Prop :=
  w.state.rebuilding = w₀.state.rebuilding ∨ w.state.rebuilding = true ∨
    w.state.mysqld.covered = true

/-- What a segment of task `t` does. -/
structure Backs (t : Nat) (w₀ w : World sig) : Prop where
  semisync : w.state.semisync = true
  steady : Steady w₀ w
  fits : ∀ j c, w.state.holder = some t → w.jobs[t]? = some j → w.state.calls t = some c →
    Fits j w.state c.gen c.stmt c.row

/-- Where mysqld is writable, the source side is on. -/
def backing : Contract sig where
  inv := Backed
  rely := Assured
  allowed _ _ w := w.state.semisync = true
  answers t w r a := (unwaited r a = true → w.state.mysqld.writable = false) ∧
    (isRebuild w.jobs t = true → fails r a = true → w.state.rebuilding = true →
      w.state.mysqld.covered = true)
  may := Backs
  pre _ _ _ := True

section
variable {t t' gen : Nat} {j : Job} {s s' : Agent} {c : Call} {m : Mysqld} {q q' : Stmt}
  {row : Option Row} {w w' w'' w₀ : World sig}

/-- On a mysqld that is not writable every role change can rely on what it needs. -/
theorem secured_of_shut (h : m.writable = false) : j.secured m := by
  cases j with
  | repoint _ | configure _ => exact h
  | rebuild _ => exact Mysqld.covered_of_shut h
  | _ => trivial

/-- What a mysqld with the source side on is to a request that leaves it on. -/
theorem secured_of_source (hj : j.turnsOff = false) (h : m.sourceEnabled = true) :
    j.secured m := by
  cases j with
  | repoint _ | configure _ => cases hj
  | rebuild _ => exact Mysqld.covered_of_source h
  | _ => trivial

/-- It still can after a statement that does not open, and darkens only where the job does. -/
theorem secured_exec (hopens : q.opens = false) (hdarkens : q.darkens = true → j.turnsOff = true)
    (h : j.secured m) : j.secured (m.exec q) := by
  cases j with
  | repoint _ | configure _ => exact Mysqld.writable_exec hopens h
  | rebuild _ =>
      refine Mysqld.covered_exec hopens ?_ h
      by_contra hd
      exact absurd (hdarkens (by simpa using hd)) (by simp [Job.turnsOff])
  | _ => trivial

/-- What a segment does to mysqld. -/
def Spares (m m' : Mysqld) : Prop := m' = m ∨ m' = { m with up := false }

/-- A restart or an exit keeps mysqld covered. -/
theorem Spares.covered {m' : Mysqld} (hm : Spares m m') (h : m.covered = true) :
    m'.covered = true := by
  rcases hm with rfl | rfl
  · exact h
  · rfl

/-- It keeps what a role change relies on. -/
theorem Spares.secured {m' : Mysqld} (hm : Spares m m') (h : j.secured m) : j.secured m' := by
  rcases hm with rfl | rfl
  · exact h
  · exact secured_of_shut (Mysqld.writable_down m)

/-- A segment that leaves `rebuilding` as it is. -/
theorem Fits.spare (hm : Spares s.mysqld s'.mysqld) (hr : s'.rebuilding = s.rebuilding)
    (h : Fits j s gen q row) : Fits j s' gen q row := by
  have hlit : s.mysqld.Lit gen → s'.mysqld.Lit gen := by
    intro hl
    rcases hm with hm | hm <;> rw [hm] <;> exact hl
  refine ⟨fun ho hrow => ?_, fun hd => ⟨(h.darkens hd).1, fun hrow => ?_⟩,
    fun hj hq hrow => hlit (h.lit hj hq hrow), fun hq hrow => hm.secured (h.shut hq hrow)⟩
  · rw [hr]
    exact (h.opens ho hrow).imp_right fun h => ⟨h.1, hlit h.2⟩
  · have hw := (h.darkens hd).2 hrow
    rcases hm with hm | hm <;> rw [hm]
    · exact hw
    · exact Mysqld.writable_down _

/-- A statement of somebody else. -/
theorem Fits.exec (hopens : q'.opens = false) (hdarkens : q'.darkens = false)
    (hm : s'.mysqld = s.mysqld.exec q') (hr : s'.rebuilding = s.rebuilding)
    (h : Fits j s gen q row) : Fits j s' gen q row := by
  refine ⟨fun ho hrow => ?_, fun hd => ⟨(h.darkens hd).1, fun hrow => ?_⟩,
    fun hj hq hrow => ?_, fun hq hrow => ?_⟩ <;> rw [hm]
  · rw [hr]
    exact (h.opens ho hrow).imp_right fun h => ⟨h.1, h.2.exec hdarkens⟩
  · exact Mysqld.writable_exec hopens ((h.darkens hd).2 hrow)
  · exact (h.lit hj hq hrow).exec hdarkens
  · refine secured_exec hopens (fun hd => ?_) (h.shut hq hrow)
    rw [hdarkens] at hd
    cases hd

/-- The statement itself is executed. -/
theorem Fits.done {row' : Row} (hgen : gen = s.mysqld.gen) (hm : s'.mysqld = s.mysqld.exec q)
    (h : Fits j s gen q row) : Fits j s' gen q (some row') where
  opens _ hrow := by cases hrow
  darkens hd := ⟨(h.darkens hd).1, (fun hrow => by cases hrow)⟩
  lit _ hq _ := by
    rw [hm, hq]
    exact .inr ⟨hgen, rfl⟩
  shut hq _ := by
    rw [hm, hq]
    exact secured_of_shut (Mysqld.writable_exec_readOnly _)

/-- mysqld stays covered when it executes a statement that fits. -/
theorem Fits.covered (hgen : gen = s.mysqld.gen) (hrow : row = none)
    (hcov : s.rebuilding = false → s.mysqld.covered = true) (h : Fits j s gen q row) :
    s.rebuilding = false → (s.mysqld.exec q).covered = true := by
  intro hreb
  cases ho : q.opens with
  | true =>
      rcases h.opens ho hrow with hr | ⟨-, hlit⟩
      · rw [hreb] at hr
        cases hr
      · have hon : s.mysqld.sourceEnabled = true := by
          rcases hlit with hlt | hlit
          · exact absurd hgen (Nat.ne_of_lt hlt)
          · exact hlit.2
        have hq : q = .superReadOnly false := by simpa [Stmt.opens] using ho
        rw [hq]
        exact Mysqld.covered_of_source hon
  | false =>
      cases hd : q.darkens with
      | true => exact Mysqld.covered_of_shut (Mysqld.writable_exec ho ((h.darkens hd).2 hrow))
      | false => exact Mysqld.covered_exec ho hd (hcov hreb)

/-- A statement on its way fits after a boot as it did before. -/
theorem Fits.boot (b : Bool) (h : Fits j s gen q row) :
    Fits j ((Update.boot b).apply s) gen q row where
  opens ho hrow := (h.opens ho hrow).imp_right fun h => ⟨h.1, h.2.boot b⟩
  darkens hd := ⟨(h.darkens hd).1, fun _ => Mysqld.writable_boot _ b⟩
  lit hj hq hrow := (h.lit hj hq hrow).boot b
  shut _ _ := secured_of_shut (Mysqld.writable_boot _ b)

/-- Nothing happens. -/
theorem Assured.refl : Assured t w w := fun _ hj hown hq => ⟨hj, hown, hq, fun h => h⟩

/-- What it relies on holds over several moves. -/
theorem Assured.trans (h : Assured t w w') (h' : Assured t w' w'') : Assured t w w'' := by
  intro j hj hown hq
  obtain ⟨hj', hown', hq', hs⟩ := h j hj hown hq
  obtain ⟨hj'', hown'', hq'', hs'⟩ := h' j hj' hown' hq'
  exact ⟨hj'', hown'', hq'', fun h => hs' (hs h)⟩

/-- A segment of another task. -/
theorem Orderly.assured (hne : t ≠ t') (ha : Adds t w₀ w) (h : Orderly t w₀ w) :
    Assured t' w₀ w := by
  intro j hj hown hq
  refine ⟨(ha.grows hne).job hj, (h.turns.held t' (Ne.symm hne) hown).1, fun c hc => ?_,
    fun hs => Spares.secured h.turns.mysqld hs⟩
  exact hq c ((h.turns.calls t' (Ne.symm hne)).symm.trans hc)

/-- A segment keeps the invariant. -/
theorem Backs.backed (ho : Ordered w₀) (hi : Backed w₀) (ha : Adds t w₀ w) (h : Orderly t w₀ w)
    (hb : Backs t w₀ w) : Backed w where
  semisync := hb.semisync
  covered hreb := by
    -- The segment left `rebuilding` as it was, set it, or left mysqld covered when it cleared it.
    rcases hb.steady with hsame | htrue | hcov
    · exact Spares.covered h.turns.mysqld (hi.covered (hsame.symm.trans hreb))
    · rw [hreb] at htrue
      cases htrue
    · exact hcov
  fits t' j c hown hj hc := by
    -- The statement is this task's own, or one that was on its way before and still fits.
    by_cases hne : t' = t
    · subst hne
      exact hb.fits j c hown hj hc
    · have hbefore := h.turns.taken t' hne hown
      have hlt : t' < w₀.jobs.length := by
        by_contra hge
        exact (ho.new t' (Nat.le_of_not_lt hge)).2 hbefore
      have hj₀ : w₀.jobs[t']? = some j := by
        obtain ⟨l, hl⟩ := ha.jobs
        rw [← hl, List.getElem?_append_left hlt] at hj
        exact hj
      rw [h.turns.calls t' hne] at hc
      exact (hi.fits t' j c hbefore hj₀ hc).spare h.turns.mysqld
        (h.turns.held t' hne hbefore).2

/-- No statement of a fence makes mysqld writable. -/
theorem opens_of_ofFence (h : q.ofFence = true) : q.opens = false := by
  cases q with
  | superReadOnly b =>
      cases b with
      | true => rfl
      | false => cases h
  | _ => rfl

/-- None switches the source side off. -/
theorem darkens_of_ofFence (h : q.ofFence = true) : q.darkens = false := by
  cases q with
  | sourceEnabled b => cases h
  | _ => rfl

/-- The statement that is executed is one of a fence, or the one that the holder waits for. -/
theorem said_by (ho : Ordered w) (hc : w.state.calls t' = some c) :
    w.state.holder = some t' ∨ c.stmt.opens = false ∧ c.stmt.darkens = false := by
  rcases ho.said t' c hc with hown | ⟨-, hq⟩
  · exact .inl hown
  · refine .inr ?_
    exact ⟨opens_of_ofFence hq, darkens_of_ofFence hq⟩

/-- mysqld executes the statement of task `t'`. -/
theorem backed_execute {row : Row} (ho : w.state.outside (.execute t' row) = true)
    (hord : Ordered w) (hi : Backed w) : Backed (w.edit (.execute t' row)) := by
  -- The row goes to the task that waits, the effect to mysqld.
  obtain ⟨c, hc, hgen, hrow, -⟩ := of_outside_execute ho
  have hs : (w.edit (.execute t' row)).state = _ := execute_of_call row hc
  have hmysqld : (w.edit (.execute t' row)).state.mysqld = w.state.mysqld.exec c.stmt := by
    rw [hs]
  have hreb : (w.edit (.execute t' row)).state.rebuilding = w.state.rebuilding := by
    rw [hs]
  refine ⟨?_, fun h => ?_, fun t j c' hown hj hc' => ?_⟩
  · rw [hs]
    exact hi.semisync
  · rw [hreb] at h
    rw [hmysqld]
    -- Only the holder's statement may open or darken, and it fits; a fence's statement does
    -- neither.
    rcases said_by hord hc with hown | ⟨hopens, hdarkens⟩
    · obtain ⟨j, hj⟩ : ∃ j, w.jobs[t']? = some j := by
        by_contra hno
        have hge : w.jobs.length ≤ t' := by
          by_contra hlt
          exact hno ⟨_, List.getElem?_eq_getElem (Nat.lt_of_not_le hlt)⟩
        exact (hord.new t' hge).2 hown
      exact (hi.fits t' j c hown hj hc).covered hgen hrow hi.covered h
    · exact Mysqld.covered_exec hopens hdarkens (hi.covered h)
  · have hown' : w.state.holder = some t := by
      rw [hs] at hown
      exact hown
    -- The statement that was executed is done; one of another task fits what mysqld has become.
    by_cases hne : t = t'
    · subst hne
      rw [hs] at hc'
      have heq : some _ = some c' := (Function.update_self (f := w.state.calls) _ _).symm.trans hc'
      cases heq
      exact (hi.fits t j c hown' hj hc).done hgen hmysqld
    · rw [hs] at hc'
      have hc₀ : w.state.calls t = some c' := (Function.update_of_ne hne _ _).symm.trans hc'
      rcases said_by hord hc with hown'' | ⟨hopens, hdarkens⟩
      · exact absurd (Option.some.inj (hown'.symm.trans hown'')) hne
      · exact (hi.fits t j c' hown' hj hc₀).exec hopens hdarkens hmysqld hreb

/-- What it means that a SET that was given up does no harm. -/
theorem of_strays {p : Pool sig} {k : Nat} (h : strays p (.outside (.land k)) = false)
    (hc : p.world.state.late[k]? = some c) :
    (c.stmt.opens = true → p.world.state.mysqld.sourceEnabled = true ∧
      underWay p.world Job.turnsOff = false) ∧
    (c.stmt.darkens = true → p.world.state.mysqld.writable = false ∧
      underWay p.world (· == .promote) = false) := by
  simp only [strays, hc, Option.any_some, Bool.or_eq_false_iff, Bool.and_eq_false_iff] at h
  refine ⟨fun ho => ?_, fun hd => ?_⟩
  · rw [ho] at h
    simpa using h.1
  · rw [hd] at h
    simpa using h.2

/-- The holder is no role change of this kind. -/
theorem not_of_underWay {f : Job → Bool} (h : underWay w f = false)
    (hown : w.state.holder = some t) (hj : w.jobs[t]? = some j) : f j = false := by
  rw [underWay, hown] at h
  have hjob : (w.jobs[t]?).any f = false := h
  rw [hj] at hjob
  exact hjob

/-- mysqld executes a statement that was given up. -/
theorem backed_land {p : Pool sig} {k : Nat} (ho : p.world.state.outside (.land k) = true)
    (hstray : strays p (.outside (.land k)) = false) (hi : Backed p.world) :
    Backed (p.world.edit (.land k)) := by
  -- A SET that was given up does harm only if the condition lets it pass.
  obtain ⟨c, hc, -⟩ := of_outside_land ho
  obtain ⟨hopens, hdarkens⟩ := of_strays hstray hc
  have hs : (p.world.edit (.land k)).state = _ := land_of_late hc
  have hmysqld : (p.world.edit (.land k)).state.mysqld = p.world.state.mysqld.exec c.stmt := by
    rw [hs]
  have hreb : (p.world.edit (.land k)).state.rebuilding = p.world.state.rebuilding := by
    rw [hs]
  refine ⟨?_, fun h => ?_, fun t j c' hown hj hc' => ?_⟩
  · rw [hs]
    exact hi.semisync
  · rw [hreb] at h
    rw [hmysqld]
    -- One that opens mysqld finds the source side on, one that darkens it finds mysqld read-only.
    cases hop : c.stmt.opens with
    | true =>
        have hq : c.stmt = .superReadOnly false := by simpa [Stmt.opens] using hop
        rw [hq]
        exact Mysqld.covered_of_source (hopens hop).1
    | false =>
        cases hda : c.stmt.darkens with
        | true => exact Mysqld.covered_of_shut (Mysqld.writable_exec hop (hdarkens hda).1)
        | false => exact Mysqld.covered_exec hop hda (hi.covered h)
  · have hown' : p.world.state.holder = some t := by
      rw [hs] at hown
      exact hown
    rw [hs] at hc'
    have hfits := hi.fits t j c' hown' hj hc'
    -- The statement that the holder waits for fits what the stray one has made of mysqld.
    cases hop : c.stmt.opens with
    -- Mysqld gets writable while no configure or repoint is under way.
    | true =>
        obtain ⟨hon, hway⟩ := hopens hop
        have hj' : j.turnsOff = false := not_of_underWay hway hown' hj
        have hq : c.stmt = .superReadOnly false := by simpa [Stmt.opens] using hop
        rw [hq] at hmysqld
        refine ⟨fun ho' hrow => ?_, fun hd => ?_, fun hj hq hrow => ?_, fun hq hrow => ?_⟩
        · rw [hreb, hmysqld]
          exact hfits.opens ho' hrow
        · rw [(hfits.darkens hd).1] at hj'
          cases hj'
        · rw [hmysqld]
          exact hfits.lit hj hq hrow
        · rw [hmysqld]
          exact secured_of_source hj' hon
    | false =>
        cases hda : c.stmt.darkens with
        -- The source side goes off on a mysqld that is not writable, under no promote.
        | true =>
            obtain ⟨hw, hway⟩ := hdarkens hda
            have hj' : j ≠ .promote := by
              rintro rfl
              exact absurd (not_of_underWay hway hown' hj) (by decide)
            have hw' : (p.world.edit (.land k)).state.mysqld.writable = false := by
              rw [hmysqld]
              exact Mysqld.writable_exec hop hw
            refine ⟨fun ho' hrow => ?_, fun hd => ⟨(hfits.darkens hd).1, fun _ => hw'⟩,
              fun hj => absurd hj hj', fun _ _ => secured_of_shut hw'⟩
            rw [hreb]
            exact .inl ((hfits.opens ho' hrow).resolve_right fun h => hj' h.1)
        | false => exact hfits.exec hop hda hmysqld hreb

/-- What comes from outside keeps the invariant, unless it strays. -/
theorem backed_outside {p : Pool sig} {u : Update} (ho : p.world.state.outside u = true)
    (hord : Ordered p.world) (hstray : strays p (.outside u) = false) (hi : Backed p.world) :
    Backed (p.world.edit u) := by
  cases u with
  | execute t' row => exact backed_execute ho hord hi
  | land k => exact backed_land ho hstray hi
  | boot b =>
      exact ⟨hi.semisync, fun _ => Mysqld.covered_of_shut (Mysqld.writable_boot _ b),
        fun t j c hown hj hc => (hi.fits t j c hown hj hc).boot b⟩
  | crash =>
      exact ⟨hi.semisync, fun _ => rfl, fun t j c hown hj hc =>
        (hi.fits t j c hown hj hc).spare (.inr rfl) rfl⟩
  | expire t' | disk b =>
      exact ⟨hi.semisync, hi.covered, fun t j c hown hj hc =>
        .spare (s := p.world.state) (.inl rfl) rfl (hi.fits t j c hown hj hc)⟩
  | _ => cases ho

/-- A change from outside. -/
theorem assured_outside {p : Pool sig} {u : Update} (ho : p.world.state.outside u = true)
    (hord : Ordered p.world) (hstray : strays p (.outside u) = false) (hi : Backed p.world) :
    Assured t p.world (p.world.edit u) := by
  intro j hj hown hquiet
  have hstays := stays_outside (t := t) ho
  refine ⟨hj, (hstays.held hown).1, fun c hc => ?_, fun hsec => ?_⟩
  -- Nothing is sent from outside, so a quiet task stays quiet.
  · cases hcall : p.world.state.calls t with
    | none =>
        rw [hstays.idle hcall] at hc
        cases hc
    | some c₀ =>
        obtain ⟨row, hrow⟩ := hstays.call c₀ hcall
        rw [hrow] at hc
        cases hc
        exact hquiet c₀ hcall
  -- What makes mysqld less secure is a SET that is executed; a boot, a crash and the clock do not.
  · cases u with
    | execute t' row =>
        obtain ⟨c, hc, -⟩ := of_outside_execute ho
        have hs : (p.world.edit (.execute t' row)).state = _ := execute_of_call row hc
        rw [hs]
        rcases said_by hord hc with hown' | ⟨hopens, hdarkens⟩
        -- The holder's own statement fits its job.
        · cases Option.some.inj (hown.symm.trans hown')
          exact secured_exec (hquiet c hc)
            (fun hd => ((hi.fits t j c hown hj hc).darkens hd).1) hsec
        · refine secured_exec hopens (fun hd => ?_) hsec
          rw [hdarkens] at hd
          cases hd
    | land k =>
        obtain ⟨c, hc, -⟩ := of_outside_land ho
        obtain ⟨hopens, hdarkens⟩ := of_strays hstray hc
        have hs : (p.world.edit (.land k)).state = _ := land_of_late hc
        rw [hs]
        cases hop : c.stmt.opens with
        | true =>
            obtain ⟨hon, hway⟩ := hopens hop
            have hq : c.stmt = .superReadOnly false := by simpa [Stmt.opens] using hop
            rw [hq]
            exact secured_of_source (not_of_underWay hway hown hj) hon
        | false =>
            cases hda : c.stmt.darkens with
            | true => exact secured_of_shut (Mysqld.writable_exec hop (hdarkens hda).1)
            | false =>
                refine secured_exec hop (fun hd => ?_) hsec
                rw [hda] at hd
                cases hd
    | boot b => exact secured_of_shut (Mysqld.writable_boot _ b)
    | crash => exact secured_of_shut (Mysqld.writable_down _)
    | expire t' | disk b => exact hsec
    | _ => cases ho

end

/-! ### The programs -/

/-- The contracts of the frame, of the role lock and of semi-sync. -/
abbrev backBase : Contract sig := ((frame sig).both turning).upon backing

/-- Task `t` holds the role lock, without a statement on its way. With `z`, it has made mysqld
what its job wants. -/
structure Ward (t : Nat) (j : Job) (b z : Bool) (w₀ w : World sig) : Prop where
  held : Held t j b w₀ w
  steady : Steady w₀ w
  secured : z = true → j.secured w.state.mysqld

/-- Task `t` does not hold the role lock and has no statement on its way. -/
structure Outer (t : Nat) (j : Job) (w₀ w : World sig) : Prop where
  aside : Aside t j w₀ w
  steady : Steady w₀ w

section
variable {t : Nat} {j : Job} {b z : Bool} {d : Node} {w₀ w w' : World sig}

/-- A calm change keeps the segment steady. -/
theorem Steady.calm {u : Update} (hu : Calm t w.state u) (h : Steady w₀ w) :
    Steady w₀ (w.edit u) := by
  rcases h with h | h | h
  · exact .inl (hu.rebuilding.trans h)
  · exact .inr (.inl (hu.rebuilding.trans h))
  · exact .inr (.inr (Spares.covered (turns_apply hu.turns).mysqld h))

namespace Ward

/-- And the ward. -/
theorem calm {u : Update} (hu : Calm t w.state u) (h : Ward t j b z w₀ w) :
    Ward t j b z w₀ (w.edit u) :=
  ⟨h.held.calm hu, h.steady.calm hu,
    fun hz => Spares.secured (turns_apply hu.turns).mysqld (h.secured hz)⟩

/-- A record keeps the ward. -/
theorem record (e : Coop.Event sig) (h : Ward t j b z w₀ w) : Ward t j b z w₀ (w.record e) :=
  ⟨h.held.record e, h.steady, h.secured⟩

/-- A ward that has made mysqld what its job wants is a ward. -/
theorem weaken (h : Ward t j b z w₀ w) : Ward t j b false w₀ w :=
  ⟨h.held, h.steady, (fun hz => by cases hz)⟩

/-- Where the holder suspends without a statement on its way. -/
theorem backs (hs : w.state.semisync = true) (h : Ward t j b z w₀ w) : Backs t w₀ w where
  semisync := hs
  steady := h.steady
  fits _ c _ _ hc := by rw [h.held.idle] at hc; cases hc

/-- It goes on as the ward it was. -/
theorem resume (h : Ward t j b z w₀ w) (hg : Grows t w w') (hr : Stays t w w')
    (ha : Assured t w w') : Ward t j b z w' w' := by
  refine ⟨h.held.resume hg hr, .inl rfl, fun hz => ?_⟩
  refine (ha j h.held.job h.held.holds fun c hc => ?_).2.2.2 (h.secured hz)
  rw [h.held.idle] at hc
  cases hc

end Ward

/-- A statement under the role lock that fits what mysqld is, once it is sent. -/
theorem Ward.sends {gen : Nat} {q : Stmt} (h : Ward t j b z w₀ w)
    (hfits : Fits j w.state gen q none) (hz : z = true → q.opens = false)
    (ha : backBase.allowed t w₀ (sent t j gen q w)) :
    backBase.may t w₀ (sent t j gen q w) ∧ ∀ w' (a : Except Failure Row), backBase.inv w' →
      backBase.rely t (sent t j gen q w) w' → backBase.answers t w' (.sql q) a →
        Outcome (fun row w₀ w => Ward t j b z w₀ w ∧ Fits j w.state gen q (some row) ∧
            (unwaited (.sql q) (.ok row) = true → w.state.mysqld.writable = false))
          (fun e w₀ w => Ward t j b z w₀ w ∧ (isRebuild w.jobs t = true → b = true →
            (q.clones && e.bearable) = false → w.state.mysqld.covered = true))
          a w' (answered t q a w') := by
  have hcall : (sent t j gen q w).state.calls t =
      some { gen, session := w.state.session t, stmt := q } := calls_send gen q
  refine ⟨⟨ha.2, h.steady, fun j' c _ hj' hc => ?_⟩, fun w' a hi hr hans => ?_⟩
  · rw [hcall] at hc
    cases hc
    cases Option.some.inj (h.held.job.symm.trans hj')
    exact .spare (s := w.state) (.inl rfl) rfl hfits
  have hheld := h.held.answered (q := q) a hr.1.1 hr.1.2
  have hsec : z = true → j.secured w'.state.mysqld := by
    intro hz'
    refine (hr.2 j h.held.job h.held.holds fun c hc => ?_).2.2.2 (h.secured hz')
    rw [hcall] at hc
    cases hc
    exact hz hz'
  have hward : Ward t j b z w' (answered t q a w') := ⟨hheld, .inl rfl, hsec⟩
  cases a with
  | ok row =>
      -- The answer is the one of the statement that mysqld has executed.
      obtain ⟨row', hcall'⟩ := hr.1.2.call _ hcall
      have hrow : row' = some row := by
        have hany : (w'.state.calls t).any (·.row == some row) = true := hans.1.2
        rw [hcall'] at hany
        simpa using hany
      subst hrow
      have hown := (hr.1.2.held h.held.holds).1
      have hdone := hi.2.fits t j _ hown (hr.1.1.job h.held.job) hcall'
      exact ⟨hward, .spare (s := w'.state) (.inl rfl) rfl hdone, hans.2.1⟩
  | error e =>
      refine ⟨hward, fun hrebuild hb hq => hans.2.2 hrebuild ?_ ?_⟩
      · show (!(q.clones && e.bearable)) = true
        rw [hq]
        rfl
      · exact hheld.rebuilding.trans hb

/-- The rule of such a statement. -/
theorem triple_fits {P : Assertion sig} {gen : Nat} {q : Stmt}
    (hP : ∀ w₀ w, P w₀ w → Ward t j b z w₀ w ∧ Fits j w.state gen q none)
    (hz : z = true → q.opens = false) :
    Triple backBase t j P (sql t gen q)
      (fun row w₀ w => Ward t j b z w₀ w ∧ Fits j w.state gen q (some row) ∧
        (unwaited (.sql q) (.ok row) = true → w.state.mysqld.writable = false))
      fun _ => Ward t j b z := by
  refine triple_sql (fun w₀ w h _ => (hP w₀ w h).1) fun w₀ w h ha => ?_
  obtain ⟨hmay, hk⟩ := (hP w₀ w h).1.sends (hP w₀ w h).2 hz ha
  refine ⟨hmay, fun w' a hi hr hans => ?_⟩
  have hout := hk w' a hi hr hans
  cases a with
  | ok row => exact hout
  | error e => exact hout.1

/-- The rule of such a statement of a rebuild, on an open session. -/
theorem triple_fits_open {gen : Nat} {q : Stmt}
    (hfits : ∀ w₀ w, Ward t j true z w₀ w → Fits j w.state gen q none)
    (hz : z = true → q.opens = false) :
    Triple backBase t j (onOpen t (Ward t j true z)) (sql t gen q)
      (fun row w₀ w => onOpen t (Ward t j true z) w₀ w ∧ Fits j w.state gen q (some row))
      fun e w₀ w => Ward t j true z w₀ w ∧ (isRebuild w.jobs t = true →
        (q.clones && e.bearable) = false → w.state.mysqld.covered = true) ∧
          (e.closes = false → w.state.closed t = false) := by
  refine triple_sql (fun w₀ w h hc => by rw [h.2] at hc; cases hc) fun w₀ w ⟨h, hopen⟩ ha => ?_
  obtain ⟨hmay, hk⟩ := h.sends (hfits w₀ w h) hz ha
  refine ⟨hmay, fun w' a hi hr hans => ?_⟩
  have hout := hk w' a hi hr hans
  have hstill : closes a = false → (answered t q a w').state.closed t = false :=
    hr.1.2.open_answered hopen
  cases a with
  | ok row => exact ⟨⟨hout.1, hstill rfl⟩, hout.2.1⟩
  | error e => exact ⟨hout.1, fun hrebuild => hout.2 hrebuild rfl, hstill⟩

/-- The words of a role change under the role lock, beside the statements that have a reason. -/
def wardWords : Words where
  edits := Update.plain
  stmts q := q.opens = false ∧ q.darkens = false
  locks l := l = .fence

/-- A statement that leaves super_read_only=1 and the source side alone fits. -/
theorem fits_of_plain {s : Agent} {gen : Nat} {q : Stmt} (hopens : q.opens = false)
    (hdarkens : q.darkens = false) : Fits j s gen q none where
  opens ho := by rw [show q.opens = true from ho] at hopens; cases hopens
  darkens hd := by rw [show q.darkens = true from hd] at hdarkens; cases hdarkens
  lit _ _ hrow := absurd rfl hrow
  shut _ hrow := absurd rfl hrow

/-- The words of a role change keep the ward. -/
theorem ward_carries (t : Nat) (j : Job) (b z : Bool) :
    wardWords.Carries backBase t j (Ward t j b z) where
  edit u w₀ w hu h := h.calm (calm_plain hu)
  opened gen w₀ w h := h.calm (calm_opened t _ gen)
  enqueue l w₀ w hl h := h.calm (calm_enqueue hl)
  dequeue l w₀ w hl h := h.calm (calm_dequeue hl)
  acquire l w₀ w hl _ h := h.calm (calm_acquire hl)
  release l w₀ w hl h := h.calm (calm_release hl)
  cut w₀ w h ha := ⟨h.backs ha.2, fun w' _ hr => h.resume hr.1.1 hr.1.2 hr.2⟩
  await r w₀ w _ h ha := by
    have hi : Ward t j b z w₀ (w.issue t j r) := h.record _
    exact ⟨hi.backs ha.2, fun w' a _ hr _ => (hi.resume hr.1.1 hr.1.2 hr.2).record _⟩
  sql gen q w₀ w hq h ha := by
    obtain ⟨hmay, hk⟩ := h.sends (fits_of_plain hq.1 hq.2) (fun _ => hq.1) ha
    refine ⟨hmay, fun w' a hi hr hans => ?_⟩
    have hout := hk w' a hi hr hans
    cases a with
    | ok row => exact hout.1
    | error e => exact hout.1

namespace Outer

/-- A calm change keeps a task outside. -/
theorem calm {u : Update} (hu : Calm t w.state u) (h : Outer t j w₀ w) :
    Outer t j w₀ (w.edit u) :=
  ⟨h.aside.calm hu, h.steady.calm hu⟩

/-- And so does a record. -/
theorem record (e : Coop.Event sig) (h : Outer t j w₀ w) : Outer t j w₀ (w.record e) :=
  ⟨h.aside.record e, h.steady⟩

/-- The segment of a task outside does what the contract allows. -/
theorem backs (hs : w.state.semisync = true) (h : Outer t j w₀ w) : Backs t w₀ w where
  semisync := hs
  steady := h.steady
  fits _ _ hown := absurd hown h.aside.away

/-- It goes on outside. -/
theorem resume (h : Outer t j w₀ w) (ho : Ordered w') (hg : Grows t w w') (hr : Stays t w w') :
    Outer t j w' w' :=
  ⟨h.aside.resume ho hg hr, .inl rfl⟩

/-- Its segment may end. -/
theorem ends (h : Outer t j w₀ w) : backBase.Ends t () w₀ w :=
  fun ha => (h.record (.finished t w.state)).backs ha.2

/-- The role lock is taken. -/
theorem acquire (h : Outer t j w₀ w) (hfree : w.state.holder = none) :
    Ward t j false false w₀ (w.edit (.acquire .role t)) :=
  ⟨h.aside.acquire hfree, h.steady, (fun hz => by cases hz)⟩

end Outer

/-- The ward gives the lock back. -/
theorem Ward.release (h : Ward t j false z w₀ w) : Outer t j w₀ (w.edit (.release .role)) :=
  ⟨h.held.release, h.steady⟩

/-- What a task says without the lock keeps it outside. -/
theorem outer_carries (t : Nat) (j : Job) :
    (asideWords j).Carries backBase t j (Outer t j) where
  edit u w₀ w hu h := h.calm (calm_plain hu)
  opened gen w₀ w h := h.calm (calm_opened t _ gen)
  enqueue l w₀ w hl h := h.calm (calm_enqueue hl)
  dequeue l w₀ w hl h := h.calm (calm_dequeue hl)
  acquire l w₀ w hl _ h := h.calm (calm_acquire hl)
  release l w₀ w hl h := h.calm (calm_release hl)
  cut w₀ w h ha := ⟨h.backs ha.2, fun w' hi hr => h.resume hi.1.2 hr.1.1 hr.1.2⟩
  await r w₀ w _ h ha := by
    have hi : Outer t j w₀ (w.issue t j r) := h.record _
    exact ⟨hi.backs ha.2, fun w' a hinv hr _ => (hi.resume hinv.1.2 hr.1.1 hr.1.2).record _⟩
  sql gen q w₀ w hq h ha := by
    refine ⟨⟨ha.2, h.steady, fun _ _ hown => absurd hown h.aside.away⟩, fun w' a hi hr _ => ?_⟩
    have haway := hr.1.2.away h.aside.away
    exact ⟨⟨hr.1.1.job h.aside.job, haway, calls_settle _, hi.1.2.free,
      turns_apply (u := .settle t (closes a)) rfl⟩, .inl rfl⟩

/-- What is done under the role lock. -/
theorem triple_turn {α : Type} {m : X α}
    (hm : Triple backBase t j (Ward t j false false) m (fun _ => Ward t j false false)
      fun _ => Ward t j false false) :
    Triple backBase t j (Outer t j) (withLockDeadlined .role t m) (fun _ => Outer t j)
      fun _ => Outer t j := by
  refine triple_withLockDeadlined (fun w₀ w h hfree => h.acquire hfree) (fun w₀ w h ha => ?_)
    (hm.conseq (fun _ _ h => h) (fun _ _ _ h => h.release) fun _ _ _ h => h.release)
  have hq : Outer t j w₀ (w.edit (.enqueue .role t)) := ⟨h.aside.enqueue, h.steady⟩
  refine ⟨hq.backs ha.2, fun w' hi hr => ?_⟩
  have hback := hq.resume hi.1.2 hr.1.1 hr.1.2
  exact ⟨fun _ hfree => hback.acquire hfree, hback.aside.dequeue, hback.steady⟩

/-- A statement that a role change with `semisync` set does not send. -/
theorem triple_never {P : Assertion sig} {gen : Nat} {q : Stmt} {Q : Row → Assertion sig}
    {E : Failure → Assertion sig} (h : ∀ w₀ w, P w₀ w → w.state.semisync ≠ true)
    (hE : ∀ w₀ w, P w₀ w → E (.db none false) w₀ w) :
    Triple backBase t j P (sql t gen q) Q E :=
  triple_sql (fun w₀ w hP _ => hE w₀ w hP) fun w₀ w hP ha => absurd ha.2 (h w₀ w hP)

/-- The source side is on when promote makes mysqld writable. -/
theorem backs_promote :
    Triple backBase t .promote (Outer t .promote) (promote t) (fun _ => Outer t .promote)
      fun _ => Outer t .promote := by
  -- Every statement before the last SET is plain.
  have hkeeps := ward_carries t .promote false false
  have hplain : ∀ gen q, q.opens = false → q.darkens = false →
      Triple backBase t .promote (Ward t .promote false false) (sql t gen q)
        (fun _ => Ward t .promote false false) fun _ => Ward t .promote false false :=
    fun gen q ho hd => hkeeps.keeps (says_sql ⟨ho, hd⟩)
  refine triple_turn (.bind (hkeeps.keeps says_endRestartHold) fun _ => ?_)
  refine .bind (hkeeps.keeps says_connect) fun gen => ?_
  refine .bind (hplain gen _ rfl rfl) fun _ => .bind (hplain gen _ rfl rfl) fun _ => ?_
  refine .bind (hplain gen _ rfl rfl) fun _ => .look fun s => ?_
  -- Where semi-sync is wanted, the session has turned it on before the node is opened.
  refine .bind (Q := fun _ w₀ w => Ward t .promote false false w₀ w ∧ w.state.mysqld.Lit gen)
    ?_ fun _ => ?_
  · cases hs : s.semisync with
    | true =>
        exact (triple_fits (z := false) (fun w₀ w h => ⟨h.1, fits_of_plain rfl rfl⟩)
          (fun _ => rfl)).conseq (fun _ _ h => h)
          (fun _ _ _ h => ⟨h.1, h.2.1.lit rfl rfl (by simp)⟩) fun _ _ _ h => h
    -- Without it the branch is not taken.
    | false =>
        refine triple_never (fun w₀ w h => ?_) fun _ _ h => h.1
        rw [h.2, hs]
        simp
  refine .bind (Q := fun _ => Ward t .promote false false) ?_ fun _ => ?_
  · -- The last SET.
    -- It opens the node, under the session's own promise.
    refine (triple_fits (z := false) (fun w₀ w h => ⟨h.1, fun _ _ => .inr ⟨rfl, h.2⟩,
      (fun hd => by cases hd), fun _ _ hrow => absurd rfl hrow, fun _ hrow => absurd rfl hrow⟩)
      (fun hz => by cases hz)).conseq (fun _ _ h => h) (fun _ _ _ h => h.1) fun _ _ _ h => h
  refine .bind (hkeeps.keeps (says_withLockDeadlined rfl (says_setFenced trivial))) fun _ => ?_
  refine .bind (hkeeps.keeps says_refreshSample) fun _ => ?_
  exact .bind (hplain gen _ rfl rfl) fun _ => .pure fun _ _ h => h

/-- mysqld is read-only when repoint switches the source side off. -/
theorem backs_repoint (node source : Node) :
    Triple backBase t (.repoint d) (Outer t (.repoint d)) (repoint node t source)
      (fun _ => Outer t (.repoint d)) fun _ => Outer t (.repoint d) := by
  unfold repoint
  split
  · exact .throw fun _ _ h => h
  have hkeeps := ward_carries t (.repoint d) false
  have hplain : ∀ gen q, q.opens = false → q.darkens = false →
      Triple backBase t (.repoint d) (Ward t (.repoint d) false false) (sql t gen q)
        (fun _ => Ward t (.repoint d) false false) fun _ => Ward t (.repoint d) false false :=
    fun gen q ho hd => (hkeeps false).keeps (says_sql ⟨ho, hd⟩)
  refine triple_turn (.bind ((hkeeps false).keeps says_endRestartHold) fun _ => ?_)
  refine .bind ((hkeeps false).keeps says_connect) fun gen =>
    .bind (hplain gen _ rfl rfl) fun _ => ?_
  refine .bind (Q := fun _ => Ward t (.repoint d) false true) ?_ fun _ => ?_
  · exact (triple_fits (z := false) (fun w₀ w h => ⟨h, fits_of_plain rfl rfl⟩)
      (fun _ => rfl)).conseq (fun _ _ h => h)
      (fun _ _ _ h => ⟨h.1.held, h.1.steady, fun _ => h.2.1.shut rfl (by simp)⟩)
      fun _ _ _ h => h
  refine .bind (((hkeeps true).keeps says_refreshSample).conseq (fun _ _ h => h)
    (fun _ _ _ h => h) fun _ _ _ h => h.weaken) fun _ => ?_
  refine .bind (Q := fun _ => Ward t (.repoint d) false false) ?_ fun _ => .look fun s => ?_
  · refine (triple_fits (z := false) (fun w₀ w h => ⟨h.weaken, (fun ho => by cases ho),
      fun _ => ⟨rfl, fun _ => h.secured rfl⟩, fun _ _ hrow => absurd rfl hrow,
      fun _ hrow => absurd rfl hrow⟩) (fun _ => rfl)).conseq (fun _ _ h => h)
      (fun _ _ _ h => h.1) fun _ _ _ h => h
  refine .bind ((hplain gen _ rfl rfl).pre fun _ _ h => h.1) fun _ => ?_
  refine .bind (hplain gen _ rfl rfl) fun _ => ?_
  exact .bind (hplain gen _ rfl rfl) fun _ => .pure fun _ _ h => h

/-- A row that counts no waiting sessions says that none waits. -/
theorem unwaited_of_ne {row : Row} (hrow : ∀ n, row = .waitSessions (some n) → False) :
    unwaited (.sql .showWaitSessions) (.ok row) = true := by
  simp only [unwaited]

/-- configure switches the source side off on a mysqld that is not writable. -/
theorem backs_configureSource {a : Option Bool} {gen : Nat} {curSource want : Bool} :
    Triple backBase t (.configure a) (Ward t (.configure a) false false)
      (configureSource t gen curSource want) (fun _ => Ward t (.configure a) false false)
      fun _ => Ward t (.configure a) false false := by
  -- Whether semi-sync stays on is decided first, and what the waiting sessions show goes along.
  refine .bind (Q := fun on w₀ w => Ward t (.configure a) false false w₀ w ∧
    (on = false → curSource = true → w.state.mysqld.writable = false)) ?_ fun on => ?_
  · unfold wantSource
    split
    · refine .bind (Q := fun row w₀ w => Ward t (.configure a) false false w₀ w ∧
        (unwaited (.sql .showWaitSessions) (.ok row) = true → w.state.mysqld.writable = false))
        ((triple_fits (z := false) (fun w₀ w h => ⟨h, fits_of_plain rfl rfl⟩)
          (fun _ => rfl)).conseq (fun _ _ h => h) (fun _ _ _ h => ⟨h.1, h.2.2⟩)
          fun _ _ _ h => h) fun row => ?_
      split
      -- No session waits, so nobody is writing.
      · exact .pure fun w₀ w h => ⟨h.1, fun hon _ => h.2 (by simpa [unwaited] using hon)⟩
      · rename_i hrow
        exact .pure fun w₀ w h => ⟨h.1, fun _ _ => h.2 (unwaited_of_ne hrow)⟩
    -- It is wanted, or it was off already.
    · rename_i hwant
      refine .pure fun w₀ w h => ⟨h, fun hon hcur => ?_⟩
      rw [hon, hcur] at hwant
      exact absurd rfl hwant
  split
  · rename_i hne
    refine .bind (Q := fun _ => Ward t (.configure a) false false) ?_ fun _ => .pure fun _ _ h => h
    -- The SET is sent only where the setting changes.
    refine (triple_fits (z := false) (fun w₀ w h => ⟨h.1, ?_⟩) (fun hz => by cases hz)).conseq
      (fun _ _ h => h) (fun _ _ _ h => h.1) fun _ _ _ h => h
    cases on with
    | true => exact fits_of_plain rfl rfl
    -- It turns semi-sync off, and then the node is not writable.
    | false =>
        have hcur : curSource = true := by simpa using hne
        exact ⟨(fun ho => by cases ho), fun _ => ⟨rfl, fun _ => h.2 rfl hcur⟩,
          fun hj => (by cases hj), fun _ hrow => absurd rfl hrow⟩
  · exact .pure fun _ _ h => h.1

/-- A configure leaves mysqld covered. -/
theorem backs_configure (semisync : Option Bool) {a : Option Bool} :
    Triple backBase t (.configure a) (Outer t (.configure a)) (configure t semisync)
      (fun _ => Outer t (.configure a)) fun _ => Outer t (.configure a) := by
  have hkeeps := ward_carries t (.configure a) false false
  refine .bind ((outer_carries t _).keeps (says_setSemisync fun _ => trivial)) fun _ => ?_
  refine triple_turn (.bind (hkeeps.keeps says_connect) fun gen => ?_)
  refine .bind (hkeeps.keeps (says_sql ⟨rfl, rfl⟩)) fun sro => ?_
  refine .bind (hkeeps.keeps says_state) fun s => ?_
  refine .bind (hkeeps.keeps (says_sql ⟨rfl, rfl⟩)) fun row => ?_
  split
  · refine .bind (hkeeps.keeps says_state) fun s' => .bind backs_configureSource fun _ => ?_
    refine hkeeps.keeps ?_
    unfold configureReplica
    split
    · refine says_bind (says_sql ⟨rfl, rfl⟩) fun _ => says_bind (says_sql ⟨rfl, rfl⟩) fun row => ?_
      split
      · exact says_bind (says_sql ⟨rfl, rfl⟩) fun _ => says_bind (says_sql ⟨rfl, rfl⟩) fun _ =>
          says_pure ()
      · exact says_pure ()
    · exact says_pure ()
  · exact .pure fun _ _ h => h

/-- What a rebuild knows while `rebuilding` is set: mysqld is covered when a wait fails, and from
its SET super_read_only=1 on. -/
theorem backs_window (t : Nat) (d : Node) : Window backBase t (.rebuild d)
    (Ward t (.rebuild d) true false) (Ward t (.rebuild d) true true)
    (Ward t (.rebuild d) true true) where
  running _ _ h := h.weaken
  fallen _ _ h := h.weaken
  opened gen _ _ h := h.calm (calm_opened t _ gen)
  wait r w₀ w _ h := by
    intro ha
    have hi : Ward t (.rebuild d) true false w₀ (w.issue t (.rebuild d) r) := h.record _
    refine ⟨hi.backs ha.2, fun w' a _ hr hans => ?_⟩
    have hw := hi.resume hr.1.1 hr.1.2 hr.2
    refine ⟨hw.record _, fun hf => ⟨hw.held.record _, .inl rfl, fun _ => ?_⟩⟩
    exact hans.2.2 (isRebuild_of_job hw.held.job) hf hw.held.rebuilding
  asks gen q hs := by
    -- A statement that opens the node runs inside the window.
    refine (triple_fits_open (fun w₀ w h => ⟨fun _ _ => .inl h.held.rebuilding, fun hd => ?_,
      fun hj => (by cases hj), fun _ hrow => absurd rfl hrow⟩) (fun hz => by cases hz)).conseq
      (fun _ _ h => h) (fun _ _ _ h => h.1)
      fun _ w₀ w h => ⟨h.1, fun hq => ⟨h.1.held, h.1.steady, fun _ => ?_⟩, h.2.2⟩
    · exact absurd (of_decide_eq_true hd) (hs false)
    · exact h.2.1 (isRebuild_of_job h.1.held.job) hq
  shuts gen := by
    -- Closing the node answers only after it has taken effect.
    refine (triple_fits_open (fun w₀ w h => fits_of_plain rfl rfl) (fun _ => rfl)).conseq
      (fun _ _ h => h) (fun _ w₀ w h => ?_) fun _ w₀ w h =>
        ⟨h.1.held, h.1.steady, fun _ => h.2.1 (isRebuild_of_job h.1.held.job) rfl⟩
    have hd : Ward t (.rebuild d) true true w₀ w :=
      ⟨h.1.1.held, h.1.1.steady, fun _ => h.2.shut rfl (by simp)⟩
    exact ⟨⟨hd, h.1.2⟩, hd⟩
  -- The two reads change nothing.
  reads gen q hq := by
    have hplain : q.opens = false ∧ q.darkens = false := by
      rcases hq with rfl | rfl <;> exact ⟨rfl, rfl⟩
    exact (triple_fits_open (fun w₀ w h => fits_of_plain hplain.1 hplain.2)
      fun _ => hplain.1).conseq (fun _ _ h => h) (fun _ _ _ h => h.1)
      fun _ _ _ h => ⟨h.1, h.1⟩

/-- A rebuild leaves mysqld covered. -/
theorem backs_rebuildOn {gen started : Nat} {donor : Node} :
    Triple backBase t (.rebuild d) (onOpen t (Ward t (.rebuild d) false false))
      (rebuildOn t gen started donor) (fun _ => Ward t (.rebuild d) false false)
      fun _ => Ward t (.rebuild d) false false := by
  have hset : ∀ b b' w₀ w, Held t (.rebuild d) b w₀ w →
      Held t (.rebuild d) b' w₀ (w.edit (.rebuilding b')) :=
    fun b b' w₀ w h => ⟨h.job, h.holds, h.idle, rfl,
      h.turns.trans (turns_apply (u := .rebuilding b') h.holds)⟩
  have hend : ∀ w₀ w, Ward t (.rebuild d) true true w₀ w →
      Ward t (.rebuild d) false false w₀ (w.edit (.rebuilding false)) :=
    fun w₀ w h => ⟨hset true false _ _ h.held, .inr (.inr (h.secured rfl)),
      (fun hz => by cases hz)⟩
  intro w₀ w h
  show ((do cloneFrom t gen donor; rebuildFinish t started : X Unit).run >>= fun r =>
    edit (.rebuilding false) >>= fun _ => pure r).wp backBase t (.rebuild d) _ w₀
      (w.edit (.rebuilding true))
  refine Prog.wp_seq ((backs_window t d).rebuilds w₀ _
    ⟨⟨hset false true _ _ h.1.held, .inr (.inl rfl), fun hz => by cases hz⟩, h.2⟩)
    fun r w₀ w hr => ?_
  cases r with
  | ok a => exact hend _ _ hr
  | error e => exact hend _ _ hr

/-- A rebuild leaves it covered. -/
theorem backs_rebuild (node donor : Node) :
    Triple backBase t (.rebuild d) (Outer t (.rebuild d)) (rebuild node t donor)
      (fun _ => Outer t (.rebuild d)) fun _ => Outer t (.rebuild d) := by
  unfold rebuild
  split
  · exact .throw fun _ _ h => h
  have hkeeps := ward_carries t (.rebuild d) false false
  refine triple_turn (.bind (hkeeps.keeps says_endRestartHold) fun _ => ?_)
  refine .bind (hkeeps.keeps (.leaf (.await (r := .ownGtid) trivial))) fun _ => ?_
  refine .bind (hkeeps.keeps says_askDonor) fun _ => .look fun s => ?_
  exact .bind (hkeeps.connects.pre fun _ _ h => h.1) fun gen => backs_rebuildOn

/-- A task without the role lock answers. -/
theorem outer_replies (status : Nat) (h : Outer t j w₀ w)
    (ha : backBase.allowed t w₀ (w.issue t j (.reply status))) :
    Backs t w₀ (w.issue t j (.reply status)) ∧ ∀ w' a, backBase.inv w' →
      backBase.rely t (w.issue t j (.reply status)) w' →
        backBase.Ends t () w' (w'.answer t (.reply status) a) := by
  have hi : Outer t j w₀ (w.issue t j (.reply status)) := h.record _
  refine ⟨hi.backs ha.2, fun w' a hinv hr => ?_⟩
  exact ((hi.resume hinv.1.2 hr.1.1 hr.1.2).record (.answered t (.reply status) a)).ends

/-- The request answers, whatever came out. -/
theorem backs_answer {α : Type} {m : X α}
    (hm : Triple backBase t j (Outer t j) m (fun _ => Outer t j) fun _ => Outer t j)
    (h : Outer t j w₀ w) : (answer m).wp backBase t j (backBase.Ends t) w₀ w := by
  refine wp_answer (K := Outer t j) (Prog.wp_mono (fun r w₀ w hr => ?_) _ _ _ (hm w₀ w h))
    fun status w₀ w h ha => outer_replies status h ha
  cases r <;> exact hr

/-- Every request keeps to the contract. -/
theorem backs_body (node : Node) (h : Outer t j w₀ w) :
    (body node t j).wp backBase t j (backBase.Ends t) w₀ w := by
  cases j with
  | fence =>
      have hsays : Says (asideWords .fence) t (fence t) :=
        says_fence rfl trivial trivial trivial ⟨rfl, rfl⟩ ⟨rfl, rfl⟩ (fun _ => ⟨rfl, rfl⟩)
          ⟨rfl, rfl⟩
      refine Prog.wp_seq ((outer_carries t .fence).keeps hsays w₀ w h) fun r w₀ w hr => ?_
      cases r with
      | ok status =>
          intro ha
          obtain ⟨hmay, hk⟩ := outer_replies status hr ha
          exact ⟨hmay, fun w' a hi hr' _ => hk w' a hi hr'⟩
      | error e =>
          intro ha
          obtain ⟨hmay, hk⟩ := outer_replies e.status hr ha
          exact ⟨hmay, fun w' a hi hr' _ => hk w' a hi hr'⟩
  | unfence => exact backs_answer ((outer_carries t _).keeps (says_unfence rfl trivial)) h
  | promote => exact backs_answer backs_promote h
  | repoint source => exact backs_answer (backs_repoint node source) h
  | configure semisync => exact backs_answer (backs_configure semisync) h
  | rebuild donor => exact backs_answer (backs_rebuild node donor) h

end

/-! ### The runs -/

/-- A booted replica whose agent does nothing yet. -/
structure Booted (s : Agent) : Prop where
  semisync : s.semisync = true
  shut : s.mysqld.writable = false
  calls : ∀ t, s.calls t = none
  holder : s.holder = none
  rebuilding : s.rebuilding = false

/-- The contract is sound over the one of the role lock, in the runs that meet the condition. -/
theorem backing_sound (node : Node) {ok : Pool sig → Move sig → Pool sig → Prop}
    (hok : ∀ p m p', ok p m p' →
      environment p m = true ∧ Prudent p m p' ∧ Ordered p.world) :
    ((frame sig).both turning).SoundOver backing (body node) ok where
  rely_refl _ _ := .refl
  rely_trans _ _ _ _ := .trans
  -- No other task makes a holder's mysqld less secure.
  rely_of_may _ _ _ _ hne _ _ hmay _ := hmay.2.assured hne hmay.1
  rely_arrive p j p' t _ _ := by
    intro j' hj hown hq
    have hlt := (List.getElem?_eq_some_iff.mp hj).1
    exact ⟨(List.getElem?_append_left hlt).trans hj, hown, hq, fun h => h⟩
  rely_outside p u p' t ho hi := by
    obtain ⟨henv, hcond, hord⟩ := hok _ _ _ ho
    exact assured_outside henv hord hcond.2.2.2 hi
  -- Nothing lands in an agent, and no request of it is sent again.
  rely_land p t' r p' t ho _ := by
    obtain ⟨henv, -⟩ := hok _ _ _ ho
    cases henv
  rely_resend p t' r p' t ho _ := by
    obtain ⟨henv, -⟩ := hok _ _ _ ho
    cases henv
  inv_may t w₀ w hB hi hmay hb := hb.backed hB.2 hi hmay.1 hmay.2
  inv_arrive p j p' ho hi := by
    obtain ⟨-, -, hord⟩ := hok _ _ _ ho
    refine ⟨hi.semisync, hi.covered, fun t j' c hown hj hc => hi.fits t j' c hown ?_ hc⟩
    have hlt : t < p.world.jobs.length := by
      by_contra hge
      exact (hord.new t (Nat.le_of_not_lt hge)).2 hown
    exact (List.getElem?_append_left hlt).symm.trans hj
  inv_outside p u p' ho hi := by
    obtain ⟨henv, hcond, hord⟩ := hok _ _ _ ho
    exact backed_outside henv hord hcond.2.2.2 hi
  inv_land p t r p' ho _ := by
    obtain ⟨henv, -⟩ := hok _ _ _ ho
    cases henv
  inv_resend p t r p' ho _ := by
    obtain ⟨henv, -⟩ := hok _ _ _ ho
    cases henv
  pre_rely _ _ _ _ _ _ _ := trivial
  pre_may _ _ _ _ _ _ _ _ _ _ _ := trivial
  pre_arrive _ _ _ _ _ := trivial
  -- The condition on the step is what the segment may rely on.
  allowed_start _ _ _ ho := (hok _ _ _ ho).2.1.1
  allowed_answer _ _ _ _ ho := (hok _ _ _ ho).2.1.1
  allowed_wake _ _ _ ho := (hok _ _ _ ho).2.1.1
  answers_ok p t f p' r k ho hp := by
    -- Two answers are bound: that nobody waits for an ack, and a failure while mysqld is exposed.
    obtain ⟨-, ⟨-, hoff, hgives, -⟩, -⟩ := hok _ _ _ ho
    simp only [switchesOff, givesUp, hp, Bool.and_eq_true] at hoff hgives
    exact ⟨hoff, fun hj hfails => hgives ⟨hj, hfails⟩⟩
  body_wp t j w hB _ hj hpre _ :=
    backs_body node ⟨.refl hj hpre.2.1 hpre.2.2 hB.2, .inl rfl⟩

/-- The contracts hold of every run of a booted replica that meets the condition. -/
theorem backing_holds (node : Node) {s : Agent} (hs : Booted s) {p : Pool sig}
    (hr : Runs node s Prudent p) : (((frame sig).both turning).both backing).Holds p := by
  have hturn : ((frame sig).both turning).Sound (body node)
      fun p m p' => environment p m = true ∧ Prudent p m p' :=
    turnBase_sound node fun _ _ _ h => h.1
  have hinit : ((frame sig).both turning).Holds (Pool.init s []) :=
    turning_holds node hs.calls hs.holder hs.rebuilding (fun _ _ _ h => h) .refl
  have hbacked : Backed (Pool.init s []).world := by
    refine ⟨hs.semisync, fun _ => Mysqld.covered_of_shut hs.shut, fun t j c _ _ hc => ?_⟩
    have hnone : s.calls t = some c := hc
    rw [hs.calls t] at hnone
    cases hnone
  have hsound : (((frame sig).both turning).both backing).Sound (body node)
      fun p m p' => (environment p m = true ∧ Prudent p m p') ∧
        ((frame sig).both turning).Holds p :=
    (turnBase_sound node fun _ _ _ h => h.1.1).both
      (backing_sound node fun _ _ _ h => ⟨h.1.1, h.1.2, h.2.inv.2⟩)
  refine hsound.holds_reach (Contract.holds_init ⟨hinit.inv, hbacked⟩ fun t j hj => ?_)
    (hturn.reach_holds hinit hr)
  cases hj

/-- Outside a rebuild, a mysqld that clients can write to has the source side on. -/
theorem source_of_writable (node : Node) {s : Agent} (hs : Booted s) {p : Pool sig}
    (hr : Runs node s Prudent p) (hw : p.world.state.mysqld.writable = true)
    (hreb : p.world.state.rebuilding = false) : p.world.state.mysqld.sourceEnabled = true := by
  have hcov := (backing_holds node hs hr).inv.2.covered hreb
  simpa [Mysqld.covered, hw] using hcov

/-! ### Runs -/

instance (p : Pool sig) (m : Move sig) (p' : Pool sig) : Decidable (Prudent p m p') :=
  inferInstanceAs (Decidable (_ ∧ _ ∧ _ ∧ _))

/-- A replica that boots is a booted one. -/
theorem booted_init (supervised fenced : Bool) : Booted (init true supervised fenced) :=
  ⟨rfl, rfl, fun _ => rfl, rfl, rfl⟩

/-- A promote of the replica up to its SET super_read_only=0, which mysqld executes. -/
def promoteDone (t : Nat) : List (Move sig) := promoteSent t ++ [.outside (.execute t .none)]

/-- A promoted replica is writable with the source side on. -/
theorem source_of_promoted : ∃ p : Pool sig, p.world.state.mysqld.writable = true ∧
    p.world.state.mysqld.sourceEnabled = true := by
  have hrun : ((Pool.init replica []).exec (body "a") (fun p m => environment p m &&
      (p.fire (body "a") m).all fun p' => decide (Prudent p m p')) (promoteDone 0)).any
      (fun p => p.world.state.mysqld.writable && !p.world.state.rebuilding) = true := by
    decide +kernel
  obtain ⟨p, hp, h⟩ := (Option.any_eq_true _ _).mp hrun
  simp only [Bool.and_eq_true, Bool.not_eq_true'] at h
  refine ⟨p, h.1, source_of_writable "a" (booted_init true false)
    (Coop.Reach.of_exec (fun p m p' hc hf => ?_) _ _ _ .refl hp) h.1 h.2⟩
  rw [Bool.and_eq_true, hf] at hc
  exact ⟨hc.1, of_decide_eq_true hc.2⟩

/-- The node has the fence flag. Its promote gives up after mysqld got writable, before the flag
is cleared, and a configure switches the source side off. -/
theorem source_off : ¬ ∀ (node : Node) (s : Agent) (p : Pool sig), Booted s →
    Runs node s (fun _ _ p' => p'.world.state.semisync = true) p →
    p.world.state.mysqld.writable = true → p.world.state.rebuilding = false →
    p.world.state.mysqld.sourceEnabled = true := by
  intro h
  have hrun : ((Pool.init (init true true true) []).exec (body "a") (fun p m => environment p m &&
      (p.fire (body "a") m).all fun p' => p'.world.state.semisync)
      (promoteDone 0 ++ [timedOut 0, did 0, .arrive (.configure none), .start 1, did 1] ++
        ran 1 (.superReadOnly false) ++ ran 1 (.semisync true false) ++
        ran 1 (.waitSessions (some 0)) ++ [.outside (.execute 1 .none)])).any
      (fun p => p.world.state.mysqld.writable && !p.world.state.rebuilding &&
        !p.world.state.mysqld.sourceEnabled) = true := by
    decide +kernel
  obtain ⟨p, hp, hend⟩ := (Option.any_eq_true _ _).mp hrun
  simp only [Bool.and_eq_true, Bool.not_eq_true'] at hend
  have hon := h "a" _ p (booted_init true true)
    (Coop.Reach.of_exec (fun p m p' hc hf => ?_) _ _ _ .refl hp) hend.1.1 hend.1.2
  · rw [hend.2] at hon
    cases hon
  · rw [Bool.and_eq_true, hf] at hc
    exact hc

end Agent

end DbGuard
