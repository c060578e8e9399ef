import DbGuard.Agent.Supervisor
import Mathlib.Tactic.Linarith

/-!
# `DbGuard.Proofs.Agent.Supervisor`: the restart hold holds and ends

`HoldsAndEnds` says what a hold is for. No mysqld is spawned before its time is over, unless
`release_hold` is called, and when a newer mysqld runs the hold is gone.

The loop looks at the hold at one place, after mysqld has exited. A hold that is set later, in
a backoff sleep or before the first start, is not looked at before the next spawn, and a wait
that has begun keeps its first deadline. `Heeded` excludes these calls, a hold that ends before
the one that stands, and a wait whose time `hold_remaining_s` rounds down.

`Standing` is the invariant while a hold stands: either the loop will look at it, or the loop
waits at least as long. `Quiet` is the one for its end: where the loop does not look, no hold
is set.
-/

set_option autoImplicit false

namespace DbGuard.Supervisor

open Machine (Reach Free)

/-! ### The property -/

/-- What holds after a call of `hold` with `seconds` in the state `s`, in the runs that meet
`ok`. -/
structure HoldsAndEnds (c : SupervisorSettings) (ok : Supervisor → Move → Prop) (s : Supervisor)
    (seconds : ℚ) : Prop where
  holds : ∀ t m t', Reach (step c) (fun t m => ok t m ∧ m ≠ .releaseHold) (s.hold seconds) t →
    ok t m → t.step c m = some t' → t.spawned < t'.spawned → s.now + seconds ≤ t.now
  ends : ∀ t, Reach (step c) (fun t m => ok t m ∧ ∀ d, 0 < d → m ≠ .hold d) (s.hold seconds) t →
    s.spawned < t.spawned → t.held = false ∧ t.endRestartHold = (t, none)

/-- A hold until `holdEnd` is not too late and not too short. A loop that is yet to look at the
hold sees this one, so it must not end before one that stands. A loop that waits already does
so until its deadline. -/
def heeds (s : Supervisor) (holdEnd : ℚ) : Bool :=
  s.stopping ||
    match s.phase with
    | .spawning | .starting | .running | .exited _ _ =>
      s.holdRelease || s.holdUntil.all (· ≤ holdEnd)
    | .holding deadline woken => !woken && decide (holdEnd ≤ deadline)
    | _ => false

/-- The time that is left of a hold is not rounded down. -/
def roundsUp (s : Supervisor) : Bool :=
  s.holdRelease || s.holdUntil.all (· - s.now ≤ s.holdRemaining)

/-- A hold is set where it is heeded, and a wait for its end is not cut short. -/
def Heeded (s : Supervisor) : Move → Prop
  | .hold seconds => 0 < seconds → s.heeds (s.now + seconds) = true
  | .resume _ =>
    match s.phase with
    | .exited _ _ => s.stopping = false → s.roundsUp = true
    | _ => True
  | _ => True

/-- Whether a move is heeded can be computed. -/
instance decidableHeeded (s : Supervisor) (m : Move) : Decidable (Heeded s m) := by
  unfold Heeded
  split
  · infer_instance
  · split <;> infer_instance
  · infer_instance

/-! ### The invariants -/

/-- The loop will look at the hold before it spawns. -/
def looks (s : Supervisor) : Prop :=
  match s.phase with
  | .spawning | .starting | .running | .exited _ _ => True
  | _ => False

/-- mysqld has exited, and the loop has not looked at the hold since. -/
def hasExited (s : Supervisor) : Prop := ∃ rc ran, s.phase = .exited rc ran

/-- The loop waits for the end of a hold. -/
def isHolding (s : Supervisor) : Prop := ∃ deadline woken, s.phase = .holding deadline woken

/-- The loop waits for the end of a hold, until `holdEnd` at least. -/
def waits (s : Supervisor) (holdEnd : ℚ) : Prop :=
  ∃ deadline, s.phase = .holding deadline false ∧ holdEnd ≤ deadline

/-- The hold until `holdEnd` is over, or the loop will look at it, or it waits as long. -/
def Standing (holdEnd : ℚ) (s : Supervisor) : Prop :=
  s.stopping = true ∨ holdEnd ≤ s.now ∨ s.waits holdEnd ∨
    s.looks ∧ s.holdRelease = false ∧ ∃ u, s.holdUntil = some u ∧ holdEnd ≤ u

/-- No hold is set where the loop does not look at it. -/
def Quiet (s : Supervisor) : Prop :=
  s.stopping = true ∨ s.holdUntil = none ∨ s.looks ∨ s.isHolding

section
variable {c : SupervisorSettings} {s s' : Supervisor} {m : Move} {b : Bool} {holdEnd seconds : ℚ}

/-! ### One round of the loop -/

/-- The loop comes to its head with no hold, and may spawn. -/
structure Unheld (s s' : Supervisor) : Prop where
  now : s'.now = s.now
  stopping : s'.stopping = s.stopping
  spawned : s.stopping = true → s'.spawned = s.spawned
  holdUntil : s'.holdUntil = none

/-- The loop is yet to come to the hold, as before. -/
structure Onward (s s' : Supervisor) : Prop where
  now : s'.now = s.now
  stopping : s'.stopping = s.stopping
  spawned : s'.spawned = s.spawned
  holdUntil : s'.holdUntil = s.holdUntil
  holdRelease : s'.holdRelease = s.holdRelease

/-- A supervisor that holds nothing goes on from the head of its loop. -/
theorem unheld_head (h : s.holdUntil = none) : s.Unheld (s.head b) := by
  unfold head
  split_ifs with hstop
  · exact ⟨rfl, rfl, fun _ => rfl, h⟩
  · exact ⟨rfl, rfl, fun hs => absurd hs hstop, h⟩
  · exact ⟨rfl, rfl, fun _ => rfl, h⟩

/-- The end of a hold leaves nothing held. -/
theorem unheld_endHold : s.Unheld (s.endHold c b) := by
  unfold endHold
  simp only
  split_ifs with hstop
  · exact ⟨rfl, rfl, fun _ => rfl, rfl⟩
  · have h := unheld_head (s := { s with
      holdUntil := none, holdRelease := false, immediate := false, backoff := c.minBackoff })
      (b := b) rfl
    exact ⟨h.now, h.stopping, h.spawned, h.holdUntil⟩

/-- What the loop does between two awaits. -/
inductive Round (c : SupervisorSettings) (s s' : Supervisor) : Prop
  /-- It is to end. -/
  | stops (hstop : s.stopping = true) (h : s.Onward s')
  /-- It starts mysqld or watches it. -/
  | watches (hlooks : s.looks) (hlooks' : s'.looks) (h : s.Onward s')
  /-- It looks at a hold and begins to wait. -/
  | waits (hexited : s.hasExited) (h : s.Onward s')
      (hwaits : s'.waits (s.now + s.holdRemaining))
  /-- It looks at a hold that is over. -/
  | finds (hexited : s.hasExited) (h : s.Unheld s')
      (hover : s.holdRelease = true ∨ s.holdRemaining ≤ 0)
  /-- It has waited. -/
  | waited (hholding : s.isHolding) (h : s.Unheld s')
      (hover : ∀ holdEnd, s.waits holdEnd → holdEnd ≤ s.now)
  /-- No hold is set. -/
  | free (hidle : ¬ s.isHolding) (hnone : s.holdUntil = none) (h : s.Unheld s')

/-- A supervisor that looks at the hold is not in it yet. -/
theorem not_isHolding_of_looks (h : s.looks) : ¬ s.isHolding := by
  rintro ⟨d, w, hphase⟩
  simp [looks, hphase] at h

/-- It looks right after mysqld has exited. -/
theorem hasExited_looks (h : s.hasExited) : s.looks := by
  obtain ⟨rc, ran, hphase⟩ := h
  simp [looks, hphase]

/-- The round after an exit. -/
theorem round_afterExit (hphase : s.hasExited) (rc : Int) (ran : ℚ) :
    Round c s (s.afterExit c rc ran b) := by
  have hidle := not_isHolding_of_looks (hasExited_looks hphase)
  unfold afterExit
  simp only
  split_ifs with hstop hheld hwait hnow hlong
  · exact .stops hstop ⟨rfl, rfl, rfl, rfl, rfl⟩
  · exact .waits hphase ⟨rfl, rfl, rfl, rfl, rfl⟩ ⟨_, rfl, le_rfl⟩
  · have h := unheld_endHold (c := c) (s := { s with restarts := s.restarts + 1 }) (b := b)
    refine .finds hphase ⟨h.now, h.stopping, h.spawned, h.holdUntil⟩ ?_
    by_cases hrelease : s.holdRelease = true
    · exact .inl hrelease
    · refine .inr (not_lt.mp fun hpos => hwait ⟨hpos, ?_⟩)
      simpa using hrelease
  · have hnone : s.holdUntil = none := by simpa [held] using hheld
    have h := unheld_head (s := { s with
      restarts := s.restarts + 1, immediate := false, backoff := c.minBackoff }) (b := b) hnone
    exact .free hidle hnone ⟨h.now, h.stopping, h.spawned, h.holdUntil⟩
  · have hnone : s.holdUntil = none := by simpa [held] using hheld
    exact .free hidle hnone ⟨rfl, rfl, fun _ => rfl, hnone⟩
  · have hnone : s.holdUntil = none := by simpa [held] using hheld
    exact .free hidle hnone ⟨rfl, rfl, fun _ => rfl, hnone⟩

/-- A round from the head of the loop. -/
theorem round_head (hidle : ¬ s.isHolding) (hquiet : s.stopping = true ∨ s.holdUntil = none)
    (backoff : ℚ) :
    Round c s ({ s with backoff := backoff }.head b) := by
  by_cases hstop : s.stopping = true
  · rw [head, if_pos hstop]
    exact .stops hstop ⟨rfl, rfl, rfl, rfl, rfl⟩
  · have hnone := hquiet.resolve_left hstop
    have h := unheld_head (s := { s with backoff := backoff }) (b := b) hnone
    exact .free hidle hnone ⟨h.now, h.stopping, h.spawned, h.holdUntil⟩

/-- Every round of the loop is one of these. -/
theorem round_of_resume (hquiet : s.Quiet) (h : s.resume c b = some s') : Round c s s' := by
  -- The loop's head can follow from several phases; none of them is a hold that lasts.
  have hhead : ¬ s.looks → ¬ s.isHolding → ∀ backoff,
      Round c s ({ s with backoff := backoff }.head b) := by
    intro hlooks hidle
    refine round_head hidle ?_
    rcases hquiet with hstop | hnone | hl | hholding
    · exact .inl hstop
    · exact .inr hnone
    · exact absurd hl hlooks
    · exact absurd hholding hidle
  unfold resume at h
  -- By the phase that the loop was in when it was resumed.
  split at h
  · next hphase =>
    cases h
    exact hhead (by simp [looks, hphase]) (by simp [isHolding, hphase]) s.backoff
  · next hphase =>
    cases h
    exact .watches (by simp [looks, hphase]) trivial ⟨rfl, rfl, rfl, rfl, rfl⟩
  · next hphase =>
    cases h
    exact .watches (by simp [looks, hphase]) trivial ⟨rfl, rfl, rfl, rfl, rfl⟩
  · next hphase =>
    split at h
    · cases h
      exact .watches (by simp [looks, hphase]) trivial ⟨rfl, rfl, rfl, rfl, rfl⟩
    · cases h
  -- The wait for the exit is over.
  · next rc ran hphase =>
    cases h
    exact round_afterExit ⟨rc, ran, hphase⟩ rc ran
  -- A hold ends when its deadline has passed or it was woken.
  · next deadline woken hphase =>
    obtain ⟨hover, ⟨⟩⟩ := Option.ite_none_right_eq_some.mp h
    refine .waited ⟨deadline, woken, hphase⟩ unheld_endHold fun holdEnd hwaits => ?_
    obtain ⟨d, hd, hle⟩ := hwaits
    obtain ⟨rfl, rfl⟩ := Phase.holding.inj (hphase.symm.trans hd)
    exact hle.trans (hover.resolve_left (by simp))
  -- The backoff sleep has passed.
  · next deadline hphase =>
    obtain ⟨-, ⟨⟩⟩ := Option.ite_none_right_eq_some.mp h
    exact hhead (by simp [looks, hphase]) (by simp [isHolding, hphase]) _
  · cases h

/-! ### The hold is where it is looked at -/

/-- After a round the supervisor is quiet. -/
theorem Round.quiet (h : Round c s s') : s'.Quiet := by
  cases h with
  | stops hstop h => exact .inl (h.stopping.trans hstop)
  | watches _ hlooks' _ => exact .inr (.inr (.inl hlooks'))
  | waits _ _ hwaits =>
    obtain ⟨d, hd, -⟩ := hwaits
    exact .inr (.inr (.inr ⟨d, false, hd⟩))
  | finds _ h _ => exact .inr (.inl h.holdUntil)
  | waited _ h _ => exact .inr (.inl h.holdUntil)
  | free _ _ h => exact .inr (.inl h.holdUntil)

/-- What a round leaves as it is. A round that spawns leaves no hold. -/
theorem Round.same (h : Round c s s') : s'.now = s.now ∧ s'.stopping = s.stopping ∧
    (s.stopping = true → s'.spawned = s.spawned) ∧
    (s'.holdUntil = none ∨ s'.spawned = s.spawned ∧ s'.holdUntil = s.holdUntil) := by
  have hkind : s.Onward s' ∨ s.Unheld s' := by
    cases h with
    | stops _ h => exact .inl h
    | watches _ _ h => exact .inl h
    | waits _ h _ => exact .inl h
    | finds _ h _ => exact .inr h
    | waited _ h _ => exact .inr h
    | free _ _ h => exact .inr h
  rcases hkind with h | h
  · exact ⟨h.now, h.stopping, fun _ => h.spawned, .inr ⟨h.spawned, h.holdUntil⟩⟩
  · exact ⟨h.now, h.stopping, h.spawned, .inl h.holdUntil⟩

/-- The release of a hold leaves the loop where it is. -/
theorem setRelease_looks : s.setRelease.looks ↔ s.looks := by
  unfold setRelease looks
  cases s.phase <;> simp

/-- A release keeps it so. -/
theorem quiet_setRelease (h : s.Quiet) : s.setRelease.Quiet := by
  rcases h with hstop | hnone | hlooks | ⟨d, w, hp⟩
  · exact .inl hstop
  · exact .inr (.inl hnone)
  · exact .inr (.inr (.inl (setRelease_looks.mpr hlooks)))
  · exact .inr (.inr (.inr ⟨d, true, by simp [setRelease, hp]⟩))

/-- A hold that is heeded is set where the loop looks at it or waits. -/
theorem heeds_cases (h : s.heeds holdEnd = true) : s.stopping = true ∨ s.waits holdEnd ∨
    s.looks ∧ (s.holdRelease = true ∨ ∀ u, s.holdUntil = some u → u ≤ holdEnd) := by
  have hlater : (s.holdRelease || s.holdUntil.all (· ≤ holdEnd)) = true →
      s.holdRelease = true ∨ ∀ u, s.holdUntil = some u → u ≤ holdEnd := by
    intro hor
    rcases Bool.or_eq_true_iff.mp hor with hrelease | hall
    · exact .inl hrelease
    · refine .inr fun u hu => ?_
      rw [hu] at hall
      simpa using hall
  unfold heeds at h
  rcases Bool.or_eq_true_iff.mp h with hstop | h
  · exact .inl hstop
  · unfold looks
    split at h
    · exact .inr (.inr ⟨by simp [*], hlater h⟩)
    · exact .inr (.inr ⟨by simp [*], hlater h⟩)
    · exact .inr (.inr ⟨by simp [*], hlater h⟩)
    · exact .inr (.inr ⟨by simp [*], hlater h⟩)
    · next deadline woken hphase =>
      simp only [Bool.and_eq_true, Bool.not_eq_true', decide_eq_true_eq] at h
      exact .inr (.inl ⟨deadline, by rw [hphase, h.1], h.2⟩)
    · cases h

/-- Every heeded step does. -/
theorem quiet_step (hquiet : s.Quiet) (hok : Heeded s m) (h : s.step c m = some s') :
    s'.Quiet := by
  cases m with
  -- Time and an exit alone do not change what the loop does.
  | advance d =>
    obtain ⟨-, ⟨⟩⟩ := Option.ite_none_right_eq_some.mp h
    exact hquiet
  | exit rc =>
    obtain ⟨-, ⟨⟩⟩ := Option.ite_none_right_eq_some.mp h
    exact hquiet
  | hold d =>
    cases h
    -- A hold is heeded: by a loop that stops, that waits already, or that will look at it.
    unfold hold
    split_ifs with hpos
    · rcases heeds_cases (hok hpos) with hstop | ⟨deadline, hp, -⟩ | ⟨hlooks, -⟩
      · exact .inl hstop
      · exact .inr (.inr (.inr ⟨deadline, false, hp⟩))
      · exact .inr (.inr (.inl hlooks))
    · exact hquiet
  | releaseHold =>
    cases h
    unfold releaseHold
    split_ifs
    -- Releasing wakes the loop, which is quiet as before.
    · exact quiet_setRelease hquiet
    · exact hquiet
  | kill sig =>
    cases h
    unfold kill
    split_ifs
    · exact hquiet
    · exact hquiet
  | stop =>
    cases h
    exact .inl rfl
  | cancel =>
    obtain ⟨hstop, ⟨⟩⟩ := Option.ite_none_right_eq_some.mp h
    exact .inl hstop
  -- Only a resumed loop moves, and then by a round.
  | resume b => exact (round_of_resume hquiet h).quiet

/-- In a heeded run it is quiet. -/
theorem quiet_of_reach {now : ℚ} (h : Reach (step c) Heeded (start c now) s) : s.Quiet :=
  h.invariant (.inr (.inl rfl)) fun _ _ _ _ hquiet hok hstep => quiet_step hquiet hok hstep

/-! ### It holds -/

/-- A hold is no longer than what remains of it. -/
theorem le_of_roundsUp {u : ℚ} (h : s.roundsUp = true) (hrelease : s.holdRelease = false)
    (hu : s.holdUntil = some u) : u ≤ s.now + s.holdRemaining := by
  simp only [roundsUp, hrelease, hu, Bool.false_or, Option.all_some, decide_eq_true_eq] at h
  linarith

/-- A round while a hold stands begins no mysqld before the end of the hold. -/
theorem Standing.round (h : Standing holdEnd s) (hround : Round c s s')
    (hup : s.hasExited → s.stopping = false → s.roundsUp = true) :
    Standing holdEnd s' ∧ (s.spawned < s'.spawned → holdEnd ≤ s.now) := by
  obtain ⟨hnow, hstopping, hspawned, -⟩ := hround.same
  -- Once the hold is over nothing is left to show.
  have hend : holdEnd ≤ s.now → Standing holdEnd s' ∧ (s.spawned < s'.spawned → holdEnd ≤ s.now) :=
    fun hover => ⟨.inr (.inl (hnow ▸ hover)), fun _ => hover⟩
  -- A supervisor that stops starts nothing.
  by_cases hstop : s.stopping = true
  · exact ⟨.inl (hstopping.trans hstop), fun hlt => absurd (hspawned hstop) hlt.ne'⟩
  have hgo : s.stopping = false := by simpa using hstop
  -- The hold stands: it is over, it is waited for, or the loop has still to look at it.
  rcases h with hstop' | hover | hwaits | ⟨hlooks, hrelease, u, hu, hle⟩
  · exact absurd hstop' hstop
  · exact hend hover
  -- The loop waits for the hold, so the round is the one in which the wait ends.
  · have hholding : s.isHolding := hwaits.imp fun d hd => ⟨false, hd.1⟩
    cases hround with
    | stops hstop' _ => exact absurd hstop' hstop
    | watches hlooks _ _ => exact absurd hholding (not_isHolding_of_looks hlooks)
    | waits hexited _ _ => exact absurd hholding (not_isHolding_of_looks (hasExited_looks hexited))
    | finds hexited _ _ => exact absurd hholding (not_isHolding_of_looks (hasExited_looks hexited))
    -- It ended because the deadline, which is not before the hold's end, has passed.
    | waited _ _ hover => exact hend (hover holdEnd hwaits)
    | free hidle _ _ => exact absurd hholding hidle
  -- The loop has still to look: what it reads then covers the hold.
  · cases hround with
    | stops hstop' _ => exact absurd hstop' hstop
    | watches _ hlooks' h =>
      exact ⟨.inr (.inr (.inr ⟨hlooks', h.holdRelease.trans hrelease, u, h.holdUntil.trans hu, hle⟩)),
        fun hlt => absurd h.spawned hlt.ne'⟩
    -- It finds the hold and waits, until the end or longer.
    | waits hexited h hwaits =>
      obtain ⟨d, hd, hlong⟩ := hwaits
      have hu' := le_of_roundsUp (hup hexited hgo) hrelease hu
      exact ⟨.inr (.inr (.inl ⟨d, hd, (hle.trans hu').trans hlong⟩)),
        fun hlt => absurd h.spawned hlt.ne'⟩
    -- It finds no time left, so the hold was over already.
    | finds hexited _ hover =>
      have hu' := le_of_roundsUp (hup hexited hgo) hrelease hu
      have hzero : s.holdRemaining ≤ 0 := hover.resolve_left (by simp [hrelease])
      exact hend (by linarith)
    | waited hholding _ _ => exact absurd hholding (not_isHolding_of_looks hlooks)
    | free _ hnone _ => simp [hnone] at hu

/-- A hold that is heeded stands. -/
theorem standing_hold (hpos : 0 < seconds) (h : s.heeds (s.now + seconds) = true) :
    Standing (s.now + seconds) (s.hold seconds) := by
  rw [hold, if_pos hpos]
  rcases heeds_cases h with hstop | hwaits | ⟨hlooks, -⟩
  · exact .inl hstop
  · exact .inr (.inr (.inl hwaits))
  · exact .inr (.inr (.inr ⟨hlooks, rfl, _, rfl, le_rfl⟩))

/-- A later hold does not shorten one that stands. -/
theorem Standing.hold (h : Standing holdEnd s) (hpos : 0 < seconds)
    (hheeds : s.heeds (s.now + seconds) = true) : Standing holdEnd (s.hold seconds) := by
  rw [Supervisor.hold, if_pos hpos]
  rcases h with hstop | hover | hwaits | ⟨hlooks, hrelease, u, hu, hle⟩
  · exact .inl hstop
  · exact .inr (.inl hover)
  · exact .inr (.inr (.inl hwaits))
  · rcases heeds_cases hheeds with hstop | ⟨d, hd, -⟩ | ⟨-, hrelease' | hlater⟩
    · exact .inl hstop
    · exact absurd ⟨d, false, hd⟩ (not_isHolding_of_looks hlooks)
    · rw [hrelease] at hrelease'
      cases hrelease'
    · exact .inr (.inr (.inr ⟨hlooks, rfl, _, rfl, hle.trans (hlater u hu)⟩))

/-- It stands until it is released or mysqld is started, which is not before its end. -/
theorem Standing.step (h : Standing holdEnd s) (hquiet : s.Quiet) (hok : Heeded s m)
    (hkept : m ≠ .releaseHold) (hstep : s.step c m = some s') :
    Standing holdEnd s' ∧ (s.spawned < s'.spawned → holdEnd ≤ s.now) := by
  cases m with
  | advance d =>
    obtain ⟨hd, ⟨⟩⟩ := Option.ite_none_right_eq_some.mp hstep
    -- Time passes: nothing is started, and a hold that is over stays over.
    refine ⟨?_, fun hlt => absurd hlt (lt_irrefl _)⟩
    rcases h with hstop | hover | hwaits | hlooks
    · exact .inl hstop
    · exact .inr (.inl (hover.trans (le_add_of_nonneg_right hd)))
    · exact .inr (.inr (.inl hwaits))
    · exact .inr (.inr (.inr hlooks))
  | exit rc =>
    obtain ⟨-, ⟨⟩⟩ := Option.ite_none_right_eq_some.mp hstep
    exact ⟨h, fun hlt => absurd hlt (lt_irrefl _)⟩
  | hold d =>
    cases hstep
    -- A further hold may only prolong the wait.
    by_cases hpos : 0 < d
    · have hspawned : (s.hold d).spawned = s.spawned := by rw [Supervisor.hold, if_pos hpos]
      exact ⟨h.hold hpos (hok hpos), fun hlt => absurd hspawned hlt.ne'⟩
    · rw [Supervisor.hold, if_neg hpos]
      exact ⟨h, fun hlt => absurd hlt (lt_irrefl _)⟩
  -- The one step that ends a hold early.
  | releaseHold => exact absurd rfl hkept
  | kill sig =>
    cases hstep
    unfold kill
    split_ifs
    · exact ⟨h, fun hlt => absurd hlt (lt_irrefl _)⟩
    · exact ⟨h, fun hlt => absurd hlt (lt_irrefl _)⟩
  | stop =>
    cases hstep
    exact ⟨.inl rfl, fun hlt => absurd hlt (lt_irrefl _)⟩
  | cancel =>
    obtain ⟨hstop, ⟨⟩⟩ := Option.ite_none_right_eq_some.mp hstep
    exact ⟨.inl hstop, fun hlt => absurd hlt (lt_irrefl _)⟩
  -- The round needs the clock to be rounded up where the loop reads the remaining time.
  | resume b =>
    refine h.round (round_of_resume hquiet hstep) ?_
    rintro ⟨rc, ran, hphase⟩
    simpa only [Heeded, hphase] using hok

/-! ### It ends -/

/-- A move other than a hold spawns no mysqld under a hold and sets none. -/
theorem holdUntil_step (hquiet : s.Quiet) (hno : ∀ d, 0 < d → m ≠ .hold d)
    (hstep : s.step c m = some s') :
    s'.holdUntil = none ∨ s'.spawned = s.spawned ∧ s'.holdUntil = s.holdUntil := by
  -- Only the loop itself clears the hold or starts mysqld.
  cases m with
  | advance d =>
    obtain ⟨-, ⟨⟩⟩ := Option.ite_none_right_eq_some.mp hstep
    exact .inr ⟨rfl, rfl⟩
  | exit rc =>
    obtain ⟨-, ⟨⟩⟩ := Option.ite_none_right_eq_some.mp hstep
    exact .inr ⟨rfl, rfl⟩
  -- There is no further hold here.
  | hold d =>
    cases hstep
    by_cases hpos : 0 < d
    · exact absurd rfl (hno d hpos)
    · rw [hold, if_neg hpos]
      exact .inr ⟨rfl, rfl⟩
  -- Releasing wakes the loop and leaves the deadline.
  | releaseHold =>
    cases hstep
    unfold releaseHold
    split_ifs
    · exact .inr ⟨rfl, rfl⟩
    · exact .inr ⟨rfl, rfl⟩
  | kill sig =>
    cases hstep
    unfold kill
    split_ifs
    · exact .inr ⟨rfl, rfl⟩
    · exact .inr ⟨rfl, rfl⟩
  | stop =>
    cases hstep
    exact .inr ⟨rfl, rfl⟩
  | cancel =>
    obtain ⟨-, ⟨⟩⟩ := Option.ite_none_right_eq_some.mp hstep
    exact .inr ⟨rfl, rfl⟩
  | resume b => exact (round_of_resume hquiet hstep).same.2.2.2

/-- Without a further hold, mysqld is started again only once it is over. -/
theorem holdUntil_of_reach (hquiet : (s.hold seconds).Quiet)
    (h : Reach (step c) (fun t m => Heeded t m ∧ ∀ d, 0 < d → m ≠ .hold d) (s.hold seconds) s') :
    s'.holdUntil = none ∨ s'.spawned = (s.hold seconds).spawned := by
  have hinv : s'.Quiet ∧ (s'.holdUntil = none ∨ s'.spawned = (s.hold seconds).spawned) := by
    refine Reach.invariant (I := fun t => t.Quiet ∧
      (t.holdUntil = none ∨ t.spawned = (s.hold seconds).spawned)) h ⟨hquiet, .inr rfl⟩ ?_
    intro t m u _ ⟨hquiet, hkept⟩ hok hstep
    refine ⟨quiet_step hquiet hok.1 hstep, ?_⟩
    rcases holdUntil_step hquiet hok.2 hstep with hnone | ⟨hspawned, hsame⟩
    · exact .inl hnone
    · rwa [hspawned, hsame]
  exact hinv.2

end

/-- Every hold holds and ends, in the runs in which every hold comes where the loop heeds it. -/
theorem hold_holds_and_ends (c : SupervisorSettings) (now : ℚ) (s : Supervisor) (seconds : ℚ)
    (hrun : Reach (step c) Heeded (start c now) s) (hpos : 0 < seconds)
    (hok : Heeded s (.hold seconds)) : HoldsAndEnds c Heeded s seconds := by
  have hquiet := quiet_of_reach hrun
  have hquiet' : (s.hold seconds).Quiet := quiet_step (c := c) hquiet hok rfl
  constructor
  · intro t m t' h hok' hstep hlt
    by_cases hrelease : m = .releaseHold
    · -- The call itself spawns nothing.
      subst hrelease
      cases hstep
      refine absurd ?_ hlt.ne'
      unfold releaseHold
      split_ifs <;> rfl
    · have hinv : t.Quiet ∧ Standing (s.now + seconds) t := by
        refine Reach.invariant (I := fun t => t.Quiet ∧ Standing (s.now + seconds) t) h
          ⟨hquiet', standing_hold hpos (hok hpos)⟩ ?_
        intro t m u _ ⟨hquiet, hstanding⟩ hok hstep
        exact ⟨quiet_step hquiet hok.1 hstep,
          (hstanding.step hquiet hok.1 hok.2 hstep).1⟩
      exact (hinv.2.step hinv.1 hok' hrelease hstep).2 hlt
  · intro t h hlt
    have hspawned : (s.hold seconds).spawned = s.spawned := by rw [hold, if_pos hpos]
    have hnone : t.holdUntil = none :=
      (holdUntil_of_reach hquiet' h).resolve_right fun heq => hlt.ne' (heq.trans hspawned)
    have hheld : t.held = false := by rw [held, hnone]; rfl
    exact ⟨hheld, by rw [endRestartHold, hheld]; rfl⟩

/-- mysqld has started. -/
def startRun : List Move := [.resume true, .resume true, .resume true]

/-- The kill fence of a running mysqld. -/
theorem hold_holds_and_ends_running :
    HoldsAndEnds {} Heeded (Machine.run (step {}) (start {} 0) startRun) 20 :=
  hold_holds_and_ends {} 0 _ 20
    (Machine.reach_run_of_obeys (by decide +kernel) (by decide +kernel)) (by norm_num)
    (by decide +kernel)

/-- mysqld has crashed, and the loop sleeps before it starts it again. -/
def crashRun : List Move := startRun ++ [.exit 1, .resume true, .resume true]

/-- A kill fence that finds mysqld down. The loop starts it half a second later, with the hold
still set. -/
theorem hold_missed_in_backoff :
    ¬ ∀ s seconds, Reach (step {}) Free (start {} 0) s → 0 < seconds →
      HoldsAndEnds {} Free s seconds := by
  intro hall
  have hcrash : Reach (step {}) Free (start {} 0) (Machine.run (step {}) (start {} 0) crashRun) :=
    Machine.reach_run (by decide +kernel)
  have hheld := hall _ 20 hcrash (by norm_num)
  set s := (Machine.run (step {}) (start {} 0) crashRun).hold 20
  have hrun : Reach (step {}) (fun t m => Free t m ∧ m ≠ .releaseHold) s
      (Machine.run (step {}) s [.kill .sigkill, .advance (1 / 2)]) :=
    Machine.reach_run_of_obeys
      (fun _ _ => ⟨⟨trivial, by decide⟩, fun _ _ => ⟨⟨trivial, by decide⟩, trivial⟩⟩)
      (by decide +kernel)
  have hearly := hheld.holds _ (.resume true) _ hrun trivial
    (Machine.step_eq_run (by decide +kernel)) (by decide +kernel)
  exact absurd hearly (by decide +kernel)

end DbGuard.Supervisor
