import DbGuard.Agent.WakeGuard

/-!
# `DbGuard.Proofs.Agent.WakeGuard`: nothing before the guard

Whoever finds the gap that a freeze leaves moves `last_tick` on and starts the guard, unless a
guard is running. So at each moment a freeze has been answered by a guard run that started
after it and did not fence, or the flag is set, or the gap is still there to be found, or a
guard that is fit to answer it is running. `Attended` says so, and `/primary` and the heartbeat
look at each of the last three.

A guard that runs already when the gap is found is the exception. It may have asked the manager
before the freeze. `guarded_after_freeze` is the result for the runs in which this does not
happen, and `stale_guard_opens` is a run in which it does.
-/

set_option autoImplicit false

namespace DbGuard

open Machine (Reach Free)

/-- The guard run has not started, has decided to fence, or started after `freezes` freezes. -/
def Guard.fresh (g : Guard) (freezes : Nat) : Bool :=
  g.phase == .created || g.phase == .locking || g.phase == .fencing || g.born == freezes

namespace Wake

/-- Whether the step looks for a gap. -/
def looks (s : Wake) : Act → Bool
  | .ticker | .heartbeatWake => true
  | .primary => !s.fenced && s.startupDone && !s.rebuilding
  | _ => false

/-- The fence file can be written when a guard wants to. -/
def Act.stores : Act → Bool
  | .guardRead _ stored | .guardLock stored => stored
  | _ => true

/-- A step that finds a gap does not find a guard running that started before the last freeze
ended and has not decided to fence. The fence file can be written. -/
def renewed (c : WakeSettings) (s : Wake) (m : Move) : Bool :=
  let s' := s.enter c m.at_
  m.act.stores && (!(s'.looks m.act && s'.gap c) || s'.guard.all (·.fresh s'.freezes))

/-- A guard run has answered the last freeze, the node is fenced, or a guard run is about to
do one of them. -/
def Answered (s : Wake) : Prop :=
  s.freezes ≤ s.cleared ∨ s.fenced = true ∨ ∃ g, s.guard = some g ∧ g.fresh s.freezes = true

/-- The last freeze is answered, or its gap is still there to be found. -/
structure Attended (c : WakeSettings) (s : Wake) : Prop where
  past : s.lastTick ≤ s.now
  answered : s.gap c = true ∨ s.Answered
  fencing : ∀ g, s.guard = some g → g.phase = .fencing → s.fenced = true

section
variable {c : WakeSettings} {s s' : Wake} {g : Guard}

/-! ### The clock -/

/-- The agent at its start. -/
theorem attended_start (fenced : Bool) (t : Time) : (start fenced t).Attended c where
  past := Int.le_refl t
  answered := .inr (.inl (Nat.le_refl 0))
  fencing _ hg := by cases hg

/-- Time passes, and a gap in it is a freeze. -/
theorem Attended.enter (h : s.Attended c) {t : Time} (ht : s.now ≤ t) :
    (s.enter c t).Attended c := by
  have hpast := h.past
  refine ⟨Int.le_trans hpast ht, ?_, h.fencing⟩
  by_cases hfreeze : c.wakeGapS < t - s.now
  · -- a freeze has ended, and the last tick was before it
    refine .inl ?_
    show decide (c.wakeGapS < t - s.lastTick) = true
    rw [decide_eq_true_eq]
    exact Int.lt_of_lt_of_le hfreeze (Int.sub_le_sub_left hpast t)
  · have hsame : s.enter c t = { s with now := t } := by
      simp only [Wake.enter, if_neg hfreeze]
    rw [hsame]
    refine h.answered.imp (fun hgap => ?_) id
    have hlate := of_decide_eq_true hgap
    show decide (c.wakeGapS < t - s.lastTick) = true
    rw [decide_eq_true_eq]
    exact Int.lt_of_lt_of_le hlate (Int.sub_le_sub_right ht s.lastTick)

/-! ### Finding the gap -/

/-- A guard that is triggered answers for the freezes so far. -/
theorem answered_trigger (h : s.guard.all (·.fresh s.freezes) = true) :
    s.triggerGuard.Answered := by
  unfold triggerGuard
  cases hguard : s.guard with
  | none => exact .inr (.inr ⟨_, rfl, rfl⟩)
  | some g =>
      rw [hguard, Option.all_some] at h
      exact .inr (.inr ⟨g, hguard, h⟩)

/-- A guard that is started leaves the rest as it is, and does not fence yet. -/
theorem triggerGuard_same :
    s.triggerGuard.now = s.now ∧ s.triggerGuard.lastTick = s.lastTick ∧
      s.triggerGuard.fenced = s.fenced ∧
      ∀ g, s.triggerGuard.guard = some g → g.phase = .fencing → s.guard = some g := by
  unfold triggerGuard
  cases hguard : s.guard with
  | none =>
      refine ⟨rfl, rfl, rfl, fun g hg hphase => ?_⟩
      cases hg
      cases hphase
  | some g => exact ⟨rfl, rfl, rfl, fun g' hg' _ => hguard ▸ hg'⟩

/-- Moving `last_tick` on and starting the guard. -/
theorem Attended.trigger (h : s.Attended c)
    (hfresh : s.guard.all (·.fresh s.freezes) = true) :
    ({ s with lastTick := s.now }.triggerGuard).Attended c ∧
      ({ s with lastTick := s.now }.triggerGuard).Answered := by
  have hans : ({ s with lastTick := s.now }.triggerGuard).Answered := answered_trigger hfresh
  obtain ⟨hnow, htick, hfenced, hguard⟩ := triggerGuard_same (s := { s with lastTick := s.now })
  refine ⟨⟨?_, .inr hans, fun g hg hphase => ?_⟩, hans⟩
  · rw [hnow, htick]
  · rw [hfenced]
    exact h.fencing g (hguard g hg hphase) hphase

/-- After a look for the gap the last freeze is answered. -/
theorem Attended.handleGap (h : s.Attended c)
    (hfresh : s.gap c = true → s.guard.all (·.fresh s.freezes) = true) :
    (s.handleGap c).Attended c ∧ (s.handleGap c).Answered := by
  unfold Wake.handleGap
  split
  · rename_i hgap
    exact h.trigger (hfresh hgap)
  · rename_i hgap
    exact ⟨h, h.answered.resolve_left hgap⟩

/-- The heartbeat's tick finds a gap and triggers the guard. -/
theorem Attended.tick (h : s.Attended c)
    (hfresh : s.gap c = true → s.guard.all (·.fresh s.freezes) = true) :
    (s.tick c).Attended c := by
  unfold Wake.tick
  split
  · rename_i hgap
    exact (h.trigger (hfresh hgap)).1
  · rename_i hgap
    exact ⟨Int.le_refl _, .inr (h.answered.resolve_left hgap), h.fencing⟩

/-! ### The guard run -/

/-- The guard changes, and the clock, the last tick and the count of freezes do not. -/
theorem Attended.regard (h : s.Attended c) (hnow : s'.now = s.now)
    (htick : s'.lastTick = s.lastTick) (hans : s.Answered → s'.Answered)
    (hfencing : ∀ g, s'.guard = some g → g.phase = .fencing → s'.fenced = true) :
    s'.Attended c where
  past := by
    rw [hnow, htick]
    exact h.past
  answered := by
    have hgap : s'.gap c = s.gap c := by
      show decide (c.wakeGapS < s'.now - s'.lastTick) = decide (c.wakeGapS < s.now - s.lastTick)
      rw [hnow, htick]
    rw [hgap]
    exact h.answered.imp id hans
  fencing := hfencing

/-- The step has nothing to do with the guard. -/
theorem Attended.frame (h : s.Attended c) (hnow : s'.now = s.now)
    (htick : s'.lastTick = s.lastTick) (hfreezes : s'.freezes = s.freezes)
    (hcleared : s'.cleared = s.cleared) (hguard : s'.guard = s.guard)
    (hfenced : s.fenced = true → s'.fenced = true) : s'.Attended c := by
  refine h.regard hnow htick (fun hans => ?_) fun g hg hphase => ?_
  · show s'.freezes ≤ s'.cleared ∨ s'.fenced = true ∨ ∃ g, s'.guard = some g ∧ _
    rw [hfreezes, hcleared, hguard]
    exact hans.imp id (Or.imp hfenced id)
  · exact hfenced (h.fencing g (hguard ▸ hg) hphase)

/-- A guard that ends has answered for its freezes. -/
theorem Attended.guardDone (h : s.Attended c) (hg : s.guard = some g)
    (hborn : g.fresh s.freezes = true → s.freezes ≤ g.born) : (s.guardDone g).Attended c := by
  refine h.regard rfl rfl (fun hans => ?_) fun g' hg' => (by cases hg')
  rcases hans with hcleared | hfenced | ⟨g', hg', hfresh⟩
  · exact .inl (Nat.le_trans hcleared (Nat.le_max_left _ _))
  · exact .inr (.inl hfenced)
  · rw [hg] at hg'
    cases hg'
    exact .inl (Nat.le_trans (hborn hfresh) (Nat.le_max_right _ _))

/-- The guard begins. -/
theorem Attended.guardStart (h : s.Attended c) (g : Guard) : (s.guardStart c g).Attended c := by
  unfold Wake.guardStart
  dsimp only
  split
  · -- the guard is off: the run is over, and it started just now
    refine h.regard rfl rfl (fun _ => ?_) fun g' hg' => (by cases hg')
    exact .inl (Nat.le_max_right _ _)
  · refine h.regard rfl rfl (fun _ => ?_) fun g' hg' hphase => ?_
    · exact .inr (.inr ⟨_, rfl, by simp [Guard.fresh]⟩)
    · cases hg'
      split at hphase <;> cases hphase

/-- A guard run that waits for an answer is fresh if it started after the last freeze. -/
theorem born_of_fresh {freezes : Nat} (h : g.fresh freezes = true)
    (hphase : g.phase = .asking ∨ ∃ reply, g.phase = .reading reply) : g.born = freezes := by
  rcases hphase with hp | ⟨reply, hp⟩ <;> simpa [Guard.fresh, hp] using h

/-- The manager answers the guard. -/
theorem Attended.guardAnswer (h : s.Attended c) (hg : s.guard = some g)
    (hphase : g.phase = .asking) (reply : ManagerReply) :
    ({ s with guard := some { g with phase := .reading reply } } : Wake).Attended c := by
  refine h.regard rfl rfl (fun hans => ?_) fun g' hg' hp => ?_
  · refine hans.imp id (Or.imp id ?_)
    rintro ⟨g', hg', hfresh⟩
    rw [hg] at hg'
    cases hg'
    refine ⟨_, rfl, ?_⟩
    simp [Guard.fresh, born_of_fresh hfresh (.inl hphase)]
  · cases hg'
    cases hp

/-- The guard fences. -/
theorem Attended.guardFence (h : s.Attended c) (g : Guard) :
    (s.guardFence g true).Attended c :=
  h.regard rfl rfl (fun _ => .inr (.inl rfl)) fun _ _ _ => rfl

/-- The guard has read super_read_only and decides. -/
theorem Attended.guardDecide (h : s.Attended c) (hg : s.guard = some g) {reply : ManagerReply}
    (hphase : g.phase = .reading reply) (sro : Option (Option Bool)) :
    (s.guardDecide c g reply sro true).Attended c := by
  unfold Wake.guardDecide
  dsimp only
  split
  · split
    · exact h.guardFence g
    · refine h.regard rfl rfl (fun _ => .inr (.inr ⟨_, rfl, rfl⟩)) fun g' hg' hp => ?_
      cases hg'
      cases hp
  · refine h.guardDone hg fun hfresh => ?_
    exact Nat.le_of_eq (born_of_fresh hfresh (.inr ⟨reply, hphase⟩)).symm

/-! ### The heartbeat -/

/-- A heartbeat. -/
theorem Attended.beat (h : s.Attended c) : (s.beat c).Attended c := by
  unfold Wake.beat
  split <;> exact h.frame rfl rfl rfl rfl rfl id

/-- The read before a heartbeat is sent. -/
theorem Attended.afterRead (h : s.Attended c) (sro : Option (Option Bool)) :
    (s.afterRead c sro).Attended c := by
  unfold Wake.afterRead
  split
  · exact h.frame rfl rfl rfl rfl rfl id
  · split <;> exact h.frame rfl rfl rfl rfl rfl id

/-- The heartbeat wakes, and may trigger the guard. -/
theorem Attended.heartbeatWake (h : s.Attended c)
    (hfresh : s.gap c = true → s.guard.all (·.fresh s.freezes) = true) :
    (s.heartbeatWake c).Attended c := by
  have hafter := (h.handleGap hfresh).1
  unfold Wake.heartbeatWake
  dsimp only
  split
  · exact hafter.frame rfl rfl rfl rfl rfl id
  · exact hafter.beat

/-- /primary answers, and may trigger it, too. -/
theorem Attended.primaryAnswer (h : s.Attended c)
    (hfresh : s.looks .primary = true → s.gap c = true →
      s.guard.all (·.fresh s.freezes) = true) : (s.primaryAnswer c).2.Attended c := by
  unfold Wake.primaryAnswer
  split
  · exact h
  · rename_i hfenced
    split
    · exact h
    · rename_i hready
      have hlooks : s.looks .primary = true := by
        simp only [Bool.or_eq_true, Bool.not_eq_true', not_or, Bool.not_eq_false,
          Bool.not_eq_true] at hready
        simp [looks, hready.1, hready.2, hfenced]
      dsimp only
      split <;> exact (h.handleGap (hfresh hlooks)).1

/-! ### The runs -/

/-- A step keeps it, if no stale guard is found running. -/
theorem Attended.act (h : s.Attended c) {a : Act} (hstores : a.stores = true)
    (hfresh : s.looks a = true → s.gap c = true → s.guard.all (·.fresh s.freezes) = true)
    (hact : s.act c a = some s') : s'.Attended c := by
  -- Only the ticker, `/primary` and the heartbeat look at the clock; the guard itself answers for
  -- the gaps that it was started for.
  cases a with
  | ticker =>
      cases hact
      exact h.tick (hfresh rfl)
  | primary =>
      cases hact
      exact h.primaryAnswer hfresh
  | guardStart =>
      -- A guard runs only where one was triggered.
      simp only [Wake.act] at hact
      split at hact
      · split at hact
        · cases hact
          exact h.guardStart _
        · cases hact
      · cases hact
  | guardAnswer reply =>
      simp only [Wake.act] at hact
      -- The manager's answer is kept for the decision.
      split at hact
      · rename_i g hg
        split at hact
        · rename_i hphase
          cases hact
          exact h.guardAnswer hg hphase reply
        · cases hact
      · cases hact
  | guardRead sro stored =>
      -- With super_read_only read, the guard decides to fence or not.
      rw [show stored = true from hstores] at hact
      simp only [Wake.act] at hact
      split at hact
      · rename_i g hg
        split at hact
        · rename_i reply hphase
          cases hact
          exact h.guardDecide hg hphase sro
        · cases hact
      · cases hact
  | guardLock stored =>
      -- It fences under the fence lock.
      rw [show stored = true from hstores] at hact
      simp only [Wake.act] at hact
      split at hact
      · split at hact
        · cases hact
          exact h.guardFence _
        · cases hact
      · cases hact
  | guardEnd =>
      simp only [Wake.act] at hact
      split at hact
      · rename_i g hg
        split at hact
        · rename_i hphase
          cases hact
          -- The flag is set since the run took the fence lock.
          have hfenced := h.fencing g hg hphase
          exact h.regard rfl rfl (fun _ => .inr (.inl hfenced)) fun g' hg' => (by cases hg')
        · cases hact
      · cases hact
  -- A fence that was asked for sets the flag, and leaves the guard to its own.
  | fence stored =>
      simp only [Wake.act] at hact
      split at hact
      · cases hact
        split
        · exact h.frame rfl rfl rfl rfl rfl fun _ => rfl
        · exact h
      · cases hact
  -- A heartbeat sends nothing before the guard is through.
  | heartbeatStart =>
      simp only [Wake.act] at hact
      split at hact
      · cases hact
        exact h.frame rfl rfl rfl rfl rfl id
      · cases hact
  | heartbeatWake =>
      simp only [Wake.act] at hact
      split at hact
      · cases hact
        exact h.heartbeatWake (hfresh rfl)
      · cases hact
  | heartbeatAwake =>
      simp only [Wake.act] at hact
      split at hact
      · split at hact
        · cases hact
          exact h.beat
        · cases hact
      · cases hact
  -- The rest of a heartbeat changes nothing that the guard is for.
  | heartbeatConnect ok =>
      simp only [Wake.act] at hact
      split at hact
      · cases hact
        exact h.frame rfl rfl rfl rfl rfl id
      · cases hact
  | heartbeatRead sro =>
      simp only [Wake.act] at hact
      split at hact
      · cases hact
        exact h.afterRead sro
      · cases hact
  | heartbeatWritten ok =>
      simp only [Wake.act] at hact
      split at hact
      · cases hact
        exact h.frame rfl rfl rfl rfl rfl id
      · cases hact
  | fenceEnd | startup | rebuilding | sample | sampleLost =>
      cases hact
      exact h.frame rfl rfl rfl rfl rfl id
  | other =>
      cases hact
      exact h

/-- What the condition says of a step, once the clock is read. -/
theorem of_renewed {m : Move} (h : renewed c s m = true) :
    m.act.stores = true ∧ ((s.enter c m.at_).looks m.act = true →
      (s.enter c m.at_).gap c = true →
        (s.enter c m.at_).guard.all (·.fresh (s.enter c m.at_).freezes) = true) := by
  obtain ⟨hstores, hfresh⟩ := Bool.and_eq_true_iff.mp h
  refine ⟨hstores, fun hlooks hgap => ?_⟩
  rw [hlooks, hgap] at hfresh
  exact hfresh

/-- The clock of a step that is made. -/
theorem of_step {m : Move} (h : s.step c m = some s') :
    s.now ≤ m.at_ ∧ (s.enter c m.at_).act c m.act = some s' := by
  unfold step at h
  split at h
  · cases h
  · rename_i hle
    exact ⟨Int.not_lt.mp hle, h⟩

/-- Every step of a run with renewed guards. -/
theorem Attended.step (h : s.Attended c) {m : Move} (hok : renewed c s m = true)
    (hstep : s.step c m = some s') : s'.Attended c := by
  obtain ⟨hle, hact⟩ := of_step hstep
  obtain ⟨hstores, hfresh⟩ := of_renewed hok
  exact (h.enter hle).act hstores hfresh hact

/-- Every moment of a run. -/
theorem attended_of_reach {fenced : Bool} {t : Time}
    (hrun : Reach (step c) (fun s m => renewed c s m = true) (start fenced t) s) :
    s.Attended c :=
  hrun.invariant (attended_start fenced t) fun _ _ _ _ h hok hstep => h.step hok hstep

/-- Nothing is left of an answered freeze but a guard run that did not fence. -/
theorem Answered.cleared (h : s.Answered) (hfenced : s.fenced = false)
    (hguard : s.guard = none) : s.freezes ≤ s.cleared := by
  rcases h with hcleared | hset | ⟨g, hg, -⟩
  · exact hcleared
  · rw [hfenced] at hset
    cases hset
  · rw [hguard] at hg
    cases hg

/-- To find a gap fences nothing. -/
theorem handleGap_fenced : (s.handleGap c).fenced = s.fenced := by
  unfold Wake.handleGap
  split
  · exact triggerGuard_same.2.2.1
  · rfl

/-- `/primary` answers 200 only to an answered freeze. -/
theorem Attended.primary_cleared (h : s.Attended c)
    (hfresh : s.looks .primary = true → s.gap c = true →
      s.guard.all (·.fresh s.freezes) = true)
    (h200 : (s.primaryAnswer c).1.1 = 200) :
    (s.primaryAnswer c).2.freezes ≤ (s.primaryAnswer c).2.cleared := by
  unfold Wake.primaryAnswer at h200 ⊢
  split at h200
  · cases h200
  · rename_i hfenced
    split at h200
    · cases h200
    · rename_i hready
      have hlooks : s.looks .primary = true := by
        simp only [Bool.or_eq_true, Bool.not_eq_true', not_or, Bool.not_eq_false,
          Bool.not_eq_true] at hready
        simp [looks, hready.1, hready.2, hfenced]
      dsimp only at h200
      split at h200
      · cases h200
      · rename_i hguard
        simp only [if_neg hfenced, if_neg hready, if_neg hguard]
        refine (h.handleGap (hfresh hlooks)).2.cleared ?_ ?_
        · rw [handleGap_fenced]
          exact eq_false_of_ne_true hfenced
        · simpa using hguard

/-- The heartbeat writes only after an answered freeze. -/
theorem Attended.write_cleared (h : s.Attended c) {sro : Option (Option Bool)}
    (hwrite : (s.afterRead c sro).heartbeat = .writing) :
    (s.afterRead c sro).freezes ≤ (s.afterRead c sro).cleared := by
  unfold Wake.afterRead at hwrite ⊢
  split at hwrite
  · cases hwrite
  · split at hwrite
    · cases hwrite
    · rename_i hnot
      rw [if_neg hnot]
      simp only [guardPending, Bool.or_eq_true, not_or, Bool.not_eq_true,
        Option.isSome_eq_false_iff, Option.isNone_iff_eq_none] at hnot
      obtain ⟨⟨⟨-, hfenced⟩, -⟩, hgap, hguard⟩ := hnot
      have hans := h.answered.resolve_left fun hyes => by rw [hgap] at hyes; cases hyes
      exact hans.cleared hfenced hguard

/-- In every run in which no gap is found while a guard runs that has not seen the freeze, and
in which a guard that fences can write the fence file: whenever `/primary` answers 200 or the
heartbeat writes, a guard run that started after the last freeze has ended without a decision
to fence. -/
theorem guarded_after_freeze (c : WakeSettings) {fenced : Bool} {t : Time} {s s' : Wake}
    {m : Move} (hrun : Reach (step c) (fun s m => renewed c s m = true) (start fenced t) s)
    (hok : renewed c s m = true) (hstep : s.step c m = some s')
    (hopens : opens c s m s' = true) : s'.freezes ≤ s'.cleared := by
  obtain ⟨hle, hact⟩ := of_step hstep
  obtain ⟨-, hfresh⟩ := of_renewed hok
  have h := (attended_of_reach hrun).enter hle
  obtain ⟨at_, a⟩ := m
  cases a with
  | primary =>
      cases hact
      exact h.primary_cleared hfresh (by simpa [opens] using hopens)
  | heartbeatRead sro =>
      have hwrite : s'.heartbeat = .writing := by simpa [opens] using hopens
      simp only [Wake.act] at hact
      split at hact
      · cases hact
        exact h.write_cleared hwrite
      · cases hact
  | _ => cases hopens

end

/-- The settings of node `a`. -/
def nodeA : WakeSettings := { node := "a" }

/-- The agent is frozen for ten seconds. Its guard hears that `a` is the primary, and that
mysqld takes writes. -/
def oneFreeze : List Move :=
  [⟨0, .startup⟩, ⟨500, .ticker⟩, ⟨10500, .ticker⟩, ⟨10501, .guardStart⟩,
   ⟨10600, .guardAnswer (.body (some "a"))⟩, ⟨10610, .guardRead (some (some false)) true⟩,
   ⟨10700, .sample (some false)⟩]

/-- Then `/primary` answers 200. -/
theorem answers_after_guard :
    (Machine.run (step nodeA) (start false 0) (oneFreeze ++ [⟨10750, .primary⟩])).freezes ≤
      (Machine.run (step nodeA) (start false 0) (oneFreeze ++ [⟨10750, .primary⟩])).cleared :=
  @guarded_after_freeze nodeA false 0 (Machine.run (step nodeA) (start false 0) oneFreeze) _
    ⟨10750, .primary⟩ (Machine.reach_run_of_obeys (by decide +kernel) (by decide +kernel))
    (by decide +kernel) (by decide +kernel) (by decide +kernel)

/-- A second freeze falls into the guard run, which has the manager's answer already. The
ticker finds the gap and leaves it to that guard. -/
def twoFreezes : List Move :=
  [⟨0, .startup⟩, ⟨500, .ticker⟩, ⟨10500, .ticker⟩, ⟨10501, .guardStart⟩,
   ⟨10600, .guardAnswer (.body (some "a"))⟩, ⟨40600, .ticker⟩,
   ⟨40650, .guardRead (some (some false)) true⟩, ⟨40700, .sample (some false)⟩]

/-- The manager may have failed over during the second freeze. No guard run has asked it since,
and `/primary` answers 200. -/
theorem stale_guard_opens :
    ¬ ∀ (c : WakeSettings) (fenced : Bool) (t : Time) (s s' : Wake) (m : Move),
      Reach (step c) Free (start fenced t) s → s.step c m = some s' →
      opens c s m s' = true → s'.freezes ≤ s'.cleared := by
  intro h
  have hlate := h nodeA false 0 (Machine.run (step nodeA) (start false 0) twoFreezes)
    (Machine.run (step nodeA) (start false 0) (twoFreezes ++ [⟨40750, .primary⟩]))
    ⟨40750, .primary⟩ (Machine.reach_run (by decide +kernel)) (by decide +kernel)
    (by decide +kernel)
  exact absurd hlate (by decide +kernel)

end Wake

end DbGuard
