import DbGuard.Osc.Pacing
import Mathlib.Tactic.FieldSimp
import Mathlib.Tactic.Linarith
import Mathlib.Tactic.NormNum
import Mathlib.Tactic.Positivity
import Mathlib.Tactic.Ring

/-!
# `DbGuard.Proofs.Osc.Pacing`: a chunk begins only when it may

The throttle reads the server once in each round and `lag_fn` at most once a second, so what
it goes by is not all of one instant. `paced_admits` says how old it can be: the last round,
with which a wait ends, has read `Threads_running` and found it within the limit, and after
that it has used a lag that `lag_fn` gave less than `lag_every_s` before. `Paced` are the
throttles that a copy can have, after any number of chunks and pauses.
-/

set_option autoImplicit false

namespace DbGuard.Osc

open Watch (Rounds)

namespace Throttle

/-! ### The sample of the lag -/

section
variable {h : Nat → Load} {t t' : Throttle} {i j k : Nat}

/-- The settings of a throttle, which nothing changes. -/
structure SameLimits (t t' : Throttle) : Prop where
  maxThreads : t'.maxThreads = t.maxThreads
  maxLagS : t'.maxLagS = t.maxLagS
  hasLagFn : t'.hasLagFn = t.hasLagFn
  lagEveryS : t'.lagEveryS = t.lagEveryS

/-- The limits are the same. -/
theorem SameLimits.refl (t : Throttle) : SameLimits t t := ⟨rfl, rfl, rfl, rfl⟩

/-- And stay the same over several updates. -/
theorem SameLimits.trans {u : Throttle} (h₁ : SameLimits t t') (h₂ : SameLimits t' u) :
    SameLimits t u :=
  ⟨h₂.1.trans h₁.1, h₂.2.trans h₁.2, h₂.3.trans h₁.3, h₂.4.trans h₁.4⟩

/-- The lag was given by `lag_fn` before instant `k`, right after the clock was read. -/
def Sampled (h : Nat → Load) (k : Nat) (t : Throttle) : Prop :=
  ∃ b, b + 1 < k ∧ (h b).clock = t.lagAt ∧ (h (b + 1)).lagFn.toOption.getD none = t.lagS

/-- The lag was sampled, or it is the one from before the first sample. -/
def Fresh (h : Nat → Load) (k : Nat) (t : Throttle) : Prop :=
  t.lagAt = -1000000000 ∨ Sampled h k t

/-- What is fresh at an instant is so at a later one. -/
theorem Fresh.mono (hfresh : Fresh h i t) (hik : i ≤ k) : Fresh h k t :=
  hfresh.imp_right fun ⟨b, hb, hsample⟩ => ⟨b, by omega, hsample⟩

/-- The clock is read at its instant. -/
@[simp] theorem ends_now {c : ℚ} : Watch.Ends h i now c j ↔ (h i).clock = c ∧ j = i + 1 := by
  simp [now]

/-- The lag is read at its instant. -/
@[simp] theorem ends_askLag {l : Option ℚ} :
    Watch.Ends h i askLag l j ↔ (h i).lagFn.toOption.getD none = l ∧ j = i + 1 := by
  simp [askLag]

/-- What `lag` answers is a sample that is not too old. -/
theorem ends_lag {l : Option ℚ} (hends : Watch.Ends h i t.lag (l, t') j) (hfresh : Fresh h i t) :
    SameLimits t t' ∧ Fresh h j t' ∧ j ≤ i + 2 ∧ t'.waitStart = t.waitStart ∧
      t'.throttledS = t.throttledS ∧
      (t.hasLagFn = true → i < j ∧ t'.lagS = l ∧
        ((h i).clock < t'.lagAt + t.lagEveryS ∨ t'.lagAt = (h i).clock)) := by
  unfold lag at hends
  split at hends
  · simp only [Watch.ends_bind, ends_now] at hends
    obtain ⟨c, _, ⟨rfl, rfl⟩, hends⟩ := hends
    split at hends
    · simp only [Watch.ends_bind, ends_askLag, Watch.ends_pure] at hends
      obtain ⟨l', _, ⟨hl, rfl⟩, heq, rfl⟩ := hends
      cases heq
      exact ⟨⟨rfl, rfl, rfl, rfl⟩, .inr ⟨i, by omega, rfl, hl⟩, by omega, rfl, rfl,
        fun _ => ⟨by omega, rfl, .inr rfl⟩⟩
    · rename_i hyoung
      obtain ⟨heq, rfl⟩ := hends
      cases heq
      exact ⟨.refl t, hfresh.mono (by omega), by omega, rfl, rfl,
        fun _ => ⟨by omega, rfl, .inl (by linarith)⟩⟩
  · rename_i hno
    obtain ⟨heq, rfl⟩ := hends
    cases heq
    exact ⟨.refl t, hfresh, by omega, rfl, rfl, fun hyes => absurd hyes hno⟩

/-- The round that begins at instant `a` finds the server within the limits of `t`: the number of
running threads then, and at its next look at the clock a lag that `lag_fn` has given less than
`lag_every_s` before, or gives right after that. -/
structure Admits (h : Nat → Load) (t : Throttle) (a : Nat) : Prop where
  threads : ∃ r, (h a).threadsRunning = .ok r ∧ r ≤ t.maxThreads
  lag : t.hasLagFn = true → ∃ b l, b ≤ a + 1 ∧ (h (b + 1)).lagFn = .ok (some l) ∧
    l ≤ t.maxLagS ∧ (h (a + 1)).clock < (h b).clock + t.lagEveryS

/-- To be admitted depends on the limits only. -/
theorem Admits.of_same {t' : Throttle} {a : Nat} (hadmits : Admits h t' a)
    (hsame : SameLimits t t') : Admits h t a where
  threads := by
    obtain ⟨r, hr, hle⟩ := hadmits.threads
    exact ⟨r, hr, hsame.maxThreads ▸ hle⟩
  lag hyes := by
    obtain ⟨b, l, hba, hl, hle, hage⟩ := hadmits.lag (hsame.hasLagFn.trans hyes)
    exact ⟨b, l, hba, hl, hsame.maxLagS ▸ hle, hsame.lagEveryS ▸ hage⟩

section
variable (hclock : ∀ k, 0 ≤ (h k).clock) (hevery : 0 < t.lagEveryS ∧ t.lagEveryS ≤ 1000000000)
include hclock hevery

/-- One look at the server. If nothing speaks against the copy, the server was found within
the limits. -/
theorem ends_reason {why : Option Pause} (hends : Watch.Ends h i t.reason (why, t') j)
    (hfresh : Fresh h i t) :
    SameLimits t t' ∧ Fresh h j t' ∧ t'.waitStart = t.waitStart ∧
      t'.throttledS = t.throttledS ∧ i < j ∧ j ≤ i + 3 ∧ (why = none → Admits h t i) := by
  simp only [reason, Watch.ends_bind, Watch.ends_ask] at hends
  obtain ⟨tr, _, ⟨htr, rfl⟩, hends⟩ := hends
  split at hends
  · obtain ⟨heq, rfl⟩ := hends
    cases heq
    exact ⟨.refl t, hfresh.mono (by omega), rfl, rfl, by omega, by omega, fun hno => by cases hno⟩
  rename_i hthreads
  simp only [Watch.ends_bind] at hends
  obtain ⟨⟨l, u⟩, k, hlag, hends⟩ := hends
  obtain ⟨hsame, hsampled, hsoon, hstart, htotal, hage⟩ := ends_lag hlag (hfresh.mono (by omega))
  have hik := Watch.le_of_ends _ _ hlag
  cases l with
  | none =>
      obtain ⟨heq, rfl⟩ := hends
      cases heq
      exact ⟨hsame, hsampled, hstart, htotal, by omega, by omega, fun hno => by cases hno⟩
  | some l =>
      obtain ⟨heq, rfl⟩ := hends
      cases heq
      refine ⟨hsame, hsampled, hstart, htotal, by omega, by omega,
        fun hwhy => ⟨⟨tr, htr, not_lt.mp hthreads⟩, fun hyes => ?_⟩⟩
      obtain ⟨hlt, hvalue, hyoung⟩ := hage hyes
      have hwithin : l ≤ t.maxLagS := by
        rw [← hsame.maxLagS]
        by_contra hover
        rw [if_pos (not_le.mp hover)] at hwhy
        cases hwhy
      -- The first sample was taken, since the clock does not begin so far back.
      have hage' : (h (i + 1)).clock < u.lagAt + t.lagEveryS := by
        rcases hyoung with hyoung | hnow
        · exact hyoung
        · linarith [hevery.1]
      rcases hsampled with hfirst | ⟨b, hbk, hb, hgiven⟩
      · linarith [hclock (i + 1), hevery.2]
      · rw [hvalue] at hgiven
        refine ⟨b, l, by omega, ?_, hwithin, hb ▸ hage'⟩
        cases hanswer : (h (b + 1)).lagFn with
        | error e =>
            rw [hanswer] at hgiven
            cases hgiven
        | ok l' =>
            rw [hanswer] at hgiven
            exact congrArg _ hgiven

/-- The rounds of a pause. The last one has found the server within the limits. -/
theorem ends_pause {rounds : Nat} (hends : Watch.Ends h i (Watch.loop look rounds t) (some t') j)
    (hfresh : Fresh h i t) :
    SameLimits t t' ∧ Fresh h j t' ∧ t'.waitStart = t.waitStart ∧
      t'.throttledS = t.throttledS ∧ ∃ a, i ≤ a ∧ a < j ∧ j ≤ a + 3 ∧ Admits h t a := by
  -- The rounds before the last one keep the limits and the freshness of the lag.
  obtain ⟨n, k, u, -, hrounds, hlast⟩ := (Watch.ends_loop _ _ _).mp hends
  have hbefore := Watch.Rounds.invariant
    (I := fun k u => i ≤ k ∧ SameLimits t u ∧ Fresh h k u ∧ u.waitStart = t.waitStart ∧
      u.throttledS = t.throttledS)
    (fun a u v b hI hround => by
      obtain ⟨hia, hsame, hf, hstart, htotal⟩ := hI
      simp only [look, Watch.ends_bind, Watch.ends_pure] at hround
      obtain ⟨⟨why, w⟩, c, hreason, heq, rfl⟩ := hround
      obtain ⟨hsame', hf', hstart', htotal', -, -, -⟩ :=
        ends_reason hclock (hsame.lagEveryS ▸ hevery) hreason hf
      have hgo : w = v := by
        -- A round that goes on has found some reason.
        cases why with
        | none => cases heq
        | some _ => exact Sum.inl.inj heq
      subst hgo
      exact ⟨Nat.le_trans hia (Watch.le_of_ends _ _ hreason), hsame.trans hsame', hf',
        hstart'.trans hstart, htotal'.trans htotal⟩)
    n i t ⟨Nat.le_refl i, .refl t, hfresh, rfl, rfl⟩ hrounds
  obtain ⟨hik, hsame, hf, hstart, htotal⟩ := hbefore
  -- The last round has found none, and that is the instant that admits.
  simp only [look, Watch.ends_bind, Watch.ends_pure] at hlast
  obtain ⟨⟨why, w⟩, c, hreason, heq, rfl⟩ := hlast
  obtain ⟨hsame', hf', hstart', htotal', hlt, hsoon, hadmits⟩ :=
    ends_reason hclock (hsame.lagEveryS ▸ hevery) hreason hf
  cases why with
  | some _ => cases heq
  | none =>
      obtain rfl : w = t' := Sum.inr.inj heq
      exact ⟨hsame.trans hsame', hf', hstart'.trans hstart, htotal'.trans htotal, k, hik, hlt,
        hsoon, (hadmits rfl).of_same hsame⟩

/-- A wait, and what it adds to the time of the pauses. -/
theorem ends_wait {rounds : Nat} {s : ℚ} (hends : Watch.Ends h i (t.wait rounds) (some (s, t')) j)
    (hfresh : Fresh h i t) :
    i < j ∧ SameLimits t t' ∧ Fresh h j t' ∧ t'.waitStart = none ∧
      (∃ a, i < a ∧ a < j ∧ j ≤ a + 4 ∧ Admits h t a) ∧
      s = (h (j - 1)).clock - (h i).clock ∧ t'.throttledS = t.throttledS + s := by
  simp only [wait, Watch.ends_bind, ends_now] at hends
  obtain ⟨start, _, ⟨rfl, rfl⟩, out, k, hpause, hends⟩ := hends
  cases out with
  | none => exact absurd hends.1 (by simp)
  | some u =>
      simp only [Watch.ends_bind, ends_now, Watch.ends_pure] at hends
      obtain ⟨stop, _, ⟨rfl, rfl⟩, heq, rfl⟩ := hends
      cases heq
      have hik := Watch.le_of_ends _ _ hpause
      have hsame₀ : SameLimits t { t with waitStart := some (h i).clock } := ⟨rfl, rfl, rfl, rfl⟩
      obtain ⟨hsame, hf, -, htotal, a, hia, hak, hka, hadmits⟩ :=
        ends_pause (t := { t with waitStart := some (h i).clock }) hclock hevery hpause
          (hfresh.mono (Nat.le_succ i))
      refine ⟨by omega, hsame₀.trans ⟨hsame.1, hsame.2, hsame.3, hsame.4⟩,
        hf.mono (Nat.le_succ k), rfl, ⟨a, by omega, by omega, by omega, hadmits.of_same hsame₀⟩,
        rfl, ?_⟩
      show u.throttledS + _ = _
      rw [htotal]

end

end

/-- The throttle of a copy that began with `t₀`, at instant `i`, after the waits `ws`. Between two
waits the copy does something else for any time. -/
inductive Paced (h : Nat → Load) (t₀ : Throttle) : List (Nat × Nat) → Nat → Throttle → Prop
  | start (i : Nat) : Paced h t₀ [] i t₀
  | wait {ws : List (Nat × Nat)} {i k j rounds : Nat} {t t' : Throttle} {s : ℚ} :
      Paced h t₀ ws i t → i ≤ k → Watch.Ends h k (t.wait rounds) (some (s, t')) j →
      Paced h t₀ (ws ++ [(k, j)]) j t'

/-- Each chunk of a copy begins after a wait whose last round, at most four instants before its
end, has found the server within the limits: the number of running threads, and after that a
lag that `lag_fn` gave less than a second before. An unknown lag is no such lag. `throttled_s`
is the time of all the waits. -/
theorem paced_admits {maxThreads : Int} {maxLagS : ℚ} {hasLagFn : Bool} {h : Nat → Load}
    {ws : List (Nat × Nat)} {i : Nat} {t : Throttle} (hclock : ∀ k, 0 ≤ (h k).clock)
    (hpaced : Paced h (new maxThreads maxLagS hasLagFn) ws i t) :
    (∀ w ∈ ws, ∃ a, w.1 < a ∧ a < w.2 ∧ w.2 ≤ a + 4 ∧
      Admits h (new maxThreads maxLagS hasLagFn) a) ∧
      ∀ c, t.totalS c = (ws.map fun w => (h (w.2 - 1)).clock - (h w.1).clock).sum := by
  have hall : SameLimits (new maxThreads maxLagS hasLagFn) t ∧ Fresh h i t ∧
      t.waitStart = none ∧
      t.throttledS = (ws.map fun w => (h (w.2 - 1)).clock - (h w.1).clock).sum ∧
      ∀ w ∈ ws, ∃ a, w.1 < a ∧ a < w.2 ∧ w.2 ≤ a + 4 ∧
        Admits h (new maxThreads maxLagS hasLagFn) a := by
    -- By induction on the waits that the copy has made so far.
    induction hpaced with
    | start i => exact ⟨.refl _, .inl rfl, rfl, rfl, by simp⟩
    | wait _ hik hends ih =>
        obtain ⟨hsame, hfresh, -, htotal, hadmits⟩ := ih
        have hevery : (0 : ℚ) < (new maxThreads maxLagS hasLagFn).lagEveryS ∧
            (new maxThreads maxLagS hasLagFn).lagEveryS ≤ 1000000000 := by
          norm_num [new]
        obtain ⟨-, hsame', hfresh', hstart', ⟨a, hia, haj, hja, hlast⟩, hs, htotal'⟩ :=
          ends_wait hclock (hsame.lagEveryS ▸ hevery) hends (hfresh.mono hik)
        refine ⟨hsame.trans hsame', hfresh', hstart', ?_, fun w hw => ?_⟩
        · rw [htotal', htotal, hs]
          simp
        -- The waits before, and then this one.
        · rcases List.mem_append.mp hw with hw | hw
          · exact hadmits w hw
          · rw [List.mem_singleton.mp hw]
            exact ⟨a, hia, haj, hja, hlast.of_same hsame⟩
  obtain ⟨-, -, hstart, htotal, hadmits⟩ := hall
  refine ⟨hadmits, fun c => ?_⟩
  rw [totalS, hstart, htotal]
  simp

/-- A server with three running threads until instant 6, and a lag that is unknown until
instant 9. -/
def recovering (k : Nat) : Load where
  threadsRunning := .ok (if k < 6 then 3 else 1)
  lagFn := if k < 9 then .error "timeout" else .ok (some 0)
  clock := k

/-- A replica that recovers lets the copy go on after a second. -/
theorem paced_admits_recovering : ∃ j t, Paced recovering (new 2 5 true) [(0, j)] j t ∧
    ∃ a, 0 < a ∧ a < j ∧ j ≤ a + 4 ∧ Admits recovering (new 2 5 true) a := by
  obtain ⟨out, j, hends, hout⟩ := Watch.exists_ends_of_run (h := recovering) (i := 0)
    (p := (new 2 5 true).wait 9) (q := Option.isSome) (by decide +kernel)
  obtain ⟨⟨s, t⟩, rfl⟩ := Option.isSome_iff_exists.mp hout
  have hpaced := (Paced.start 0).wait (Nat.le_refl 0) hends
  exact ⟨j, t, hpaced, (paced_admits (fun k => Nat.cast_nonneg k) hpaced).1 _ List.mem_cons_self⟩

end Throttle

end DbGuard.Osc
