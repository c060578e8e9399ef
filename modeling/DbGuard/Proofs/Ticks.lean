import DbGuard.Proofs.Discipline
import DbGuard.Proofs.Tasks

/-!
# `DbGuard.Proofs.Ticks`: one tick at a time

The manager runs the next tick when the last one is done. No task but a tick polls, so the last
observation of a controller is that of its current tick, also after this tick has waited for
the lock. `ticking` says so as a contract over the lock discipline. A task is done exactly
once, which is what `finished` and the tables of tasks rely on.
-/

set_option autoImplicit false

namespace DbGuard

open Coop (Prog Pool Move World Contract Adds Grows frame)

/-! ### Updates -/

/-- Only the end of a task adds to the list of those that are done. -/
theorem finished_apply (u : Update) (s : Ctl) : (u.apply s).finished = s.finished := by
  cases u with
  | goTo new note emit detect =>
      exact goTo_keeps (f := Ctl.finished) (fun _ _ _ => rfl) s new note emit detect
  | halt reason =>
      exact goTo_keeps (f := Ctl.finished) (fun _ _ _ => rfl) s .halted (some reason) true none
  | resume => exact resume_keeps (f := Ctl.finished) (fun _ _ _ => rfl) s
  | _ => rfl

/-- Only a poll files an observation. -/
theorem lastObs_apply {u : Update} (hu : ∀ ob keep, u ≠ .observed ob keep) (s : Ctl) :
    (u.apply s).lastObs = s.lastObs := by
  cases u with
  | goTo new note emit detect =>
      exact goTo_keeps (f := Ctl.lastObs) (fun _ _ _ => rfl) s new note emit detect
  | halt reason =>
      exact goTo_keeps (f := Ctl.lastObs) (fun _ _ _ => rfl) s .halted (some reason) true none
  | resume => exact resume_keeps (f := Ctl.lastObs) (fun _ _ _ => rfl) s
  | observed ob keep => exact absurd rfl (hu ob keep)
  | _ => rfl

/-- The vocabulary starts no tick, and polls only as a part of one. -/
structure Vocabulary.Orderly (V : Vocabulary) (j : Job) : Prop where
  polls : j ≠ .tick → ∀ ob keep, ¬ V.edits (.observed ob keep)
  creates : ¬ V.creates .tick
  nodeTasks : ∀ n, ¬ V.nodeTasks n .tick
  maints : ∀ ns, ¬ V.maints .tick ns

/-- Every task keeps to its kind. -/
theorem task_orderly (cfg : Config) (t : Nat) (j : Job) : (taskVocabulary cfg t j).Orderly j := by
  cases j with
  -- Each clause rules a request out, alternative by alternative of the vocabulary.
  | tick =>
      refine ⟨fun h => absurd rfl h, ?_, ?_, ?_⟩
      · rintro ((⟨n, h⟩ | h) | (h | h)) <;> cases h
      · rintro n ((h | h) | (⟨_, h⟩ | ⟨_, h⟩) | h) <;> cases h
      · rintro ns ((h | h) | (⟨_, _, h, _⟩ | h)) <;> cases h
  | switchover target =>
      refine ⟨fun _ _ _ => ?_, ?_, ?_, ?_⟩
      · rintro (h | h) <;> cases h
      · rintro (h | h) <;> cases h
      · rintro n (⟨_, h⟩ | h) <;> cases h
      · rintro ns (h | h) <;> cases h
  | rejoin node =>
      refine ⟨fun _ _ _ => ?_, ?_, ?_, ?_⟩
      · rintro (h | h) <;> cases h
      · rintro (h | h) <;> cases h
      · rintro n (⟨_, _, h⟩ | h) <;> cases h
      · rintro ns (⟨_, _, h, _⟩ | h) <;> cases h
  -- The tasks that take no lock.
  | rejoinNode n why | verifyAfterRepoint n primary =>
      refine ⟨fun _ _ _ h => (by cases h), fun h => (by cases h), ?_, ?_⟩
      · rintro m ⟨_, _, h⟩
        cases h
      · rintro ns ⟨_, _, h, _⟩
        cases h
  | fenceSecondWriter n primary =>
      refine ⟨fun _ _ _ h => (by cases h), fun h => (by cases h), ?_, fun _ h => (by cases h)⟩
      rintro m ⟨_, _, h⟩
      cases h
  | rebuildAndJoin args =>
      refine ⟨fun _ _ _ => ?_, ?_, ?_, ?_⟩
      · rintro (h | h) <;> cases h
      · rintro (⟨_, h⟩ | h) <;> cases h
      · rintro n (h | h) <;> cases h
      · rintro ns (h | h) <;> cases h
  | replace spare donor =>
      refine ⟨fun _ _ _ => ?_, ?_, ?_, ?_⟩
      · rintro (h | h) <;> cases h
      · rintro (⟨_, h⟩ | h) <;> cases h
      · rintro n (h | h) <;> cases h
      · rintro ns (h | h) <;> cases h
  -- The tasks that speak none of the requests in question.
  | halt | resume | getPrimary | fence | repointAfter | keepUnstuck =>
      exact ⟨fun _ _ _ h => (by cases h), fun h => (by cases h), fun _ h => (by cases h),
        fun _ h => (by cases h)⟩

/-! ### The contract -/

/-- What holds between any two segments: every tick but the last is done. -/
structure Ticking (w : World sig) : Prop where
  created : ∀ t ∈ w.state.finished, t < w.jobs.length
  turn : ∀ t t', w.jobs[t]? = some .tick → w.jobs[t']? = some .tick → t < t' →
    t ∈ w.state.finished

/-- What a suspended task can rely on: it is not done, and a tick keeps its observation. -/
structure Waits (t : Nat) (w w' : World sig) : Prop where
  job : w.jobs[t]? = some .tick → w'.jobs[t]? = some .tick
  live : t ∉ w.state.finished → t ∉ w'.state.finished
  lastObs : w.jobs[t]? = some .tick → t ∉ w.state.finished →
    w'.state.lastObs = w.state.lastObs

/-- What a segment of task `t` does. -/
structure Turns (t : Nat) (w₀ w : World sig) : Prop where
  live : t ∉ w₀.state.finished
  finished : ∀ t', t' ≠ t → (t' ∈ w.state.finished ↔ t' ∈ w₀.state.finished)
  created : ∀ i, w₀.jobs.length ≤ i → w.jobs[i]? ≠ some .tick
  lastObs : w₀.jobs[t]? ≠ some .tick → w.state.lastObs = w₀.state.lastObs

/-- Ticks follow each other. -/
def ticking : Contract sig where
  inv := Ticking
  rely := Waits
  allowed _ _ _ := True
  answers _ _ _ _ := True
  may := Turns
  pre t _ w := t ∉ w.state.finished

/-- A segment so far of task `t` with job `j`. -/
structure Turning (t : Nat) (j : Job) (w₀ w : World sig) : Prop where
  job : w₀.jobs[t]? = some j
  live : t ∉ w₀.state.finished
  finished : w.state.finished = w₀.state.finished
  created : ∀ i, w₀.jobs.length ≤ i → w.jobs[i]? ≠ some .tick
  jobs : w₀.jobs <+: w.jobs
  lastObs : j ≠ .tick → w.state.lastObs = w₀.state.lastObs

section
variable {t : Nat} {j : Job} {w₀ w w' : World sig} {γ : Type} {m : M γ}

/-- A segment that has just begun. -/
theorem Turning.refl (hjob : w.jobs[t]? = some j) (hlive : t ∉ w.state.finished) :
    Turning t j w w where
  job := hjob
  live := hlive
  finished := rfl
  created _ hle h := absurd (List.getElem?_eq_some_iff.mp h).1 (Nat.not_lt.mpr hle)
  jobs := List.prefix_refl _
  lastObs _ := rfl

/-- It does what the contract allows. -/
theorem Turning.turns (h : Turning t j w₀ w) : Turns t w₀ w where
  live := h.live
  finished t' _ := by rw [h.finished]
  created := h.created
  lastObs hj := h.lastObs fun he => hj (he ▸ h.job)

/-- A change that files no observation, unless the task is a tick. -/
theorem Turning.edit {u : Update} (h : Turning t j w₀ w)
    (hu : j ≠ .tick → ∀ ob keep, u ≠ .observed ob keep) : Turning t j w₀ (w.edit u) :=
  { h with
    finished := (finished_apply u w.state).trans h.finished
    lastObs := fun hj => (lastObs_apply (hu hj) w.state).trans (h.lastObs hj) }

/-- A record. -/
theorem Turning.record (h : Turning t j w₀ w) (e : Coop.Event sig) :
    Turning t j w₀ (w.record e) :=
  ⟨h.job, h.live, h.finished, h.created, h.jobs, h.lastObs⟩

/-- A task that it creates, and no tick. -/
theorem Turning.spawn {j' : Job} (h : Turning t j w₀ w) (hj : j' ≠ .tick) :
    Turning t j w₀ (w.spawn t j') := by
  refine ⟨h.job, h.live, h.finished, fun i hle hi => ?_, h.jobs.trans (List.prefix_append _ _),
    h.lastObs⟩
  have hlt := (List.getElem?_eq_some_iff.mp hi).1
  simp only [World.spawn_jobs] at hi hlt
  by_cases hnew : i < w.jobs.length
  · rw [List.getElem?_append_left hnew] at hi
    exact h.created i hle hi
  · rw [List.getElem?_append_right (Nat.le_of_not_lt hnew)] at hi
    have hsame := List.mem_of_getElem? hi
    exact hj (List.mem_singleton.mp hsame).symm

/-- The next segment of the same task. -/
theorem Turning.next (h : Turning t j w₀ w) (hr : (base.upon ticking).rely t w w') :
    Turning t j w' w' := by
  have hjob : w.jobs[t]? = some j := by
    obtain ⟨l, hl⟩ := h.jobs
    rw [← hl, List.getElem?_append_left (List.getElem?_eq_some_iff.mp h.job).1, h.job]
  exact .refl (hr.1.1.job hjob) (hr.2.live (h.finished ▸ h.live))

/-- The parts of a task with job `j`. -/
theorem turning_kept {V : Vocabulary} (hV : V.Orderly j) :
    V.Kept (base.upon ticking) t j (Turning t j) where
  edit h hu := h.edit fun hj ob keep heq => hV.polls hj ob keep (heq ▸ hu)
  await {w₀ w r} h _ _ := by
    have hissued := h.record (.issued t j r w.state)
    exact ⟨hissued.turns, fun w' a _ hrely _ => (hissued.next hrely).record _⟩
  create h hj := h.spawn fun heq => hV.creates (heq ▸ hj)
  nodeTask h hj _ := (h.spawn fun heq => hV.nodeTasks _ (heq ▸ hj)).edit (by simp)
  maint h hj _ := (h.spawn fun heq => hV.maints _ (heq ▸ hj)).edit (by simp)
  join h _ _ := h.edit (by simp)
  block _ h _ := ⟨h.turns, fun w' _ hrely _ => h.next hrely⟩

/-- The end of a task. -/
theorem Turning.finish (h : Turning t j w₀ w) : Turns t w₀ (w.finish t) := by
  refine { h.turns with finished := fun t' hne => ?_ }
  show t' ∈ t :: w.state.finished ↔ _
  rw [List.mem_cons, h.finished]
  exact ⟨fun h' => h'.resolve_left hne, .inr⟩

/-- Every task takes its turn. -/
theorem body_ticking (cfg : Config) (hjob : w.jobs[t]? = some j) (hlive : t ∉ w.state.finished) :
    (body cfg t j).wp (base.upon ticking) t j (fun _ w₀ w => Turning t j w₀ w) w w :=
  (turning_kept (task_orderly cfg t j)).wp (body_speaks_task cfg t j) (.refl hjob hlive)

end

/-- Only one tick runs. -/
theorem running_tick {p : Pool sig} (h : environment p (.arrive .tick) = true) {t : Nat}
    (ht : p.world.jobs[t]? = some .tick) : t ∈ p.world.state.finished := by
  by_contra hnot
  have hnone : running p Job.isTick = false := by simpa [environment] using h
  have hlt := (List.getElem?_eq_some_iff.mp ht).1
  have hsome : running p Job.isTick = true := by
    unfold running
    rw [List.any_eq_true]
    exact ⟨t, List.mem_range.mpr hlt, by simp [ht, Job.isTick, hnot]⟩
  rw [hnone] at hsome
  cases hsome

/-- A tick stays one. -/
theorem tick_of_jobs {l l' : List Job} (h : l <+: l') {t : Nat} (ht : l[t]? = some .tick) :
    l'[t]? = some .tick := by
  obtain ⟨rest, hrest⟩ := h
  rw [← hrest, List.getElem?_append_left (List.getElem?_eq_some_iff.mp ht).1, ht]

/-- In every run the ticks take turns. -/
theorem ticking_sound (cfg : Config) {ok : Pool sig → Move sig → Pool sig → Prop}
    (hok : ∀ p m p', ok p m p' → environment p m = true) :
    base.SoundOver ticking (body cfg) ok where
  rely_refl _ _ := ⟨fun h => h, fun h => h, fun _ _ => rfl⟩
  rely_trans _ _ _ _ h h' :=
    ⟨fun ht => h'.job (h.job ht), fun hl => h'.live (h.live hl),
      fun ht hl => (h'.lastObs (h.job ht) (h.live hl)).trans (h.lastObs ht hl)⟩
  rely_of_may t t' w₀ w hne _ hi hb h := by
    refine ⟨tick_of_jobs hb.1.jobs,
      fun hlive hdone => hlive ((h.finished t' hne.symm).mp hdone), fun ht' hlive => ?_⟩
    refine h.lastObs fun ht => ?_
    -- Two ticks: the earlier one is done.
    rcases Nat.lt_or_gt_of_ne hne with hlt | hlt
    · exact h.live (hi.turn t t' ht ht' hlt)
    · exact hlive (hi.turn t' t ht' ht hlt)
  rely_arrive p j p' t _ _ :=
    ⟨tick_of_jobs (List.prefix_append _ _), fun h => h, fun _ _ => rfl⟩
  rely_outside p u p' t ho _ := by
    obtain ⟨time, mono, rfl⟩ := clock_of_environment (hok _ _ _ ho)
    exact ⟨fun h => h, fun h => h, fun _ _ => rfl⟩
  rely_land _ _ _ _ _ _ _ := ⟨fun h => h, fun h => h, fun _ _ => rfl⟩
  rely_resend _ _ _ _ _ _ _ := ⟨fun h => h, fun h => h, fun _ _ => rfl⟩
  inv_may t w₀ w _ hi hb h := by
    have hold : ∀ i : Nat, w.jobs[i]? = some Job.tick → w₀.jobs[i]? = some Job.tick := by
      intro i htick
      have hlt : i < w₀.jobs.length := by
        by_contra hge
        exact h.created i (Nat.le_of_not_lt hge) htick
      obtain ⟨l, hl⟩ := hb.1.jobs
      rwa [← hl, List.getElem?_append_left hlt] at htick
    refine ⟨fun i hdone => ?_, fun i i' htick htick' hlt => ?_⟩
    · by_cases hit : i = t
      · exact hit ▸ Nat.lt_of_lt_of_le hb.1.lt hb.1.jobs.length_le
      · exact Nat.lt_of_lt_of_le (hi.created i ((h.finished i hit).mp hdone)) hb.1.jobs.length_le
    · have hdone := hi.turn i i' (hold i htick) (hold i' htick') hlt
      have hit : i ≠ t := fun heq => h.live (heq ▸ hdone)
      exact (h.finished i hit).mpr hdone
  inv_arrive p j p' ho hi := by
    have hlen : ∀ (i : Nat) j', (p.world.jobs ++ [j])[i]? = some j' →
        p.world.jobs[i]? = some j' ∨ i = p.world.jobs.length ∧ j' = j := by
      intro i j' hi'
      by_cases hlt : i < p.world.jobs.length
      · exact .inl (by rwa [List.getElem?_append_left hlt] at hi')
      · have hlt' := (List.getElem?_eq_some_iff.mp hi').1
        have hi : i = p.world.jobs.length := by
          rw [List.length_append, List.length_singleton] at hlt'
          omega
        subst hi
        simp only [List.getElem?_concat_length, Option.some.injEq] at hi'
        exact .inr ⟨rfl, hi'.symm⟩
    refine ⟨fun i hdone => ?_, fun i i' htick htick' hlt => ?_⟩
    · exact Nat.lt_of_lt_of_le (hi.created i hdone) (List.prefix_append _ _).length_le
    · rcases hlen i' .tick htick' with hold' | ⟨rfl, hj⟩
      · rcases hlen i .tick htick with hold | ⟨rfl, -⟩
        · exact hi.turn i i' hold hold' hlt
        · have := (List.getElem?_eq_some_iff.mp hold').1
          omega
      · rcases hlen i .tick htick with hold | ⟨rfl, -⟩
        · exact running_tick (hj ▸ hok _ _ _ ho) hold
        · exact absurd hlt (Nat.lt_irrefl _)
  inv_outside p u p' ho hi := by
    obtain ⟨time, mono, rfl⟩ := clock_of_environment (hok _ _ _ ho)
    exact ⟨hi.created, hi.turn⟩
  inv_land _ _ _ _ _ hi := ⟨hi.created, hi.turn⟩
  inv_resend _ _ _ _ _ hi := ⟨hi.created, hi.turn⟩
  pre_rely _ _ _ _ hp _ hr := hr.live hp
  pre_may t w₀ w t' j _ hi hb h hle _ := by
    intro hdone
    have hne : t' ≠ t := Nat.ne_of_gt (Nat.lt_of_lt_of_le hb.1.lt hle)
    exact absurd (hi.created t' ((h.finished t' hne).mp hdone)) (Nat.not_lt.mpr hle)
  pre_arrive p j p' _ hi h := absurd (hi.created _ h) (Nat.lt_irrefl _)
  allowed_start _ _ _ _ := trivial
  allowed_answer _ _ _ _ _ := trivial
  allowed_wake _ _ _ _ := trivial
  answers_ok _ _ _ _ _ _ _ _ := trivial
  body_wp t j w _ _ hj _ hp :=
    Prog.wp_mono (fun _ _ _ h _ => h.finish) _ _ _ (body_ticking cfg hj hp)

/-- The lock discipline and the order of the ticks. -/
def tickBase : Contract sig := base.both ticking

/-- The contracts of the discipline and of the ticks together. -/
theorem tickBase_sound (cfg : Config) {ok : Pool sig → Move sig → Pool sig → Prop}
    (hok : ∀ p m p', ok p m p' → environment p m = true) : tickBase.Sound (body cfg) ok :=
  (base_sound cfg hok).both (ticking_sound cfg hok)

/-- A contract over both holds along every run of a controller. -/
theorem holds_of_ticks {cfg : Config} {cond : Pool sig → Move sig → Pool sig → Prop}
    {X : Contract sig} {p : Pool sig}
    (hX : tickBase.SoundOver X (body cfg) (fun p m p' => environment p m = true ∧ cond p m p'))
    (hinit : X.inv (Pool.init (Ctl.init cfg) []).world) (hp : Runs cfg cond p) :
    (tickBase.both X).Holds p := by
  have hticking : ticking.inv (Pool.init (Ctl.init cfg) []).world :=
    ⟨fun _ h => absurd h List.not_mem_nil, fun _ _ h => by cases h⟩
  exact ((tickBase_sound cfg fun _ _ _ h => h.1).both hX).holds_reach
    (Contract.holds_init ⟨⟨base_init cfg, hticking⟩, hinit⟩ nofun) hp

end DbGuard
