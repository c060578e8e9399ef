import DbGuard.Coop.Contract

/-!
# `DbGuard.Coop.Frame`: what every task keeps to

A task records only its own steps, and neither jobs nor log ever shrink. This needs no look
at any program, so `frame` is sound for all of them. Other contracts are stated over it
(`Contract.upon`), and may rely on it that the steps of a suspended task stay as they are.
-/

set_option autoImplicit false

namespace Coop

variable {S : Sig} {α : Type} {t : Nat} {j : S.Job} {w₀ w w' : World S}

/-- What a segment of task `t` does to the record: it creates tasks and records steps of its
own. -/
structure Adds (t : Nat) (w₀ w : World S) : Prop where
  lt : t < w₀.jobs.length
  jobs : w₀.jobs <+: w.jobs
  log : ∃ l, w.log = w₀.log ++ l ∧ ∀ e ∈ l, e.isBy t = true

/-- What a suspended task `t` can rely on. -/
structure Grows (t : Nat) (w w' : World S) : Prop where
  jobs : w.jobs <+: w'.jobs
  log : w.log <+: w'.log
  own : own t w'.log = own t w.log

namespace Adds

/-- A segment that has just begun. -/
theorem refl (h : t < w.jobs.length) : Adds t w w :=
  ⟨h, List.prefix_refl _, [], by simp, by simp⟩

/-- An update. -/
theorem edit (u : S.Update) (h : Adds t w₀ w) : Adds t w₀ (w.edit u) := ⟨h.lt, h.jobs, h.log⟩

/-- One more step of the task itself. -/
theorem record {e : Event S} (he : e.isBy t = true) (h : Adds t w₀ w) :
    Adds t w₀ (w.record e) := by
  obtain ⟨l, hl, hby⟩ := h.log
  refine ⟨h.lt, h.jobs, l ++ [e], ?_, ?_⟩
  · simp [World.record, hl]
  · intro e' he'
    rcases List.mem_append.mp he' with h' | h'
    · exact hby e' h'
    · rw [List.mem_singleton.mp h']
      exact he

/-- A task that it creates. -/
theorem spawn (j' : S.Job) (h : Adds t w₀ w) : Adds t w₀ (w.spawn t j') := by
  obtain ⟨hlt, hjobs, hlog⟩ := h.record (e := .created t j' w.jobs.length) (by simp [Event.isBy])
  exact ⟨hlt, hjobs.trans (List.prefix_append _ _), hlog⟩

/-- A request. -/
theorem issue (r : S.Req) (h : Adds t w₀ w) : Adds t w₀ (w.issue t j r) :=
  h.record (by simp [Event.isBy])

/-- An answer. -/
theorem answer (r : S.Req) (a : S.Resp r) (h : Adds t w₀ w) : Adds t w₀ (w.answer t r a) :=
  h.record (by simp [Event.isBy])

/-- Its end. -/
theorem finish (h : Adds t w₀ w) : Adds t w₀ (w.finish t) := by
  obtain ⟨hlt, hjobs, hlog⟩ := h.record (e := .finished t w.state) (by simp [Event.isBy])
  exact ⟨hlt, hjobs, hlog⟩

/-- What other tasks see of it. -/
theorem grows {t' : Nat} (hne : t ≠ t') (h : Adds t w₀ w) : Grows t' w₀ w := by
  obtain ⟨l, hl, hby⟩ := h.log
  refine ⟨h.jobs, hl ▸ List.prefix_append _ _, ?_⟩
  have hown : own t' l = [] :=
    own_of_task_ne fun e he heq => hne ((task_of_isBy (hby e he)).symm.trans heq)
  rw [hl, own_append, hown, List.append_nil]

end Adds

namespace Grows

/-- Nothing is added. -/
theorem refl : Grows t w w := ⟨List.prefix_refl _, List.prefix_refl _, rfl⟩

/-- What is added in several moves. -/
theorem trans {w₁ w₂ w₃ : World S} (h : Grows t w₁ w₂) (h' : Grows t w₂ w₃) : Grows t w₁ w₃ :=
  ⟨h.jobs.trans h'.jobs, h.log.trans h'.log, h'.own.trans h.own⟩

/-- A created task stays created. -/
theorem lt (h : Grows t w w') (hlt : t < w.jobs.length) : t < w'.jobs.length :=
  Nat.lt_of_lt_of_le hlt h.jobs.length_le

/-- A task keeps its job. -/
theorem job (h : Grows t w w') {i : Nat} (hi : w.jobs[i]? = some j) : w'.jobs[i]? = some j := by
  obtain ⟨l, hl⟩ := h.jobs
  have hlt := (List.getElem?_eq_some_iff.mp hi).1
  rw [← hl, List.getElem?_append_left hlt, hi]

end Grows

/-- Every task keeps to its own record. -/
def frame (S : Sig) : Contract S where
  inv w := ∀ e ∈ w.log, ∀ t, e.isBy t = true → t < w.jobs.length
  rely := Grows
  allowed _ _ _ := True
  answers _ _ _ _ := True
  may := Adds
  pre t j w := w.jobs[t]? = some j ∧ own t w.log = []

/-- Any program keeps to its own record. -/
theorem wp_frame :
    ∀ (m : Prog S α) (w₀ w : World S), Adds t w₀ w →
      m.wp (frame S) t j (fun _ w₀ w => Adds t w₀ w) w₀ w := by
  intro m
  induction m with
  | done a => intro w₀ w h; exact h
  | look k ih => intro w₀ w h; exact ih _ _ _ h
  | edit u k ih => intro w₀ w h; exact ih _ _ (h.edit u)
  | spawn j' k ih => intro w₀ w h; exact ih _ _ _ (h.spawn j')
  | await r k ih =>
      intro w₀ w h _
      have hi := h.issue (j := j) r
      refine ⟨hi, fun w' a _ hr _ => ih a _ _ ?_⟩
      exact (Adds.refl (hr.lt (Nat.lt_of_lt_of_le h.lt hi.jobs.length_le))).answer r a
  | block c k ih =>
      intro w₀ w h _
      refine ⟨h, fun w' _ hr _ => ih _ _ ?_⟩
      exact Adds.refl (hr.lt (Nat.lt_of_lt_of_le h.lt h.jobs.length_le))

/-- New events of a segment, and the old ones, belong to tasks that exist. -/
theorem inv_frame_of_adds (hi : (frame S).inv w₀) (h : Adds t w₀ w) : (frame S).inv w := by
  obtain ⟨l, hl, hby⟩ := h.log
  intro e he t' ht'
  refine Nat.lt_of_lt_of_le ?_ h.jobs.length_le
  rw [hl] at he
  rcases List.mem_append.mp he with he | he
  · exact hi e he t' ht'
  · have : t' = t := (task_of_isBy ht').symm.trans (task_of_isBy (hby e he))
    exact this ▸ h.lt

/-- The contract that every program keeps, in every pool. -/
theorem frame_sound (body : Nat → S.Job → Prog S Unit)
    (ok : Pool S → Move S → Pool S → Prop) : (frame S).Sound body ok where
  rely_refl _ _ := Grows.refl
  rely_trans _ _ _ _ := Grows.trans
  rely_of_may _ _ _ _ hne _ h := h.grows hne
  rely_arrive _ _ _ _ _ _ := ⟨List.prefix_append _ _, List.prefix_refl _, rfl⟩
  rely_outside _ _ _ _ _ _ := ⟨List.prefix_refl _, List.prefix_refl _, rfl⟩
  rely_land _ _ _ _ _ _ _ :=
    ⟨List.prefix_refl _, List.prefix_append _ _, by simp [World.record, own, Event.isBy]⟩
  rely_resend _ _ _ _ _ _ _ :=
    ⟨List.prefix_refl _, List.prefix_append _ _, by simp [World.record, own, Event.isBy]⟩
  inv_may _ _ _ := inv_frame_of_adds
  inv_arrive _ _ _ _ h e he t ht :=
    Nat.lt_of_lt_of_le (h e he t ht) (List.prefix_append _ _).length_le
  inv_outside _ _ _ _ h := h
  -- A landing's event is not of any task's program.
  inv_land _ _ _ _ _ h e he t ht := by
    rcases List.mem_append.mp he with he | he
    · exact h e he t ht
    · rw [List.mem_singleton.mp he] at ht
      cases ht
  inv_resend _ _ _ _ _ h e he t ht := by
    rcases List.mem_append.mp he with he | he
    · exact h e he t ht
    · rw [List.mem_singleton.mp he] at ht
      cases ht
  pre_rely _ _ _ _ hp hr := ⟨hr.job hp.1, hr.own.trans hp.2⟩
  pre_may t w₀ w t' j hi h hle hj := by
    -- A task just created is younger than the one that stepped, so no event is its own.
    refine ⟨hj, ?_⟩
    obtain ⟨l, hl, hby⟩ := h.log
    have hne : t ≠ t' := Nat.ne_of_lt (Nat.lt_of_lt_of_le h.lt hle)
    rw [(h.grows hne).own]
    refine List.filter_eq_nil_iff.mpr fun e he hby => ?_
    exact absurd (hi e he t' hby) (Nat.not_lt.mpr hle)
  pre_arrive p j _ _ hi := by
    -- A task that arrives takes a number that no event carries yet.
    refine ⟨by simp, List.filter_eq_nil_iff.mpr fun e he hby => ?_⟩
    exact absurd (hi e he _ hby) (Nat.lt_irrefl _)
  allowed_start _ _ _ _ := trivial
  allowed_answer _ _ _ _ _ := trivial
  allowed_wake _ _ _ _ := trivial
  answers_ok _ _ _ _ _ _ _ _ := trivial
  body_wp t j w _ hj _ := by
    have hlt := (List.getElem?_eq_some_iff.mp hj).1
    exact Prog.wp_mono (fun _ _ _ h _ => h.finish) _ _ _ (wp_frame _ _ _ (Adds.refl hlt))

end Coop
