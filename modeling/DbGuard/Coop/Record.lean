import DbGuard.Coop.Pool

/-!
# `DbGuard.Coop.Record`: what the log of a run says of its tasks

A created task has the job that the log says, and a task that got an answer exists. A
condition `A` on the answers of a run is a condition on its moves, and `Reach.recorded` turns
it into a fact about the log: when every answer that was given met `A`, so did every answer in
the log. No program is looked at, because a task records no answer by itself.
-/

set_option autoImplicit false

namespace Coop

variable {S : Sig} {body : Nat → S.Job → Prog S Unit}
  {ok : Pool S → Move S → Pool S → Prop} {A : S.Job → (r : S.Req) → S.Resp r → Prop}

/-- The log agrees with the jobs of the tasks, and every answer in it met `A`. -/
structure Recorded (A : S.Job → (r : S.Req) → S.Resp r → Prop) (w : World S) : Prop where
  created : ∀ t j t', .created t j t' ∈ w.log → w.jobs[t']? = some j
  answers : ∀ t r a, .answered t r a ∈ w.log → ∃ j, w.jobs[t]? = some j ∧ A j r a

namespace Recorded

variable {w : World S}

/-- An update changes no record. -/
theorem edit (h : Recorded A w) (u : S.Update) : Recorded A (w.edit u) :=
  ⟨h.created, h.answers⟩

/-- A new task. -/
theorem arrive (h : Recorded A w) (j : S.Job) : Recorded A (w.arrive j) := by
  have hjob : ∀ (t : Nat) (j' : S.Job), w.jobs[t]? = some j' →
      (w.jobs ++ [j])[t]? = some j' := by
    intro t j' hj
    rw [List.getElem?_append_left (List.getElem?_eq_some_iff.mp hj).1, hj]
  refine ⟨fun t j' t' hc => hjob t' j' (h.created t j' t' hc), fun t r a ha => ?_⟩
  obtain ⟨j', hj, hA⟩ := h.answers t r a ha
  exact ⟨j', hjob t j' hj, hA⟩

/-- A step that agrees with the jobs, and is no answer that does not meet `A`. -/
theorem record (h : Recorded A w) {e : Event S}
    (hcreated : ∀ t j t', e = .created t j t' → w.jobs[t']? = some j)
    (hanswer : ∀ t r a, e = .answered t r a → ∃ j, w.jobs[t]? = some j ∧ A j r a) :
    Recorded A (w.record e) where
  created t j t' hc := by
    rcases List.mem_append.mp hc with hc | hc
    · exact h.created t j t' hc
    · exact hcreated t j t' (List.mem_singleton.mp hc).symm
  answers t r a ha := by
    rcases List.mem_append.mp ha with ha | ha
    · exact h.answers t r a ha
    · exact hanswer t r a (List.mem_singleton.mp ha).symm

/-- A task that runs to its next suspension keeps it. -/
theorem advance (t : Nat) (j : S.Job) :
    ∀ (m : Prog S Unit) (w : World S), Recorded A w → Recorded A (m.advance t j w).1 := by
  intro m
  induction m with
  | done _ =>
      intro w h
      have h' := h.record (e := .finished t w.state) (fun _ _ _ heq => by cases heq)
        (fun _ _ _ heq => by cases heq)
      exact ⟨h'.created, h'.answers⟩
  | look k ih => intro w h; exact ih _ w h
  | edit u k ih => intro w h; exact ih (w.edit u) (h.edit u)
  | spawn j' k ih =>
      intro w h
      refine ih _ (w.spawn t j') ((h.arrive j').record ?_ fun _ _ _ heq => by cases heq)
      intro t' j'' t'' heq
      cases heq
      show (w.jobs ++ [j'])[w.jobs.length]? = some j'
      simp
  | await r k _ =>
      intro w h
      exact h.record (fun _ _ _ heq => by cases heq) (fun _ _ _ heq => by cases heq)
  | block c k _ => intro w h; exact h

/-- One move keeps it, when an answer that is given meets `A`. -/
theorem fire {p p' : Pool S} {m : Move S} (h : Recorded A p.world)
    (hf : p.fire body m = some p')
    (hm : ∀ t f j r k, m = .answer t f → p.world.jobs[t]? = some j →
      p.progs t = some (.await r k) → A j r (f r)) : Recorded A p'.world := by
  -- Only an answering move writes an answer, and of that one the hypothesis speaks.
  cases m with
  | start t =>
      simp only [Pool.fire] at hf
      split at hf
      · cases hf
        exact advance t _ _ _ h
      · cases hf
  | answer t f =>
      simp only [Pool.fire] at hf
      split at hf
      · rename_i j r k hj hp
        cases hf
        -- The answer's own event comes first, then what the program adds up to its next stop.
        refine advance t j _ _ (h.record (fun _ _ _ heq => by cases heq) ?_)
        intro t' r' a' heq
        cases heq
        exact ⟨j, hj, hm t f j r k rfl hj hp⟩
      · cases hf
  | wake t =>
      simp only [Pool.fire] at hf
      split at hf
      · split at hf
        · cases hf
          exact advance t _ _ _ h
        · cases hf
      · cases hf
  | arrive j =>
      cases hf
      exact h.arrive j
  | outside u =>
      cases hf
      exact h.edit u
  -- What lands and what is sent again are recorded under events of their own.
  | land t r | resend t r =>
      cases hf
      exact h.record (fun _ _ _ heq => by cases heq) (fun _ _ _ heq => by cases heq)

end Recorded

/-- The log of every run agrees with the jobs of its tasks, and when every answer given in
the run met `A`, so did every answer in the log. -/
theorem Reach.recorded {p₀ p : Pool S}
    (hok : ∀ p t f p' j r k, ok p (.answer t f) p' → p.world.jobs[t]? = some j →
      p.progs t = some (.await r k) → A j r (f r))
    (h₀ : Recorded A p₀.world) (hr : Reach body ok p₀ p) : Recorded A p.world := by
  induction hr with
  | refl => exact h₀
  | step m _ hf ho ih =>
      refine ih.fire hf fun t f j r k hm hj hp => ?_
      subst hm
      exact hok _ t f _ j r k ho hj hp

end Coop
