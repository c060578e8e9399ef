import DbGuard.Machine
import DbGuard.Coop.Contract

/-!
# `DbGuard.Coop.Beside`: a pool of tasks as a part of a machine

A machine may hold a pool beside other things: a client, a cache, what a server knows. Each of
its moves either makes one move of the pool or leaves the pool as it is. `Reach.of_machine` says
that the pool then runs as a pool does, so a contract of its tasks holds in every state of the
machine.
-/

set_option autoImplicit false

namespace Coop

variable {S : Sig} {σ μ : Type} {step : σ → μ → Option σ} {cond : σ → μ → Prop}
  {body : Nat → S.Job → Prog S Unit} {ok : Pool S → Move S → Pool S → Prop}

/-- The pool of a machine runs as a pool. -/
theorem Reach.of_machine (pool : σ → Pool S)
    (h : ∀ s m s', cond s m → step s m = some s' → pool s' = pool s ∨
      ∃ m', (pool s).fire body m' = some (pool s') ∧ ok (pool s) m' (pool s')) {s s' : σ}
    (hr : Machine.Reach step cond s s') : Reach body ok (pool s) (pool s') := by
  induction hr with
  | refl => exact .refl
  | tail _ hcond hstep ih =>
      rcases h _ _ _ hcond hstep with heq | ⟨m', hf, ho⟩
      · rw [heq]
        exact ih
      · exact .step m' ih hf ho

/-- Each move of a run is made where the contract holds. -/
theorem Contract.Sound.reach_holds {C : Contract S} (hC : C.Sound body ok) {p₀ p : Pool S}
    (h₀ : C.Holds p₀) (hr : Reach body ok p₀ p) :
    Reach body (fun p m p' => ok p m p' ∧ C.Holds p) p₀ p := by
  induction hr with
  | refl => exact .refl
  | step m hrun hf ho ih => exact .step m ih hf ⟨ho, hC.holds_reach h₀ hrun⟩

/-! ### What a segment adds to the log -/

section
variable {t : Nat} {j : S.Job}

/-- A task that runs to its next suspension creates tasks, and then asks or ends or waits. -/
theorem Prog.advance_log : ∀ (m : Prog S Unit) (w : World S), ∃ l e,
    (m.advance t j w).1.log = w.log ++ (l ++ e) ∧ (∀ x ∈ l, ∃ j' i, x = .created t j' i) ∧
      (e = [] ∨ (∃ r, e = [.issued t j r (m.advance t j w).1.state]) ∨
        ∃ s, e = [.finished t s]) := by
  intro m
  induction m with
  | done a =>
      intro w
      exact ⟨[], [.finished t w.state], rfl, by simp, .inr (.inr ⟨w.state, rfl⟩)⟩
  | look k ih => intro w; exact ih _ w
  | edit u k ih => intro w; exact ih (w.edit u)
  | spawn j' k ih =>
      intro w
      obtain ⟨l, e, hlog, hl, he⟩ := ih w.jobs.length (w.spawn t j')
      refine ⟨.created t j' w.jobs.length :: l, e, ?_, ?_, he⟩
      · show ((k w.jobs.length).advance t j (w.spawn t j')).1.log = _
        rw [hlog, World.spawn_log, List.append_assoc]
        rfl
      · intro x hx
        rcases List.mem_cons.mp hx with rfl | hx
        · exact ⟨j', w.jobs.length, rfl⟩
        · exact hl x hx
  | await r k ih =>
      intro w
      exact ⟨[], [.issued t j r w.state], rfl, by simp, .inr (.inl ⟨r, rfl⟩)⟩
  | block c k ih => intro w; exact ⟨[], [], (List.append_nil _).symm, by simp, .inl rfl⟩

/-- A task that stops at a request has just issued it. -/
theorem Prog.advance_await {r : S.Req} {k : S.Resp r → Prog S Unit} :
    ∀ (m : Prog S Unit) (w : World S), (m.advance t j w).2 = .await r k →
      ∃ l, (m.advance t j w).1.log = w.log ++ l ∧
        .issued t j r (m.advance t j w).1.state ∈ l := by
  intro m
  induction m with
  | done a => intro w h; cases h
  | look k' ih => intro w h; exact ih _ w h
  | edit u k' ih => intro w h; exact ih (w.edit u) h
  | spawn j' k' ih =>
      intro w h
      obtain ⟨l, hlog, hl⟩ := ih w.jobs.length (w.spawn t j') h
      refine ⟨.created t j' w.jobs.length :: l, ?_, List.mem_cons_of_mem _ hl⟩
      show ((k' w.jobs.length).advance t j (w.spawn t j')).1.log = _
      rw [hlog, World.spawn_log, List.append_assoc]
      rfl
  | await r' k' ih =>
      intro w h
      cases h
      exact ⟨[.issued t j r w.state], rfl, List.mem_singleton_self _⟩
  | block c k' ih => intro w h; cases h

/-- The request at which a move stops its task is a step of the move. -/
theorem Pool.issued_of_fire {p p' : Pool S} {m : Move S} {r : S.Req} {k : S.Resp r → Prog S Unit}
    (hf : p.fire body m = some p') (hm : m.task = some t)
    (hp : p'.progs t = some (.await r k)) : ∃ j, p.world.jobs[t]? = some j ∧
      .issued t j r p'.world.state ∈ p'.world.log.drop p.world.log.length := by
  -- The program runs from a world whose log has grown by `a`.
  have hadvance : ∀ (j : S.Job) (m : Prog S Unit) (w : World S) (a : List (Event S)),
      w.log = p.world.log ++ a → p' = p.settle t j m w →
        .issued t j r p'.world.state ∈ p'.world.log.drop p.world.log.length := by
    rintro j m w a hw rfl
    have hawait : (m.advance t j w).2 = .await r k := by
      simpa [Pool.settle] using hp
    obtain ⟨l, hlog, hl⟩ := Prog.advance_await m w hawait
    show Event.issued t j r _ ∈ (m.advance t j w).1.log.drop p.world.log.length
    rw [hlog, hw, List.append_assoc, List.drop_left]
    exact List.mem_append_right a hl
  cases m with
  | start t' =>
      cases hm
      simp only [Pool.fire] at hf
      split at hf
      · rename_i j hj _
        cases hf
        exact ⟨j, hj, hadvance j _ p.world [] (List.append_nil _).symm rfl⟩
      · cases hf
  | answer t' f =>
      cases hm
      simp only [Pool.fire] at hf
      split at hf
      · rename_i j r' k' hj _
        cases hf
        exact ⟨j, hj, hadvance j _ (p.world.answer t r' (f r')) [.answered t r' (f r')] rfl rfl⟩
      · cases hf
  | wake t' =>
      cases hm
      simp only [Pool.fire] at hf
      split at hf
      · rename_i j c k' hj _
        split at hf
        · cases hf
          exact ⟨j, hj, hadvance j _ p.world [] (List.append_nil _).symm rfl⟩
        · cases hf
      · cases hf
  | arrive j' => cases hm
  | outside u => cases hm
  | land t' r' | resend t' r' => cases hm

/-- The log after a move of task `t`: the answer that it goes on from, if it has got one, the
tasks that it creates, and where it stops. -/
theorem Pool.log_of_fire {p p' : Pool S} {m : Move S} (hf : p.fire body m = some p')
    (hm : m.task = some t) : ∃ j a l e, p.world.jobs[t]? = some j ∧
      p'.world.log = p.world.log ++ a ++ (l ++ e) ∧
        ((∀ f, m ≠ .answer t f) ∧ a = [] ∨ ∃ f r k, m = .answer t f ∧
          p.progs t = some (.await r k) ∧ a = [.answered t r (f r)]) ∧
        (∀ x ∈ l, ∃ j' i, x = .created t j' i) ∧
          (e = [] ∨ (∃ r, e = [.issued t j r p'.world.state]) ∨ ∃ s, e = [.finished t s]) := by
  -- The moves of a task run its program on; only an answer records an event before that.
  cases m with
  | start t' =>
      cases hm
      simp only [Pool.fire] at hf
      split at hf
      · rename_i j hj hp
        cases hf
        obtain ⟨l, e, hlog, hl, he⟩ := Prog.advance_log (t := t) (j := j) (body t j) p.world
        exact ⟨j, [], l, e, hj, by rw [List.append_nil]; exact hlog,
          .inl ⟨fun f heq => (by cases heq), rfl⟩, hl, he⟩
      · cases hf
  | answer t' f =>
      cases hm
      simp only [Pool.fire] at hf
      split at hf
      · rename_i j r k hj hp
        cases hf
        obtain ⟨l, e, hlog, hl, he⟩ :=
          Prog.advance_log (t := t) (j := j) (k (f r)) (p.world.answer t r (f r))
        exact ⟨j, [.answered t r (f r)], l, e, hj, hlog, .inr ⟨f, r, k, rfl, hp, rfl⟩, hl, he⟩
      · cases hf
  | wake t' =>
      cases hm
      simp only [Pool.fire] at hf
      split at hf
      · rename_i j c k hj hp
        split at hf
        · cases hf
          obtain ⟨l, e, hlog, hl, he⟩ := Prog.advance_log (t := t) (j := j) k p.world
          exact ⟨j, [], l, e, hj, by rw [List.append_nil]; exact hlog,
            .inl ⟨fun f heq => (by cases heq), rfl⟩, hl, he⟩
        · cases hf
      · cases hf
  -- The other moves are no task's.
  | arrive j' => cases hm
  | outside u => cases hm
  | land t' r | resend t' r => cases hm

end

end Coop
