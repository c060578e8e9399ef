import DbGuard.Coop.Trace

/-!
# `DbGuard.Coop.Dialog`: how the calls of a task grow

A move adds to the calls of a task in the log only when it runs this task. It adds the answer
that the task waited for, if there was one, and then at most requests. So a state machine that
reads the answers of a task, one by one, makes at most one step with each move.
-/

set_option autoImplicit false

namespace Coop

variable {S : Sig}

/-- Whether the event is a request. -/
def Event.isIssued : Event S → Bool
  | .issued _ _ _ _ => true
  | _ => false

section
variable {t u : Nat} {j : S.Job}

/-- Recording an event of another kind or of another task. -/
theorem dialog_record_of_not {w : World S} {e : Event S} (h : e.isCallOf t = false) :
    dialog t (w.record e).log = dialog t w.log := by
  show dialog t (w.log ++ [e]) = _
  rw [dialog_append]
  simp [dialog, h]

/-- A segment adds at most a request to the calls of a task. -/
theorem dialog_advance : ∀ (m : Prog S Unit) (w : World S), ∃ Y,
    dialog t (m.advance u j w).1.log = dialog t w.log ++ Y ∧ ∀ e ∈ Y, e.isIssued = true := by
  have hsame : ∀ {l l' : List (Event S)}, l' = l → ∃ Y, l' = l ++ Y ∧ ∀ e ∈ Y, e.isIssued = true :=
    fun h => ⟨[], by rw [h, List.append_nil], fun _ he => absurd he List.not_mem_nil⟩
  intro m
  induction m with
  | done a => exact fun w => hsame (dialog_record_of_not (w := w) rfl)
  | look k ih => exact fun w => ih _ w
  | edit u k ih => exact fun w => ih _
  | spawn j' k ih =>
    intro w
    obtain ⟨Y, hY, hissued⟩ := ih w.jobs.length (w.spawn u j')
    exact ⟨Y, hY.trans (congrArg (· ++ Y) (dialog_record_of_not (w := w.arrive j') rfl)), hissued⟩
  | await r k ih =>
    intro w
    refine ⟨_, dialog_append w.log [.issued u j r w.state], fun e he => ?_⟩
    rw [List.mem_singleton.mp (List.mem_filter.mp he).1]
    rfl
  | block c k ih => exact fun w => hsame rfl

/-- Of two positions in a list, one is before the other, or they are the same. -/
theorem mem_or_mem_of_append_eq {α : Type*} {X Y X' Y' : List α} {e f : α}
    (h : X ++ e :: Y = X' ++ f :: Y') : e ∈ X' ∨ e = f ∨ f ∈ X := by
  rcases List.append_eq_append_iff.mp h with ⟨Z, rfl, hrest⟩ | ⟨Z, rfl, hrest⟩
  · cases Z with
    | nil => exact .inr (.inl (List.cons.inj hrest).1)
    | cons e' Z =>
      obtain ⟨rfl, -⟩ := List.cons.inj hrest
      exact .inl (List.mem_append_right _ List.mem_cons_self)
  · cases Z with
    | nil => exact .inr (.inl (List.cons.inj hrest).1.symm)
    | cons f' Z =>
      obtain ⟨rfl, -⟩ := List.cons.inj hrest
      exact .inr (.inr (List.mem_append_right _ List.mem_cons_self))

/-- A request in the steps of some calls is the request of one of them. -/
theorem call_of_issued {t : Nat} {j j' : S.Job} {r : S.Req} {s : S.State} {tr : List (Call S)}
    (h : (.issued t j r s : Event S) ∈ Call.steps t j' tr) : j = j' ∧ ∃ c ∈ tr, c.req = r := by
  obtain ⟨c, hc, he⟩ := List.mem_flatMap.mp h
  rcases List.mem_cons.mp he with he | he
  · cases he
    exact ⟨rfl, c, hc, rfl⟩
  · cases List.mem_singleton.mp he

/-- An answer of task `t` in the log is the answer of one of its calls, also when more requests
follow them. -/
theorem call_of_answered_issued {t : Nat} {j : S.Job} {l Z : List (Event S)} {tr : List (Call S)}
    {r : S.Req} {a : S.Resp r} (h : dialog t l = Call.steps t j tr ++ Z)
    (hZ : ∀ e ∈ Z, e.isIssued = true) (ha : .answered t r a ∈ l) :
    ∃ c ∈ tr, c = ⟨c.state, r, a⟩ := by
  have hmem : .answered t r a ∈ dialog t l := List.mem_filter.mpr ⟨ha, by simp [Event.isCallOf]⟩
  rw [h] at hmem
  rcases List.mem_append.mp hmem with hmem | hmem
  · obtain ⟨c, hc, hin⟩ := List.mem_flatMap.mp hmem
    rcases List.mem_cons.mp hin with heq | hin
    · cases heq
    · cases List.mem_singleton.mp hin
      exact ⟨c, hc, rfl⟩
  · exact absurd (hZ _ hmem) Bool.false_ne_true

/-! ### A machine that reads the answers of a task -/

section
variable {P : Type*} {next : P → Event S → P} {p : P}

/-- Requests alone do not move a reader of answers. -/
theorem foldl_of_issued (hnext : ∀ p t j r s, next p (.issued t j r s) = p) {Y : List (Event S)}
    (h : ∀ e ∈ Y, e.isIssued = true) : Y.foldl next p = p := by
  induction Y with
  | nil => rfl
  | cons e Y ih =>
    have he : next p e = p := by
      have := h e List.mem_cons_self
      cases e with
      | issued _ _ _ _ => exact hnext _ _ _ _ _
      | _ => cases this
    rw [List.foldl_cons, he]
    exact ih fun e he => h e (List.mem_cons_of_mem _ he)

/-- The steps of calls are read call by call. -/
theorem foldl_steps (hnext : ∀ p t j r s, next p (.issued t j r s) = p) (tr : List (Call S)) :
    (Call.steps t j tr).foldl next p =
      tr.foldl (fun p c => next p (.answered t c.req c.answer)) p := by
  induction tr generalizing p with
  | nil => rfl
  | cons c tr ih =>
    show (Call.steps t j tr).foldl next (next (next p (.issued t j c.req c.state)) _) = _
    rw [hnext, ih, List.foldl_cons]

end

/-- A move adds requests to the calls of a task, or the answer it waited for and requests. -/
theorem dialog_fire {body : Nat → S.Job → Prog S Unit} {p p' : Pool S} {m : Move S}
    (h : p.fire body m = some p') :
    ∃ Y, (∀ e ∈ Y, e.isIssued = true) ∧
      (dialog t p'.world.log = dialog t p.world.log ++ Y ∨
        ∃ f r k, m = .answer t f ∧ p.progs t = some (.await r k) ∧
          dialog t p'.world.log = dialog t p.world.log ++ .answered t r (f r) :: Y) := by
  have hnone : ∀ e ∈ ([] : List (Event S)), e.isIssued = true :=
    fun _ he => absurd he List.not_mem_nil
  have hsame : ∀ {l' : List (Event S)}, dialog t l' = dialog t p.world.log →
      dialog t l' = dialog t p.world.log ++ [] := fun h => h.trans (List.append_nil _).symm
  cases m with
  | start u =>
    simp only [Pool.fire] at h
    split at h
    · cases h
      -- What a segment adds to its own dialog are requests, and nothing to another.
      obtain ⟨Y, hY, hissued⟩ := dialog_advance (t := t) (u := u) (body u _) p.world
      exact ⟨Y, hissued, .inl hY⟩
    · cases h
  | answer u f =>
    simp only [Pool.fire] at h
    split at h
    · rename_i j r k _ hprog
      cases h
      obtain ⟨Y, hY, hissued⟩ := dialog_advance (t := t) (u := u) (j := j) (k (f r))
        (p.world.answer u r (f r))
      refine ⟨Y, hissued, ?_⟩
      -- The answer is part of the dialog of its own task only.
      by_cases hu : u = t
      · subst hu
        refine .inr ⟨f, r, k, rfl, hprog, hY.trans ?_⟩
        show dialog u (p.world.log ++ [.answered u r (f r)]) ++ Y = _
        rw [dialog_append]
        simp [dialog, Event.isCallOf]
      · have hother : (Event.answered u r (f r) : Event S).isCallOf t = false := by
          simp [Event.isCallOf, hu]
        exact .inl (hY.trans (congrArg (· ++ Y) (dialog_record_of_not (w := p.world) hother)))
    · cases h
  | wake u =>
    simp only [Pool.fire] at h
    split at h
    · split at h
      · rename_i k _ _ _
        cases h
        obtain ⟨Y, hY, hissued⟩ := dialog_advance (t := t) (u := u) k p.world
        exact ⟨Y, hissued, .inl hY⟩
      · cases h
    · cases h
  -- The other moves record nothing of a task's dialog, or nothing at all.
  | arrive j =>
    cases h
    exact ⟨[], hnone, .inl (hsame rfl)⟩
  | outside u =>
    cases h
    exact ⟨[], hnone, .inl (hsame rfl)⟩
  | land u r | resend u r =>
    cases h
    exact ⟨[], hnone, .inl (hsame (dialog_record_of_not (w := p.world) rfl))⟩

end

/-! ### What a task awaits -/

section
variable {t u : Nat} {j : S.Job} {q : S.Req} {k : S.Resp q → Prog S Unit}

/-- A segment that stops at a request has just issued it. -/
theorem dialog_advance_await : ∀ (m : Prog S Unit) (w : World S),
    (m.advance t j w).2 = .await q k →
      ∃ X s, dialog t (m.advance t j w).1.log = X ++ [.issued t j q s] := by
  intro m
  induction m with
  | done a => exact fun w h => by cases h
  | look k' ih => exact fun w h => ih _ w h
  | edit u k' ih => exact fun w h => ih (w.edit u) h
  | spawn j' k' ih => exact fun w h => ih w.jobs.length (w.spawn t j') h
  | await r k' ih =>
    intro w h
    cases h
    refine ⟨dialog t w.log, w.state, ?_⟩
    show dialog t (w.log ++ [.issued t j q w.state]) = _
    rw [dialog_append]
    simp [dialog, Event.isCallOf]
  | block c k' ih => exact fun w h => by cases h

variable {body : Nat → S.Job → Prog S Unit} {ok : Pool S → Move S → Pool S → Prop} {s₀ : S.State}

/-- The contract that no program can break holds along every run. -/
theorem Reach.frame {p : Pool S} (hr : Reach body ok (Pool.init s₀ []) p) : (frame S).Holds p :=
  (frame_sound body ok).holds_reach
    (Contract.holds_init (by simp [Coop.frame, Pool.init]) fun _ _ h => by cases h) hr

/-- The last call of a task that awaits an answer is the request that it awaits. -/
theorem Reach.awaits {p : Pool S} (hr : Reach body ok (Pool.init s₀ []) p)
    (hp : p.progs t = some (.await q k)) :
    ∃ X j s, p.world.jobs[t]? = some j ∧ dialog t p.world.log = X ++ [.issued t j q s] := by
  induction hr with
  | refl => cases hp
  | @step p p' m hrun hf ho ih =>
    have hsegment : ∀ (j : S.Job) (m : Prog S Unit) (w : World S), w.jobs[t]? = some j →
        p' = p.settle t j m w →
          ∃ X j s, p'.world.jobs[t]? = some j ∧
            dialog t p'.world.log = X ++ [.issued t j q s] := by
      rintro j m w hj rfl
      have hawait : (m.advance t j w).2 = .await q k := by
        simpa [Pool.settle] using hp
      obtain ⟨X, s, hX⟩ := dialog_advance_await m w hawait
      have hjobs := Contract.getElem?_of_prefix (Contract.advance_jobs t j m w)
        (List.getElem?_eq_some_iff.mp hj).1
      exact ⟨X, j, s, hjobs.trans hj, hX⟩
    cases hm : m.task with
    | none =>
      -- Neither the task nor its calls change.
      cases m with
      | start _ | answer _ _ | wake _ => cases hm
      | arrive j' =>
        cases hf
        obtain ⟨X, j, s, hj, hX⟩ := ih hp
        refine ⟨X, j, s, ?_, hX⟩
        exact (List.getElem?_append_left (List.getElem?_eq_some_iff.mp hj).1).trans hj
      | outside _ =>
        cases hf
        exact ih hp
      | land _ _ | resend _ _ =>
        cases hf
        obtain ⟨X, j, s, hj, hX⟩ := ih hp
        exact ⟨X, j, s, hj, (dialog_record_of_not (w := p.world) rfl).trans hX⟩
    | some u =>
      by_cases hu : t = u
      · subst hu
        cases m with
        | start t' =>
          cases hm
          simp only [Pool.fire] at hf
          split at hf
          · rename_i hj _
            exact hsegment _ _ p.world hj (Option.some.inj hf).symm
          · cases hf
        | answer t' f =>
          cases hm
          simp only [Pool.fire] at hf
          split at hf
          · rename_i r k' hj _
            exact hsegment _ _ (p.world.answer t r (f r)) hj (Option.some.inj hf).symm
          · cases hf
        | wake t' =>
          cases hm
          simp only [Pool.fire] at hf
          split at hf
          · rename_i hj _
            split at hf
            · exact hsegment _ _ p.world hj (Option.some.inj hf).symm
            · cases hf
          · cases hf
        | arrive _ | outside _ | land _ _ | resend _ _ => cases hm
      · rw [Pool.progs_of_fire hf hm hu] at hp
        obtain ⟨X, j, s, hj, hX⟩ := ih hp
        have hgrows := ((frame_sound body ok).may_of_fire hrun.frame hf ho hm).grows (Ne.symm hu)
        exact ⟨X, j, s, hgrows.job hj, (dialog_of_own_eq hgrows.own).trans hX⟩

/-- Jobs are kept along a run. -/
theorem job_of_fire {p p' : Pool S} {m : Move S} {j : S.Job}
    (hr : Reach body ok (Pool.init s₀ []) p) (hf : p.fire body m = some p') (ho : ok p m p')
    (hj : p.world.jobs[t]? = some j) : p'.world.jobs[t]? = some j := by
  have hlt : t < p.world.jobs.length := (List.getElem?_eq_some_iff.mp hj).1
  cases hm : m.task with
  | none =>
    cases m with
    | start _ | answer _ _ | wake _ => cases hm
    | arrive j' =>
      cases hf
      exact (List.getElem?_append_left hlt).trans hj
    | outside _ | land _ _ | resend _ _ =>
      cases hf
      exact hj
  | some u =>
    have hjobs := ((frame_sound body ok).may_of_fire hr.frame hf ho hm).jobs
    exact (Contract.getElem?_of_prefix hjobs hlt).trans hj

/-- Just before an answer a task has asked for it. -/
theorem Reach.asked {p : Pool S} (hr : Reach body ok (Pool.init s₀ []) p) :
    ∀ X r a Z, dialog t p.world.log = X ++ .answered t r a :: Z →
      ∃ X' j s, p.world.jobs[t]? = some j ∧ X = X' ++ [.issued t j r s] := by
  induction hr with
  | refl => exact fun X r a Z h => by cases X <;> cases h
  | @step p p' m hrun hf ho ih =>
    intro X r a Z h
    have hold : ∀ Z', dialog t p.world.log = X ++ .answered t r a :: Z' →
        ∃ X' j s, p'.world.jobs[t]? = some j ∧ X = X' ++ [.issued t j r s] := by
      intro Z' h'
      obtain ⟨X', j, s, hj, rfl⟩ := ih X r a Z' h'
      exact ⟨X', j, s, job_of_fire hrun hf ho hj, rfl⟩
    -- Among the requests that the move adds there is no answer.
    have hnew : ∀ {Y : List (Event S)} (Y' : List (Event S)), (∀ e ∈ Y, e.isIssued = true) →
        Y = Y' ++ .answered t r a :: Z → False := fun _ hY heq =>
      Bool.false_ne_true (hY (.answered t r a) (heq ▸ by simp))
    obtain ⟨Y, hY, hgrown | ⟨f, q, k, -, hprog, hgrown⟩⟩ := dialog_fire (t := t) hf
    · rcases List.append_eq_append_iff.mp (hgrown.symm.trans h) with ⟨W, rfl, hW⟩ | ⟨W, hD, hW⟩
      · exact (hnew _ hY hW).elim
      · cases W with
        | nil => exact (hnew [] hY hW.symm).elim
        | cons e W =>
          obtain ⟨rfl, -⟩ := List.cons.inj hW
          exact hold W hD
    · rcases List.append_eq_append_iff.mp (hgrown.symm.trans h) with ⟨W, rfl, hW⟩ | ⟨W, hD, hW⟩
      · cases W with
        | nil =>
          obtain ⟨X', j, s, hj, hX⟩ := hrun.awaits hprog
          cases (List.cons.inj hW).1
          exact ⟨X', j, s, job_of_fire hrun hf ho hj, by rw [List.append_nil, hX]⟩
        | cons e W => exact (hnew _ hY (List.cons.inj hW).2).elim
      · cases W with
        | nil =>
          obtain ⟨X', j, s, hj, hX⟩ := hrun.awaits hprog
          cases (List.cons.inj hW).1
          exact ⟨X', j, s, job_of_fire hrun hf ho hj, by rw [← hX, hD, List.append_nil]⟩
        | cons e W =>
          obtain ⟨rfl, -⟩ := List.cons.inj hW
          exact hold W hD

/-- An answer that a task gets after another one is the answer to a request that its program
asks after that other call. -/
theorem Reach.asks_after {p : Pool S} {X Y Z : List (Event S)} {r r' : S.Req} {a : S.Resp r}
    {a' : S.Resp r'} (hr : Reach body ok (Pool.init s₀ []) p)
    (h : dialog t p.world.log = X ++ .answered t r a :: (Y ++ .answered t r' a' :: Z)) :
    ∃ j s tr s', p.world.jobs[t]? = some j ∧ (body t j).Asks s tr r' s' ∧
      ∃ c ∈ tr, c = ⟨c.state, r, a⟩ := by
  obtain ⟨X', j, s', hj, hX⟩ := hr.asked (X ++ .answered t r a :: Y) r' a' Z (by simpa using h)
  obtain ⟨l₁, l₂, hlog, hl₁, -⟩ := split_of_dialog (X := X') (e := .issued t j r' s')
    (Y := .answered t r' a' :: Z) (by rw [h]; simpa using congrArg (· ++ .answered t r' a' :: Z) hX)
  obtain ⟨s, tr, hasks, hdialog⟩ := hr.asks l₁ _ l₂ hlog
  refine ⟨j, s, tr, s', hj, hasks, call_of_answered hdialog ?_⟩
  -- The first answer is not the request, so it is before it.
  have hmem : .answered t r a ∈ X' ++ [.issued t j r' s'] := hX ▸ by simp
  rcases List.mem_append.mp hmem with hmem | hmem
  · rw [← hl₁] at hmem
    exact (List.mem_filter.mp hmem).1
  · cases List.mem_singleton.mp hmem

/-- What held whenever the client of a task sent a request again. -/
theorem Reach.resent {P : List (Event S) → Nat → S.Req → S.State → Prop} {p : Pool S}
    (hok : ∀ p t r p', Reach body ok (Pool.init s₀ []) p → ok p (.resend t r) p' →
      P p.world.log t r p.world.state)
    (hr : Reach body ok (Pool.init s₀ []) p) :
    Checked (fun l e => ∀ t r s, e = .resent t r s → P l t r s) p.world.log := by
  induction hr with
  | refl => exact checked_nil
  | @step p p' m hrun hf ho ih =>
    cases hm : m.task with
    | none =>
      cases m with
      | start _ | answer _ _ | wake _ => cases hm
      | arrive _ | outside _ =>
        cases hf
        exact ih
      | land _ _ =>
        cases hf
        exact ih.concat fun _ _ _ heq => by cases heq
      | resend _ _ =>
        cases hf
        refine ih.concat fun _ _ _ heq => ?_
        cases heq
        exact hok _ _ _ _ hrun ho
    | some u =>
      obtain ⟨l, hl, hby⟩ := ((frame_sound body ok).may_of_fire hrun.frame hf ho hm).log
      rw [hl]
      refine ih.append fun X e he t r s heq => ?_
      subst heq
      exact absurd (hby _ he) Bool.false_ne_true

end

end Coop
