import DbGuard.Coop.Pool

/-!
# `DbGuard.Coop.Contract`: rely and guarantee for pools of tasks

A `Contract` says, for each task, what the other tasks may do while it is suspended
(`rely`) and what it does itself between two suspensions (`may`). `inv` holds of the world
between any two segments. `allowed` is the condition that a run puts on the segments of a
task, `answers` the condition on the answers it gets, and `pre` what holds of the world from
the creation of a task to its start.

`Prog.wp` is the weakest precondition of a program under a contract. It relates two worlds,
the one at the start of the current segment and the current one. `Contract.Sound` lists
what has to hold of the contract as a whole, and `Contract.Sound.holds_reach` is the rule:
when every job meets the contract, its invariant holds along every run.

`Prog.MadeOf` says of which programs a program is put together, and `Prog.wp_of_madeOf`
turns a relation that each of them keeps into a weakest precondition of the whole.
`Contract.both` joins a contract to another one that relies on it.
-/

set_option autoImplicit false

namespace Coop

variable {S : Sig} {α β : Type}

/-- What each task relies on and guarantees. The first world of `rely` is the one a task
suspended in. The first world of `may` and of `allowed` is the one at the start of a
segment, the second the one at its end. -/
structure Contract (S : Sig) where
  inv : World S → Prop
  rely : Nat → World S → World S → Prop
  allowed : Nat → World S → World S → Prop
  answers : Nat → World S → (r : S.Req) → S.Resp r → Prop
  may : Nat → World S → World S → Prop
  pre : Nat → S.Job → World S → Prop

namespace Prog

/-- The weakest precondition of a program of task `t` with job `j`, for a postcondition on
the result, the start of the last segment and the final world. -/
def wp (C : Contract S) (t : Nat) (j : S.Job) (Q : α → World S → World S → Prop) :
    Prog S α → World S → World S → Prop
  | .done a, w₀, w => Q a w₀ w
  | .look k, w₀, w => (k w.state).wp C t j Q w₀ w
  | .edit u k, w₀, w => k.wp C t j Q w₀ (w.edit u)
  | .spawn j' k, w₀, w => (k w.jobs.length).wp C t j Q w₀ (w.spawn t j')
  | .await r k, w₀, w =>
    C.allowed t w₀ (w.issue t j r) →
      C.may t w₀ (w.issue t j r) ∧
        ∀ w' a, C.inv w' → C.rely t (w.issue t j r) w' → C.answers t w' r a →
          (k a).wp C t j Q w' (w'.answer t r a)
  | .block c k, w₀, w =>
    C.allowed t w₀ w →
      C.may t w₀ w ∧
        ∀ w', C.inv w' → C.rely t w w' → c w'.state = true → k.wp C t j Q w' w'

section
variable {C : Contract S} {t : Nat} {j : S.Job} {Q : α → World S → World S → Prop}
  {w₀ w : World S}

/-- A weaker postcondition. -/
theorem wp_mono {Q' : α → World S → World S → Prop} (h : ∀ a w₀ w, Q a w₀ w → Q' a w₀ w) :
    ∀ (m : Prog S α) (w₀ w : World S), m.wp C t j Q w₀ w → m.wp C t j Q' w₀ w := by
  intro m
  induction m with
  | done a => intro w₀ w hm; exact h a w₀ w hm
  | look k ih => intro w₀ w hm; exact ih _ _ _ hm
  | edit u k ih => intro w₀ w hm; exact ih _ _ hm
  | spawn j' k ih => intro w₀ w hm; exact ih _ _ _ hm
  | await r k ih =>
      intro w₀ w hm ha
      obtain ⟨hmay, hk⟩ := hm ha
      exact ⟨hmay, fun w' a hi hr hans => ih a _ _ (hk w' a hi hr hans)⟩
  | block c k ih =>
      intro w₀ w hm ha
      obtain ⟨hmay, hk⟩ := hm ha
      exact ⟨hmay, fun w' hi hr hc => ih _ _ (hk w' hi hr hc)⟩

/-- The rule of sequencing. -/
theorem wp_bind {Q : β → World S → World S → Prop} (f : α → Prog S β) :
    ∀ (m : Prog S α) (w₀ w : World S),
      m.wp C t j (fun a w₀ w => (f a).wp C t j Q w₀ w) w₀ w →
        (m >>= f).wp C t j Q w₀ w := by
  intro m
  induction m with
  | done a => intro w₀ w hm; exact hm
  | look k ih => intro w₀ w hm; exact ih _ _ _ hm
  | edit u k ih => intro w₀ w hm; exact ih _ _ hm
  | spawn j' k ih => intro w₀ w hm; exact ih _ _ _ hm
  | await r k ih =>
      intro w₀ w hm ha
      obtain ⟨hmay, hk⟩ := hm ha
      exact ⟨hmay, fun w' a hi hr hans => ih a _ _ (hk w' a hi hr hans)⟩
  | block c k ih =>
      intro w₀ w hm ha
      obtain ⟨hmay, hk⟩ := hm ha
      exact ⟨hmay, fun w' hi hr hc => ih _ _ (hk w' hi hr hc)⟩

/-- Sequencing after a program with the postcondition `R`. -/
theorem wp_seq {R : α → World S → World S → Prop} {Q : β → World S → World S → Prop}
    {m : Prog S α} {f : α → Prog S β} (hm : m.wp C t j R w₀ w)
    (hf : ∀ a w₀ w, R a w₀ w → (f a).wp C t j Q w₀ w) : (m >>= f).wp C t j Q w₀ w :=
  wp_bind f m w₀ w (wp_mono hf m w₀ w hm)

/-- Returning ends the program. -/
@[simp] theorem wp_pure (a : α) :
    (pure a : Prog S α).wp C t j Q w₀ w ↔ Q a w₀ w := Iff.rfl

/-- A look goes on with the state. -/
@[simp] theorem wp_get {Q : S.State → World S → World S → Prop} :
    (get : Prog S S.State).wp C t j Q w₀ w ↔ Q w.state w₀ w := Iff.rfl

/-- An update goes on in the new world. -/
@[simp] theorem wp_update {Q : Unit → World S → World S → Prop} (u : S.Update) :
    (update u).wp C t j Q w₀ w ↔ Q () w₀ (w.edit u) := Iff.rfl

/-- A creation goes on with the number of the new task. -/
@[simp] theorem wp_create {Q : Nat → World S → World S → Prop} (j' : S.Job) :
    (create j').wp C t j Q w₀ w ↔ Q w.jobs.length w₀ (w.spawn t j') := Iff.rfl

/-- Any program meets a contract that its task cannot break while `K` holds. -/
theorem wp_of_stable {K : World S → Prop} (hedit : ∀ u w, K w → K (w.edit u))
    (hissue : ∀ r w, K w → K (w.issue t j r)) (hanswer : ∀ r a w, K w → K (w.answer t r a))
    (hspawn : ∀ j' w, K w → K (w.spawn t j'))
    (hrely : ∀ w w', K w → C.inv w' → C.rely t w w' → K w')
    (hmay : ∀ w₀ w, K w → C.may t w₀ w) :
    ∀ (m : Prog S α) (w₀ w : World S), K w → m.wp C t j (fun _ _ w => K w) w₀ w := by
  intro m
  induction m with
  | done a => intro w₀ w h; exact h
  | look k ih => intro w₀ w h; exact ih _ _ _ h
  | edit u k ih => intro w₀ w h; exact ih _ _ (hedit u w h)
  | spawn j' k ih => intro w₀ w h; exact ih _ _ _ (hspawn j' w h)
  | await r k ih =>
      intro w₀ w h _
      have hi : K (w.issue t j r) := hissue r w h
      exact ⟨hmay w₀ _ hi,
        fun w' a hinv hr _ => ih a _ _ (hanswer r a w' (hrely _ w' hi hinv hr))⟩
  | block c k ih =>
      intro w₀ w h _
      exact ⟨hmay w₀ w h, fun w' hi hr _ => ih _ _ (hrely w w' h hi hr)⟩

/-- A task that hangs has only to leave a world that it may leave. -/
theorem wp_hang {a : α} (h : C.allowed t w₀ w → C.may t w₀ w) :
    (hang a).wp C t j Q w₀ w := by
  intro ha
  exact ⟨h ha, fun w' _ _ hc => absurd hc (by simp)⟩

end

/-! ### The parts of a program -/

/-- Programs put together from the programs of `Leaf`. -/
inductive MadeOf (Leaf : (γ : Type) → Prog S γ → Prop) : {α : Type} → Prog S α → Prop
  | leaf {α : Type} {m : Prog S α} : Leaf α m → MadeOf Leaf m
  | pure {α : Type} (a : α) : MadeOf Leaf (pure a)
  | bind {α β : Type} {m : Prog S α} {f : α → Prog S β} : MadeOf Leaf m →
      (∀ a, MadeOf Leaf (f a)) → MadeOf Leaf (m >>= f)

section
variable {Leaf Leaf' : (γ : Type) → Prog S γ → Prop} {C : Contract S} {t : Nat} {j : S.Job}

/-- Parts of parts. -/
theorem MadeOf.flatten (h : ∀ γ (m : Prog S γ), Leaf γ m → MadeOf Leaf' m) {m : Prog S α}
    (hm : MadeOf Leaf m) : MadeOf Leaf' m := by
  induction hm with
  | leaf hl => exact h _ _ hl
  | pure a => exact .pure a
  | bind _ _ ihm ihf => exact .bind ihm ihf

/-- More parts. -/
theorem MadeOf.mono (h : ∀ γ (m : Prog S γ), Leaf γ m → Leaf' γ m) {m : Prog S α}
    (hm : MadeOf Leaf m) : MadeOf Leaf' m :=
  hm.flatten fun γ m hl => .leaf (h γ m hl)

/-- A relation between the start of a segment and the current world that every part keeps
is kept by the whole. -/
theorem wp_of_madeOf {K : World S → World S → Prop}
    (hleaf : ∀ γ (m : Prog S γ), Leaf γ m → ∀ w₀ w, K w₀ w →
      m.wp C t j (fun _ w₀ w => K w₀ w) w₀ w)
    {m : Prog S α} (hm : MadeOf Leaf m) {w₀ w : World S} (hK : K w₀ w) :
    m.wp C t j (fun _ w₀ w => K w₀ w) w₀ w := by
  induction hm generalizing w₀ w with
  | leaf hl => exact hleaf _ _ hl w₀ w hK
  | pure a => exact hK
  | bind _ _ ihm ihf => exact wp_seq (ihm hK) fun a w₀ w h => ihf a h

end

end Prog

namespace Contract

variable (C : Contract S)

/-- The postcondition of a whole task: its last segment meets the contract. -/
def Ends (t : Nat) : Unit → World S → World S → Prop :=
  fun _ w₀ w => C.allowed t w₀ (w.finish t) → C.may t w₀ (w.finish t)

/-- What is known of a task between two of its segments. `none` is a task that has not
started. -/
def Resumable (t : Nat) (j : S.Job) : Option (Prog S Unit) → World S → Prop
  | none, w => C.pre t j w
  | some (.done _), _ => True
  | some (.await r k), w =>
    ∀ w' a, C.inv w' → C.rely t w w' → C.answers t w' r a →
      (k a).wp C t j (C.Ends t) w' (w'.answer t r a)
  | some (.block c k), w =>
    ∀ w', C.inv w' → C.rely t w w' → c w'.state = true → k.wp C t j (C.Ends t) w' w'
  | some _, _ => False

/-- The invariant holds, every task of the pool can be resumed under the contract, and only
created tasks have started. -/
structure Holds (p : Pool S) : Prop where
  inv : C.inv p.world
  resumable : ∀ t j, p.world.jobs[t]? = some j → C.Resumable t j (p.progs t) p.world
  unstarted : ∀ t, p.world.jobs.length ≤ t → p.progs t = none

/-- What has to hold of a contract as a whole, for tasks with the programs of `body` in the
runs with the rules `ok`. -/
structure Sound (body : Nat → S.Job → Prog S Unit)
    (ok : Pool S → Move S → Pool S → Prop) : Prop where
  rely_refl : ∀ t w, C.rely t w w
  rely_trans : ∀ t w₁ w₂ w₃, C.rely t w₁ w₂ → C.rely t w₂ w₃ → C.rely t w₁ w₃
  rely_of_may : ∀ t t' w₀ w, t ≠ t' → C.inv w₀ → C.may t w₀ w → C.rely t' w₀ w
  rely_arrive : ∀ p j p' t, ok p (.arrive j) p' → C.inv p.world →
    C.rely t p.world (p.world.arrive j)
  rely_outside : ∀ p u p' t, ok p (.outside u) p' → C.inv p.world →
    C.rely t p.world (p.world.edit u)
  rely_land : ∀ p t' r p' t, ok p (.land t' r) p' → C.inv p.world →
    C.rely t p.world (p.world.record (.landed t' r))
  rely_resend : ∀ p t' r p' t, ok p (.resend t' r) p' → C.inv p.world →
    C.rely t p.world (p.world.record (.resent t' r p.world.state))
  inv_may : ∀ t w₀ w, C.inv w₀ → C.may t w₀ w → C.inv w
  inv_arrive : ∀ p j p', ok p (.arrive j) p' → C.inv p.world → C.inv (p.world.arrive j)
  inv_outside : ∀ p u p', ok p (.outside u) p' → C.inv p.world → C.inv (p.world.edit u)
  inv_land : ∀ p t r p', ok p (.land t r) p' → C.inv p.world →
    C.inv (p.world.record (.landed t r))
  inv_resend : ∀ p t r p', ok p (.resend t r) p' → C.inv p.world →
    C.inv (p.world.record (.resent t r p.world.state))
  pre_rely : ∀ t j w w', C.pre t j w → C.rely t w w' → C.pre t j w'
  pre_may : ∀ t w₀ w t' j, C.inv w₀ → C.may t w₀ w → w₀.jobs.length ≤ t' →
    w.jobs[t']? = some j → C.pre t' j w
  pre_arrive : ∀ p j p', ok p (.arrive j) p' → C.inv p.world →
    C.pre p.world.jobs.length j (p.world.arrive j)
  allowed_start : ∀ p t p', ok p (.start t) p' → C.allowed t p.world p'.world
  allowed_answer : ∀ p t f p', ok p (.answer t f) p' → C.allowed t p.world p'.world
  allowed_wake : ∀ p t p', ok p (.wake t) p' → C.allowed t p.world p'.world
  answers_ok : ∀ p t f p' r k, ok p (.answer t f) p' → p.progs t = some (.await r k) →
    C.answers t p.world r (f r)
  body_wp : ∀ t j w, C.inv w → w.jobs[t]? = some j → C.pre t j w →
    (body t j).wp C t j (C.Ends t) w w

variable {C}

/-- What is known of a suspended task stays known while the others run. -/
theorem Resumable.rely {t : Nat} {j : S.Job} {o : Option (Prog S Unit)} {w w' : World S}
    (htrans : ∀ w₁ w₂ w₃, C.rely t w₁ w₂ → C.rely t w₂ w₃ → C.rely t w₁ w₃)
    (hpre : C.pre t j w → C.pre t j w') (hr : C.rely t w w')
    (h : C.Resumable t j o w) : C.Resumable t j o w' := by
  match o, h with
  | none, h => exact hpre h
  | some (.done _), _ => trivial
  | some (.await r k), h =>
      exact fun w'' a hi hr' => h w'' a hi (htrans _ _ _ hr hr')
  | some (.block c k), h =>
      exact fun w'' hi hr' => h w'' hi (htrans _ _ _ hr hr')

/-- A longer list has the entries of its prefix. -/
theorem getElem?_of_prefix {γ : Type} {l l' : List γ} (h : l <+: l') {i : Nat}
    (hi : i < l.length) : l'[i]? = l[i]? := by
  obtain ⟨s, rfl⟩ := h
  exact List.getElem?_append_left hi

/-- Running to the next suspension only adds to the jobs. -/
theorem advance_jobs (t : Nat) (j : S.Job) :
    ∀ (m : Prog S Unit) (w : World S), w.jobs <+: (m.advance t j w).1.jobs := by
  intro m
  induction m with
  | done a => intro w; exact List.prefix_refl _
  | look k ih => intro w; exact ih _ _
  | edit u k ih => intro w; exact ih (w.edit u)
  | spawn j' k ih =>
      intro w
      exact (List.prefix_append w.jobs [j']).trans (ih _ (w.spawn t j'))
  | await r k ih => intro w; exact List.prefix_refl _
  | block c k ih => intro w; exact List.prefix_refl _

/-- A segment of a program whose weakest precondition holds meets the contract, and the
rest of the program can be resumed. -/
theorem advance_may {t : Nat} {j : S.Job} :
    ∀ (m : Prog S Unit) (w₀ w : World S), m.wp C t j (C.Ends t) w₀ w →
      C.allowed t w₀ (m.advance t j w).1 →
        C.may t w₀ (m.advance t j w).1 ∧
          C.Resumable t j (some (m.advance t j w).2) (m.advance t j w).1 := by
  intro m
  induction m with
  | done a => intro w₀ w h ha; exact ⟨h ha, trivial⟩
  | look k ih => intro w₀ w h ha; exact ih _ _ _ h ha
  | edit u k ih => intro w₀ w h ha; exact ih _ _ h ha
  | spawn j' k ih => intro w₀ w h ha; exact ih _ _ _ h ha
  | await r k ih => intro w₀ w h ha; exact h ha
  | block c k ih => intro w₀ w h ha; exact h ha

/-- A pool whose tasks have not started holds the contract when their preconditions do. -/
theorem holds_init {s : S.State} {jobs : List S.Job} (hi : C.inv (Pool.init s jobs).world)
    (h : ∀ t j, jobs[t]? = some j → C.pre t j (Pool.init s jobs).world) :
    C.Holds (Pool.init s jobs) :=
  ⟨hi, fun t j hj => h t j hj, fun _ _ => rfl⟩

variable {body : Nat → S.Job → Prog S Unit} {ok : Pool S → Move S → Pool S → Prop}

/-- The rely of the other tasks after a segment of task `t` keeps the contract. -/
theorem Sound.holds_settle (hC : C.Sound body ok) {p : Pool S} {t : Nat} {j : S.Job}
    {m : Prog S Unit} {w : World S} (h : C.Holds p) (hj : p.world.jobs[t]? = some j)
    (hw : w.jobs = p.world.jobs)
    (hm : m.wp C t j (C.Ends t) p.world w)
    (ha : C.allowed t p.world (m.advance t j w).1) :
    C.Holds (p.settle t j m w) := by
  obtain ⟨hmay, hres⟩ := advance_may m p.world w hm ha
  have hjobs : p.world.jobs <+: (m.advance t j w).1.jobs := hw ▸ advance_jobs t j m w
  have htlt : t < p.world.jobs.length := (List.getElem?_eq_some_iff.mp hj).1
  refine ⟨hC.inv_may t _ _ h.inv hmay, ?_, ?_⟩
  -- The task itself is resumable by its own segment, and every other one by what it relies on.
  · intro t' j' hj'
    by_cases htt : t' = t
    · subst htt
      have : j' = j := by
        have hpre := getElem?_of_prefix hjobs htlt
        simp only [Pool.settle] at hj'
        rw [hpre, hj] at hj'
        exact (Option.some.inj hj').symm
      subst this
      simpa [Pool.settle] using hres
    · have hother : (p.settle t j m w).progs t' = p.progs t' := by
        simp [Pool.settle, Function.update_of_ne htt]
      rw [hother]
      by_cases hlt : t' < p.world.jobs.length
      · have hpre := getElem?_of_prefix hjobs hlt
        have hold : p.world.jobs[t']? = some j' := by
          simp only [Pool.settle] at hj'
          rw [hpre] at hj'
          exact hj'
        have hr : C.rely t' p.world (p.settle t j m w).world :=
          hC.rely_of_may t t' _ _ (Ne.symm htt) h.inv hmay
        exact (h.resumable t' j' hold).rely (hC.rely_trans t')
          (fun hp => hC.pre_rely _ _ _ _ hp hr) hr
      · -- A task created by this segment. It has not started.
        rw [h.unstarted t' (Nat.le_of_not_lt hlt)]
        exact hC.pre_may t p.world _ t' j' h.inv hmay (Nat.le_of_not_lt hlt) hj'
  · intro t' hlen
    have hle : p.world.jobs.length ≤ t' := Nat.le_trans hjobs.length_le hlen
    have htt : t' ≠ t := by omega
    simp only [Pool.settle, Function.update_of_ne htt]
    exact h.unstarted t' hle

/-- A move from outside the tasks keeps the contract when every task relies on it. -/
private theorem Sound.holds_outside (hC : C.Sound body ok) {p : Pool S} {w : World S}
    (h : C.Holds p) (hw : w.jobs = p.world.jobs) (hi : C.inv w)
    (hr : ∀ t, C.rely t p.world w) : C.Holds { p with world := w } := by
  refine ⟨hi, fun t j hj => ?_, fun t ht => h.unstarted t (by simpa [hw] using ht)⟩
  have hold : p.world.jobs[t]? = some j := by simpa [hw] using hj
  exact (h.resumable t j hold).rely (hC.rely_trans t)
    (fun hp => hC.pre_rely _ _ _ _ hp (hr t)) (hr t)

/-- One move keeps the contract. -/
theorem Sound.holds_fire (hC : C.Sound body ok) {p p' : Pool S} (m : Move S)
    (h : C.Holds p) (hf : p.fire body m = some p') (ho : ok p m p') : C.Holds p' := by
  cases m with
  | start t =>
      -- A task that starts meets its precondition.
      simp only [Pool.fire] at hf
      split at hf
      · rename_i j hj hp
        cases hf
        have hpre : C.pre t j p.world := by simpa [Resumable, hp] using h.resumable t j hj
        exact hC.holds_settle h hj rfl (hC.body_wp t j p.world h.inv hj hpre)
          (hC.allowed_start p t _ ho)
      · cases hf
  | answer t f =>
      simp only [Pool.fire] at hf
      split at hf
      · rename_i j r k hj hp
        cases hf
        -- One that goes on is resumable: its program is ready for every answer that the contract
        -- allows.
        have hres := h.resumable t j hj
        rw [hp] at hres
        exact hC.holds_settle h hj rfl
          (hres p.world (f r) h.inv (hC.rely_refl t _) (hC.answers_ok p t f _ r k ho hp))
          (hC.allowed_answer p t f _ ho)
      · cases hf
  | wake t =>
      simp only [Pool.fire] at hf
      split at hf
      · rename_i j c k hj hp
        split at hf
        · rename_i hc
          cases hf
          -- So is one whose condition holds.
          have hres := h.resumable t j hj
          rw [hp] at hres
          exact hC.holds_settle h hj rfl (hres p.world h.inv (hC.rely_refl t _) hc)
            (hC.allowed_wake p t _ ho)
        · cases hf
      · cases hf
  | arrive j =>
      cases hf
      -- The arrival is no step of a task: those that are there rely on it.
      refine ⟨hC.inv_arrive p j _ ho h.inv, fun t j' hj' => ?_, fun t ht => h.unstarted t ?_⟩
      · by_cases hlt : t < p.world.jobs.length
        · have hold : p.world.jobs[t]? = some j' := by
            simpa [List.getElem?_append_left hlt] using hj'
          have hr := hC.rely_arrive p j _ t ho h.inv
          exact (h.resumable t j' hold).rely (hC.rely_trans t)
            (fun hp => hC.pre_rely _ _ _ _ hp hr) hr
        -- The new task is the last one, and it starts where its job may.
        · have hle := Nat.le_of_not_lt hlt
          have hlen : t < (p.world.jobs ++ [j]).length :=
            (List.getElem?_eq_some_iff.mp hj').1
          have ht : t = p.world.jobs.length := by simp at hlen; omega
          subst ht
          have : j' = j := by simpa using hj'.symm
          subst this
          rw [h.unstarted _ hle]
          exact hC.pre_arrive p j' _ ho h.inv
      · have : (p.world.arrive j).jobs.length ≤ t := ht
        simp at this
        omega
  | outside u =>
      -- What comes from outside, lands or is sent again is no step of a task either.
      cases hf
      exact hC.holds_outside h rfl (hC.inv_outside p u _ ho h.inv)
        fun t => hC.rely_outside p u _ t ho h.inv
  | land t r =>
      cases hf
      exact hC.holds_outside h rfl (hC.inv_land p t r _ ho h.inv)
        fun t' => hC.rely_land p t r _ t' ho h.inv
  | resend t r =>
      cases hf
      exact hC.holds_outside h rfl (hC.inv_resend p t r _ ho h.inv)
        fun t' => hC.rely_resend p t r _ t' ho h.inv

/-- The contract holds along every run that starts with it. -/
theorem Sound.holds_reach (hC : C.Sound body ok) {p₀ p : Pool S} (h₀ : C.Holds p₀)
    (hr : Reach body ok p₀ p) : C.Holds p := by
  induction hr with
  | refl => exact h₀
  | step m _ hf ho ih => exact hC.holds_fire m ih hf ho

/-- A move that runs a task meets what the contract says of its segments. -/
theorem Sound.may_of_fire (hC : C.Sound body ok) {p p' : Pool S} {m : Move S} {t : Nat}
    (h : C.Holds p) (hf : p.fire body m = some p') (ho : ok p m p') (hm : m.task = some t) :
    C.may t p.world p'.world := by
  -- These are the moves that run a segment, and the segment is within what the contract allows.
  cases m with
  | start t' =>
      cases hm
      simp only [Pool.fire] at hf
      split at hf
      · rename_i j hj hp
        cases hf
        have hpre : C.pre t j p.world := by simpa [Resumable, hp] using h.resumable t j hj
        exact (advance_may _ _ _ (hC.body_wp t j p.world h.inv hj hpre)
          (hC.allowed_start p t _ ho)).1
      · cases hf
  | answer t' f =>
      cases hm
      simp only [Pool.fire] at hf
      split at hf
      · rename_i j r k hj hp
        cases hf
        have hres := h.resumable t j hj
        rw [hp] at hres
        exact (advance_may _ _ _
          (hres p.world (f r) h.inv (hC.rely_refl t _) (hC.answers_ok p t f _ r k ho hp))
          (hC.allowed_answer p t f _ ho)).1
      · cases hf
  | wake t' =>
      cases hm
      simp only [Pool.fire] at hf
      split at hf
      · rename_i j c k hj hp
        split at hf
        · rename_i hc
          cases hf
          have hres := h.resumable t j hj
          rw [hp] at hres
          exact (advance_may _ _ _ (hres p.world h.inv (hC.rely_refl t _) hc)
            (hC.allowed_wake p t _ ho)).1
        · cases hf
      · cases hf
  | arrive j => cases hm
  | outside u => cases hm
  | land t' r | resend t' r => cases hm

/-! ### A contract that relies on another one -/

/-- Contract `C` for tasks that may also rely on what `B` promises. They do not have to
prove the guarantee of `B` again. -/
def upon (B C : Contract S) : Contract S where
  inv w := B.inv w ∧ C.inv w
  rely t w w' := B.rely t w w' ∧ C.rely t w w'
  allowed t w₀ w := B.allowed t w₀ w ∧ C.allowed t w₀ w
  answers t w r a := B.answers t w r a ∧ C.answers t w r a
  may := C.may
  pre t j w := B.pre t j w ∧ C.pre t j w

/-- Both contracts. -/
def both (B C : Contract S) : Contract S where
  inv w := B.inv w ∧ C.inv w
  rely t w w' := B.rely t w w' ∧ C.rely t w w'
  allowed t w₀ w := B.allowed t w₀ w ∧ C.allowed t w₀ w
  answers t w r a := B.answers t w r a ∧ C.answers t w r a
  may t w₀ w := B.may t w₀ w ∧ C.may t w₀ w
  pre t j w := B.pre t j w ∧ C.pre t j w

/-- A program that meets each contract meets both. -/
theorem wp_both {B C : Contract S} {t : Nat} {j : S.Job}
    {Q Q' : α → World S → World S → Prop} :
    ∀ (m : Prog S α) (w₀ w : World S), m.wp B t j Q w₀ w → m.wp (upon B C) t j Q' w₀ w →
      m.wp (both B C) t j (fun a w₀ w => Q a w₀ w ∧ Q' a w₀ w) w₀ w := by
  intro m
  induction m with
  | done a => intro w₀ w h h'; exact ⟨h, h'⟩
  | look k ih => intro w₀ w h h'; exact ih _ _ _ h h'
  | edit u k ih => intro w₀ w h h'; exact ih _ _ h h'
  | spawn j' k ih => intro w₀ w h h'; exact ih _ _ _ h h'
  | await r k ih =>
      intro w₀ w h h' ha
      obtain ⟨hmay, hk⟩ := h ha.1
      obtain ⟨hmay', hk'⟩ := h' ha
      refine ⟨⟨hmay, hmay'⟩, fun w' a hi hr hans => ih a _ _ ?_ ?_⟩
      · exact hk w' a hi.1 hr.1 hans.1
      · exact hk' w' a hi hr hans
  | block c k ih =>
      intro w₀ w h h' ha
      obtain ⟨hmay, hk⟩ := h ha.1
      obtain ⟨hmay', hk'⟩ := h' ha
      exact ⟨⟨hmay, hmay'⟩,
        fun w' hi hr hc => ih _ _ (hk w' hi.1 hr.1 hc) (hk' w' hi hr hc)⟩

/-- What has to hold of contract `C` as a whole, when `B` is sound. -/
structure SoundOver (B C : Contract S) (body : Nat → S.Job → Prog S Unit)
    (ok : Pool S → Move S → Pool S → Prop) : Prop where
  rely_refl : ∀ t w, C.rely t w w
  rely_trans : ∀ t w₁ w₂ w₃, C.rely t w₁ w₂ → C.rely t w₂ w₃ → C.rely t w₁ w₃
  rely_of_may : ∀ t t' w₀ w, t ≠ t' → B.inv w₀ → C.inv w₀ → B.may t w₀ w → C.may t w₀ w →
    C.rely t' w₀ w
  rely_arrive : ∀ p j p' t, ok p (.arrive j) p' → C.inv p.world →
    C.rely t p.world (p.world.arrive j)
  rely_outside : ∀ p u p' t, ok p (.outside u) p' → C.inv p.world →
    C.rely t p.world (p.world.edit u)
  rely_land : ∀ p t' r p' t, ok p (.land t' r) p' → C.inv p.world →
    C.rely t p.world (p.world.record (.landed t' r))
  rely_resend : ∀ p t' r p' t, ok p (.resend t' r) p' → C.inv p.world →
    C.rely t p.world (p.world.record (.resent t' r p.world.state))
  inv_may : ∀ t w₀ w, B.inv w₀ → C.inv w₀ → B.may t w₀ w → C.may t w₀ w → C.inv w
  inv_arrive : ∀ p j p', ok p (.arrive j) p' → C.inv p.world → C.inv (p.world.arrive j)
  inv_outside : ∀ p u p', ok p (.outside u) p' → C.inv p.world → C.inv (p.world.edit u)
  inv_land : ∀ p t r p', ok p (.land t r) p' → C.inv p.world →
    C.inv (p.world.record (.landed t r))
  inv_resend : ∀ p t r p', ok p (.resend t r) p' → C.inv p.world →
    C.inv (p.world.record (.resent t r p.world.state))
  pre_rely : ∀ t j w w', C.pre t j w → B.rely t w w' → C.rely t w w' → C.pre t j w'
  pre_may : ∀ t w₀ w t' j, B.inv w₀ → C.inv w₀ → B.may t w₀ w → C.may t w₀ w →
    w₀.jobs.length ≤ t' → w.jobs[t']? = some j → C.pre t' j w
  pre_arrive : ∀ p j p', ok p (.arrive j) p' → C.inv p.world →
    C.pre p.world.jobs.length j (p.world.arrive j)
  allowed_start : ∀ p t p', ok p (.start t) p' → C.allowed t p.world p'.world
  allowed_answer : ∀ p t f p', ok p (.answer t f) p' → C.allowed t p.world p'.world
  allowed_wake : ∀ p t p', ok p (.wake t) p' → C.allowed t p.world p'.world
  answers_ok : ∀ p t f p' r k, ok p (.answer t f) p' → p.progs t = some (.await r k) →
    C.answers t p.world r (f r)
  body_wp : ∀ t j w, B.inv w → C.inv w → w.jobs[t]? = some j → B.pre t j w → C.pre t j w →
    (body t j).wp (upon B C) t j ((upon B C).Ends t) w w

/-- A contract that is sound over a sound one. -/
theorem Sound.both {B C : Contract S} (hB : B.Sound body ok) (hC : SoundOver B C body ok) :
    -- Each task's segments meet `B` first; then they may rely on it for `C`.
    (both B C).Sound body ok where
  rely_refl t w := ⟨hB.rely_refl t w, hC.rely_refl t w⟩
  rely_trans t w₁ w₂ w₃ h h' :=
    ⟨hB.rely_trans t _ _ _ h.1 h'.1, hC.rely_trans t _ _ _ h.2 h'.2⟩
  rely_of_may t t' w₀ w hne hi hm :=
    ⟨hB.rely_of_may t t' _ _ hne hi.1 hm.1, hC.rely_of_may t t' _ _ hne hi.1 hi.2 hm.1 hm.2⟩
  rely_arrive p j p' t ho hi := ⟨hB.rely_arrive p j p' t ho hi.1, hC.rely_arrive p j p' t ho hi.2⟩
  rely_outside p u p' t ho hi :=
    ⟨hB.rely_outside p u p' t ho hi.1, hC.rely_outside p u p' t ho hi.2⟩
  rely_land p t' r p' t ho hi :=
    ⟨hB.rely_land p t' r p' t ho hi.1, hC.rely_land p t' r p' t ho hi.2⟩
  rely_resend p t' r p' t ho hi :=
    ⟨hB.rely_resend p t' r p' t ho hi.1, hC.rely_resend p t' r p' t ho hi.2⟩
  inv_may t w₀ w hi hm := ⟨hB.inv_may t _ _ hi.1 hm.1, hC.inv_may t _ _ hi.1 hi.2 hm.1 hm.2⟩
  inv_arrive p j p' ho hi := ⟨hB.inv_arrive p j p' ho hi.1, hC.inv_arrive p j p' ho hi.2⟩
  inv_outside p u p' ho hi := ⟨hB.inv_outside p u p' ho hi.1, hC.inv_outside p u p' ho hi.2⟩
  inv_land p t r p' ho hi := ⟨hB.inv_land p t r p' ho hi.1, hC.inv_land p t r p' ho hi.2⟩
  inv_resend p t r p' ho hi :=
    ⟨hB.inv_resend p t r p' ho hi.1, hC.inv_resend p t r p' ho hi.2⟩
  pre_rely t j w w' hp hr := ⟨hB.pre_rely t j w w' hp.1 hr.1, hC.pre_rely t j w w' hp.2 hr.1 hr.2⟩
  pre_may t w₀ w t' j hi hm hlen hj :=
    ⟨hB.pre_may t w₀ w t' j hi.1 hm.1 hlen hj,
      hC.pre_may t w₀ w t' j hi.1 hi.2 hm.1 hm.2 hlen hj⟩
  pre_arrive p j p' ho hi := ⟨hB.pre_arrive p j p' ho hi.1, hC.pre_arrive p j p' ho hi.2⟩
  allowed_start p t p' ho := ⟨hB.allowed_start p t p' ho, hC.allowed_start p t p' ho⟩
  allowed_answer p t f p' ho := ⟨hB.allowed_answer p t f p' ho, hC.allowed_answer p t f p' ho⟩
  allowed_wake p t p' ho := ⟨hB.allowed_wake p t p' ho, hC.allowed_wake p t p' ho⟩
  answers_ok p t f p' r k ho hp :=
    ⟨hB.answers_ok p t f p' r k ho hp, hC.answers_ok p t f p' r k ho hp⟩
  body_wp t j w hi hj hp := by
    refine Prog.wp_mono ?_ _ _ _ (wp_both _ _ _ (hB.body_wp t j w hi.1 hj hp.1)
      (hC.body_wp t j w hi.1 hi.2 hj hp.1 hp.2))
    intro a w₀ w' h ha
    exact ⟨h.1 ha.1, h.2 ha⟩

end Contract

end Coop
