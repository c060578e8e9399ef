import Mathlib.Logic.Function.Basic
import DbGuard.Coop.Program

/-!
# `DbGuard.Coop.Pool`: pools of tasks and their runs

A `Pool` is the shared `World` and, for each task that has started, the rest of its
program. Tasks are numbered in the order they were created. A `Move` is one choice of the
scheduler or of the environment: start or resume one task, let a new task arrive, apply an
update from outside, let an issued request take effect where it was sent (`land`), which
can happen before the answer, long after a timeout, or never, or let the client of a task send
a request once more while the task goes on waiting (`resend`).

`Pool.fire` makes one move. A resumed task runs to its next suspension in one move, so a
move is one atomic segment. The log of the world records each task that another one
created, each request with the state in which it was issued, each answer, each landing, each
repeated request and the end of each task, so a property of a run is a property of a log.
`Checked P log` says that every event met `P` when it was recorded, and `own t log` is what task
`t` recorded.

`Reach body ok p₀ p` says that some moves lead from `p₀` to `p`. The relation `ok` gives
the environment's rules, and a condition on a run is one more conjunct of it.
-/

set_option autoImplicit false

namespace Coop

variable {S : Sig}

/-- What the log of a world records. `issued`, `resent` and `finished` hold the shared state at
that moment, and `created` the id of the new task. -/
inductive Event (S : Sig) : Type
  | created (t : Nat) (j : S.Job) (t' : Nat)
  | issued (t : Nat) (j : S.Job) (r : S.Req) (s : S.State)
  | answered (t : Nat) (r : S.Req) (a : S.Resp r)
  | landed (t : Nat) (r : S.Req)
  | resent (t : Nat) (r : S.Req) (s : S.State)
  | finished (t : Nat) (s : S.State)

/-- The task an event belongs to. -/
def Event.task : Event S → Nat
  | .created t _ _ => t
  | .issued t _ _ _ => t
  | .answered t _ _ => t
  | .landed t _ => t
  | .resent t _ _ => t
  | .finished t _ => t

/-- Whether the event is a step of task `t`. A landing is a step of the receiver, and a repeated
request one of the client. -/
def Event.isBy (t : Nat) : Event S → Bool
  | .created t' _ _ => t' = t
  | .issued t' _ _ _ => t' = t
  | .answered t' _ _ => t' = t
  | .landed _ _ => false
  | .resent _ _ _ => false
  | .finished t' _ => t' = t

/-- The steps of task `t` in a log. -/
def own (t : Nat) (log : List (Event S)) : List (Event S) := log.filter (·.isBy t)

/-- Every event met `P` when it was recorded, given the log before it. -/
def Checked (P : List (Event S) → Event S → Prop) (log : List (Event S)) : Prop :=
  ∀ l e l', log = l ++ e :: l' → P l e

section
variable {P Q : List (Event S) → Event S → Prop} {log : List (Event S)} {e : Event S}
  {t : Nat}

/-- An empty log is checked. -/
theorem checked_nil : Checked P ([] : List (Event S)) := by
  intro l e l' h
  exact absurd h (by simp)

/-- Recording an event that meets `P`. -/
theorem Checked.concat (h : Checked P log) (he : P log e) : Checked P (log ++ [e]) := by
  intro l e' l' heq
  rcases List.eq_nil_or_concat l' with rfl | ⟨l'', e'', rfl⟩
  · obtain ⟨rfl, h1⟩ := List.append_inj' heq rfl
    cases h1
    exact he
  · have h1 : log ++ [e] = (l ++ e' :: l'') ++ [e''] := by simpa using heq
    exact h l e' l'' (List.append_inj' h1 rfl).1

/-- Recording events that meet `P` wherever they are recorded. -/
theorem Checked.append {l : List (Event S)} (h : Checked P log) (hl : ∀ X, ∀ e ∈ l, P X e) :
    Checked P (log ++ l) := by
  induction l generalizing log with
  | nil => rwa [List.append_nil]
  | cons e l ih =>
    have hstep := ih (h.concat (hl log e List.mem_cons_self)) fun X e' he' =>
      hl X e' (List.mem_cons_of_mem _ he')
    rwa [List.append_assoc] at hstep

/-- A weaker condition holds of every event, too. -/
theorem Checked.mono (hPQ : ∀ l e, P l e → Q l e) (h : Checked P log) : Checked Q log :=
  fun l e l' heq => hPQ l e (h l e l' heq)

/-- A task's part of a longer log. -/
theorem own_append (l l' : List (Event S)) : own t (l ++ l') = own t l ++ own t l' :=
  List.filter_append l l'

/-- A step of task `t` belongs to it. -/
theorem task_of_isBy (h : e.isBy t = true) : e.task = t := by
  cases e <;> simp_all [Event.isBy, Event.task]

/-- Events of other tasks do not show. -/
theorem own_of_task_ne {l : List (Event S)} (h : ∀ e ∈ l, e.task ≠ t) : own t l = [] :=
  List.filter_eq_nil_iff.mpr fun e he hby => h e he (task_of_isBy hby)

/-- What is in its part is in the log. -/
theorem mem_of_mem_own (h : e ∈ own t log) : e ∈ log := (List.mem_filter.mp h).1

end

/-- The shared state, the job of each task created so far, and the log. -/
structure World (S : Sig) where
  state : S.State
  jobs : List S.Job
  log : List (Event S)

namespace World

/-- Apply one update to the shared state. -/
def edit (w : World S) (u : S.Update) : World S := { w with state := S.apply u w.state }

/-- Record an event. -/
def record (w : World S) (e : Event S) : World S := { w with log := w.log ++ [e] }

/-- A task arrives. Its id is the number of tasks before it. -/
def arrive (w : World S) (j : S.Job) : World S := { w with jobs := w.jobs ++ [j] }

/-- Task `t` creates a task. -/
def spawn (w : World S) (t : Nat) (j : S.Job) : World S :=
  (w.arrive j).record (.created t j w.jobs.length)

/-- Task `t` issues a request. -/
def issue (w : World S) (t : Nat) (j : S.Job) (r : S.Req) : World S :=
  w.record (.issued t j r w.state)

/-- Task `t` receives an answer. -/
def answer (w : World S) (t : Nat) (r : S.Req) (a : S.Resp r) : World S :=
  w.record (.answered t r a)

/-- Task `t` ends. -/
def finish (w : World S) (t : Nat) : World S :=
  { w with state := S.retire t w.state, log := w.log ++ [.finished t w.state] }

section
variable (w : World S) (u : S.Update) (t : Nat) (j : S.Job) (r : S.Req) (a : S.Resp r)

/-- The update is applied. -/
@[simp] theorem edit_state : (w.edit u).state = S.apply u w.state := rfl
/-- It changes no task's job. -/
@[simp] theorem edit_jobs : (w.edit u).jobs = w.jobs := rfl
/-- It is not recorded. -/
@[simp] theorem edit_log : (w.edit u).log = w.log := rfl
/-- An arrival leaves the state. -/
@[simp] theorem arrive_state : (w.arrive j).state = w.state := rfl
/-- It appends a job. -/
@[simp] theorem arrive_jobs : (w.arrive j).jobs = w.jobs ++ [j] := rfl
/-- It is not recorded. -/
@[simp] theorem arrive_log : (w.arrive j).log = w.log := rfl
/-- A creation leaves the state. -/
@[simp] theorem spawn_state : (w.spawn t j).state = w.state := rfl
/-- It appends a job. -/
@[simp] theorem spawn_jobs : (w.spawn t j).jobs = w.jobs ++ [j] := rfl
/-- It is recorded with the new number. -/
@[simp] theorem spawn_log :
    (w.spawn t j).log = w.log ++ [.created t j w.jobs.length] := rfl
/-- A request leaves the state. -/
@[simp] theorem issue_state : (w.issue t j r).state = w.state := rfl
/-- It leaves the jobs. -/
@[simp] theorem issue_jobs : (w.issue t j r).jobs = w.jobs := rfl
/-- It is recorded with the state. -/
@[simp] theorem issue_log : (w.issue t j r).log = w.log ++ [.issued t j r w.state] := rfl
/-- An answer leaves the state. -/
@[simp] theorem answer_state : (w.answer t r a).state = w.state := rfl
/-- It leaves the jobs. -/
@[simp] theorem answer_jobs : (w.answer t r a).jobs = w.jobs := rfl
/-- It is recorded. -/
@[simp] theorem answer_log : (w.answer t r a).log = w.log ++ [.answered t r a] := rfl
/-- The end of a task retires it. -/
@[simp] theorem finish_state : (w.finish t).state = S.retire t w.state := rfl
/-- It leaves the jobs. -/
@[simp] theorem finish_jobs : (w.finish t).jobs = w.jobs := rfl
/-- It is recorded with the state. -/
@[simp] theorem finish_log : (w.finish t).log = w.log ++ [.finished t w.state] := rfl

end

end World

/-- Run task `t` to its next suspension or to its end. -/
def Prog.advance (t : Nat) (j : S.Job) : Prog S Unit → World S → World S × Prog S Unit
  | .done _, w => (w.finish t, .done ())
  | .look k, w => (k w.state).advance t j w
  | .edit u k, w => k.advance t j (w.edit u)
  | .spawn j' k, w => (k w.jobs.length).advance t j (w.spawn t j')
  | .await r k, w => (w.issue t j r, .await r k)
  | .block c k, w => (w, .block c k)

/-- A world and the rest of each started task's program. -/
structure Pool (S : Sig) where
  world : World S
  progs : Nat → Option (Prog S Unit)

/-- One choice of the scheduler or of the environment. The answer of a request is given as
an answer to every request, of which the pending one is used. -/
inductive Move (S : Sig) : Type
  | start (t : Nat)
  | answer (t : Nat) (f : (r : S.Req) → S.Resp r)
  | wake (t : Nat)
  | arrive (j : S.Job)
  | outside (u : S.Update)
  | land (t : Nat) (r : S.Req)
  | resend (t : Nat) (r : S.Req)

/-- The task that a move runs. -/
def Move.task : Move S → Option Nat
  | .start t | .answer t _ | .wake t => some t
  | .arrive _ | .outside _ | .land _ _ | .resend _ _ => none

namespace Pool

/-- Run task `t` on program `m` from world `w`, and keep the rest of it. -/
def settle (p : Pool S) (t : Nat) (j : S.Job) (m : Prog S Unit) (w : World S) : Pool S :=
  let next := m.advance t j w
  { world := next.1, progs := Function.update p.progs t (some next.2) }

/-- Make one move. `none` when the move is not possible. -/
def fire (body : Nat → S.Job → Prog S Unit) (p : Pool S) : Move S → Option (Pool S)
  | .start t =>
    match p.world.jobs[t]?, p.progs t with
    | some j, none => some (p.settle t j (body t j) p.world)
    | _, _ => none
  | .answer t f =>
    match p.world.jobs[t]?, p.progs t with
    | some j, some (.await r k) => some (p.settle t j (k (f r)) (p.world.answer t r (f r)))
    | _, _ => none
  | .wake t =>
    match p.world.jobs[t]?, p.progs t with
    | some j, some (.block c k) =>
      if c p.world.state = true then some (p.settle t j k p.world) else none
    | _, _ => none
  | .arrive j => some { p with world := p.world.arrive j }
  | .outside u => some { p with world := p.world.edit u }
  | .land t r => some { p with world := p.world.record (.landed t r) }
  | .resend t r => some { p with world := p.world.record (.resent t r p.world.state) }

/-- A move that runs a task runs one that was created. -/
theorem job_of_fire {body : Nat → S.Job → Prog S Unit} {p p' : Pool S} {m : Move S} {t : Nat}
    (hf : p.fire body m = some p') (hm : m.task = some t) : ∃ j, p.world.jobs[t]? = some j := by
  cases m with
  | start t' | answer t' _ | wake t' =>
      cases hm
      simp only [fire] at hf
      split at hf
      · exact ⟨_, by assumption⟩
      · cases hf
  | arrive _ | outside _ | land _ _ | resend _ _ => cases hm

/-- A move runs no other task than its own. -/
theorem progs_of_fire {body : Nat → S.Job → Prog S Unit} {p p' : Pool S} {m : Move S} {t t' : Nat}
    (hf : p.fire body m = some p') (hm : m.task = some t) (hne : t' ≠ t) :
    p'.progs t' = p.progs t' := by
  cases m with
  | start _ | answer _ _ =>
      cases hm
      simp only [fire] at hf
      split at hf
      · cases hf
        exact Function.update_of_ne hne _ _
      · cases hf
  | wake _ =>
      cases hm
      simp only [fire] at hf
      split at hf
      · split at hf
        · cases hf
          exact Function.update_of_ne hne _ _
        · cases hf
      · cases hf
  | arrive _ | outside _ | land _ _ | resend _ _ => cases hm

end Pool

/-- The pool in state `s` with tasks that have not started. -/
def Pool.init (s : S.State) (jobs : List S.Job) : Pool S :=
  { world := { state := s, jobs := jobs, log := [] }, progs := fun _ => none }

/-- The pools that some moves, each allowed by `ok`, lead to from `p₀`. -/
inductive Reach (body : Nat → S.Job → Prog S Unit) (ok : Pool S → Move S → Pool S → Prop)
    (p₀ : Pool S) : Pool S → Prop
  | refl : Reach body ok p₀ p₀
  | step {p p' : Pool S} (m : Move S) : Reach body ok p₀ p → p.fire body m = some p' →
      ok p m p' → Reach body ok p₀ p'

/-- A run that meets more conditions is a run. -/
theorem Reach.mono {body : Nat → S.Job → Prog S Unit}
    {ok ok' : Pool S → Move S → Pool S → Prop} {p₀ p : Pool S}
    (h : ∀ p m p', ok p m p' → ok' p m p') (hr : Reach body ok p₀ p) :
    Reach body ok' p₀ p := by
  induction hr with
  | refl => exact .refl
  | step m _ hf ho ih => exact .step m ih hf (h _ _ _ ho)

/-- Make a list of moves, each accepted by `check`. -/
def Pool.exec (body : Nat → S.Job → Prog S Unit) (check : Pool S → Move S → Bool) :
    Pool S → List (Move S) → Option (Pool S)
  | p, [] => some p
  | p, m :: ms =>
    if check p m then (p.fire body m).bind fun p' => p'.exec body check ms else none

/-- The moves of a successful `exec` are a run, when `check` accepts only allowed moves. -/
theorem Reach.of_exec {body : Nat → S.Job → Prog S Unit}
    {ok : Pool S → Move S → Pool S → Prop} {check : Pool S → Move S → Bool} {p₀ : Pool S}
    (hcheck : ∀ p m p', check p m = true → p.fire body m = some p' → ok p m p') :
    ∀ (ms : List (Move S)) (p p' : Pool S), Reach body ok p₀ p →
      p.exec body check ms = some p' → Reach body ok p₀ p' := by
  intro ms
  induction ms with
  | nil =>
      intro p p' hp h
      cases h
      exact hp
  | cons m ms ih =>
      intro p p' hp h
      rw [Pool.exec] at h
      split at h
      · rename_i hc
        obtain ⟨q, hq, h⟩ := Option.bind_eq_some_iff.mp h
        exact ih q p' (.step m hp hq (hcheck p m q hc hq)) h
      · cases h

end Coop
