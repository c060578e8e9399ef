import Mathlib.Logic.Basic

/-!
# `DbGuard.Coop.Program`: cooperative tasks as programs

A cooperative scheduler runs one task at a time and switches only where a task suspends.
Between two suspensions a task reads and changes the shared state without interference.
`Prog S α` is the syntax of such a task: a tree whose inner nodes look at the state, edit
it, spawn another task, await the answer of a request, or block until a condition on the
state holds.

A `Sig` collects what the tasks of one application share. An edit is a value of
`Sig.Update`, applied by `Sig.apply`, and a spawned task is a value of `Sig.Job`. Both are
first-order data, so a proof can say which edits and which jobs a program contains without
looking at the state (`DbGuard.Coop.Contract`).

A program is a well-founded tree. A loop with a bound known when it starts is a recursion
on that bound. A loop without one is followed for a number of rounds that the program takes
as an argument, and then blocks for ever (`Prog.hang`). Every finite run of the loop is a
run of one of these programs.
-/

set_option autoImplicit false

namespace Coop

/-- What the tasks of one application share. `retire t` is applied to the state when task
`t` finishes. -/
structure Sig where
  State : Type
  Update : Type
  apply : Update → State → State
  Job : Type
  Req : Type
  Resp : Req → Type
  retire : Nat → State → State

/-- A cooperative task that returns an `α`. `spawn` passes the new task's id on. `await`
and `block` are the suspension points. -/
inductive Prog (S : Sig) (α : Type) : Type
  | done (a : α)
  | look (k : S.State → Prog S α)
  | edit (u : S.Update) (k : Prog S α)
  | spawn (j : S.Job) (k : Nat → Prog S α)
  | await (r : S.Req) (k : S.Resp r → Prog S α)
  | block (c : S.State → Bool) (k : Prog S α)

namespace Prog

variable {S : Sig} {α β γ : Type}

/-- Sequencing. -/
def bind : Prog S α → (α → Prog S β) → Prog S β
  | .done a, f => f a
  | .look k, f => .look fun s => (k s).bind f
  | .edit u k, f => .edit u (k.bind f)
  | .spawn j k, f => .spawn j fun t => (k t).bind f
  | .await r k, f => .await r fun a => (k a).bind f
  | .block c k, f => .block c (k.bind f)

instance : Monad (Prog S) where
  pure := .done
  bind := Prog.bind

/-- Returning at the end changes nothing. -/
theorem bind_done (m : Prog S α) : m.bind .done = m := by
  induction m with
  | done a => rfl
  | look k ih => simp only [bind]; exact congrArg _ (funext ih)
  | edit u k ih => simp only [bind, ih]
  | spawn j k ih => simp only [bind]; exact congrArg _ (funext ih)
  | await r k ih => simp only [bind]; exact congrArg _ (funext ih)
  | block c k ih => simp only [bind, ih]

/-- Sequences may be bracketed either way. -/
theorem bind_assoc (m : Prog S α) (f : α → Prog S β) (g : β → Prog S γ) :
    (m.bind f).bind g = m.bind fun a => (f a).bind g := by
  induction m with
  | done a => rfl
  | look k ih => simp only [bind]; exact congrArg _ (funext ih)
  | edit u k ih => simp only [bind, ih]
  | spawn j k ih => simp only [bind]; exact congrArg _ (funext ih)
  | await r k ih => simp only [bind]; exact congrArg _ (funext ih)
  | block c k ih => simp only [bind, ih]

instance : LawfulMonad (Prog S) :=
  LawfulMonad.mk' (Prog S) bind_done (fun _ _ => rfl) bind_assoc

/-! ### The instructions -/

/-- The shared state. -/
def get : Prog S S.State := .look .done

/-- Apply one update. -/
def update (u : S.Update) : Prog S Unit := .edit u (.done ())

/-- Start a task and return its id. The task first runs after this one suspends. -/
def create (j : S.Job) : Prog S Nat := .spawn j .done

/-- Issue a request and suspend until its answer. -/
def call (r : S.Req) : Prog S (S.Resp r) := .await r .done

/-- Suspend until the condition holds. -/
def blockUntil (c : S.State → Bool) : Prog S Unit := .block c (.done ())

/-- Suspend for ever. The argument is never returned. -/
def hang (a : α) : Prog S α := .block (fun _ => false) (.done a)

end Prog

end Coop
