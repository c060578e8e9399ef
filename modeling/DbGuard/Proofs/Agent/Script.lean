import DbGuard.Agent.Roles

/-!
# `DbGuard.Proofs.Agent.Script`: runs of an agent given by their moves

`play` makes a list of moves and checks each against the environment's rules and a condition.
`reach_of_play` says that what it reaches is reached by a run.

The rest is an agent for such lists, in which every wait succeeds.
-/

set_option autoImplicit false

namespace DbGuard

namespace Agent

open Coop (Pool Move Reach)

/-- Make the moves from `p`, each by the rules and the condition. -/
def play (node : Node) (cond : Pool sig → Move sig → Bool) (p : Pool sig)
    (ms : List (Move sig)) : Option (Pool sig) :=
  p.exec (body node) (fun p m => environment p m && cond p m) ms

/-- What a list of moves reaches is reached by a run. -/
theorem reach_of_play {node : Node} {check : Pool sig → Move sig → Bool}
    {cond : Pool sig → Move sig → Pool sig → Prop}
    (hcond : ∀ p m p', check p m = true → cond p m p') {ms : List (Move sig)} {p q : Pool sig}
    (h : play node check p ms = some q) :
    Reach (body node) (fun p m p' => environment p m = true ∧ cond p m p') p q := by
  refine Reach.of_exec (fun p m p' hc _ => ?_) ms p q .refl h
  rw [Bool.and_eq_true] at hc
  exact ⟨hc.1, hcond p m p' hc.2⟩

/-- A supervised booted replica. -/
def replica : Agent := init true true false

/-- Every wait succeeds, and the statements show `row`. -/
def succeed (row : Row) : (r : Req) → r.Resp
  | .sql _ => .ok row
  | .connect => .ok 1
  | .sample | .ownGtid | .donorGtid _ => .ok ()
  | .waitExit | .waitRestart _ | .waitResponsive => .ok true
  | .reply _ => ()

/-- The wait of task `t` succeeds. -/
def did (t : Nat) : Move sig := .answer t (succeed .none)

/-- mysqld executes the statement of task `t`, which reads the row. -/
def ran (t : Nat) (row : Row) : List (Move sig) :=
  [.outside (.execute t row), .answer t (succeed row)]

/-- Task `t` waits for a statement until it gives up. -/
def timedOut (t : Nat) : Move sig :=
  .answer t fun r => match r with
    | .sql _ => .error (.db none true)
    | r => succeed .none r

/-- The statement of task `t` fails with this code, as far as the task knows. -/
def failed (t : Nat) (code : Option Nat) : Move sig :=
  .answer t fun r => match r with
    | .sql _ => .error (.db code false)
    | r => succeed .none r

/-- A promote as task `t` up to its last statement, which is sent. -/
def promoteSent (t : Nat) : List (Move sig) :=
  [.arrive .promote, .start t, did t] ++
    ran t .none ++ ran t .none ++ ran t .none ++ ran t .none

end Agent

end DbGuard
