import Mathlib.Data.Finset.Basic
import Mathlib.Data.Finset.Prod
import Mathlib.Logic.Function.Basic
import DbGuard.Machine

/-!
# `DbGuard.Harness.Workload`: the ack log of the chaos workload

`Client.run`, `run` and `AckLog` of `harness/workload.py`, and what `load_acks` and
`lossless_and_phantom` of `harness/checker.py` make of the log.

The main thread and the client threads take turns in any order. `MainPhase` and `ClientPhase`
are the places where a thread does something that another thread can see, and a move does
this one thing. Any wait can last any time, so a join can end by its timeout whatever its
client does.

A row has the columns that `read_ack_log` and the checker read. The log of the model is what
this run has written. `sent` has the INSERTs that went out to the server and `returned` the ones
that returned OK. The code knows neither as a whole.
-/

set_option autoImplicit false

namespace DbGuard.Harness

/-- What a row says: a row with `t_ok`, or one with `error`. -/
inductive Row.Kind
  | ok
  | error (text : String)
deriving DecidableEq

/-- A row of the ack log. -/
structure Row where
  client : Nat
  seq : Nat
  kind : Row.Kind
deriving DecidableEq

/-- The write that a row is about. -/
def Row.write (r : Row) : Nat × Nat := (r.client, r.seq)

/-- The text of the rows that `run` writes itself. -/
def inFlightAtShutdown : String := "in-flight at shutdown"

/-- Where a client thread is: not started, at the head of its loop, in `_connect`, before
`in_flight_seq = seq`, before its INSERT is sent, in the INSERT, before the look at `_fh` in
`AckLog.write`, before the lock there, before `in_flight_seq = None`, in the backoff wait, at
its end, or ended by an exception. -/
inductive ClientPhase
  | created
  | head
  | connecting
  | announcing
  | sending
  | inserting
  | logging (kind : Row.Kind)
  | writing (kind : Row.Kind)
  | clearing (kind : Row.Kind)
  | backoff
  | finished
  | crashed
deriving DecidableEq

/-- A client thread. `conn` says that it has a connection. -/
structure Client where
  phase : ClientPhase := .created
  seq : Nat := 0
  inFlightSeq : Option Nat := none
  conn : Bool := false
  lastError : Option String := none
deriving DecidableEq

/-- Where `run` is, with the client that comes next: it starts them, waits for the end, joins
them, reads `in_flight_seq`, writes the row of what it read, closes the log. -/
inductive MainPhase
  | starting (i : Nat)
  | waiting
  | joining (i : Nat)
  | reading (i : Nat)
  | recording (i : Nat) (seq : Nat)
  | closing
  | returned
deriving DecidableEq

/-- The workload. `logOpen` is `_fh is not None`. -/
structure Workload where
  main : MainPhase := .starting 1
  stop : Bool := false
  clients : Nat → Client := fun _ => {}
  log : List Row := []
  logOpen : Bool := true
  sent : List (Nat × Nat) := []
  returned : List (Nat × Nat) := []

/-- How the call ends at which a client is: it returns, or it raises. -/
inductive Answer
  | ok
  | raises (error : String)
deriving DecidableEq

/-- Whose turn it is. `signal` is anybody else who sets the stop event. -/
inductive Turn
  | main
  | signal
  | client (i : Nat) (a : Answer)
deriving DecidableEq

namespace Workload

variable (n : Nat) (w : Workload)

/-- The workload with another state of a client. -/
def setClient (i : Nat) (c : Client) : Workload :=
  { w with clients := Function.update w.clients i c }

/-- `AckLog.write` behind its lock. -/
def put (r : Row) : Workload := { w with log := w.log ++ [r] }

/-! ### The threads -/

/-- One thing that a client does. -/
def clientStep (i : Nat) (a : Answer) : Option Workload :=
  let c := w.clients i
  match c.phase with
  | .head =>
    some (w.setClient i
      (if w.stop then { c with phase := .finished, conn := false }
      else if c.conn then { c with phase := .announcing, seq := c.seq + 1 }
      else { c with phase := .connecting }))
  | .connecting =>
    some (w.setClient i (match a with
      | .ok => { c with phase := .announcing, conn := true, seq := c.seq + 1 }
      | .raises e => { c with phase := .backoff, lastError := some ("connect: " ++ e) }))
  | .announcing => some (w.setClient i { c with phase := .sending, inFlightSeq := some c.seq })
  | .sending =>
    match a with
    | .ok =>
      some { w.setClient i { c with phase := .inserting } with
        sent := w.sent ++ [(i, c.seq)] }
    | .raises e =>
      some (w.setClient i { c with phase := .logging (.error (e.take 300).toString), lastError := some e })
  | .inserting =>
    match a with
    | .ok =>
      some { w.setClient i { c with phase := .logging .ok } with
        returned := w.returned ++ [(i, c.seq)] }
    | .raises e =>
      some (w.setClient i { c with phase := .logging (.error (e.take 300).toString), lastError := some e })
  | .logging kind =>
    some (w.setClient i { c with phase := if w.logOpen then .writing kind else .clearing kind })
  | .writing kind =>
    -- After a close `self._fh` is None, and the write to it raises.
    if w.logOpen then
      some ((w.setClient i { c with phase := .clearing kind }).put ⟨i, c.seq, kind⟩)
    else some (w.setClient i { c with phase := .crashed })
  | .clearing kind =>
    some (w.setClient i (match kind with
      | .ok => { c with phase := .head, inFlightSeq := none }
      | .error _ => { c with phase := .backoff, inFlightSeq := none, conn := false }))
  | .backoff => some (w.setClient i { c with phase := .head })
  | .created | .finished | .crashed => none

/-- One thing that `run` does, with `n` clients. -/
def mainStep : Option Workload :=
  match w.main with
  | .starting i =>
    if i ≤ n then
      some { w.setClient i { w.clients i with phase := .head } with main := .starting (i + 1) }
    else some { w with main := .waiting }
  | .waiting => some { w with main := .joining 1, stop := true }
  | .joining i => some { w with main := if i ≤ n then .joining (i + 1) else .reading 1 }
  | .reading i =>
    if i ≤ n then
      match (w.clients i).inFlightSeq with
      | some seq => some { w with main := .recording i seq }
      | none => some { w with main := .reading (i + 1) }
    else some { w with main := .closing }
  | .recording i seq =>
    some { w.put ⟨i, seq, .error inFlightAtShutdown⟩ with main := .reading (i + 1) }
  | .closing => some { w with main := .returned, logOpen := false }
  | .returned => none

/-- One turn. -/
def step : Turn → Option Workload
  | .main => w.mainStep n
  | .signal => some { w with stop := true }
  | .client i a => w.clientStep i a

end Workload

/-! ### The checker -/

/-- `class AckSets`. -/
structure AckSets where
  acked : Finset (Nat × Nat)
  errored : Finset (Nat × Nat)

/-- `load_acks`, of the rows of the logs. -/
def loadAcks (rows : List Row) : AckSets where
  acked := ((rows.filter (·.kind = .ok)).map (·.write)).toFinset
  errored := ((rows.filter (·.kind ≠ .ok)).map (·.write)).toFinset

/-- The counts of `lossless_and_phantom`. -/
structure LossVerdict where
  lost : Finset (Nat × Nat)
  phantom : Finset (Nat × Nat)
  erroredLanded : Nat
  erroredAbsent : Nat

/-- `lossless_and_phantom`. -/
def losslessAndPhantom (acks : AckSets) (rows : Finset (Nat × Nat)) : LossVerdict :=
  let maybe := acks.errored \ acks.acked
  { lost := acks.acked \ rows
    phantom := (rows \ acks.acked) \ acks.errored
    erroredLanded := (maybe ∩ rows).card
    erroredAbsent := (maybe \ rows).card }

end DbGuard.Harness
