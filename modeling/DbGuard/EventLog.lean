import DbGuard.Machine
import DbGuard.PyText
import Mathlib.Data.List.DropRight

/-!
# `DbGuard.EventLog`: the manager's event log

`class EventLog` of `events.py`: a file with one JSON line for each event, and a ring of the
last events. `append` writes a line. Opening the log reads the lines back and ends a torn one.

The machine writes to one file. Its moves are an `append` that returns, a write that stops
after some characters and raises, after which the process goes on, and opening the log anew. A
crash in the middle of a write is the second move and then the third.

Rows and their JSON belong to pydantic and `json`, and `Json` says what is used of them. The
text of a row is ASCII and escapes control characters, so `\n` is the only line break in the
file.
-/

set_option autoImplicit false

namespace DbGuard

/-- `json.dumps(ev.row())` and `Event.model_validate_json`: the text of a row is one JSON object
on one line. An unfinished object does not parse, and neither does one with more behind it. -/
structure Json (E : Type) where
  dump : E → List Char
  parse : List Char → Option E
  parse_dump : ∀ e, parse (dump e) = some e
  first : ∀ e, (dump e).head? = some '\x7b'
  last : ∀ e, (dump e).getLast? = some '\x7d'
  one_line : ∀ e, '\n' ∉ dump e
  unfinished : ∀ e text, text <+: dump e → text ≠ dump e → parse text = none
  trailing : ∀ texts : List (List Char), 2 ≤ texts.length →
    (∀ text ∈ texts, text ≠ [] ∧ ∃ e, text <+: dump e) → parse texts.flatten = none

/-- The file, and `_ring`. -/
structure EventLog (E : Type) where
  file : List Char := []
  ring : List E := []

namespace EventLog

variable {E : Type} (J : Json E) (keep : Nat)

/-- `self._ring.append(ev)`, of a `deque` with `maxlen=keep`. -/
def push (ring : List E) (ev : E) : List E := (ring ++ [ev]).rtake keep

/-- What one line of the file gives. -/
def readLine (line : List Char) : Option E :=
  let line := Py.strip line
  if line = [] then none else J.parse line

/-- The events that the lines of the file give. -/
def events (file : List Char) : List E := (file.splitOn '\n').filterMap (readLine J)

/-- `_load_tail`, into an empty ring. -/
def loadTail (file : List Char) : List E := (events J file).foldl (push keep) []

/-- `_terminate_torn_line`. -/
def terminateTornLine (file : List Char) : List Char :=
  match file.getLast? with
  | none => file
  | some c => if c = '\n' then file else file ++ ['\n']

/-- `EventLog(path)` for the file of an earlier one. -/
def reopen (log : EventLog E) : EventLog E :=
  { file := terminateTornLine log.file, ring := loadTail J keep log.file }

/-- The line of an event. -/
def line (ev : E) : List Char := J.dump ev ++ ['\n']

/-- `append` of an event whose write stops after `n` characters. -/
def write (log : EventLog E) (ev : E) (n : Nat) : EventLog E :=
  { file := log.file ++ (line J ev).take n, ring := push keep log.ring ev }

/-- `append` of an event that returns. -/
def append (log : EventLog E) (ev : E) : EventLog E := write J keep log ev (line J ev).length

/-- The log, the events whose text is completely written, and those whose `append` returned. -/
structure Run (E : Type) where
  log : EventLog E := {}
  written : List E := []
  returned : List E := []

/-- What happens to the log next. -/
inductive Move (E : Type)
  | append (ev : E)
  | fail (ev : E) (n : Nat)
  | reopen

/-- The effect of one move. -/
def step (r : Run E) : Move E → Option (Run E)
  | .append ev =>
    some ⟨r.log.append J keep ev, r.written ++ [ev], r.returned ++ [ev]⟩
  | .fail ev n =>
    some { r with
      log := r.log.write J keep ev n
      written := if (J.dump ev).length ≤ n then r.written ++ [ev] else r.written }
  | .reopen => some { r with log := r.log.reopen J keep }

end EventLog

end DbGuard
