import DbGuard.GtidParse
import DbGuard.Harness.Workload
import DbGuard.Model
import DbGuard.Watch
import Mathlib.Algebra.Order.Field.Rat
import Mathlib.Data.List.Sort

/-!
# `DbGuard.Harness.Checker`: the verdict on a run

`single_writer`, `convergence` and `check` of `harness/checker.py`. The checker reads every
node of a replica set over its own connections and gives one verdict. `load_acks` and
`lossless_and_phantom` are in `DbGuard.Harness.Workload`.

`Shown` is what the nodes would show at one instant. Each read is of another instant, so the
checker is a `Watch`. A read that raises ends it, and `main` then reports a run that did not
pass. `convergence` has no bound of its own. It takes the number of rounds to follow, and
`none` says that it has not returned by then.

The time stamps of the verdict, the rounding of `converge_s` and the limits of the lists
that are printed are left out.
-/

set_option autoImplicit false

namespace DbGuard.Harness

/-- What the nodes show at one instant: `(super_read_only, read_only)`, the error of a probing
INSERT, `gtid_executed`, the rows of the run, and the checker's clock. -/
structure Shown where
  readOnly : Node → Except String (Bool × Bool)
  probeInsert : Node → Except String (Option String)
  gtidExecuted : Node → Except String String
  rows : Node → Except String (Finset (Nat × Nat))
  clock : ℚ

/-- `GtidSet.parse(n.gtid_executed())`. -/
def Shown.gtids (n : Node) (w : Shown) : Except String GtidSet :=
  w.gtidExecuted n >>= fun text => (GtidText.ofText text).parse

/-- A program of the checker. -/
abbrev Checking (α : Type) := Watch Shown String α

open Watch (ask askAll loop)

/-! ### Single writer -/

/-- The verdict of `single_writer`. A probe is `true` if the INSERT was accepted. -/
structure SingleWriter where
  ok : Bool
  violations : Nat
  writable : List Node
  insertProbe : List (Node × Bool)
  unreachable : List Node

/-- The loop over the nodes, which gives the writable ones and the probes of the others. -/
def probeNodes : List Node → Checking (List Node × List (Node × Bool))
  | [] => pure ([], [])
  | n :: ns => do
    let flags ← ask (·.readOnly n)
    if !flags.1 && !flags.2 then
      let rest ← probeNodes ns
      pure (n :: rest.1, rest.2)
    else
      let err ← ask (·.probeInsert n)
      let rest ← probeNodes ns
      pure (rest.1, (n, err.isNone) :: rest.2)

/-- `single_writer`. -/
def singleWriter (nodes unreachable : List Node) : Checking SingleWriter := do
  let seen ← probeNodes nodes
  let accepted := (seen.2.filter (·.2)).length
  let violations := accepted + (seen.1.length - 1)
  pure
    { ok := seen.1.length = 1 && violations = 0
      violations := if seen.1 = [] then max violations 1 else violations
      writable := seen.1
      insertProbe := seen.2
      unreachable := unreachable.mergeSort (· ≤ ·) }

/-! ### Convergence -/

/-- The verdict of `convergence`. -/
structure Convergence where
  ok : Bool
  convergeS : Option ℚ
  primaryGtid : String
  missingOnReplica : List (Node × String) := []
  extraOnReplica : List (Node × String) := []
  diverged : List (Node × String) := []

/-- What is returned after a round that ended `elapsed` seconds after the start, if anything
is. -/
def conclude (timeout elapsed : ℚ) (target : GtidSet) (gtids : List (Node × GtidSet)) :
    Unit ⊕ Convergence :=
  let behind := gtids.filter (·.2 ≠ target)
  if behind = [] then
    .inr { ok := true, convergeS := some elapsed, primaryGtid := target.toText }
  else if timeout ≤ elapsed then
    .inr
      { ok := false
        convergeS := none
        primaryGtid := target.toText
        missingOnReplica := behind.map fun x => (x.1, (target \ x.2).toText)
        extraOnReplica := (gtids.filter fun x => !x.2.isSubset target).map fun x =>
          (x.1, (x.2 \ target).toText)
        diverged := behind.map fun x => (x.1, x.2.toText) }
  else .inl ()

/-- One round of `convergence`, which started at `t0`. -/
def compareSets (primary : Node) (replicas : List Node) (timeout t0 : ℚ) :
    Checking (Unit ⊕ Convergence) := do
  let target ← ask (·.gtids primary)
  let gtids ← askAll Shown.gtids replicas
  let now ← ask fun w => .ok w.clock
  pure (conclude timeout (now - t0) target (replicas.zip gtids))

/-- `convergence`. -/
def convergence (primary : Node) (replicas : List Node) (timeout : ℚ) (rounds : Nat) :
    Checking (Option Convergence) := do
  let t0 ← ask fun w => .ok w.clock
  loop (fun _ => compareSets primary replicas timeout t0) rounds ()

/-! ### The verdict -/

/-- What `check` returns. Without a single primary there is nothing in `loss`, `convergence`
and `rows`, and these properties have failed. -/
structure Verdict where
  nodes : List Node
  acked : Nat
  errored : Nat
  singleWriter : SingleWriter
  primary : Option Node
  convergence : Option Convergence := none
  rows : Option Nat := none
  loss : Option LossVerdict := none

/-- The four properties, `verdict["pass"]`. -/
def Verdict.pass (v : Verdict) : Bool :=
  v.singleWriter.ok && v.convergence.any (·.ok) &&
    v.loss.any fun l => l.lost = ∅ && l.phantom = ∅

/-- `sw["writable"][0] if len(sw["writable"]) == 1 else None`. -/
def onlyOne : List Node → Option Node
  | [n] => some n
  | _ => none

/-- `check`. -/
def check (acks : AckSets) (nodes unreachable : List Node) (timeout : ℚ) (rounds : Nat) :
    Checking (Option Verdict) := do
  let sw ← singleWriter nodes unreachable
  let verdict : Verdict :=
    { nodes := nodes ++ unreachable.mergeSort (· ≤ ·)
      acked := acks.acked.card
      errored := acks.errored.card
      singleWriter := sw
      primary := onlyOne sw.writable }
  match onlyOne sw.writable with
  | none => pure (some verdict)
  | some primary =>
    match ← convergence primary (nodes.filter (· ≠ primary)) timeout rounds with
    | none => pure none
    | some conv => do
      let rows ← ask (·.rows primary)
      pure (some
        { verdict with
          convergence := some conv
          rows := some rows.card
          loss := some (losslessAndPhantom acks rows) })

end DbGuard.Harness
