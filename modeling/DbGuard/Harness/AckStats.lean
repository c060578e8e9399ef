import Mathlib.Algebra.Order.Field.Rat
import Mathlib.Data.List.Sort
import Mathlib.Data.Rat.Floor

/-!
# `DbGuard.Harness.AckStats`: the numbers of a chaos run

`analyze_acks` of `harness/chaos.py`: the rows of the workload's log, the acknowledged writes
and the errors, are made into the failover time, the stall and the latencies of a run. The
times are exact rational numbers.
-/

set_option autoImplicit false

namespace DbGuard.Harness

/-- A row of an acknowledged write. -/
structure OkRow (C : Type) where
  client : C
  tOk : ℚ
  tStart : Option ℚ := none
  latencyMs : Option ℚ := none

/-- A row of an error. -/
structure ErrRow (C : Type) where
  client : C
  tErr : Option ℚ
  error : String

/-- `class AckStats`. -/
structure AckStats where
  acked : Nat := 0
  errors : Nat := 0
  errorsAfterInject : Nat := 0
  firstErrorTs : Option ℚ := none
  firstOkAfterTs : Option ℚ := none
  failoverS : Option ℚ := none
  stallS : Option ℚ := none
  stallStart : Option ℚ := none
  stallEnd : Option ℚ := none
  commitP50Ms : Option ℚ := none
  commitP99Ms : Option ℚ := none
  writesPerS : Option ℚ := none
  firstTs : Option ℚ := none
  lastTs : Option ℚ := none
  reconnectGapP50S : Option ℚ := none
  reconnectGaps : Nat := 0

/-- `sorted`. -/
def sorted (xs : List ℚ) : List ℚ := xs.mergeSort (· ≤ ·)

/-- `nearest_rank`. -/
def nearestRank (xs : List ℚ) (q : ℚ) : Option ℚ :=
  let xs := sorted xs
  if xs = [] then none else xs[max 1 ⌈q / 100 * xs.length⌉.toNat - 1]?

section
variable {C : Type}

/-- `ok_start`. -/
def okStart (r : OkRow C) : ℚ := r.tStart.getD (r.tOk - r.latencyMs.getD 0 / 1000)

/-- The times of the errors since shortly before the injection, in order. -/
def errorsAfter (errs : List (ErrRow C)) (inject : ℚ) : List ℚ :=
  (sorted (errs.filterMap (·.tErr))).filter fun t => inject - 1 / 20 ≤ t

/-- The times of the acknowledged writes whose request started at `since` or later. -/
def okSince (oks : List (OkRow C)) (since : ℚ) : List ℚ :=
  (oks.filter fun r => since ≤ okStart r).map (·.tOk)

/-- The acknowledged writes between which the gaps are: the last one before the window, and
those in it. -/
def gapPoints (oks : List (OkRow C)) (inject : ℚ) (windowEnd : Option ℚ) : List ℚ :=
  let lo := inject - 1
  let tOk := sorted (oks.map (·.tOk))
  let before := tOk.filter (· < lo)
  before.getLast?.toList ++ tOk.filter fun t => lo ≤ t && windowEnd.all (t ≤ ·)

/-- The loop body of the search for the largest gap. `best` has its length and its ends. -/
def widen (lo : ℚ) (best : ℚ × Option (ℚ × ℚ)) (p : ℚ × ℚ) : ℚ × Option (ℚ × ℚ) :=
  if best.1 < p.2 - p.1 ∧ lo ≤ p.2 then (p.2 - p.1, some p) else best

/-- The largest gap. -/
def bestGap (oks : List (OkRow C)) (inject : ℚ) (windowEnd : Option ℚ) : Option (ℚ × ℚ) :=
  let pts := gapPoints oks inject windowEnd
  ((pts.zip pts.tail).foldl (widen (inject - 1)) (0, none)).2

variable [DecidableEq C]

/-- `first_err_by_client`, in the order of the clients' first rows. -/
def firstErrByClient (errs : List (ErrRow C)) (inject : ℚ) : List (C × ℚ) :=
  errs.foldl (fun acc r =>
    match r.tErr with
    | none => acc
    | some t =>
      if t < inject - 1 / 20 ∨ r.error = "in-flight at shutdown" then acc
      else if acc.any (·.1 = r.client) then
        acc.map fun x => if x.1 = r.client then (x.1, min x.2 t) else x
      else acc ++ [(r.client, t)]) []

/-- The gap of each client that reconnected. -/
def reconnectGaps (oks : List (OkRow C)) (errs : List (ErrRow C)) (inject : ℚ) : List ℚ :=
  (firstErrByClient errs inject).filterMap fun x =>
    let cok := oks.filter (·.client = x.1)
    let before := (cok.map (·.tOk)).filter (· ≤ x.2)
    (okSince cok x.2).min?.bind fun after => before.max?.map fun last => after - last

/-- `analyze_acks`. -/
def analyzeAcks (oks : List (OkRow C)) (errs : List (ErrRow C)) (injectTs : Option ℚ)
    (windowEnd : Option ℚ) (stallThresholdS : ℚ) : AckStats :=
  let tOk := sorted (oks.map (·.tOk))
  let lat := oks.filterMap (·.latencyMs)
  let span := (tOk.getLast?.getD 0) - (tOk.head?.getD 0)
  let st : AckStats :=
    { acked := oks.length
      errors := errs.length
      firstTs := tOk.head?
      lastTs := tOk.getLast?
      commitP50Ms := if tOk = [] then none else nearestRank lat 50
      commitP99Ms := if tOk = [] then none else nearestRank lat 99
      writesPerS := if 0 < span then some (tOk.length / span) else none }
  match injectTs with
  | none => st
  | some inject =>
    let after := errorsAfter errs inject
    let firstOk := after.head?.bind fun e => (okSince oks e).min?
    let gap := bestGap oks inject windowEnd
    let gaps := reconnectGaps oks errs inject
    let st :=
      { st with
        errorsAfterInject := after.length
        firstErrorTs := after.head?
        firstOkAfterTs := firstOk
        stallS := gap.map fun g => g.2 - g.1
        stallStart := gap.map (·.1)
        stallEnd := gap.map (·.2)
        reconnectGaps := gaps.length
        reconnectGapP50S := nearestRank gaps 50 }
    match firstOk with
    | some ok =>
      let prev := tOk.filter fun t => st.firstErrorTs.any (t ≤ ·)
      { st with
        failoverS := some (ok - inject)
        stallS := (prev.getLast?.map fun p => max (st.stallS.getD 0) (ok - p)).or st.stallS }
    | none =>
      match gap with
      | some g =>
        if stallThresholdS < g.2 - g.1 ∧ inject < g.2 then
          { st with failoverS := some (g.2 - inject) }
        else st
      | none => st

end

end DbGuard.Harness
