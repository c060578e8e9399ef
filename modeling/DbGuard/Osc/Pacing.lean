import DbGuard.Double
import DbGuard.Watch

/-!
# `DbGuard.Osc.Pacing`: how fast the online copy goes

`ChunkSizer` of `osc/chunks.py`, which says how many rows the next chunk has, and `Throttle` of
`osc/runner.py`, which lets it begin. `Runner._copy` waits for the throttle before each chunk
and sizes the next one from the time that this one took.

`Load` is what can be read of the server and the manager at one instant. The throttle reads it
over and over while it waits, so it is a `Watch`, and the chunks between two waits are any
number of instants. The sizer computes in doubles, as the source does, and the throttle with
exact seconds. The log lines, the reason of the last pause, which only the log reads, and the
`tick` that writes the progress row are left out.
-/

set_option autoImplicit false

namespace DbGuard.Osc

/-! ### The size of a chunk -/

/-- `class ChunkSizer`. -/
structure ChunkSizer where
  size : Int := 1000
  targetS : ℚ := Double.round (1 / 10)
  minSize : Int := 10
  maxSize : Int := 100000
  adaptive : Bool := true

/-- `ChunkSizer.update`. The sizes of an adaptive sizer are not negative, so `int` is the
floor. -/
def ChunkSizer.update (c : ChunkSizer) (elapsedS : ℚ) (rows : Int) : ChunkSizer :=
  let size := Double.ofInt c.size
  if !c.adaptive || (rows : ℚ) < Double.mul size (1 / 2) then c
  else
    let factor : ℚ :=
      if elapsedS ≤ 0 then 2 else min 2 (max (1 / 2) (Double.div c.targetS elapsedS))
    { c with size := ⌊min (c.maxSize : ℚ) (max (c.minSize : ℚ) (Double.mul size factor))⌋ }

/-! ### The throttle -/

/-- What the throttle can read at one instant: `Threads_running`, which fails when the server
does, the answer of `lag_fn`, and the clock. -/
structure Load where
  threadsRunning : Except String Int
  lagFn : Except String (Option ℚ)
  clock : ℚ

/-- `class Throttle`. `hasLagFn` is `lag_fn is not None`. -/
structure Throttle where
  maxThreads : Int
  maxLagS : ℚ
  hasLagFn : Bool
  lagEveryS : ℚ := 1
  lagAt : ℚ := -1000000000
  lagS : Option ℚ := some 0
  throttledS : ℚ := 0
  waitStart : Option ℚ := none

/-- The throttle that `_copy` makes. -/
def Throttle.new (maxThreads : Int) (maxLagS : ℚ) (hasLagFn : Bool) : Throttle where
  maxThreads := maxThreads
  maxLagS := maxLagS
  hasLagFn := hasLagFn

/-- Why the copy must pause. -/
inductive Pause
  | threads (running : Int)
  | lagUnknown
  | lag (seconds : ℚ)

open Watch (ask loop)

namespace Throttle

/-- `self.clock()`. -/
def now : Watch Load String ℚ := ask fun w => .ok w.clock

/-- `self.lag_fn()`, where an exception is an unknown lag. -/
def askLag : Watch Load String (Option ℚ) := ask fun w => .ok (w.lagFn.toOption.getD none)

/-- `Throttle.lag`. -/
def lag (t : Throttle) : Watch Load String (Option ℚ × Throttle) :=
  if t.hasLagFn then do
    let now ← now
    if t.lagEveryS ≤ now - t.lagAt then do
      let lag ← askLag
      pure (lag, { t with lagS := lag, lagAt := now })
    else pure (t.lagS, t)
  else pure (some 0, t)

/-- `Throttle.reason`. -/
def reason (t : Throttle) : Watch Load String (Option Pause × Throttle) := do
  let tr ← ask (·.threadsRunning)
  if t.maxThreads < tr then pure (some (.threads tr), t)
  else do
    let (lag, t) ← t.lag
    match lag with
    | none => pure (some .lagUnknown, t)
    | some l => pure (if t.maxLagS < l then some (.lag l) else none, t)

/-- One round of `wait`. -/
def look (t : Throttle) : Watch Load String (Throttle ⊕ Throttle) := do
  let (why, t) ← t.reason
  pure (if why.isSome then .inl t else .inr t)

/-- `Throttle.wait`, with the seconds that it returns. -/
def wait (t : Throttle) (rounds : Nat) : Watch Load String (Option (ℚ × Throttle)) := do
  let start ← now
  match ← loop look rounds { t with waitStart := some start } with
  | none => pure none
  | some t => do
    let stop ← now
    pure (some (stop - start,
      { t with throttledS := t.throttledS + (stop - start), waitStart := none }))

/-- `Throttle.total_s`. -/
def totalS (t : Throttle) (clock : ℚ) : ℚ :=
  t.throttledS + t.waitStart.elim 0 fun start => clock - start

end Throttle

end DbGuard.Osc
