import DbGuard.Rejoin

/-!
# `DbGuard.Bootstrap`: finding the primary

`manager/bootstrap.py`, called by a tick while the set has no primary, and on every tick for
the check whether the whole set was restarted. Exactly one writable member is the primary,
more than one HALTs the set. Members that are all read-only, unreplicated and identical are
a new set. When every node booted read-only and one member holds every transaction any other
holds, it is promoted in place.
-/

set_option autoImplicit false

namespace DbGuard

/-- What `cold_start_choice` returns. -/
inductive ColdStart
  | promote (n : Node)
  | halt (reason : String)
  | no
deriving DecidableEq, Repr

/-- The members among the views, in the members' order. -/
def memberViews (views : Views) (members : List Node) : Views :=
  { views with keys := (members.filter (· ∈ views.keys)).eraseDups }

/-- `cold_start_choice`: is this a whole-set restart, and whom to promote in place? -/
def coldStartChoice (views : Views) (members : List Node) (believed : Option Node) :
    ColdStart :=
  let reach := (memberViews views members).keys.filter fun m => (views.view m).usable
  if reach.any fun m => (views.view m).writable then .no
  else
    let coldPrimary := fun m => !(views.view m).fenced && (views.view m).superReadOnly == some true
    let restarted := match believed with
      | some b => b ∈ reach && coldPrimary b
      | none => (reach.any fun m => (views.view m).replica.configured) &&
          members.length ≤ reach.length
    if !restarted then .no
    else
      let everything := reach.foldl (fun e m => e ∪ (views.view m).held) .empty
      let cands := reach.filter coldPrimary
      let full := cands.filter fun m => everything.isSubset (views.view m).gtidExecuted
      match believed.filter (· ∈ full),
          firstMin (fun m => [-(views.view m).gtidExecuted.count, members.idxOf m]) full with
      | some b, _ => .promote b
      | none, some m => .promote m
      | none, none =>
        let detail := "; ".intercalate (cands.map fun m =>
          let lacks := (everything \ (views.view m).gtidExecuted).count
          s!"{m} lacks {lacks}")
        let detail := if detail = "" then "no unfenced read-only member" else detail
        .halt s!"cold start: every node is read-only but no node holds every transaction the others hold ({detail}); decide which data to keep"

/-- `if movers: await repoint_all(...)`. -/
def repointMovers (movers : List Node) (src : Node) : M Unit :=
  if movers = [] then pure ()
  else do
    let _ ← repointAll movers src
    pure ()

/-- `cold_start`: promote `src` in place after a whole-set restart. -/
def coldStart (src : Node) (views : Views) : M Unit := do
  let s ← ctl
  edit (.enter .coldStart)
  let movers := s.members.filter fun m => m ≠ src &&
    (views.get? m).any fun v => v.usable && v.replica.sourceHost != some src
  repointMovers movers src
  match ← await (.promote src) with
  | .error _ => edit (.setPrimary src)
  | .ok body =>
    let s ← ctl
    edit (.setPrimary src)
    let reps := ", ".intercalate
      (views.keys.filter fun n => n ≠ src && (views.view n).usable)
    let others := if reps = "" then "no other reachable node" else reps
    event
      { type := .coldStart, oldPrimary := some (s.primary.getD src), newPrimary := some src
        watermarkGtid := body.gtidExecuted
        note := some s!"no node was writable (whole-set restart), {src} holds every transaction of {others}, promoted it in place" }

/-- `bootstrap`: promote `nodes[0]` of a brand new set and repoint the rest to it. -/
def bootstrap (cfg : Config) : M Unit := do
  let first := cfg.nodes.head cfg.nodes_ne
  let s ← ctl
  edit (.enter .bootstrap)
  let rest := s.members.filter (· ≠ first)
  match ← await (.promote first) with
  | .error e =>
    let text := e.text
    edit (.halt s!"bootstrap: promote of {first} failed: {text}")
  | .ok body =>
    edit (.setPrimary first)
    let ok ← repointAll rest first
    let names := ", ".intercalate ok
    event
      { type := .bootstrap, newPrimary := some first, watermarkGtid := body.gtidExecuted
        note := some s!"new set, promoted {first}, repointed {names}" }

/-- `Counter.most_common(1)`: the first of the most frequent elements, with its count. -/
def mostCommon (l : List Node) : Option (Node × Nat) :=
  (firstMin (fun n => [-(l.count n : Int)]) l.eraseDups).map fun n => (n, l.count n)

/-- The source that more than half of the other members replicate from. -/
def agreedSource (views : Views) (members : List Node) : Option Node :=
  let sources := views.keys.filterMap fun n =>
    let v := views.view n
    if v.usable && v.replica.configured then v.replica.sourceHost.filter (· ∈ members)
    else none
  (mostCommon sources).bind fun s0 =>
    if members.length - 1 < s0.2 * 2 then some s0.1 else none

/-- `discover`: settle on a primary, or wait. -/
def discover (cfg : Config) (ob : Observation) : M Unit := do
  let s ← ctl
  let views := memberViews ob.nodes s.members
  let writable := views.keys.filter fun n => (views.view n).writable
  match writable with
  | [n] => edit (.setPrimary n)
  | _ :: _ :: _ =>
    let names := ", ".intercalate writable
    edit (.halt s!"more than one writable node: {names}; decide which writes to keep, fence the others, then resume")
  | [] =>
    let usable := views.keys.filter fun n => (views.view n).usable
    let vs := s.members.map views.view
    let fresh := vs.all fun v => v.superReadOnly ≠ some false && !v.replica.configured
    let same := (vs.map (·.gtidExecuted)).dedup.length = 1
    if usable.length = s.members.length ∧ fresh = true ∧ same then
      bootstrap cfg
    else
      let src := agreedSource views s.members
      match coldStartChoice views s.members src, src with
      | .halt reason, _ => edit (.halt reason)
      | .promote node, _ => coldStart node views
      | .no, some src => edit (.setPrimary src)
      | .no, none => pure ()

end DbGuard
