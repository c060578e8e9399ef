import DbGuard.Model

/-!
# `DbGuard.Selection`: failover step 3, choosing the replica to promote

`candidateProblem` and `choose` of `manager/selection.py`, both pure. The winner is the
candidate that holds the most transactions. Every other candidate has to hold a subset of
the winner's set, and otherwise nobody is promoted.

What the steps after it rely on is `choose_winner`: the winner is a candidate, and in
dbguard mode every candidate's set is included in the winner's.
-/

set_option autoImplicit false

namespace DbGuard

/-- `class Choice`. -/
structure Choice where
  winner : Option Node
  candidates : List Node
  excluded : List (Node × String) := []
  subsetOk : Bool := true
  diverged : Option String := none
deriving DecidableEq

/-- `"; ".join(f"{n} {why}" ...)`. -/
def Choice.excludedText (c : Choice) : String :=
  "; ".intercalate (c.excluded.map fun nw => nw.1 ++ " " ++ nw.2)

/-- Why the set must HALT, or none when there is a winner. -/
def Choice.haltReason (c : Choice) : Option String :=
  match c.diverged, c.winner with
  | some why, _ => some s!"replicas diverged: {why}"
  | none, none =>
    some ("no promotable replica: " ++
      (if c.excludedText = "" then "none configured" else c.excludedText))
  | none, some _ => none

/-- Why this node may not be promoted, or none if it may. -/
def candidateProblem (nv : NodeView) (mode : Mode) : Option String :=
  if !nv.reachable then some "agent unreachable"
  else if !nv.mysqldResponsive then some "mysqld not responsive"
  else if !nv.replica.configured then some "replication not configured"
  else match nv.replica.lastSqlError with
    | some e => some s!"SQL thread error: {e}"
    | none =>
      if nv.replica.sqlRunning = some .no ∧ mode = .dbguard then some "SQL thread stopped"
      else if mode = .dbguard ∧ nv.semisync.replicaEnabled = false then
        some "semi-sync replica was not enabled"
      else none

/-- A node without a problem answers and has replication configured. -/
theorem usable_of_candidateProblem {nv : NodeView} {mode : Mode}
    (h : candidateProblem nv mode = none) :
    nv.usable = true ∧ nv.replica.configured = true := by
  unfold candidateProblem at h
  split at h
  · cases h
  · split at h
    · cases h
    · split at h
      · cases h
      · simp_all [NodeView.usable]

/-- `excluded[name] = why` on a dict. -/
def exclude (d : List (Node × String)) (name : Node) (why : String) : List (Node × String) :=
  if name ∈ d.map Prod.fst then d.map fun nw => if nw.1 = name then (name, why) else nw
  else d ++ [(name, why)]

/-- A candidate with its place among the nodes. -/
abbrev Candidate := Nat × NodeView

/-- The nodes that may be promoted, with their places. -/
def admissible (nodes : List NodeView) (mode : Mode) (old : Option Node) : List Candidate :=
  (nodes.zipIdx.map Prod.swap).filter fun c =>
    some c.2.name ≠ old && (candidateProblem c.2 mode).isNone

/-- The nodes that may not, with the reason of each. -/
def excludedOf (nodes : List NodeView) (mode : Mode) (old : Option Node) :
    List (Node × String) :=
  nodes.foldl (fun d nv =>
    if some nv.name = old then d
    else match candidateProblem nv mode with
      | some why => exclude d nv.name why
      | none => d) []

/-- Python's order of tuples, for the keys of `min`. -/
def keyLt : List Int → List Int → Bool
  | [], [] => false
  | [], _ :: _ => true
  | _ :: _, [] => false
  | a :: as, b :: bs => a < b || (a == b && keyLt as bs)

/-- `min(l, key=key)`, the first of the least elements. -/
def firstMin {α : Type} (key : α → List Int) : List α → Option α
  | [] => none
  | c :: l =>
    match firstMin key l with
    | none => some c
    | some m => if keyLt (key m) (key c) then some m else some c

/-- The key of naive mode: the largest executed set, then the first place. -/
def naiveKey (c : Candidate) : List Int := [-c.2.gtidExecuted.count, c.1]

/-- The key of dbguard mode: the most transactions held, then the largest executed set,
then the first place. -/
def dkey (c : Candidate) : List Int := [-c.2.held.count, -c.2.gtidExecuted.count, c.1]

/-- What a candidate holds that the winner lacks, as text, none when it is nothing. -/
def divergence (w nv : NodeView) : Option String :=
  let extra := nv.held \ w.held
  let back := w.held \ nv.held
  if extra.isEmpty then none
  else
    let msg := s!"{nv.name} has {extra.count} transactions {w.name} lacks ({extra.toText})"
    if back.isEmpty then some msg
    else some (msg ++ s!" and {w.name} has {back.count} {nv.name} lacks ({back.toText})")

/-- `choose`. -/
def choose (nodes : List NodeView) (mode : Mode) (old : Option Node) : Choice :=
  let cands := admissible nodes mode old
  let names := cands.map (·.2.name)
  let excluded := excludedOf nodes mode old
  match firstMin (if mode = .naive then naiveKey else dkey) cands with
  | none => { winner := none, candidates := [], excluded }
  | some w =>
    let bad := (cands.filter fun c => c.1 ≠ w.1).filterMap fun c => divergence w.2 c.2
    if mode = .naive ∨ bad = [] then
      { winner := some w.2.name, candidates := names, excluded }
    else
      { winner := none, candidates := names, excluded, subsetOk := false
        diverged := some ("; ".intercalate bad) }

/-! ### What a choice promises -/

/-- A candidate is a node of the list, not the old one, and has no problem. -/
theorem mem_admissible {nodes : List NodeView} {mode : Mode} {old : Option Node}
    {c : Candidate} (h : c ∈ admissible nodes mode old) :
    nodes[c.1]? = some c.2 ∧ some c.2.name ≠ old ∧ candidateProblem c.2 mode = none := by
  obtain ⟨hmap, hok⟩ := List.mem_filter.mp h
  obtain ⟨ci, hci, rfl⟩ := List.mem_map.mp hmap
  simp only [Bool.and_eq_true, decide_eq_true_eq, Option.isNone_iff_eq_none] at hok
  exact ⟨List.mem_zipIdx_iff_getElem?.mp hci, hok⟩

/-- A node that may be promoted is among the candidates. -/
theorem admissible_of_mem {nodes : List NodeView} {mode : Mode} {old : Option Node}
    {nv : NodeView} (h : nv ∈ nodes) (hold : some nv.name ≠ old)
    (hok : candidateProblem nv mode = none) : ∃ i, (i, nv) ∈ admissible nodes mode old := by
  obtain ⟨i, hi, rfl⟩ := List.mem_iff_getElem.mp h
  refine ⟨i, List.mem_filter.mpr ⟨List.mem_map.mpr ⟨(nodes[i], i), ?_, rfl⟩, ?_⟩⟩
  · exact List.mem_zipIdx_iff_getElem?.mpr (List.getElem?_eq_getElem hi)
  · simp [hold, hok]

/-- The first minimum is a member. -/
theorem firstMin_mem {α : Type} {key : α → List Int} {l : List α} {m : α}
    (h : firstMin key l = some m) : m ∈ l := by
  induction l generalizing m with
  | nil => cases h
  | cons c l ih =>
      rw [firstMin] at h
      split at h
      · cases h
        exact List.mem_cons_self
      · rename_i m' hm'
        split at h
        · cases h
          exact List.mem_cons_of_mem _ (ih hm')
        · cases h
          exact List.mem_cons_self

/-- The winner is a candidate. -/
theorem winner_mem_candidates {nodes : List NodeView} {mode : Mode} {old : Option Node}
    {W : Node} (h : (choose nodes mode old).winner = some W) :
    W ∈ (choose nodes mode old).candidates := by
  unfold choose at h ⊢
  simp only at h ⊢
  split at h
  · cases h
  · rename_i w hmin
    split at h
    · rename_i hgood
      cases h
      simp only [if_pos hgood]
      exact List.mem_map.mpr ⟨w, firstMin_mem hmin, rfl⟩
    · cases h

/-- A candidate without divergence holds nothing that the winner lacks. -/
theorem divergence_eq_none {w nv : NodeView} (h : divergence w nv = none) :
    nv.held ⊆ w.held := by
  unfold divergence at h
  simp only at h
  split at h
  · rename_i hempty
    intro g hg
    by_contra hno
    exact (GtidSet.isEmpty_iff _).mp hempty g ((GtidSet.mem_subtract _ _ g).mpr ⟨hg, hno⟩)
  · split at h <;> cases h

/-- The winner is one of the nodes, not the old primary, and may be promoted. -/
theorem winner_mem {nodes : List NodeView} {mode : Mode} {old : Option Node} {W : Node}
    (h : (choose nodes mode old).winner = some W) :
    ∃ c ∈ admissible nodes mode old, c.2.name = W ∧ c.2 ∈ nodes ∧ some W ≠ old ∧
      candidateProblem c.2 mode = none ∧
      (mode = .dbguard →
        (((admissible nodes mode old).filter fun c' => c'.1 ≠ c.1).filterMap
          fun c' => divergence c.2 c'.2) = []) := by
  unfold choose at h
  simp only at h
  split at h
  · cases h
  · rename_i w hmin
    split at h
    · rename_i hbad
      simp only [Option.some.injEq] at h
      obtain ⟨hw, hold, hok⟩ := mem_admissible (firstMin_mem hmin)
      refine ⟨w, firstMin_mem hmin, h, List.mem_of_getElem? hw, h ▸ hold, hok, ?_⟩
      rintro rfl
      exact hbad.resolve_left (by decide)
    · cases h

/-- The winner of a dbguard choice is a node that may be promoted, and it holds everything
that any node that may be promoted holds. -/
theorem choose_winner {nodes : List NodeView} {old : Option Node} {W : Node}
    (h : (choose nodes .dbguard old).winner = some W) :
    ∃ w ∈ nodes, w.name = W ∧ some W ≠ old ∧ candidateProblem w .dbguard = none ∧
      ∀ nv ∈ nodes, some nv.name ≠ old → candidateProblem nv .dbguard = none →
        nv.held ⊆ w.held := by
  obtain ⟨w, hw, hname, hmem, hold, hok, hbad⟩ := winner_mem h
  refine ⟨w.2, hmem, hname, hold, hok, fun nv hnv hne hnvok => ?_⟩
  obtain ⟨i, hi⟩ := admissible_of_mem hnv hne hnvok
  by_cases hiw : i = w.1
  · -- the same place is the same view
    have hnvi := (mem_admissible hi).1
    simp only [hiw, (mem_admissible hw).1, Option.some.injEq] at hnvi
    exact hnvi ▸ GtidSet.Subset.refl _
  · have hother : (i, nv) ∈ (admissible nodes .dbguard old).filter fun c' => c'.1 ≠ w.1 :=
      List.mem_filter.mpr ⟨hi, by simpa using hiw⟩
    exact divergence_eq_none (List.filterMap_eq_nil_iff.mp (hbad rfl) (i, nv) hother)

/-- A choice without a winner has a reason to HALT, and one with a winner has none. -/
theorem haltReason_isSome {nodes : List NodeView} {mode : Mode} {old : Option Node} :
    (choose nodes mode old).haltReason.isSome = (choose nodes mode old).winner.isNone := by
  unfold choose
  simp only
  split
  · rfl
  · split <;> rfl

/-- The candidates are the names of the nodes that may be promoted. -/
theorem mem_candidates {nodes : List NodeView} {mode : Mode} {old : Option Node} {n : Node}
    (h : n ∈ (choose nodes mode old).candidates) :
    ∃ nv ∈ nodes, nv.name = n ∧ some n ≠ old ∧ candidateProblem nv mode = none := by
  have hmem : n ∈ (admissible nodes mode old).map (·.2.name) := by
    unfold choose at h
    simp only at h
    split at h
    · exact absurd h List.not_mem_nil
    · split at h <;> exact h
  obtain ⟨c, hc, rfl⟩ := List.mem_map.mp hmem
  obtain ⟨hget, hold, hok⟩ := mem_admissible hc
  exact ⟨c.2, List.mem_of_getElem? hget, rfl, hold, hok⟩

end DbGuard
