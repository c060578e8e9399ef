import Mathlib.Data.List.Lex
import DbGuard.Selection

/-!
# `DbGuard.Proofs.Choice`: the winner is the greatest candidate

`choose` ranks by the number of transactions and compares by inclusion. The two fit because
counts are exact: a candidate that holds the most transactions and does not hold the greatest
set has somebody beside it. `choose_ranked` says that in dbguard mode there is a winner if and
only if one admissible candidate holds all that the others hold, which candidate it is, and
that the order of the nodes does not matter for what it holds.
-/

set_option autoImplicit false

namespace DbGuard

/-! ### The first of the least -/

/-- Python's order of tuples is the lexicographic order. -/
theorem keyLt_iff (as bs : List Int) : keyLt as bs = true ↔ as < bs := by
  induction as generalizing bs with
  | nil =>
      cases bs with
      | nil => simp [keyLt]
      | cons b bs => simp [keyLt]
  | cons a as ih =>
      cases bs with
      | nil => simp [keyLt]
      | cons b bs =>
          rw [keyLt, List.cons_lt_cons_iff, Bool.or_eq_true, Bool.and_eq_true, ih,
            decide_eq_true_eq, beq_iff_eq]

/-- Only an empty list has no minimum. -/
theorem firstMin_eq_none {α : Type} {key : α → List Int} {l : List α} :
    firstMin key l = none ↔ l = [] := by
  cases l with
  | nil => simp [firstMin]
  | cons c l =>
      rw [firstMin]
      split
      · simp
      · split <;> simp

/-- No key is below that of the minimum. -/
theorem firstMin_le {α : Type} {key : α → List Int} {l : List α} {m : α}
    (h : firstMin key l = some m) : ∀ c ∈ l, key m ≤ key c := by
  induction l generalizing m with
  | nil => cases h
  | cons c l ih =>
      intro c' hc'
      rw [firstMin] at h
      cases hmin : firstMin key l with
      | none =>
          rw [hmin] at h
          cases h
          rw [firstMin_eq_none.mp hmin, List.mem_singleton] at hc'
          rw [hc']
      | some m' =>
          rw [hmin] at h
          simp only at h
          split at h
          · rename_i hlt
            cases h
            rcases List.mem_cons.mp hc' with rfl | hc'
            · exact le_of_lt ((keyLt_iff _ _).mp hlt)
            · exact ih hmin c' hc'
          · rename_i hlt
            cases h
            rw [keyLt_iff, not_lt] at hlt
            rcases List.mem_cons.mp hc' with rfl | hc'
            · exact le_refl _
            · exact le_trans hlt (ih hmin c' hc')

/-- The key of the winner is at most that of each candidate. -/
theorem dkey_le_iff (w c : Candidate) : dkey w ≤ dkey c ↔
    c.2.held.count < w.2.held.count ∨ (c.2.held.count = w.2.held.count ∧
      (c.2.gtidExecuted.count < w.2.gtidExecuted.count ∨
        (c.2.gtidExecuted.count = w.2.gtidExecuted.count ∧ w.1 ≤ c.1))) := by
  rw [dkey, dkey, ← not_lt, List.cons_lt_cons_iff, List.cons_lt_cons_iff,
    List.cons_lt_cons_iff]
  have hnil : ¬ ([] : List Int) < [] := lt_irrefl _
  simp only [hnil, and_false, or_false]
  omega

/-! ### The winner -/

/-- A node that may be promoted. -/
def Admissible (nodes : List NodeView) (old : Option Node) (nv : NodeView) : Prop :=
  nv ∈ nodes ∧ some nv.name ≠ old ∧ candidateProblem nv .dbguard = none

/-- The node at place `i` may be promoted and holds all that the others hold, the executed
set is the largest among those that hold as much, and the place is the first among those
still tied. -/
structure Wins (nodes : List NodeView) (old : Option Node) (i : Nat) (w : NodeView) : Prop where
  place : nodes[i]? = some w
  admissible : Admissible nodes old w
  greatest : ∀ nv, Admissible nodes old nv → nv.held ⊆ w.held
  executed : ∀ nv, Admissible nodes old nv → nv.held = w.held →
    nv.gtidExecuted.count ≤ w.gtidExecuted.count
  first : ∀ j nv, nodes[j]? = some nv → Admissible nodes old nv → nv.held = w.held →
    nv.gtidExecuted.count = w.gtidExecuted.count → i ≤ j

/-- A candidate stands in the list and is admissible. -/
theorem mem_admissible_iff (nodes : List NodeView) (old : Option Node) (i : Nat)
    (nv : NodeView) : (i, nv) ∈ admissible nodes .dbguard old ↔
      nodes[i]? = some nv ∧ Admissible nodes old nv := by
  constructor
  · intro h
    obtain ⟨hget, hold, hok⟩ := mem_admissible h
    exact ⟨hget, List.mem_of_getElem? hget, hold, hok⟩
  · rintro ⟨hget, -, hold, hok⟩
    refine List.mem_filter.mpr ⟨List.mem_map.mpr ⟨(nv, i), ?_, rfl⟩, ?_⟩
    · exact List.mem_zipIdx_iff_getElem?.mpr hget
    · simp [hold, hok]

/-- There is no divergence if and only if nothing is lost. -/
theorem divergence_eq_none_iff (w nv : NodeView) :
    divergence w nv = none ↔ nv.held ⊆ w.held := by
  constructor
  · exact divergence_eq_none
  · intro h
    have hempty : (nv.held \ w.held).isEmpty = true := by
      rw [GtidSet.isEmpty_iff]
      intro g hg
      obtain ⟨hin, hout⟩ := (GtidSet.mem_subtract _ _ g).mp hg
      exact hout (h g hin)
    rw [divergence]
    exact if_pos hempty

/-- A winner is unique. -/
theorem Wins.unique {nodes : List NodeView} {old : Option Node} {i j : Nat} {w w' : NodeView}
    (h : Wins nodes old i w) (h' : Wins nodes old j w') : i = j ∧ w = w' := by
  have hheld : w.held = w'.held :=
    GtidSet.Subset.antisymm (h'.greatest w h.admissible) (h.greatest w' h'.admissible)
  have hle := h'.executed w h.admissible hheld
  have hge := h.executed w' h'.admissible hheld.symm
  have hcount : w.gtidExecuted.count = w'.gtidExecuted.count := le_antisymm hle hge
  have hij := h.first j w' h'.place h'.admissible hheld.symm hcount.symm
  have hji := h'.first i w h.place h.admissible hheld hcount
  have heq : i = j := le_antisymm hij hji
  have hplace := h.place
  rw [heq, h'.place] at hplace
  exact ⟨heq, (Option.some.inj hplace).symm⟩

section
variable {nodes : List NodeView} {old : Option Node}

/-- The candidate with the least key wins if it holds all that the others hold. -/
theorem wins_of_firstMin {c : Candidate}
    (hmin : firstMin dkey (admissible nodes .dbguard old) = some c)
    (hgreatest : ∀ nv, Admissible nodes old nv → nv.held ⊆ c.2.held) :
    Wins nodes old c.1 c.2 := by
  obtain ⟨hplace, hadm⟩ := (mem_admissible_iff nodes old c.1 c.2).mp (firstMin_mem hmin)
  have hkey : ∀ j nv, nodes[j]? = some nv → Admissible nodes old nv →
      dkey c ≤ dkey (j, nv) := fun j nv hj hnv =>
    firstMin_le hmin (j, nv) ((mem_admissible_iff nodes old j nv).mpr ⟨hj, hnv⟩)
  refine ⟨hplace, hadm, hgreatest, fun nv hnv hheld => ?_, fun j nv hj hnv hheld hexec => ?_⟩
  · obtain ⟨j, hj⟩ := List.getElem?_of_mem hnv.1
    have hle := (dkey_le_iff c (j, nv)).mp (hkey j nv hj hnv)
    simp only [hheld] at hle
    omega
  · have hle := (dkey_le_iff c (j, nv)).mp (hkey j nv hj hnv)
    simp only [hheld] at hle
    omega

/-- The candidate with the least key holds the greatest set, if there is one. -/
theorem greatest_of_firstMin {c : Candidate} {w : NodeView}
    (hmin : firstMin dkey (admissible nodes .dbguard old) = some c)
    (hw : Admissible nodes old w) (hgreatest : ∀ nv, Admissible nodes old nv → nv.held ⊆ w.held) :
    ∀ nv, Admissible nodes old nv → nv.held ⊆ c.2.held := by
  obtain ⟨-, hadm⟩ := (mem_admissible_iff nodes old c.1 c.2).mp (firstMin_mem hmin)
  obtain ⟨j, hj⟩ := List.getElem?_of_mem hw.1
  have hle := (dkey_le_iff c (j, w)).mp
    (firstMin_le hmin (j, w) ((mem_admissible_iff nodes old j w).mpr ⟨hj, hw⟩))
  -- It holds at least as many transactions as the greatest set, and is included in it.
  have hcount : w.held.count ≤ c.2.held.count := by
    simp only at hle
    omega
  have heq : c.2.held = w.held := GtidSet.eq_of_subset_of_count_le (hgreatest c.2 hadm) hcount
  rw [heq]
  exact hgreatest

/-- What `choose` does in dbguard mode, in terms of the least key. -/
theorem choose_eq_some_iff (W : Node) : (choose nodes .dbguard old).winner = some W ↔
    ∃ c, firstMin dkey (admissible nodes .dbguard old) = some c ∧ c.2.name = W ∧
      ∀ nv, Admissible nodes old nv → nv.held ⊆ c.2.held := by
  -- No candidate diverges from the first one exactly when all of them are included in it.
  have hbad : ∀ c, firstMin dkey (admissible nodes .dbguard old) = some c →
      ((((admissible nodes .dbguard old).filter fun c' => c'.1 ≠ c.1).filterMap
        fun c' => divergence c.2 c'.2) = [] ↔
          ∀ nv, Admissible nodes old nv → nv.held ⊆ c.2.held) := by
    intro c hmin
    obtain ⟨hplace, -⟩ := (mem_admissible_iff nodes old c.1 c.2).mp (firstMin_mem hmin)
    rw [List.filterMap_eq_nil_iff]
    constructor
    · intro h nv hnv
      obtain ⟨j, hj⟩ := List.getElem?_of_mem hnv.1
      -- The first one itself is included in itself.
      by_cases hjc : j = c.1
      · rw [hjc, hplace] at hj
        rw [Option.some.inj hj]
        exact GtidSet.Subset.refl _
      · have hmem : (j, nv) ∈ (admissible nodes .dbguard old).filter fun c' => c'.1 ≠ c.1 :=
          List.mem_filter.mpr
            ⟨(mem_admissible_iff nodes old j nv).mpr ⟨hj, hnv⟩, by simpa using hjc⟩
        have hnone : divergence c.2 nv = none := h (j, nv) hmem
        exact (divergence_eq_none_iff c.2 nv).mp hnone
    -- Every other candidate is included, and so does not diverge.
    · intro h c' hc'
      obtain ⟨-, hc⟩ := (mem_admissible_iff nodes old c'.1 c'.2).mp (List.mem_filter.mp hc').1
      exact (divergence_eq_none_iff c.2 c'.2).mpr (h c'.2 hc)
  have hmode : (if Mode.dbguard = .naive then naiveKey else dkey) = dkey := if_neg (by decide)
  unfold choose
  simp only [hmode]
  cases hmin : firstMin dkey (admissible nodes .dbguard old) with
  -- Nobody is admissible.
  | none => simp
  -- The winner stands unless some candidate diverges from it.
  | some c =>
      simp only [reduceCtorEq, false_or, Option.some.injEq, exists_eq_left']
      split
      · rename_i hnone
        have hgreatest := (hbad c hmin).mp hnone
        simpa using fun _ => hgreatest
      · rename_i hsome
        have hnot := fun h => hsome ((hbad c hmin).mpr h)
        simpa using fun _ => hnot

/-- The winner of `choose` is the one that the ranking describes. -/
theorem winner_iff_wins (W : Node) : (choose nodes .dbguard old).winner = some W ↔
    ∃ i w, Wins nodes old i w ∧ w.name = W := by
  rw [choose_eq_some_iff]
  constructor
  · rintro ⟨c, hmin, hname, hgreatest⟩
    exact ⟨c.1, c.2, wins_of_firstMin hmin hgreatest, hname⟩
  · rintro ⟨i, w, hwins, hname⟩
    cases hmin : firstMin dkey (admissible nodes .dbguard old) with
    | none =>
        have hmem := (mem_admissible_iff nodes old i w).mpr ⟨hwins.place, hwins.admissible⟩
        rw [firstMin_eq_none.mp hmin] at hmem
        cases hmem
    | some c =>
        have hgreatest := greatest_of_firstMin hmin hwins.admissible hwins.greatest
        obtain ⟨-, hw⟩ := (wins_of_firstMin hmin hgreatest).unique hwins
        refine ⟨c, rfl, ?_, hgreatest⟩
        rw [hw]
        exact hname

/-- There is a winner if and only if the candidates have a greatest set. -/
theorem exists_winner_iff : (∃ W, (choose nodes .dbguard old).winner = some W) ↔
    ∃ w, Admissible nodes old w ∧ ∀ nv, Admissible nodes old nv → nv.held ⊆ w.held := by
  constructor
  · rintro ⟨W, hW⟩
    obtain ⟨i, w, hwins, -⟩ := (winner_iff_wins W).mp hW
    exact ⟨w, hwins.admissible, hwins.greatest⟩
  · rintro ⟨w, hw, hgreatest⟩
    cases hmin : firstMin dkey (admissible nodes .dbguard old) with
    | none =>
        obtain ⟨j, hj⟩ := List.getElem?_of_mem hw.1
        have hmem := (mem_admissible_iff nodes old j w).mpr ⟨hj, hw⟩
        rw [firstMin_eq_none.mp hmin] at hmem
        cases hmem
    | some c =>
        exact ⟨c.2.name, (choose_eq_some_iff _).mpr
          ⟨c, hmin, rfl, greatest_of_firstMin hmin hw hgreatest⟩⟩

end

/-! ### The order of the nodes -/

/-- What the winner holds. -/
def winnerHeld (nodes : List NodeView) (old : Option Node) : Option GtidSet :=
  (choose nodes .dbguard old).winner.bind fun W =>
    (nodes.find? fun nv => nv.name = W).map NodeView.held

/-- The winner holds the greatest set. -/
theorem winnerHeld_eq_some_iff {nodes : List NodeView} {old : Option Node}
    (hnames : (nodes.map NodeView.name).Nodup) (s : GtidSet) :
    winnerHeld nodes old = some s ↔ ∃ w, Admissible nodes old w ∧ w.held = s ∧
      ∀ nv, Admissible nodes old nv → nv.held ⊆ w.held := by
  have hfind : ∀ w ∈ nodes, (nodes.find? fun nv => nv.name = w.name) = some w := by
    intro w hw
    cases h : nodes.find? fun nv => nv.name = w.name with
    | none =>
        have hnone := List.find?_eq_none.mp h w hw
        simp at hnone
    | some w' =>
        have hname : w'.name = w.name := by simpa using List.find?_some h
        rw [List.inj_on_of_nodup_map hnames (List.mem_of_find?_eq_some h) hw hname]
  rw [winnerHeld, Option.bind_eq_some_iff]
  constructor
  · rintro ⟨W, hW, hs⟩
    obtain ⟨i, w, hwins, rfl⟩ := (winner_iff_wins W).mp hW
    rw [hfind w hwins.admissible.1] at hs
    exact ⟨w, hwins.admissible, Option.some.inj hs, hwins.greatest⟩
  · rintro ⟨w, hw, rfl, hgreatest⟩
    obtain ⟨W, hW⟩ := exists_winner_iff.mpr ⟨w, hw, hgreatest⟩
    obtain ⟨i, w', hwins, rfl⟩ := (winner_iff_wins W).mp hW
    refine ⟨_, hW, ?_⟩
    rw [hfind w' hwins.admissible.1]
    exact congrArg some
      (GtidSet.Subset.antisymm (hgreatest w' hwins.admissible) (hwins.greatest w hw))

/-- `choose` returns a winner if and only if a node may be promoted and the sets of those
have a greatest one. The winner is the one that the ranking describes, and what it holds does
not depend on the order of the nodes. -/
structure Ranked (nodes : List NodeView) (old : Option Node) : Prop where
  exists_iff : (∃ W, (choose nodes .dbguard old).winner = some W) ↔
    (∃ nv, Admissible nodes old nv) ∧
      ∃ w, Admissible nodes old w ∧ ∀ nv, Admissible nodes old nv → nv.held ⊆ w.held
  winner_iff : ∀ W, (choose nodes .dbguard old).winner = some W ↔
    ∃ i w, Wins nodes old i w ∧ w.name = W
  order : ∀ nodes', nodes.Perm nodes' → winnerHeld nodes' old = winnerHeld nodes old

/-- A choice among nodes with distinct names is ranked. -/
theorem choose_ranked (nodes : List NodeView) (old : Option Node)
    (hnames : (nodes.map NodeView.name).Nodup) : Ranked nodes old := by
  refine ⟨?_, winner_iff_wins, fun nodes' hperm => ?_⟩
  · rw [exists_winner_iff]
    constructor
    · rintro ⟨w, hw, hgreatest⟩
      exact ⟨⟨w, hw⟩, w, hw, hgreatest⟩
    · exact fun h => h.2
  · have hnames' : (nodes'.map NodeView.name).Nodup := (hperm.map _).nodup_iff.mp hnames
    have hadm : ∀ nv, Admissible nodes' old nv ↔ Admissible nodes old nv := by
      intro nv
      rw [Admissible, Admissible, hperm.mem_iff]
    ext s
    rw [winnerHeld_eq_some_iff hnames', winnerHeld_eq_some_iff hnames]
    simp only [hadm]

/-- A replica that may be promoted. -/
def replicaView (name : Node) (executed retrieved : GtidSet) : NodeView :=
  { name
    reachable := true
    mysqldResponsive := true
    gtidExecuted := executed
    replica := { configured := true, executed, retrieved }
    semisync := { replicaEnabled := true } }

/-- Two replicas that hold as much: the one that has executed more is ranked first. -/
theorem choose_ranked_tie :
    Ranked [replicaView "b" (.ofInterval "u" 1 5) (.ofInterval "u" 6 9),
      replicaView "c" (.ofInterval "u" 1 7) (.ofInterval "u" 8 9)] (some "a") :=
  choose_ranked _ _ (by decide)

end DbGuard
