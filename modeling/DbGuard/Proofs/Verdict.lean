import Mathlib.Data.List.TakeWhile
import Mathlib.Algebra.Order.Group.Int
import DbGuard.Detector

/-!
# `DbGuard.Proofs.Verdict`: when the primary is DEAD

`evaluate` walks back from the newest observation twice, once while the probe fails and once
while the witnesses outvote the primary, and measures the oldest observation of each walk.
With sorted timestamps a walk that is long and old enough is the same as any such suffix of
the history (`takeWhile_iff_suffix`), so `kind_dead_iff` can state the verdict by suffixes.
-/

set_option autoImplicit false

namespace DbGuard

/-! ### Walking back -/

/-- How long ago the oldest observation of a walk was, 0 for an empty walk. -/
def age (now : Time) (walk : List Observation) : Time :=
  (walk.getLast?.map fun ob => now - ob.ts).getD 0

/-- The walk back over what satisfies `P` has at least `k` observations and reaches back for
the window if and only if some suffix does. -/
theorem takeWhile_iff_suffix (P : Observation → Bool) {history : List Observation}
    (hsorted : history.Pairwise fun a b => a.ts ≤ b.ts) {window : Time} (hwindow : 0 < window)
    (now : Time) (k : Nat) :
    (k ≤ (history.reverse.takeWhile P).length ∧
        window ≤ age now (history.reverse.takeWhile P)) ↔
      ∃ suffix, suffix <:+ history ∧ k ≤ suffix.length ∧ (∀ ob ∈ suffix, P ob = true) ∧
        ∃ oldest ∈ suffix.head?, oldest.ts ≤ now - window := by
  constructor
  · rintro ⟨hk, hage⟩
    -- The walk itself, in the order of the history.
    refine ⟨(history.reverse.takeWhile P).reverse, ?_, by simpa using hk, fun ob hob => ?_, ?_⟩
    · rw [← List.reverse_prefix, List.reverse_reverse]
      exact List.takeWhile_prefix P
    · exact List.mem_takeWhile_imp (List.mem_reverse.mp hob)
    · rw [List.head?_reverse]
      unfold age at hage
      cases hlast : (history.reverse.takeWhile P).getLast? with
      | none =>
          rw [hlast] at hage
          exact absurd hwindow (not_lt.mpr hage)
      | some oldest =>
          rw [hlast] at hage
          exact ⟨oldest, rfl, le_sub_comm.mp hage⟩
  · rintro ⟨suffix, ⟨before, rfl⟩, hk, hP, oldest, holdest, hts⟩
    -- The walk begins with the whole suffix.
    have hwalk : (before ++ suffix).reverse.takeWhile P =
        suffix.reverse ++ before.reverse.takeWhile P := by
      rw [List.reverse_append]
      exact List.takeWhile_append_of_pos fun ob hob => hP ob (List.mem_reverse.mp hob)
    obtain ⟨rest, hsuffix⟩ := List.head?_eq_some_iff.mp holdest
    have hage : window ≤ now - oldest.ts := le_sub_comm.mp hts
    rw [hwalk]
    refine ⟨by simp; omega, ?_⟩
    unfold age
    rw [List.getLast?_append]
    cases hlast : (before.reverse.takeWhile P).getLast? with
    | none =>
        rw [List.getLast?_reverse, holdest]
        exact hage
    | some first =>
        have hfirst : first ∈ before :=
          List.mem_reverse.mp ((List.takeWhile_sublist P).mem (List.mem_of_getLast? hlast))
        have hmem : oldest ∈ suffix := List.mem_of_head? holdest
        have hle : first.ts ≤ oldest.ts :=
          (List.pairwise_append.mp hsorted).2.2 first hfirst oldest hmem
        exact le_trans hage (sub_le_sub_left hle now)

/-! ### The two kinds of evidence -/

/-- An observation of the primary with a failed probe. -/
def ProbeFailed (primary : Node) (ob : Observation) : Prop :=
  ob.primary = some primary ∧ ∃ r, ob.probe = some r ∧ r.ok = false

/-- The members that can testify about the primary in an observation. -/
def witnesses (members : List Node) (primary : Node) (ob : Observation) : List Node :=
  members.filter fun m => m ≠ primary && isWitness (ob.nodes.get? m) primary

/-- The witnesses that vote the primary gone. -/
def voters (members : List Node) (primary : Node) (window : Time) (ob : Observation) :
    List Node :=
  (witnesses members primary ob).filter fun m =>
    replicaVote (ob.nodes.view m) primary window ≠ []

/-- An observation of the primary in which a strict majority of at least one witness votes
it gone. -/
def Outvoted (members : List Node) (primary : Node) (window : Time) (ob : Observation) : Prop :=
  ob.primary = some primary ∧ 0 < (witnesses members primary ob).length ∧
    (witnesses members primary ob).length < 2 * (voters members primary window ob).length

/-- Some non-empty suffix of at least `k` observations has the evidence throughout, and its
oldest observation is as old as the window. -/
def Sustained (P : Observation → Prop) (history : List Observation) (k : Nat)
    (now window : Time) : Prop :=
  ∃ suffix, suffix <:+ history ∧ suffix ≠ [] ∧ k ≤ suffix.length ∧ (∀ ob ∈ suffix, P ob) ∧
    ∃ oldest ∈ suffix.head?, oldest.ts ≤ now - window

/-- A walk back measures sustained evidence. -/
theorem sustained_iff {P : Observation → Prop} {Q : Observation → Bool}
    (hPQ : ∀ ob, Q ob = true ↔ P ob) {history : List Observation}
    (hsorted : history.Pairwise fun a b => a.ts ≤ b.ts) {window : Time} (hwindow : 0 < window)
    (now : Time) (k : Nat) :
    Sustained P history k now window ↔ k ≤ (history.reverse.takeWhile Q).length ∧
      window ≤ age now (history.reverse.takeWhile Q) := by
  rw [takeWhile_iff_suffix Q hsorted hwindow]
  constructor
  · rintro ⟨suffix, hsuffix, -, hk, hP, hold⟩
    exact ⟨suffix, hsuffix, hk, fun ob hob => (hPQ ob).mpr (hP ob hob), hold⟩
  · rintro ⟨suffix, hsuffix, hk, hQ, oldest, holdest, hts⟩
    have hne : suffix ≠ [] := List.ne_nil_of_mem (List.mem_of_head? holdest)
    exact ⟨suffix, hsuffix, hne, hk, fun ob hob => (hPQ ob).mp (hQ ob hob), oldest, holdest,
      hts⟩

/-- A poll at which the primary's probe failed. -/
theorem probeFailed_iff (primary : Node) (ob : Observation) :
    (ob.primary == some primary && (match ob.probe with | some p => !p.ok | none => false))
      = true ↔ ProbeFailed primary ob := by
  rw [ProbeFailed, Bool.and_eq_true, beq_iff_eq]
  cases ob.probe with
  | none => simp
  | some r => simp

/-- The votes of an observation are those of its voters. -/
theorem votesAt_length {members : List Node} (hnodup : members.Nodup) (primary : Node)
    (window : Time) (ob : Observation) :
    (votesAt (members.filter (· ≠ primary)) primary window ob).1.length
        = (voters members primary window ob).length ∧
      (votesAt (members.filter (· ≠ primary)) primary window ob).2
        = (witnesses members primary ob).length := by
  have hwitnesses : ((members.filter (· ≠ primary)).filter fun m =>
      isWitness (ob.nodes.get? m) primary) = witnesses members primary ob := by
    rw [List.filter_filter, witnesses]
    refine List.filter_congr fun m _ => ?_
    simp [Bool.and_comm]
  have hcount : ∀ l : List Node, (l.filterMap fun m =>
      if replicaVote (ob.nodes.view m) primary window = [] then none
      else some (m, replicaVote (ob.nodes.view m) primary window)).length
        = (l.filter fun m => replicaVote (ob.nodes.view m) primary window ≠ []).length := by
    intro l
    induction l with
    | nil => rfl
    | cons m l ih =>
        by_cases h : replicaVote (ob.nodes.view m) primary window = []
        · simpa [h] using ih
        · simpa [h] using ih
  have hdedup : (witnesses members primary ob).dedup = witnesses members primary ob :=
    List.dedup_eq_self.mpr (hnodup.filter _)
  rw [votesAt]
  simp only [hwitnesses, hdedup, and_true]
  exact hcount _

/-- A poll at which it is outvoted, by distinct members. -/
theorem outvoted_iff {members : List Node} (hnodup : members.Nodup) (primary : Node)
    (window : Time) (ob : Observation) :
    (ob.primary == some primary &&
      hasQuorum (votesAt (members.filter (· ≠ primary)) primary window ob).1.length
        (votesAt (members.filter (· ≠ primary)) primary window ob).2) = true ↔
      Outvoted members primary window ob := by
  obtain ⟨hvotes, htotal⟩ := votesAt_length hnodup primary window ob
  rw [hvotes, htotal, Outvoted, Bool.and_eq_true, beq_iff_eq, hasQuorum]
  simp only [Bool.and_eq_true, decide_eq_true_eq]
  refine and_congr_right fun _ => ?_
  omega

/-! ### The verdict -/

/-- Without a majority in the newest observation nothing walks back. -/
theorem outvoted_eq_nil {history : List Observation} {last : Observation}
    (hlast : history.getLast? = some last) {replicas : List Node} {primary : Node}
    {window : Time} (h : hasQuorum (votesAt replicas primary window last).1.length
      (votesAt replicas primary window last).2 = false) :
    outvoted history replicas primary window = [] := by
  have hhead : history.reverse.head? = some last := by
    rw [List.head?_reverse, hlast]
  obtain ⟨rest, hrest⟩ := List.head?_eq_some_iff.mp hhead
  rw [outvoted, hrest, List.takeWhile_cons]
  simp [h]

/-- Without a primary there is no verdict about one. -/
theorem kind_of_no_primary {history : List Observation} {last : Observation}
    (hlast : history.getLast? = some last) (hprimary : last.primary = none)
    (members : List Node) (p : DetectParams) (now : Option Time) :
    (evaluate history members p now).kind = .noPrimary := by
  simp only [evaluate, hlast, hprimary]

/-- What the dbguard verdict compares. -/
theorem kind_dead_iff {history : List Observation} {last : Observation} {primary : Node}
    {p : DetectParams} (hlast : history.getLast? = some last)
    (hprimary : last.primary = some primary) (hmode : p.mode = .dbguard)
    (hwindow : 0 < p.detectWindowS) (members : List Node) (now : Option Time) :
    (evaluate history members p now).kind = .dead ↔
      (p.probeFailures ≤ (failing history primary).length ∧
        p.detectWindowS ≤ age (now.getD last.ts) (failing history primary)) ∧
      p.detectWindowS ≤ age (now.getD last.ts)
        (outvoted history (members.filter (· ≠ primary)) primary p.detectWindowS) := by
  simp only [evaluate, hlast, hprimary, hmode]
  cases hquorum : hasQuorum
      (votesAt (members.filter (· ≠ primary)) primary p.detectWindowS last).1.length
      (votesAt (members.filter (· ≠ primary)) primary p.detectWindowS last).2 with
  | false =>
      -- No majority now: the second walk is empty, and its age is below the window.
      have hnil := outvoted_eq_nil hlast hquorum
      have hage : ¬ p.detectWindowS ≤ age (now.getD last.ts) [] := not_le.mpr hwindow
      simp only [hnil, hage, and_false, iff_false, Bool.false_eq_true, false_and, if_false]
      split
      · simp
      · simp
  | true =>
      simp only [true_and, if_true, le_min_iff]
      split
      · rename_i h
        simp only [true_iff]
        exact ⟨⟨h.1, h.2.1⟩, h.2.2⟩
      · rename_i h
        have hnot : ¬ ((p.probeFailures ≤ (failing history primary).length ∧
            p.detectWindowS ≤ age (now.getD last.ts) (failing history primary)) ∧
            p.detectWindowS ≤ age (now.getD last.ts)
              (outvoted history (members.filter (· ≠ primary)) primary p.detectWindowS)) :=
          fun h' => h ⟨h'.1.1, h'.1.2, h'.2⟩
        simp only [hnot, iff_false]
        split
        · simp
        · simp

/-- The verdict is DEAD if and only if both kinds of evidence are sustained. Without an
observation in which a majority of witnesses votes the primary gone it never is. -/
structure DeadExactly (history : List Observation) (last : Observation) (members : List Node)
    (p : DetectParams) (now : Option Time) : Prop where
  sustained : (evaluate history members p now).kind = .dead ↔
    ∃ primary, last.primary = some primary ∧
      Sustained (ProbeFailed primary) history p.probeFailures (now.getD last.ts)
        p.detectWindowS ∧
      Sustained (Outvoted members primary p.detectWindowS) history 0 (now.getD last.ts)
        p.detectWindowS
  never : (∀ ob ∈ history, ∀ primary, ¬ Outvoted members primary p.detectWindowS ob) →
    (evaluate history members p now).kind ≠ .dead

/-- The verdict of dbguard mode over a sorted history. -/
theorem evaluate_dead {history : List Observation} {last : Observation} {members : List Node}
    {p : DetectParams} (now : Option Time) (hlast : history.getLast? = some last)
    (hsorted : history.Pairwise fun a b => a.ts ≤ b.ts) (hnodup : members.Nodup)
    (hmode : p.mode = .dbguard) (hwindow : 0 < p.detectWindowS) :
    DeadExactly history last members p now := by
  have hiff : (evaluate history members p now).kind = .dead ↔
      ∃ primary, last.primary = some primary ∧
        Sustained (ProbeFailed primary) history p.probeFailures (now.getD last.ts)
          p.detectWindowS ∧
        Sustained (Outvoted members primary p.detectWindowS) history 0 (now.getD last.ts)
          p.detectWindowS := by
    cases hprimary : last.primary with
    | none => simp [kind_of_no_primary hlast hprimary]
    | some primary =>
        have hprobe := sustained_iff (probeFailed_iff primary) hsorted hwindow (now.getD last.ts)
          p.probeFailures
        have hvotes := sustained_iff (outvoted_iff hnodup primary p.detectWindowS) hsorted hwindow
          (now.getD last.ts) 0
        rw [kind_dead_iff hlast hprimary hmode hwindow]
        simp only [Option.some.injEq, exists_eq_left']
        rw [hprobe, hvotes]
        refine and_congr_right fun _ => ?_
        constructor
        · exact fun hage => ⟨Nat.zero_le _, hage⟩
        · exact fun h => h.2
  refine ⟨hiff, fun hnever hdead => ?_⟩
  obtain ⟨primary, -, -, suffix, hsuffix, hne, -, hP, -⟩ := hiff.mp hdead
  obtain ⟨ob, hob⟩ := List.exists_mem_of_ne_nil suffix hne
  exact hnever ob (hsuffix.mem hob) primary (hP ob hob)

/-- A poll in which the probe of `a` failed and its replica `b` cannot reach it. -/
def lostPoll (ts : Time) : Observation where
  ts := ts
  primary := some "a"
  probe := some { ok := false, kind := some .connect }
  nodes := .ofAnswers ["a", "b"] fun n =>
    if n = "b" then .ok { mysqldResponsive := true, sourceReachable := some false
                          replica := some { configured := true, sourceHost := some "a" } }
    else .error "connect"

/-- Three lost polls over five seconds are one dead primary. -/
theorem evaluate_dead_lost : DeadExactly [lostPoll 0, lostPoll 2, lostPoll 5] (lostPoll 5)
    ["a", "b"] { detectWindowS := 5 } none :=
  evaluate_dead none rfl (by simp [lostPoll]) (by decide) rfl (by decide)

end DbGuard
