import Mathlib.Tactic.Linarith
import DbGuard.Proofs.Script
import DbGuard.Proofs.Verdict

/-!
# `DbGuard.Proofs.History`: what trimming the history does to a verdict

`poll` keeps the observations of the last `keepS`, a time, and `evaluate` asks for a number of
failed probes and for the window, both without a gap. The two walks of `evaluate` end inside
what is kept or cover it whole (`walk_eq`), so a verdict can only change when every kept
observation is a failed probe. Then the kept ones are many and old as far as the polls are
dense, and `trim_harmless_iff` says how dense is enough.
-/

set_option autoImplicit false

namespace DbGuard

/-- What `poll` keeps: `max(self.cfg.detect_window_s * 3, 10.0)`. -/
def keepS (cfg : Config) : Time := max (cfg.detectWindowS * 3) (10 * cfg.second)

/-- The state after a run of polls. -/
def polled (cfg : Config) (s : Ctl) (run : List Observation) : Ctl :=
  run.foldl (fun s ob => (Update.observed ob (keepS cfg)).apply s) s

/-- Too old to be kept. -/
def stale (keep now : Time) (ob : Observation) : Bool := now - ob.ts > keep

/-- A poll whose probe failed. -/
def failedPoll (ob : Observation) : Bool :=
  match ob.probe with
  | some r => !r.ok
  | none => false

/-- The clock does not go back, and a poll with a failing probe takes `d` at most. -/
def Paced (d : Time) (run : List Observation) : Prop :=
  run.IsChain fun a b => a.ts ≤ b.ts ∧ (failedPoll a = true → b.ts ≤ a.ts + d)

/-- A paced run is sorted. -/
theorem Paced.sorted {d : Time} {run : List Observation} (h : Paced d run) :
    run.Pairwise fun a b => a.ts ≤ b.ts := by
  have hchain : run.IsChain fun a b => a.ts ≤ b.ts := h.imp fun _ _ hab => hab.1
  rw [← List.isChain_map Observation.ts (R := (· ≤ ·)), List.isChain_iff_pairwise,
    List.pairwise_map] at hchain
  exact hchain

/-- Failing polls one after the other leave no large gap. -/
theorem Paced.span {d : Time} {x last : Observation} {rest : List Observation}
    (h : Paced d (x :: rest)) (hlast : (x :: rest).getLast? = some last)
    (hfail : ∀ ob ∈ x :: rest, failedPoll ob = true) : last.ts ≤ x.ts + rest.length * d := by
  induction rest generalizing x with
  | nil =>
      obtain rfl : x = last := by simpa using hlast
      simp
  | cons y rest ih =>
      obtain ⟨hxy, hrest⟩ := List.isChain_cons_cons.mp h
      have hstep : y.ts ≤ x.ts + d := hxy.2 (hfail x List.mem_cons_self)
      have hspan : last.ts ≤ y.ts + rest.length * d :=
        ih hrest (by simpa using hlast) fun ob hob => hfail ob (List.mem_cons_of_mem x hob)
      rw [List.length_cons]
      push_cast
      linarith

/-! ### What is kept -/

/-- Of what is dropped later, some may have been dropped before. -/
theorem dropWhile_append_dropWhile {α : Type} {p q : α → Bool} {l : List α} (m : List α)
    (h : ∀ a ∈ l, p a = true → q a = true) :
    (l.dropWhile p ++ m).dropWhile q = (l ++ m).dropWhile q := by
  induction l with
  | nil => rfl
  | cons a l ih =>
      cases hp : p a with
      | false => rw [List.dropWhile_cons_of_neg (by simp [hp])]
      | true =>
          have hq : q a = true := h a List.mem_cons_self hp
          rw [List.dropWhile_cons_of_pos hp, List.cons_append, List.dropWhile_cons_of_pos hq]
          exact ih fun b hb => h b (List.mem_cons_of_mem a hb)

/-- The history after a run of polls: what the newest one finds too old is gone. -/
theorem history_polled (cfg : Config) {s : Ctl} (hs : s.history = []) {run : List Observation}
    {last : Observation} (hlast : run.getLast? = some last)
    (hsorted : run.Pairwise fun a b => a.ts ≤ b.ts) :
    (polled cfg s run).history = run.dropWhile (stale (keepS cfg) last.ts) := by
  induction run using List.reverseRecOn generalizing last with
  | nil => cases hlast
  | append_singleton init ob ih =>
      obtain rfl : ob = last := by simpa using hlast
      have hinit := (List.pairwise_append.mp hsorted)
      have hstep : (polled cfg s (init ++ [ob])).history =
          ((polled cfg s init).history ++ [ob]).dropWhile (stale (keepS cfg) ob.ts) := by
        rw [polled, List.foldl_append]
        rfl
      rw [hstep]
      cases hprev : init.getLast? with
      | none =>
          rw [List.getLast?_eq_none_iff] at hprev
          subst hprev
          rw [show (polled cfg s []).history = [] from hs]
      | some prev =>
          have hle : prev.ts ≤ ob.ts :=
            hinit.2.2 prev (List.mem_of_getLast? hprev) ob List.mem_cons_self
          rw [ih hprev hinit.1]
          refine dropWhile_append_dropWhile _ fun a _ ha => ?_
          have hold : keepS cfg < prev.ts - a.ts := of_decide_eq_true ha
          exact decide_eq_true (lt_of_lt_of_le hold (sub_le_sub_right hle a.ts))

/-- A walk back through what is kept either ends there or takes all of it. -/
theorem walk_eq (P : Observation → Bool) (dropped kept : List Observation) :
    (dropped ++ kept).reverse.takeWhile P = kept.reverse.takeWhile P ∨
      kept.reverse.takeWhile P = kept.reverse ∧
        (dropped ++ kept).reverse.takeWhile P = kept.reverse ++ dropped.reverse.takeWhile P := by
  rw [List.reverse_append, List.takeWhile_append]
  split
  · rename_i hlen
    exact .inr ⟨(List.takeWhile_prefix P).eq_of_length hlen, rfl⟩
  · exact .inl rfl

/-! ### What a verdict measures -/

/-- The two walks are as long and as old as the verdict DEAD asks for. -/
def Died (p : DetectParams) (members : List Node) (primary : Node) (last : Observation)
    (history : List Observation) : Prop :=
  (p.probeFailures ≤ (failing history primary).length ∧
      p.detectWindowS ≤ age last.ts (failing history primary)) ∧
    (p.mode = .dbguard → p.detectWindowS ≤ age last.ts
      (outvoted history (members.filter (· ≠ primary)) primary p.detectWindowS))

/-- The verdict of a primary that is not DEAD, from the newest poll. -/
def quietKind (p : DetectParams) (members : List Node) (primary : Node) (last : Observation) :
    VerdictKind :=
  let votes := votesAt (members.filter (· ≠ primary)) primary p.detectWindowS last
  if last.primary == some primary && failedPoll last then .suspect
  else if p.mode = .dbguard ∧ hasQuorum votes.1.length votes.2 = true then .replicasOnly
  else .ok

/-- The primary fails if the last poll failed. -/
theorem failing_pos {history : List Observation} {last : Observation}
    (hlast : history.getLast? = some last) (primary : Node) :
    0 < (failing history primary).length ↔
      (last.primary == some primary && failedPoll last) = true := by
  have hhead : history.reverse.head? = some last := by
    rw [List.head?_reverse, hlast]
  obtain ⟨rest, hrest⟩ := List.head?_eq_some_iff.mp hhead
  show 0 < (history.reverse.takeWhile fun ob =>
    ob.primary == some primary && failedPoll ob).length ↔ _
  rw [hrest, List.takeWhile_cons]
  cases last.primary == some primary && failedPoll last with
  | false => simp
  | true => simp

/-- What a poll that does not fail is, by the votes. -/
theorem quietKind_eq {history : List Observation} {last : Observation}
    (hlast : history.getLast? = some last) (p : DetectParams) (members : List Node)
    (primary : Node) :
    quietKind p members primary last =
      if (failing history primary).length > 0 then .suspect
      else if p.mode = .dbguard ∧
          hasQuorum (votesAt (members.filter (· ≠ primary)) primary p.detectWindowS last).1.length
            (votesAt (members.filter (· ≠ primary)) primary p.detectWindowS last).2 = true then
        .replicasOnly
      else .ok := by
  rw [quietKind]
  simp only [← failing_pos hlast primary, gt_iff_lt]

/-- A verdict that is not DEAD is that of the newest poll. -/
theorem kind_dead_or_quiet {history : List Observation} {last : Observation} {primary : Node}
    (hlast : history.getLast? = some last) (hprimary : last.primary = some primary)
    (p : DetectParams) (members : List Node) :
    (evaluate history members p none).kind = .dead ∨
      (evaluate history members p none).kind = quietKind p members primary last := by
  rw [quietKind_eq hlast]
  cases hmode : p.mode with
  | naive =>
      simp only [evaluate, hlast, hprimary, hmode]
      split
      · exact .inl rfl
      · exact .inr (by simp)
  | dbguard =>
      cases hquorum : hasQuorum
          (votesAt (members.filter (· ≠ primary)) primary p.detectWindowS last).1.length
          (votesAt (members.filter (· ≠ primary)) primary p.detectWindowS last).2 with
      | false =>
          simp only [evaluate, hlast, hprimary, hmode, hquorum, Bool.false_eq_true, false_and,
            and_false, if_false]
          right
          split <;> rfl
      | true =>
          simp only [evaluate, hlast, hprimary, hmode, hquorum, true_and, if_true]
          split
          · exact .inl rfl
          · right
            split <;> rfl

/-- A verdict is DEAD by the walks. -/
theorem kind_dead_iff_died {history : List Observation} {last : Observation} {primary : Node}
    {p : DetectParams} (hlast : history.getLast? = some last)
    (hprimary : last.primary = some primary) (hwindow : 0 < p.detectWindowS)
    (members : List Node) :
    (evaluate history members p none).kind = .dead ↔ Died p members primary last history := by
  cases hmode : p.mode with
  | naive =>
      simp only [evaluate, hlast, hprimary, hmode, Died, age, Option.getD_none, reduceCtorEq,
        false_implies, and_true]
      split
      · rename_i h
        simp [h]
      · rename_i h
        simp only [h, iff_false]
        split <;> simp
  | dbguard =>
      rw [kind_dead_iff hlast hprimary hmode hwindow members none]
      simp [Died, hmode]

/-- Two histories that end alike differ only in whether the primary died. -/
theorem kind_congr {history kept : List Observation} {last : Observation} {p : DetectParams}
    {members : List Node} (hlast : history.getLast? = some last)
    (hkept : kept.getLast? = some last) (hwindow : 0 < p.detectWindowS)
    (h : ∀ primary, last.primary = some primary →
      (Died p members primary last kept ↔ Died p members primary last history)) :
    (evaluate kept members p none).kind = (evaluate history members p none).kind := by
  cases hprimary : last.primary with
  | none => rw [kind_of_no_primary hlast hprimary, kind_of_no_primary hkept hprimary]
  | some primary =>
      have hdead := kind_dead_iff_died hlast hprimary hwindow members
      have hdead' := kind_dead_iff_died hkept hprimary hwindow members
      by_cases hd : Died p members primary last history
      · rw [hdead.mpr hd, hdead'.mpr ((h primary hprimary).mpr hd)]
      · have hd' : ¬ Died p members primary last kept := fun hd' => hd ((h primary hprimary).mp hd')
        rw [(kind_dead_or_quiet hlast hprimary p members).resolve_left fun hk => hd (hdead.mp hk),
          (kind_dead_or_quiet hkept hprimary p members).resolve_left fun hk => hd' (hdead'.mp hk)]

/-! ### Dense polls -/

/-- A longer walk is not younger. -/
theorem age_mono {now : Time} {walk longer : List Observation} (hne : walk ≠ [])
    (hpre : walk <+: longer) (hsorted : longer.Pairwise fun a b => b.ts ≤ a.ts) :
    age now walk ≤ age now longer := by
  obtain ⟨more, rfl⟩ := hpre
  obtain ⟨oldest, holdest⟩ := Option.isSome_iff_exists.mp (List.getLast?_isSome.mpr hne)
  rw [age, age, List.getLast?_append, holdest]
  cases hmore : more.getLast? with
  | none => exact le_refl _
  | some older =>
      have hle : older.ts ≤ oldest.ts := (List.pairwise_append.mp hsorted).2.2 oldest
        (List.mem_of_getLast? holdest) older (List.mem_of_getLast? hmore)
      exact sub_le_sub_left hle now

/-- A sorted history is sorted backwards. -/
theorem sorted_reverse {run : List Observation} (h : run.Pairwise fun a b => a.ts ≤ b.ts) :
    run.reverse.Pairwise fun a b => b.ts ≤ a.ts := List.pairwise_reverse.mpr h

/-- A walk of some length has a poll. -/
theorem age_pos_ne_nil {now window : Time} (hwindow : 0 < window) {walk : List Observation}
    (h : window ≤ age now walk) : walk ≠ [] := by
  rintro rfl
  exact absurd (lt_of_lt_of_le hwindow h) (lt_irrefl _)

/-- Whoever died by what is kept died by all of it. -/
theorem died_of_kept {p : DetectParams} {members : List Node} {primary : Node}
    {last : Observation} {dropped kept : List Observation} (hwindow : 0 < p.detectWindowS)
    (hsorted : (dropped ++ kept).Pairwise fun a b => a.ts ≤ b.ts)
    (h : Died p members primary last kept) : Died p members primary last (dropped ++ kept) := by
  have hwalk : ∀ P : Observation → Bool, kept.reverse.takeWhile P <+:
      (dropped ++ kept).reverse.takeWhile P := by
    intro P
    rcases walk_eq P dropped kept with heq | ⟨hall, heq⟩
    · rw [heq]
    · rw [heq, hall]
      exact List.prefix_append _ _
  have hage : ∀ P : Observation → Bool,
      p.detectWindowS ≤ age last.ts (kept.reverse.takeWhile P) →
        p.detectWindowS ≤ age last.ts ((dropped ++ kept).reverse.takeWhile P) := by
    intro P hP
    refine hP.trans (age_mono (age_pos_ne_nil hwindow hP) (hwalk P) ?_)
    exact (sorted_reverse hsorted).sublist (List.takeWhile_sublist P)
  exact ⟨⟨h.1.1.trans (hwalk _).length_le, hage _ h.1.2⟩, fun hmode => hage _ (h.2 hmode)⟩

/-- With polls this dense, what is kept has enough failed probes and reaches back far enough. -/
def Dense (cfg : Config) (d : Time) : Prop :=
  (cfg.probeFailures - 1 : Nat) * d ≤ keepS cfg ∧ cfg.detectWindowS + d ≤ keepS cfg + 1

instance (cfg : Config) (d : Time) : Decidable (Dense cfg d) := instDecidableAnd

/-- When all that is kept failed after a failing poll that is not, it is enough. -/
theorem kept_enough {cfg : Config} {d : Time} (hdense : Dense cfg d)
    (hkeep : 0 ≤ keepS cfg) {x last : Observation} {kept : List Observation}
    (hpaced : Paced d (x :: kept)) (hlast : kept.getLast? = some last)
    (hx : keepS cfg < last.ts - x.ts) (hfail : ∀ ob ∈ x :: kept, failedPoll ob = true) :
    cfg.probeFailures ≤ kept.length ∧ cfg.detectWindowS ≤ age last.ts kept.reverse := by
  obtain ⟨hcount, hspan⟩ := hdense
  -- The newest of what is left is behind the cut by one poll's distance at most.
  cases kept with
  | nil => cases hlast
  | cons y rest =>
      have hy : y.ts ≤ x.ts + d :=
        (List.isChain_cons_cons.mp hpaced).1.2 (hfail x List.mem_cons_self)
      have hall : last.ts ≤ x.ts + (y :: rest).length * d :=
        hpaced.span (by simpa using hlast) hfail
      constructor
      -- Too few polls would span too short a time.
      · by_contra hfew
        have hle : ((y :: rest).length : Int) ≤ (cfg.probeFailures - 1 : Nat) := by omega
        have hlen : (0 : Int) ≤ (y :: rest).length := Int.natCast_nonneg _
        have hd : 0 < d := by
          by_contra hneg
          have hprod : ((y :: rest).length : Int) * d ≤ 0 :=
            mul_nonpos_of_nonneg_of_nonpos hlen (not_lt.mp hneg)
          linarith
        have hprod : ((y :: rest).length : Int) * d ≤ (cfg.probeFailures - 1 : Nat) * d :=
          mul_le_mul_of_nonneg_right hle hd.le
        linarith
      -- The age is counted from the oldest one that is kept.
      · have hage : age last.ts (y :: rest).reverse = last.ts - y.ts := by
          rw [age, List.getLast?_reverse]
          rfl
        have hx : keepS cfg + 1 ≤ last.ts - x.ts := Int.add_one_le_of_lt hx
        rw [hage]
        linarith

/-- With dense polls whoever died by all of it died by what is kept. -/
theorem died_kept {cfg : Config} {d : Time} (hwindow : 0 < cfg.detectWindowS)
    (hdense : Dense cfg d) {members : List Node} {primary : Node} {last : Observation}
    {dropped kept : List Observation} (hpaced : Paced d (dropped ++ kept))
    (hlast : kept.getLast? = some last) (hstale : ∀ ob ∈ dropped, keepS cfg < last.ts - ob.ts)
    (h : Died cfg.params members primary last (dropped ++ kept)) :
    Died cfg.params members primary last kept := by
  have hkeep : 0 ≤ keepS cfg := by
    have hle : cfg.detectWindowS * 3 ≤ keepS cfg := le_max_left _ _
    linarith
  have hsorted : kept.Pairwise fun a b => a.ts ≤ b.ts :=
    (List.pairwise_append.mp hpaced.sorted).2.1
  have hprobe : cfg.probeFailures ≤ (failing kept primary).length ∧
      cfg.detectWindowS ≤ age last.ts (failing kept primary) := by
    rcases walk_eq (fun ob => ob.primary == some primary && failedPoll ob) dropped kept with
      heq | ⟨hall, heq⟩
    · have hsame : failing kept primary = failing (dropped ++ kept) primary := heq.symm
      rw [hsame]
      exact h.1
    · cases hmore : dropped.reverse.takeWhile fun ob =>
          ob.primary == some primary && failedPoll ob with
      | nil =>
          rw [hmore, List.append_nil, ← hall] at heq
          have hsame : failing kept primary = failing (dropped ++ kept) primary := heq.symm
          rw [hsame]
          exact h.1
      | cons x more =>
          -- The walk goes on into what is dropped: the newest poll there failed too.
          have hkept : failing kept primary = kept.reverse := hall
          have hx := List.mem_takeWhile_imp (hmore ▸ List.mem_cons_self :
            x ∈ dropped.reverse.takeWhile fun ob => ob.primary == some primary && failedPoll ob)
          have hhead : dropped.getLast? = some x := by
            have hpre := List.takeWhile_prefix
              (fun ob => ob.primary == some primary && failedPoll ob) (l := dropped.reverse)
            rw [hmore] at hpre
            obtain ⟨rest, hrest⟩ := hpre
            rw [← List.head?_reverse, ← hrest]
            rfl
          obtain ⟨init, hinit⟩ := List.getLast?_eq_some_iff.mp hhead
          have hsuffix : x :: kept <:+ dropped ++ kept :=
            ⟨init, by rw [hinit, List.append_assoc]; rfl⟩
          have hfail : ∀ ob ∈ x :: kept, failedPoll ob = true := by
            intro ob hob
            rcases List.mem_cons.mp hob with rfl | hob
            · exact ((Bool.and_eq_true _ _).mp hx).2
            · have hP := List.takeWhile_eq_self_iff.mp hall ob (List.mem_reverse.mpr hob)
              exact ((Bool.and_eq_true _ _).mp hP).2
          rw [hkept, List.length_reverse]
          exact kept_enough hdense hkeep (hpaced.suffix hsuffix) hlast
            (hstale x (List.mem_of_getLast? hhead)) hfail
  refine ⟨hprobe, fun hmode => ?_⟩
  rcases walk_eq (fun ob =>
      let vs := votesAt (members.filter (· ≠ primary)) primary cfg.detectWindowS ob
      ob.primary == some primary && hasQuorum vs.1.length vs.2) dropped kept with
    heq | ⟨hall, -⟩
  · have hsame : outvoted kept (members.filter (· ≠ primary)) primary cfg.detectWindowS =
        outvoted (dropped ++ kept) (members.filter (· ≠ primary)) primary cfg.detectWindowS :=
      heq.symm
    show cfg.detectWindowS ≤ age last.ts
      (outvoted kept (members.filter (· ≠ primary)) primary cfg.detectWindowS)
    rw [hsame]
    exact h.2 hmode
  · -- all that is kept is outvoted, and the failing part of it is old enough
    have hkept : outvoted kept (members.filter (· ≠ primary)) primary cfg.detectWindowS =
        kept.reverse := hall
    show cfg.detectWindowS ≤ age last.ts
      (outvoted kept (members.filter (· ≠ primary)) primary cfg.detectWindowS)
    rw [hkept]
    exact hprobe.2.trans (age_mono (age_pos_ne_nil hwindow hprobe.2)
      (List.takeWhile_prefix _) (sorted_reverse hsorted))

/-! ### Sparse polls -/

/-- A poll in which the probe of `primary` failed and `m`, its one replica, cannot reach it. -/
def lostAt (primary m : Node) (ts : Time) : Observation where
  ts := ts
  primary := some primary
  probe := some { ok := false, kind := some .connect }
  nodes := .ofAnswers [m] fun _ =>
    .ok { mysqldResponsive := true, sourceReachable := some false
          replica := some { configured := true, sourceHost := some primary } }

/-- Where the one replica that answers cannot reach the primary, the primary is outvoted. -/
theorem outvoted_lostAt {members : List Node} (hnodup : members.Nodup) {primary m : Node}
    (hm : m ∈ members) (hne : m ≠ primary) (window ts : Time) :
    Outvoted members primary window (lostAt primary m ts) := by
  -- `m` is the only witness: it was polled, and nobody else.
  have hwitness : ∀ n, (decide (n ≠ primary) &&
      isWitness ((lostAt primary m ts).nodes.get? n) primary) = decide (n = m) := by
    intro n
    by_cases hn : n = m
    · subst hn
      have hget : (lostAt primary n ts).nodes.get? n =
          some ((lostAt primary n ts).nodes.view n) := if_pos List.mem_cons_self
      rw [hget]
      have husable : isWitness (some ((lostAt primary n ts).nodes.view n)) primary =
          (some primary == some primary) := rfl
      rw [husable]
      simp [hne]
    · have hget : (lostAt primary m ts).nodes.get? n = none :=
        if_neg fun hmem => hn (List.mem_singleton.mp hmem)
      rw [hget]
      simp [isWitness, hn]
  have hwitnesses : witnesses members primary (lostAt primary m ts) = [m] := by
    rw [witnesses]
    simp only [hwitness]
    rw [List.filter_eq, List.count_eq_one_of_mem hnodup hm]
    rfl
  have hvote : replicaVote ((lostAt primary m ts).nodes.view m) primary window ≠ [] := by
    simp [replicaVote, lostAt, Views.ofAnswers, NodeView.ofAnswer, NodeView.fromStatus,
      NodeView.usable, ReplicaView.fromJson]
  have hvoters : voters members primary window (lostAt primary m ts) = [m] := by
    rw [voters, hwitnesses]
    simp [hvote]
  refine ⟨rfl, ?_, ?_⟩
  · rw [hwitnesses]
    exact Nat.one_pos
  · rw [hwitnesses, hvoters]
    exact Nat.one_lt_two

/-- Lost polls alone kill by their number and their span. -/
theorem died_lost {cfg : Config} {members : List Node} (hnodup : members.Nodup)
    {primary m : Node} (hm : cfg.mode = .dbguard → m ∈ members ∧ m ≠ primary)
    {last : Observation} {run : List Observation}
    (hrun : ∀ ob ∈ run, ∃ ts, ob = lostAt primary m ts) :
    Died cfg.params members primary last run ↔
      cfg.probeFailures ≤ run.length ∧ cfg.detectWindowS ≤ age last.ts run.reverse := by
  have hfailing : failing run primary = run.reverse := by
    refine List.takeWhile_eq_self_iff.mpr fun ob hob => ?_
    obtain ⟨ts, rfl⟩ := hrun ob (List.mem_reverse.mp hob)
    simp [lostAt]
  have houtvoted : cfg.mode = .dbguard →
      outvoted run (members.filter (· ≠ primary)) primary cfg.detectWindowS = run.reverse := by
    intro hmode
    refine List.takeWhile_eq_self_iff.mpr fun ob hob => ?_
    obtain ⟨ts, rfl⟩ := hrun ob (List.mem_reverse.mp hob)
    obtain ⟨hmem, hne⟩ := hm hmode
    exact (outvoted_iff hnodup primary cfg.detectWindowS _).mpr
      (outvoted_lostAt hnodup hmem hne cfg.detectWindowS ts)
  rw [Died, hfailing, List.length_reverse]
  refine ⟨fun h => h.1, fun h => ⟨h, fun hmode => ?_⟩⟩
  show cfg.detectWindowS ≤ age last.ts
    (outvoted run (members.filter (· ≠ primary)) primary cfg.detectWindowS)
  rw [houtvoted hmode]
  exact h.2

/-- A run of lost polls that kills, without what is stale at its end. -/
structure Forgotten (cfg : Config) (d : Time) (primary m : Node) (run : List Observation)
    (last : Observation) : Prop where
  newest : run.getLast? = some last
  lost : ∀ ob ∈ run, ∃ ts, ob = lostAt primary m ts
  paced : Paced d run
  enough : cfg.probeFailures ≤ run.length ∧ cfg.detectWindowS ≤ age last.ts run.reverse
  kept : ¬ (cfg.probeFailures ≤ (run.dropWhile (stale (keepS cfg) last.ts)).length ∧
    cfg.detectWindowS ≤ age last.ts (run.dropWhile (stale (keepS cfg) last.ts)).reverse)

variable {cfg : Config} {d : Time}

/-- The history is kept for three windows. -/
theorem window_le_keepS (hwindow : 0 < cfg.detectWindowS) :
    cfg.detectWindowS * 3 ≤ keepS cfg ∧ 0 < keepS cfg := by
  have hle : cfg.detectWindowS * 3 ≤ keepS cfg := le_max_left _ _
  exact ⟨hle, by linarith⟩

/-- `probe_failures` polls `d` apart: the first is gone before the last has come. -/
theorem forgotten_of_many (hwindow : 0 < cfg.detectWindowS)
    (h : keepS cfg < (cfg.probeFailures - 1 : Nat) * d) (primary m : Node) :
    ∃ run last, Forgotten cfg d primary m run last := by
  obtain ⟨hle, hkeep⟩ := window_le_keepS hwindow
  -- A threshold of 0 or 1 polls needs none from before the trim.
  obtain ⟨k, hk⟩ : ∃ k, cfg.probeFailures = k + 1 := by
    refine Nat.exists_eq_succ_of_ne_zero fun hzero => ?_
    rw [hzero] at h
    simp only [Nat.zero_sub, Nat.cast_zero, zero_mul] at h
    linarith
  rw [hk, Nat.add_sub_cancel] at h
  have hd : 0 < d := by
    by_contra hneg
    have hprod : (k : Int) * d ≤ 0 :=
      mul_nonpos_of_nonneg_of_nonpos (Int.natCast_nonneg _) (not_lt.mp hneg)
    linarith
  -- The polls come at distance `d` from time 0 on, one more than the trim keeps.
  let poll : Nat → Observation := fun i => lostAt primary m (i * d)
  have hrun : (List.range (k + 1)).map poll = poll 0 :: ((List.range k).map Nat.succ).map poll := by
    rw [List.range_succ_eq_map, List.map_cons]
  have hfirst : (poll 0).ts = 0 := Int.zero_mul d
  refine ⟨(List.range (k + 1)).map poll, poll k, ?_, fun ob hob => ?_, ?_, ?_, ?_⟩
  · rw [List.getLast?_map, List.getLast?_range]
    rfl
  · obtain ⟨i, -, rfl⟩ := List.mem_map.mp hob
    exact ⟨_, rfl⟩
  -- They are as far apart as the loop makes them.
  · rw [Paced, List.isChain_map, List.isChain_range_succ]
    intro i _
    have hstep : (poll i.succ).ts = (poll i).ts + d := by
      show ((i.succ : Nat) : Int) * d = i * d + d
      rw [Nat.cast_succ, Int.add_mul, Int.one_mul]
    rw [hstep]
    exact ⟨by linarith, fun _ => le_refl _⟩
  -- They are enough for a verdict, by number and by age.
  · rw [List.length_map, List.length_range]
    refine ⟨hk.le, ?_⟩
    rw [age, List.getLast?_reverse, hrun]
    show cfg.detectWindowS ≤ (poll k).ts - (poll 0).ts
    rw [hfirst]
    show cfg.detectWindowS ≤ (k : Int) * d - 0
    linarith
  -- The first one is too old and is dropped, and then they are not enough.
  · have hstale : stale (keepS cfg) (poll k).ts (poll 0) = true := by
      refine decide_eq_true ?_
      rw [hfirst]
      show keepS cfg < (k : Int) * d - 0
      linarith
    rw [hrun, List.dropWhile_cons_of_pos hstale]
    intro hkept
    have hlen := (List.dropWhile_sublist (stale (keepS cfg) (poll k).ts)
      (l := ((List.range k).map Nat.succ).map poll)).length_le
    rw [List.length_map, List.length_map, List.length_range] at hlen
    have henough := hkept.1
    omega

/-- Enough polls at once, then one just before the first are gone: it is younger than the
window. -/
theorem forgotten_of_late (hwindow : 0 < cfg.detectWindowS)
    (h : keepS cfg + 1 < cfg.detectWindowS + d) (primary m : Node) :
    ∃ run last, Forgotten cfg d primary m run last := by
  obtain ⟨hle, hkeep⟩ := window_le_keepS hwindow
  -- The second poll is the first one that the trim keeps.
  let t : Time := min d (keepS cfg + 1)
  have htd : t ≤ d := min_le_left _ _
  have htk : t ≤ keepS cfg + 1 := min_le_right _ _
  have hlate : keepS cfg + 1 - t < cfg.detectWindowS := by
    rcases min_choice d (keepS cfg + 1) with ht | ht
    · have ht : t = d := ht
      linarith
    · have ht : t = keepS cfg + 1 := ht
      linarith
  have hpos : 0 < t := by linarith
  -- The first observation stands often enough to make the number; the window is what fails.
  let first := lostAt primary m 0
  let second := lostAt primary m t
  let last := lostAt primary m (keepS cfg + 1)
  have hstale : ∀ ob ∈ List.replicate (cfg.probeFailures + 1) first,
      stale (keepS cfg) last.ts ob = true := by
    intro ob hob
    obtain rfl := List.eq_of_mem_replicate hob
    refine decide_eq_true ?_
    show keepS cfg < keepS cfg + 1 - 0
    linarith
  have hfresh : stale (keepS cfg) last.ts second = false := by
    refine decide_eq_false ?_
    show ¬ keepS cfg < keepS cfg + 1 - t
    have hone : 1 ≤ t := hpos
    linarith
  -- The run: enough polls at time 0, then `second`, then `last`.
  refine ⟨List.replicate (cfg.probeFailures + 1) first ++ [second, last], last, ?_, ?_, ?_, ?_, ?_⟩
  · simp
  · intro ob hob
    rw [List.mem_append, List.mem_cons, List.mem_singleton] at hob
    rcases hob with hob | rfl | rfl
    · exact ⟨0, List.eq_of_mem_replicate hob⟩
    · exact ⟨_, rfl⟩
    · exact ⟨_, rfl⟩
  · refine List.isChain_append.mpr ⟨List.isChain_replicate_of_rel _ ?_, ?_, ?_⟩
    · exact ⟨le_refl _, fun _ => by show (0 : Int) ≤ 0 + d; linarith⟩
    · refine List.isChain_cons_cons.mpr ⟨⟨htk, fun _ => ?_⟩, List.isChain_singleton _⟩
      show keepS cfg + 1 ≤ t + d
      linarith
    · intro a ha b hb
      obtain rfl := List.eq_of_mem_replicate (List.mem_of_getLast? ha)
      obtain rfl : second = b := by simpa using hb
      exact ⟨hpos.le, fun _ => by show t ≤ 0 + d; linarith⟩
  -- The whole run is dead, by number and by age.
  · constructor
    · simp
      omega
    · rw [age, List.getLast?_reverse]
      show cfg.detectWindowS ≤ keepS cfg + 1 - 0
      linarith
  -- Without the polls at time 0 it is too young.
  · rw [List.dropWhile_append_of_pos hstale, List.dropWhile_cons_of_neg (by simp [hfresh])]
    intro hkept
    have hage : age last.ts [second, last].reverse = keepS cfg + 1 - t := rfl
    rw [hage] at hkept
    linarith [hkept.2]

/-! ### The bound -/

/-- The newest poll is kept. -/
theorem kept_last {run : List Observation} {last : Observation}
    (hlast : run.getLast? = some last) (hwindow : 0 < cfg.detectWindowS) :
    (run.dropWhile (stale (keepS cfg) last.ts)).getLast? = some last := by
  have hfresh : ¬ stale (keepS cfg) last.ts last = true := by
    intro hold
    have hlt : keepS cfg < last.ts - last.ts := of_decide_eq_true hold
    linarith [(window_le_keepS hwindow).2]
  obtain ⟨init, rfl⟩ := List.getLast?_eq_some_iff.mp hlast
  rw [List.dropWhile_append]
  split
  · rw [List.dropWhile_cons_of_neg hfresh]
    rfl
  · rw [List.getLast?_append]
    rfl

/-- Without a second node nobody outvotes the primary. -/
theorem not_died_of_no_voter {members : List Node} (hnodup : members.Nodup) {primary : Node}
    (hwindow : 0 < cfg.detectWindowS) (hmode : cfg.mode = .dbguard)
    (hnone : ∀ m ∈ members, m = primary) {last : Observation} {run : List Observation} :
    ¬ Died cfg.params members primary last run := by
  intro hdied
  obtain ⟨ob, hob⟩ := List.exists_mem_of_ne_nil _ (age_pos_ne_nil hwindow (hdied.2 hmode))
  have hwalk := List.mem_takeWhile_imp hob
  obtain ⟨-, hpos, -⟩ := (outvoted_iff hnodup primary cfg.detectWindowS ob).mp hwalk
  obtain ⟨m, hm⟩ := List.exists_mem_of_length_pos hpos
  obtain ⟨hmem, hwitness⟩ := List.mem_filter.mp hm
  rw [hnone m hmem] at hwitness
  simp at hwitness

/-- The polls since the history was last emptied never get another kind of verdict from what is
kept of them than from all, exactly if the polls are dense or nobody could vote. -/
theorem trim_harmless_iff (cfg : Config) {members : List Node} (hnodup : members.Nodup)
    (hwindow : 0 < cfg.detectWindowS) {s : Ctl} (hs : s.history = []) (primary : Node)
    (probeTimeoutS pollIntervalS : Time) :
    (∀ run last, run.getLast? = some last → (∀ n ∈ last.primary, n = primary) →
      Paced (probeTimeoutS + pollIntervalS) run →
      (evaluate (polled cfg s run).history members cfg.params none).kind =
        (evaluate run members cfg.params none).kind) ↔
      Dense cfg (probeTimeoutS + pollIntervalS) ∨
        cfg.mode = .dbguard ∧ ∀ m ∈ members, m = primary := by
  set d := probeTimeoutS + pollIntervalS
  constructor
  · intro hsame
    by_contra hnot
    rw [not_or, not_and] at hnot
    obtain ⟨hsparse, hvoter⟩ := hnot
    -- A voter for the polls that lose the primary; in another mode none is needed.
    obtain ⟨m, hm⟩ : ∃ m, cfg.mode = .dbguard → m ∈ members ∧ m ≠ primary := by
      by_cases hmode : cfg.mode = .dbguard
      · have hother := hvoter hmode
        simp only [not_forall] at hother
        obtain ⟨m, hmem, hne⟩ := hother
        exact ⟨m, fun _ => ⟨hmem, hne⟩⟩
      · exact ⟨primary, fun h => absurd h hmode⟩
    -- The history is too sparse in number or in age, and there is a run for each.
    obtain ⟨run, last, hrun⟩ : ∃ run last, Forgotten cfg d primary m run last := by
      by_cases hmany : keepS cfg < (cfg.probeFailures - 1 : Nat) * d
      · exact forgotten_of_many hwindow hmany primary m
      · refine forgotten_of_late hwindow (not_le.mp fun hlate => ?_) primary m
        exact hsparse ⟨not_lt.mp hmany, hlate⟩
    obtain ⟨hnewest, hlost, hpaced, henough, hforgot⟩ := hrun
    have hlast : last.primary = some primary := by
      obtain ⟨ts, rfl⟩ := hlost last (List.mem_of_getLast? hnewest)
      rfl
    have hdrop := List.dropWhile_sublist (stale (keepS cfg) last.ts) (l := run)
    have habout : ∀ n ∈ last.primary, n = primary := by
      intro n hn
      rw [hlast] at hn
      exact (Option.some.inj hn).symm
    have heq := hsame run last hnewest habout hpaced
    -- The trim leaves the kept part, so the verdict is that on this part.
    rw [history_polled cfg hs hnewest hpaced.sorted] at heq
    have hdead := (kind_dead_iff_died hnewest hlast hwindow members).mpr
      ((died_lost hnodup hm hlost).mpr henough)
    rw [hdead, kind_dead_iff_died (kept_last hnewest hwindow) hlast hwindow members] at heq
    exact hforgot ((died_lost hnodup hm fun ob hob => hlost ob (hdrop.subset hob)).mp heq)
  · intro h run last hlast hprimary hpaced
    rw [history_polled cfg hs hlast hpaced.sorted]
    -- The two verdicts can differ only in whether the primary died.
    refine kind_congr hlast (kept_last hlast hwindow) hwindow fun n hn => ?_
    obtain rfl := hprimary n hn
    have hrun : run.takeWhile (stale (keepS cfg) last.ts) ++
        run.dropWhile (stale (keepS cfg) last.ts) = run := List.takeWhile_append_dropWhile
    have hstale : ∀ ob ∈ run.takeWhile (stale (keepS cfg) last.ts),
        keepS cfg < last.ts - ob.ts := by
      intro ob hob
      have hold := List.mem_takeWhile_imp hob
      exact of_decide_eq_true hold
    -- A primary that died by the kept part died by the whole run.
    constructor
    · intro hdied
      have hall := died_of_kept hwindow (hrun.symm ▸ hpaced.sorted) hdied
      rwa [hrun] at hall
    -- And the other way round if the kept part is dense, or nobody can vote at all.
    · intro hdied
      rcases h with hdense | ⟨hmode, hnone⟩
      · exact died_kept hwindow hdense (hrun.symm ▸ hpaced) (kept_last hlast hwindow) hstale
          (hrun.symm ▸ hdied)
      · exact absurd hdied (not_died_of_no_voter hnodup hwindow hmode hnone)

/-- The defaults are dense: a failing poll takes a second and a half at most. -/
theorem trim_harmless_defaults : ["a", "b", "c"].Nodup ∧ 0 < fleet.detectWindowS ∧
    ∀ run last, run.getLast? = some last → (∀ n ∈ last.primary, n = "a") →
      Paced (1000 + 500) run →
      (evaluate (polled fleet { members := ["a", "b", "c"] } run).history ["a", "b", "c"]
        fleet.params none).kind = (evaluate run ["a", "b", "c"] fleet.params none).kind :=
  ⟨by decide, by decide, (trim_harmless_iff fleet (by decide) (by decide) rfl "a" 1000 500).mpr
    (.inl (by decide +kernel))⟩

/-- Twelve failed probes are asked for, and of twelve a second and a half apart eleven are kept:
nobody is ever DEAD. -/
theorem trim_forgets :
    let cfg := { fleet with probeFailures := 12 }
    let run := (List.range 12).map fun i : Nat => lostAt "a" "b" (i * 1500)
    0 < cfg.detectWindowS ∧ Paced (1000 + 500) run ∧
      (evaluate run ["a", "b", "c"] cfg.params none).kind = .dead ∧
      (evaluate (polled cfg { members := ["a", "b", "c"] } run).history ["a", "b", "c"]
        cfg.params none).kind = .suspect := by
  unfold Paced
  decide +kernel

end DbGuard
