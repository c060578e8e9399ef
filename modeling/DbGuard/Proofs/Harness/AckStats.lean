import DbGuard.Harness.AckStats
import Mathlib.Data.List.Induction
import Mathlib.Order.Bounds.Basic

/-!
# `DbGuard.Proofs.Harness.AckStats`: the failover time that is published

`Published` is the definition of the failover time. After an error it is the first
acknowledgement of a request that started after the error. Without an error it is the end of
the largest gap between acknowledgements (`LargestGap`).

The lists of `analyze_acks` are sorted, so their heads are least elements and the pairs of
neighbours are the gaps. `bestGap_iff` says that the loop finds the first of the largest gaps.
One `if` and `elif` choose between the two rules by what the first one gives, not by whether
there was an error: a run with errors and no later acknowledgement gets the gap.
-/

set_option autoImplicit false

namespace DbGuard.Harness

variable {C : Type}

/-! ### The definition -/

/-- The first error since shortly before the injection. -/
def FirstError (errs : List (ErrRow C)) (inject e : ℚ) : Prop :=
  IsLeast {t | inject - 1 / 20 ≤ t ∧ ∃ r ∈ errs, r.tErr = some t} e

section
variable (oks : List (OkRow C)) (inject : ℚ) (windowEnd : Option ℚ)

/-- The time of an acknowledged write in the window, or of the last one before it. -/
def InWindow (t : ℚ) : Prop :=
  t ∈ oks.map (·.tOk) ∧
    (inject - 1 ≤ t ∧ (∀ e ∈ windowEnd, t ≤ e) ∨
      t < inject - 1 ∧ ∀ t' ∈ oks.map (·.tOk), t' < inject - 1 → t' ≤ t)

/-- Two times with no acknowledged write between them. -/
def Gap (a b : ℚ) : Prop :=
  InWindow oks inject windowEnd a ∧ InWindow oks inject windowEnd b ∧ a < b ∧
    ∀ t, InWindow oks inject windowEnd t → t ≤ a ∨ b ≤ t

/-- The largest gap, and the first one where several are. -/
structure LargestGap (a b : ℚ) : Prop where
  gap : Gap oks inject windowEnd a b
  largest : ∀ a' b', Gap oks inject windowEnd a' b' → b' - a' ≤ b - a
  first : ∀ a' b', Gap oks inject windowEnd a' b' → b' - a' = b - a → b ≤ b'

/-- A failover time is the defined one. -/
structure Published (errs : List (ErrRow C)) (threshold : ℚ) (failoverS : Option ℚ) : Prop where
  after_error : ∀ e, FirstError errs inject e → ∀ v, failoverS = some v ↔
    IsLeast {t | ∃ r ∈ oks, e ≤ okStart r ∧ r.tOk = t} (v + inject)
  without_error : (∀ e, ¬ FirstError errs inject e) → ∀ v, failoverS = some v ↔
    ∃ a b, LargestGap oks inject windowEnd a b ∧ threshold < b - a ∧ inject < b ∧ v = b - inject

end

/-! ### Sorted lists -/

section
variable {l : List ℚ} {a b t : ℚ}

/-- Sorting sorts. -/
theorem pairwise_sorted (l : List ℚ) : (sorted l).Pairwise (· ≤ ·) := by
  have h := @List.pairwise_mergeSort ℚ (fun a b => decide (a ≤ b))
    (fun a b c hab hbc => by simpa using le_trans (by simpa using hab) (by simpa using hbc))
    (fun a b => by simpa using le_total a b) l
  exact h.imp fun hab => by simpa using hab

/-- It keeps the members. -/
theorem mem_sorted : t ∈ sorted l ↔ t ∈ l := List.mem_mergeSort

/-- The first entry of a sorted list is at most every entry. -/
theorem head_le_of_mem {x : ℚ} (h : (x :: l).Pairwise (· ≤ ·)) (ht : t ∈ x :: l) : x ≤ t := by
  rcases List.mem_cons.mp ht with rfl | ht
  · exact le_rfl
  · exact (List.pairwise_cons.mp h).1 t ht

/-- The head of a sorted list is its least element. -/
theorem head?_iff_isLeast (h : l.Pairwise (· ≤ ·)) : l.head? = some a ↔ IsLeast {t | t ∈ l} a := by
  cases l with
  | nil => simp [IsLeast]
  | cons x l =>
    have hx : IsLeast {t | t ∈ x :: l} x := ⟨List.mem_cons_self, fun t ht => head_le_of_mem h ht⟩
    constructor
    · intro heq
      cases heq
      exact hx
    · intro ha
      rw [List.head?_cons, hx.unique ha]

/-- Neighbours in a sorted list are members with none between them. -/
theorem mem_zip_tail_iff (h : l.Pairwise (· ≤ ·)) (hab : a < b) :
    (a, b) ∈ l.zip l.tail ↔ a ∈ l ∧ b ∈ l ∧ ∀ t ∈ l, t ≤ a ∨ b ≤ t := by
  -- The induction goes along the list: the pair is the first one, or one further on.
  induction l with
  | nil => simp
  | cons x l ih =>
    have hl := (List.pairwise_cons.mp h).2
    cases l with
    | nil =>
      constructor
      · simp
      · rintro ⟨ha, hb, -⟩
        rw [List.mem_singleton] at ha hb
        exact absurd hab (by rw [ha, hb]; exact lt_irrefl x)
    | cons y l =>
      rw [List.tail_cons, List.zip_cons_cons, List.mem_cons]
      constructor
      -- Of neighbours in a sorted list nothing is between.
      · rintro (heq | hmem)
        · obtain ⟨rfl, rfl⟩ := Prod.mk.inj heq
          refine ⟨by simp, by simp, fun t ht => ?_⟩
          rcases List.mem_cons.mp ht with rfl | ht
          · exact .inl le_rfl
          · exact .inr (head_le_of_mem hl ht)
        · obtain ⟨ha, hb, hbetween⟩ := (ih hl).mp hmem
          refine ⟨List.mem_cons_of_mem x ha, List.mem_cons_of_mem x hb, fun t ht => ?_⟩
          rcases List.mem_cons.mp ht with rfl | ht
          · exact .inl (head_le_of_mem h (List.mem_cons_of_mem t ha))
          · exact hbetween t ht
      · rintro ⟨ha, hb, hbetween⟩
        have hbl : b ∈ y :: l := by
          rcases List.mem_cons.mp hb with rfl | hb
          · exact absurd (head_le_of_mem h ha) (not_le.mpr hab)
          · exact hb
        -- Where `a` still occurs further on, so does the pair.
        by_cases hal : a ∈ y :: l
        · exact .inr ((ih hl).mpr
            ⟨hal, hbl, fun t ht => hbetween t (List.mem_cons_of_mem x ht)⟩)
        · -- Then `a` is the first entry only, and the second one is not below `b`.
          have hax : a = x := (List.mem_cons.mp ha).resolve_right hal
          have hby : b ≤ y := by
            rcases hbetween y (by simp) with hya | hby
            · have hxy : x ≤ y := head_le_of_mem h (by simp)
              have hya' : a = y := le_antisymm (hax ▸ hxy) hya
              exact absurd (hya' ▸ List.mem_cons_self) hal
            · exact hby
          have hbeq : b = y := le_antisymm hby (head_le_of_mem hl hbl)
          exact .inl (by rw [hax, hbeq])

/-- The last entry of a sorted list is its greatest element. -/
theorem getLast?_iff_isGreatest (h : l.Pairwise (· ≤ ·)) :
    l.getLast? = some a ↔ IsGreatest {t | t ∈ l} a := by
  have hlast : ∀ {z}, l.getLast? = some z → IsGreatest {t | t ∈ l} z := by
    intro z hz
    obtain ⟨ys, rfl⟩ := List.getLast?_eq_some_iff.mp hz
    refine ⟨by simp, fun t ht => ?_⟩
    rcases List.mem_append.mp ht with ht | ht
    · exact (List.pairwise_append.mp h).2.2 t ht z (List.mem_singleton_self z)
    · exact (List.mem_singleton.mp ht).le
  constructor
  · exact hlast
  · intro ha
    cases hz : l.getLast? with
    | none =>
      rw [List.getLast?_eq_none_iff] at hz
      exact absurd ha.1 (by simp [hz])
    | some z => rw [(hlast hz).unique ha]

/-- The ends of the pairs of neighbours are in order. -/
theorem pairwise_zip_tail (h : l.Pairwise (· ≤ ·)) :
    (l.zip l.tail).Pairwise fun p q => p.2 ≤ q.2 := by
  have hmap : (l.zip l.tail).map Prod.snd = l.tail := List.map_snd_zip (by simp)
  have htail : ((l.zip l.tail).map Prod.snd).Pairwise (· ≤ ·) := by
    rw [hmap]
    exact h.tail
  exact List.pairwise_map.mp htail

end

/-! ### The largest gap -/

/-- The first of the longest pairs, if it has a length. -/
structure Longest (ps : List (ℚ × ℚ)) (p : ℚ × ℚ) : Prop where
  mem : p ∈ ps
  pos : 0 < p.2 - p.1
  longest : ∀ q ∈ ps, q.2 - q.1 ≤ p.2 - p.1
  first : ∀ q ∈ ps, q.2 - q.1 = p.2 - p.1 → p.2 ≤ q.2

/-- What the loop has found after some pairs. -/
def Best (ps : List (ℚ × ℚ)) (best : ℚ × Option (ℚ × ℚ)) : Prop :=
  match best.2 with
  | none => best.1 = 0 ∧ ∀ q ∈ ps, q.2 - q.1 ≤ 0
  | some p => best.1 = p.2 - p.1 ∧ Longest ps p

/-- One round of the loop. The ends are in order, so a later pair of the same length does not
end earlier. -/
theorem Best.widen {lo : ℚ} {ps : List (ℚ × ℚ)} {best : ℚ × Option (ℚ × ℚ)} {p : ℚ × ℚ}
    (h : Best ps best) (hlo : lo ≤ p.2) (hends : ∀ q ∈ ps, q.2 ≤ p.2) :
    Best (ps ++ [p]) (widen lo best p) := by
  obtain ⟨len, found⟩ := best
  unfold DbGuard.Harness.widen
  split
  · next hlong =>
    -- What was found so far is longer than nothing, and no shorter than any gap before.
    have hbelow : 0 ≤ len ∧ ∀ q ∈ ps, q.2 - q.1 ≤ len := by
      cases found with
      | none =>
        obtain rfl : len = 0 := h.1
        exact ⟨le_rfl, h.2⟩
      | some r =>
        obtain rfl : len = r.2 - r.1 := h.1
        exact ⟨h.2.pos.le, h.2.longest⟩
    -- The new gap is longer than all before, so it is the first of its length.
    have hshorter : ∀ q ∈ ps, q.2 - q.1 < p.2 - p.1 :=
      fun q hq => (hbelow.2 q hq).trans_lt hlong.1
    refine ⟨rfl, by simp, hbelow.1.trans_lt hlong.1, fun q hq => ?_, fun q hq heq => ?_⟩
    · rcases List.mem_append.mp hq with hq | hq
      · exact (hshorter q hq).le
      · rw [List.mem_singleton.mp hq]
    · rcases List.mem_append.mp hq with hq | hq
      · exact absurd heq (hshorter q hq).ne
      · rw [List.mem_singleton.mp hq]
  · next hshort =>
    have hle : p.2 - p.1 ≤ len := not_lt.mp fun hlt => hshort ⟨hlt, hlo⟩
    -- Nothing was found, and the new gap is no longer than the least length.
    cases found with
    | none =>
      obtain rfl : len = 0 := h.1
      refine ⟨rfl, fun q hq => ?_⟩
      rcases List.mem_append.mp hq with hq | hq
      · exact h.2 q hq
      · rw [List.mem_singleton.mp hq]
        exact hle
    | some r =>
      obtain rfl : len = r.2 - r.1 := h.1
      refine ⟨rfl, by simp [h.2.mem], h.2.pos, fun q hq => ?_, fun q hq heq => ?_⟩
      · rcases List.mem_append.mp hq with hq | hq
        · exact h.2.longest q hq
        · rw [List.mem_singleton.mp hq]
          exact hle
      -- Of two gaps of one length the earlier one stands.
      · rcases List.mem_append.mp hq with hq | hq
        · exact h.2.first q hq heq
        · rw [List.mem_singleton.mp hq]
          exact hends r h.2.mem

/-- The whole loop. -/
theorem best_foldl {lo : ℚ} {ps : List (ℚ × ℚ)} (hends : ps.Pairwise fun p q => p.2 ≤ q.2)
    (hlo : ∀ p ∈ ps, lo ≤ p.2) : Best ps (ps.foldl (widen lo) (0, none)) := by
  induction ps using List.reverseRecOn with
  | nil => exact ⟨rfl, by simp⟩
  | append_singleton ps p ih =>
    rw [List.foldl_append]
    have hpair := List.pairwise_append.mp hends
    refine (ih hpair.1 fun q hq => hlo q (by simp [hq])).widen (hlo p (by simp)) fun q hq => ?_
    exact hpair.2.2 q hq p (List.mem_singleton_self p)

section
variable {oks : List (OkRow C)} {errs : List (ErrRow C)} {inject a b t e threshold : ℚ}
  {windowEnd : Option ℚ}

/-- The last acknowledged write before the window. -/
theorem getLast?_before :
    ((sorted (oks.map (·.tOk))).filter (· < inject - 1)).getLast? = some t ↔
      t ∈ oks.map (·.tOk) ∧ t < inject - 1 ∧
        ∀ t' ∈ oks.map (·.tOk), t' < inject - 1 → t' ≤ t := by
  rw [getLast?_iff_isGreatest ((pairwise_sorted _).filter _)]
  simp only [IsGreatest, upperBounds, Set.mem_ofPred_eq, List.mem_filter, mem_sorted,
    decide_eq_true_eq, and_assoc, and_imp]

/-- The points of a gap are the acks in the window and its two ends. -/
theorem mem_gapPoints : t ∈ gapPoints oks inject windowEnd ↔ InWindow oks inject windowEnd t := by
  have hend : windowEnd.all (t ≤ ·) = true ↔ ∀ e ∈ windowEnd, t ≤ e := by
    cases windowEnd <;> simp
  simp only [gapPoints, List.mem_append, Option.mem_toList, Option.mem_def, getLast?_before,
    List.mem_filter, mem_sorted, Bool.and_eq_true, decide_eq_true_eq, hend, InWindow]
  constructor
  · rintro (⟨ht, hlt, hlast⟩ | ⟨ht, hle, hupto⟩)
    · exact ⟨ht, .inr ⟨hlt, hlast⟩⟩
    · exact ⟨ht, .inl ⟨hle, hupto⟩⟩
  · rintro ⟨ht, ⟨hle, hupto⟩ | ⟨hlt, hlast⟩⟩
    · exact .inr ⟨ht, hle, hupto⟩
    · exact .inl ⟨ht, hlt, hlast⟩

/-- They are in order. -/
theorem pairwise_gapPoints : (gapPoints oks inject windowEnd).Pairwise (· ≤ ·) := by
  refine List.pairwise_append.mpr ⟨?_, (pairwise_sorted _).filter _, fun x hx y hy => ?_⟩
  · cases List.getLast? _ <;> simp
  · have hlt := (getLast?_before.mp (Option.mem_toList.mp hx)).2.1
    have hle : inject - 1 ≤ y := by
      have hy := (List.mem_filter.mp hy).2
      simp only [Bool.and_eq_true, decide_eq_true_eq] at hy
      exact hy.1
    exact hlt.le.trans hle

/-- Only the first of the points can be before the window. -/
theorem le_of_mem_tail_gapPoints (ht : t ∈ (gapPoints oks inject windowEnd).tail) :
    inject - 1 ≤ t := by
  have hin : t ∈ (sorted (oks.map (·.tOk))).filter fun t =>
      inject - 1 ≤ t && windowEnd.all (t ≤ ·) := by
    simp only [gapPoints] at ht
    cases hlast : ((sorted (oks.map (·.tOk))).filter (· < inject - 1)).getLast? with
    | none =>
      rw [hlast] at ht
      exact List.mem_of_mem_tail ht
    | some last =>
      rw [hlast] at ht
      exact ht
  have hle := (List.mem_filter.mp hin).2
  simp only [Bool.and_eq_true, decide_eq_true_eq] at hle
  exact hle.1

/-- A gap lies between two neighbours of them. -/
theorem gap_iff : Gap oks inject windowEnd a b ↔
    a < b ∧ (a, b) ∈ (gapPoints oks inject windowEnd).zip (gapPoints oks inject windowEnd).tail := by
  constructor
  · rintro ⟨ha, hb, hab, hbetween⟩
    refine ⟨hab, (mem_zip_tail_iff pairwise_gapPoints hab).mpr ⟨mem_gapPoints.mpr ha,
      mem_gapPoints.mpr hb, fun t ht => hbetween t (mem_gapPoints.mp ht)⟩⟩
  · rintro ⟨hab, hmem⟩
    obtain ⟨ha, hb, hbetween⟩ := (mem_zip_tail_iff pairwise_gapPoints hab).mp hmem
    exact ⟨mem_gapPoints.mp ha, mem_gapPoints.mp hb, hab,
      fun t ht => hbetween t (mem_gapPoints.mpr ht)⟩

/-- There is one largest gap at most. -/
theorem LargestGap.unique {a' b' : ℚ} (h : LargestGap oks inject windowEnd a b)
    (h' : LargestGap oks inject windowEnd a' b') : (a, b) = (a', b') := by
  have hlength : b' - a' = b - a :=
    le_antisymm (h.largest a' b' h'.gap) (h'.largest a b h.gap)
  have hb : b = b' :=
    le_antisymm (h.first a' b' h'.gap hlength) (h'.first a b h.gap hlength.symm)
  have ha : a = a' := by linarith
  rw [ha, hb]

/-- The loop of `analyze_acks` keeps the largest gap. -/
theorem bestGap_iff :
    bestGap oks inject windowEnd = some (a, b) ↔ LargestGap oks inject windowEnd a b := by
  set pairs := (gapPoints oks inject windowEnd).zip (gapPoints oks inject windowEnd).tail
    with hpairs
  have hbest : Best pairs (pairs.foldl (widen (inject - 1)) (0, none)) :=
    best_foldl (pairwise_zip_tail pairwise_gapPoints)
      fun p hp => le_of_mem_tail_gapPoints (List.of_mem_zip hp).2
  have hlargest : ∀ {p}, Longest pairs p → LargestGap oks inject windowEnd p.1 p.2 :=
    fun hp => ⟨gap_iff.mpr ⟨sub_pos.mp hp.pos, hp.mem⟩,
      fun a' b' hgap => hp.longest (a', b') (gap_iff.mp hgap).2,
      fun a' b' hgap => hp.first (a', b') (gap_iff.mp hgap).2⟩
  show (pairs.foldl (widen (inject - 1)) (0, none)).2 = some (a, b) ↔ _
  unfold Best at hbest
  cases hfound : (pairs.foldl (widen (inject - 1)) (0, none)).2 with
  | none =>
    rw [hfound] at hbest
    refine iff_of_false (by simp) fun h => ?_
    have hgap := gap_iff.mp h.gap
    exact absurd (hbest.2 (a, b) hgap.2) (not_le.mpr (sub_pos.mpr hgap.1))
  | some p =>
    rw [hfound] at hbest
    constructor
    · intro heq
      obtain rfl : p = (a, b) := Option.some.inj heq
      exact hlargest hbest.2
    · intro h
      exact congrArg some ((hlargest hbest.2).unique h)

/-! ### The two rules -/

/-- The head of the errors is the first error. -/
theorem head?_errorsAfter : (errorsAfter errs inject).head? = some e ↔
    FirstError errs inject e := by
  have hset : {t | t ∈ errorsAfter errs inject} =
      {t | inject - 1 / 20 ≤ t ∧ ∃ r ∈ errs, r.tErr = some t} := by
    ext t
    simp only [errorsAfter, Set.mem_ofPred_eq, List.mem_filter, mem_sorted, List.mem_filterMap,
      decide_eq_true_eq]
    exact and_comm
  have hordered : (errorsAfter errs inject).Pairwise (· ≤ ·) := (pairwise_sorted _).filter _
  rw [head?_iff_isLeast hordered, FirstError, hset]

/-- The first ack since `e` is the least. -/
theorem min?_okSince : (okSince oks e).min? = some t ↔
    IsLeast {t | ∃ r ∈ oks, e ≤ okStart r ∧ r.tOk = t} t := by
  simp only [List.min?_eq_some_iff, okSince, IsLeast, lowerBounds, Set.mem_ofPred_eq,
    List.mem_map, List.mem_filter, decide_eq_true_eq, and_assoc]

/-- The rule of the gap. -/
theorem gapRule_iff {v : ℚ} : ((bestGap oks inject windowEnd).bind fun g =>
      if threshold < g.2 - g.1 ∧ inject < g.2 then some (g.2 - inject) else none) = some v ↔
    ∃ a b, LargestGap oks inject windowEnd a b ∧ threshold < b - a ∧ inject < b ∧
      v = b - inject := by
  rw [Option.bind_eq_some_iff]
  constructor
  · rintro ⟨⟨a, b⟩, hbest, hrule⟩
    obtain ⟨hlong, hv⟩ := Option.ite_none_right_eq_some.mp hrule
    exact ⟨a, b, bestGap_iff.mp hbest, hlong.1, hlong.2, (Option.some.inj hv).symm⟩
  · rintro ⟨a, b, hlargest, hlong, hend, rfl⟩
    exact ⟨(a, b), bestGap_iff.mpr hlargest, if_pos ⟨hlong, hend⟩⟩

variable [DecidableEq C]

/-- The chain of `if` and `elif` that chooses the rule. -/
theorem failoverS_eq : (analyzeAcks oks errs (some inject) windowEnd threshold).failoverS =
    match (errorsAfter errs inject).head?.bind fun e => (okSince oks e).min? with
    | some ok => some (ok - inject)
    | none => (bestGap oks inject windowEnd).bind fun g =>
      if threshold < g.2 - g.1 ∧ inject < g.2 then some (g.2 - inject) else none := by
  cases hfirst : (errorsAfter errs inject).head?.bind fun e => (okSince oks e).min? with
  | some ok => simp only [analyzeAcks, hfirst]
  | none =>
    cases hgap : bestGap oks inject windowEnd with
    | none => simp only [analyzeAcks, hfirst, hgap, Option.bind_none]
    | some g =>
      simp only [analyzeAcks, hfirst, hgap, Option.bind_some]
      split_ifs <;> rfl

end

/-- Which failover times are the defined ones: all but those of a run with an error, no
acknowledgement after it, and a gap that the other rule takes. -/
theorem published_iff [DecidableEq C] (oks : List (OkRow C)) (errs : List (ErrRow C)) (inject : ℚ)
    (windowEnd : Option ℚ) (threshold : ℚ) :
    Published oks inject windowEnd errs threshold
        (analyzeAcks oks errs (some inject) windowEnd threshold).failoverS ↔
      ¬ ∃ e, FirstError errs inject e ∧ (∀ r ∈ oks, okStart r < e) ∧
        ∃ a b, LargestGap oks inject windowEnd a b ∧ threshold < b - a ∧ inject < b := by
  rw [failoverS_eq]
  cases herr : (errorsAfter errs inject).head? with
  | none =>
    -- Without an error the gap rule is the definition.
    have hno : ∀ e, ¬ FirstError errs inject e := fun e he => by
      simp [head?_errorsAfter.mpr he] at herr
    refine iff_of_true ⟨fun e he => absurd he (hno e), fun _ v => gapRule_iff⟩ ?_
    rintro ⟨e, he, -⟩
    exact hno e he
  | some e =>
    have he : FirstError errs inject e := head?_errorsAfter.mp herr
    rw [Option.bind_some]
    -- There is an ok after the error: both give its time.
    cases hmin : (okSince oks e).min? with
    | some ok =>
      have hok := min?_okSince.mp hmin
      refine iff_of_true ⟨fun e' he' v => ?_, fun hno => absurd he (hno e)⟩ ?_
      · obtain rfl : e' = e := he'.unique he
        show some (ok - inject) = some v ↔ _
        rw [Option.some.injEq, sub_eq_iff_eq_add]
        constructor
        · rintro rfl
          exact hok
        · exact hok.unique
      · rintro ⟨e', he', hbefore, -⟩
        obtain rfl : e' = e := he'.unique he
        obtain ⟨r, hr, hstart, -⟩ := hok.1
        exact absurd hstart (not_le.mpr (hbefore r hr))
    | none =>
      -- There is none: only the gap rule gives a time, where it gives one.
      have hbefore : ∀ r ∈ oks, okStart r < e := by
        intro r hr
        by_contra hstart
        have hmem : r.tOk ∈ okSince oks e :=
          List.mem_map.mpr ⟨r, List.mem_filter.mpr ⟨hr, by simpa using hstart⟩, rfl⟩
        rw [List.min?_eq_none_iff.mp hmin] at hmem
        exact List.not_mem_nil hmem
      constructor
      · -- The definition gives no time, so the gap must give none.
        rintro ⟨hafter, -⟩ ⟨e', he', -, a, b, hlargest, hlong, hend⟩
        have hleast := (hafter e he (b - inject)).mp
          (gapRule_iff.mpr ⟨a, b, hlargest, hlong, hend, rfl⟩)
        obtain ⟨r, hr, hstart, -⟩ := hleast.1
        exact absurd hstart (not_le.mpr (hbefore r hr))
      · intro hgap
        refine ⟨fun e' he' v => ?_, fun hno => absurd he (hno e)⟩
        obtain rfl : e' = e := he'.unique he
        refine iff_of_false (fun hv => ?_) fun hleast => ?_
        · obtain ⟨a, b, hlargest, hlong, hend, -⟩ := gapRule_iff.mp hv
          exact hgap ⟨e', he, hbefore, a, b, hlargest, hlong, hend⟩
        · obtain ⟨r, hr, hstart, -⟩ := hleast.1
          exact absurd hstart (not_le.mpr (hbefore r hr))

/-- A write sent half a second before the error is acknowledged two seconds after the injection,
and no later write is. -/
theorem last_gap_after_error :
    let oks : List (OkRow Unit) :=
      [{ client := (), tOk := 100 }, { client := (), tOk := 103, tStart := some (201 / 2) }]
    let errs : List (ErrRow Unit) := [{ client := (), tErr := some 101, error := "timeout" }]
    ¬ Published oks 101 none errs 1 (analyzeAcks oks errs (some 101) none 1).failoverS := by
  intro oks errs hpublished
  have hfirst : FirstError errs 101 101 := head?_errorsAfter.mp (by decide +kernel)
  have hsorted : sorted (oks.map (·.tOk)) = [100, 103] :=
    List.mergeSort_of_pairwise (by decide +kernel)
  have hgap : bestGap oks 101 none = some (100, 103) := by
    simp only [bestGap, gapPoints, hsorted]
    decide +kernel
  have hfailover : (analyzeAcks oks errs (some 101) none 1).failoverS = some 2 := by
    rw [failoverS_eq, hgap]
    decide +kernel
  obtain ⟨r, hr, hstart, -⟩ := ((hpublished.after_error 101 hfirst 2).mp hfailover).1
  have hbefore : ∀ r ∈ oks, okStart r < 101 := by decide +kernel
  exact absurd hstart (not_le.mpr (hbefore r hr))

end DbGuard.Harness
