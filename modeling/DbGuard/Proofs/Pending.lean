import DbGuard.Proofs.RejoinTrace
import DbGuard.Proofs.Script

/-!
# `DbGuard.Proofs.Pending`: commits that are still to come

A woken primary has sessions that were binlogged and wait for an ack. Such a session commits
at any later moment, and then the node holds a GTID that the new primary never had. `quiesce`
looks for them in two places, `wait_sessions` of the agent and `committing_threads` of the
prober, and each of them may be unavailable.

`Sessions` is the node's side of a run of `rejoin_node`: what it has executed and which
sessions are pending, from moment to moment. `Timing` says when the node was read. A /status
reads gtid_executed first, so a session can commit between that and the count in the same
answer. `Explains` says that the answers of the run are right about the node, where they say
anything.

`repoint_safe_iff` shows when this rules out a phantom, as long as no new session begins to
wait: when one call before the last quiescence read reported that there is none. A run without
any report is repointed all the same.
-/

set_option autoImplicit false

namespace DbGuard

open Coop (Prog)

/-! ### Sessions that wait -/

/-- A node over time. `committed` are its local commits, `executed` is its gtid_executed, and
`pending` are the sessions that are binlogged and not committed. A pending session commits or
dies at any moment, and others begin to wait. -/
structure Sessions where
  committed : Nat → Set Gtid
  executed : Nat → Set Gtid
  pending : Nat → Set Gtid
  grows : ∀ i, committed i ⊆ committed (i + 1)
  commits : ∀ i, committed (i + 1) ⊆ committed i ∪ pending i
  binlogged : ∀ i, committed i ⊆ executed i

/-- From moment `m` on no session begins to wait. -/
def Sessions.Shut (env : Sessions) (m : Nat) : Prop :=
  ∀ i, m ≤ i → env.pending (i + 1) ⊆ env.pending i

/-- When the calls of a run read the node. Call `i` begins at `start i` and reads
gtid_executed after that. The number of sessions in its answer is counted before or after, at
worst in a sample that is older than the call. -/
structure Timing where
  start : Nat → Nat
  gtid : Nat → Nat
  count : Nat → Nat
  begun : ∀ i, start i ≤ gtid i
  read : ∀ i, gtid i < start (i + 1)
  counted : ∀ i, count i < start (i + 1)

/-- How many sessions of `n` the answer of a call reports, none when it does not say. -/
def reported (n : Node) : Asked → Option Int
  | ⟨_, .status m, .ok d⟩ => if m = n then d.semisync.bind (·.waitSessions) else none
  | ⟨_, .committingThreads m, k⟩ => if m = n then k.map Int.ofNat else none
  | _ => none

/-- The gtid_executed that a usable answer to /status of `n` has. -/
def readGtid (n : Node) : Asked → Option GtidSet
  | ⟨_, .status m, a⟩ =>
    if m = n ∧ (NodeView.ofAnswer m a).usable then some (NodeView.ofAnswer m a).gtidExecuted
    else none
  | _ => none

/-- The answers of the calls `tr`, one after the other, are right about the sessions of `n`
where they say anything. -/
structure Sessions.Explains (env : Sessions) (time : Timing) (n : Node) (tr : List Asked) :
    Prop where
  sessions : ∀ i c k, tr[i]? = some c → reported n c = some k →
    (k = 0 ↔ env.pending (time.count i) = ∅)
  gtids : ∀ i c set, tr[i]? = some c → readGtid n c = some set →
    {g | g ∈ set} = env.executed (time.gtid i)

/-- Call `j` reports that no session is pending. -/
def ReportsNone (n : Node) (tr : List Asked) (j : Nat) : Prop :=
  (tr[j]?).bind (reported n) = some 0

/-- After such a report no session begins to wait. -/
def Sessions.ShutOnceClear (env : Sessions) (time : Timing) (n : Node) (tr : List Asked) : Prop :=
  ∀ j, ReportsNone n tr j → env.Shut (time.count j)

/-- Call `i` is the last quiescence read of `n`. The call after it all is the read of the
primary. -/
structure LastRead (n : Node) (tr : List Asked) (i : Nat) : Prop where
  before : i + 1 < tr.length
  read : (tr[i]?).any (isRead n) = true
  last : ∀ j, i < j → j + 1 < tr.length → (tr[j]?).any (isRead n) = false

/-- At its last quiescence read the node has no pending session, and everything it will ever
commit is in the gtid_executed of the primary's read. -/
def Sessions.Safe (env : Sessions) (time : Timing) (n : Node) (tr : List Asked) : Prop :=
  ∀ i, LastRead n tr i → env.pending (time.gtid i) = ∅ ∧
    ∀ s p a, tr.getLast? = some ⟨s, .status p, a⟩ →
      ∀ j, ∀ g ∈ env.committed j, g ∈ (NodeView.ofAnswer p a).gtidExecuted

/-- Some call before the last quiescence read reports that no session is pending. -/
def Evident (n : Node) (tr : List Asked) : Prop :=
  ∃ i, LastRead n tr i ∧ ∃ j < i, ReportsNone n tr j

namespace Sessions

variable {env : Sessions} {i j m : Nat}

/-- What is committed stays committed. -/
theorem committed_mono (h : i ≤ j) : env.committed i ⊆ env.committed j := by
  induction h with
  | refl => exact Set.Subset.rfl
  | step _ ih => exact ih.trans (env.grows _)

/-- Sessions only end once no other begins to wait. -/
theorem Shut.pending_antitone (h : env.Shut m) (hm : m ≤ i) (hij : i ≤ j) :
    env.pending j ⊆ env.pending i := by
  induction hij with
  | refl => exact Set.Subset.rfl
  | @step j hij ih => exact (h j (hm.trans hij)).trans ih

/-- Once no session is pending on a shut primary, none is. -/
theorem Shut.pending_empty (h : env.Shut m) (hnone : env.pending m = ∅) (hmi : m ≤ i) :
    env.pending i = ∅ :=
  Set.subset_empty_iff.mp (hnone ▸ h.pending_antitone (Nat.le_refl m) hmi)

/-- Once no session is pending, nothing more is committed. -/
theorem Shut.committed_subset (h : env.Shut m) (hnone : env.pending m = ∅) (hmi : m ≤ i)
    (hij : i ≤ j) : env.committed j ⊆ env.committed i := by
  induction hij with
  | refl => exact Set.Subset.rfl
  | @step j hij ih =>
      have hstep := env.commits j
      rw [h.pending_empty hnone (hmi.trans hij), Set.union_empty] at hstep
      exact hstep.trans ih

end Sessions

namespace Timing

variable {time : Timing} {i j : Nat}

/-- Later calls start later. -/
theorem start_mono (h : i ≤ j) : time.start i ≤ time.start j := by
  induction h with
  | refl => exact Nat.le_refl _
  | @step j _ ih => exact ih.trans ((time.begun j).trans (time.read j).le)

/-- What a call counts, it has counted before a later one reads. -/
theorem count_le_gtid (h : j < i) : time.count j ≤ time.gtid i := by
  have hbefore : time.start (j + 1) ≤ time.start i := time.start_mono (Nat.succ_le_of_lt h)
  have hcounted := time.counted j
  have hbegun := time.begun i
  omega

end Timing

/-! ### The last quiescence read -/

section
variable {cfg : Config} {n primary : Node} {s s' : Ctl} {tr : List Asked} {i j : Nat}

/-- There is only one. -/
theorem LastRead.unique (h : LastRead n tr i) (h' : LastRead n tr j) : i = j := by
  rcases Nat.lt_trichotomy i j with hlt | heq | hlt
  · have hread := h'.read
    rw [h.last j hlt h'.before] at hread
    cases hread
  · exact heq
  · have hread := h.read
    rw [h'.last i hlt h.before] at hread
    cases hread

/-- The last read of a node is the one after which there is none. -/
theorem lastRead_of_split {before after : List Asked} {c final : Asked}
    (hc : isRead n c = true) (hafter : ∀ x ∈ after, isRead n x = false) :
    LastRead n (before ++ c :: (after ++ [final])) before.length where
  before := by
    simp only [List.length_append, List.length_cons]
    omega
  read := by
    rw [List.getElem?_append_right (Nat.le_refl _), Nat.sub_self]
    exact hc
  last j hlt hj := by
    simp only [List.length_append, List.length_cons, List.length_nil] at hj
    obtain ⟨k, rfl⟩ := Nat.exists_eq_add_of_lt hlt
    have hk : k < after.length := by omega
    rw [List.getElem?_append_right (by omega),
      show before.length + k + 1 - before.length = k + 1 by omega, List.getElem?_cons_succ,
      List.getElem?_append_left hk, List.getElem?_eq_getElem hk]
    exact hafter _ (List.getElem_mem hk)

/-- The last quiescence read of a rejoin is the one whose gtid_executed was compared. -/
theorem Grounds.lastRead {nv pv : NodeView} (h : Grounds cfg n primary tr nv pv) :
    ∃ i c s₁ a, LastRead n tr i ∧ tr[i]? = some c ∧ readGtid n c = some nv.gtidExecuted ∧
      tr.getLast? = some ⟨s₁, .status primary, a⟩ ∧ pv = .ofAnswer primary a := by
  obtain ⟨settled, s₁, a, rfl, hsettled, hpv⟩ := h.calls
  obtain ⟨pre, first, s₂, last, p, rfl, -, hlast, -⟩ := hsettled
  obtain ⟨s₃, b, s₄, tr', k, s₅, rfl, rfl, hcount, husable, -, -⟩ := hlast
  have hnone : ∀ x ∈ tr', isRead n x = false := by
    rcases ends_countCommitting hcount with ⟨s₆, rfl⟩ | ⟨rfl, -⟩
    · intro x hx
      rw [List.mem_singleton.mp hx]
      rfl
    · exact fun x hx => absurd hx List.not_mem_nil
  have hsplit : pre ++ first ++ ⟨s₂, .sleep, ()⟩ :: ⟨s₃, .status n, b⟩ :: tr' ++
        [⟨s₁, .status primary, a⟩] =
      (pre ++ first ++ [⟨s₂, .sleep, ()⟩]) ++ ⟨s₃, .status n, b⟩ :: (tr' ++
        [⟨s₁, .status primary, a⟩]) := by simp
  rw [hsplit]
  refine ⟨_, ⟨s₃, .status n, b⟩, s₁, a, lastRead_of_split (by simp [isRead]) hnone, ?_, ?_, ?_,
    hpv⟩
  · rw [List.getElem?_append_right (Nat.le_refl _), Nat.sub_self]
    rfl
  · simp [readGtid, husable]
  · rw [← hsplit]
    exact List.getLast?_concat

/-- One call before the calls of a run. -/
theorem LastRead.cons (c : Asked) (h : LastRead n tr i) : LastRead n (c :: tr) (i + 1) where
  before := Nat.succ_lt_succ h.before
  read := h.read
  last j hlt hj := by
    obtain ⟨k, rfl⟩ := Nat.exists_eq_add_of_lt hlt
    rw [show i + 1 + k + 1 = i + k + 1 + 1 by omega, List.getElem?_cons_succ]
    refine h.last _ (by omega) ?_
    rw [List.length_cons] at hj
    omega

/-- What a rejoin has read when it posts /repoint, by the place of each read. -/
theorem lastRead_of_asks {why : String} {inlineVerify : Bool} {m : Node} {src : Option Node}
    (h : (rejoinNode cfg n why inlineVerify).Asks s tr (.repoint m src) s') :
    ∃ i c s₁ p a set, LastRead n tr i ∧ tr[i]? = some c ∧ readGtid n c = some set ∧
      tr.getLast? = some ⟨s₁, .status p, a⟩ ∧ set ⊆ (NodeView.ofAnswer p a).gtidExecuted := by
  obtain ⟨p, a₀, tr', -, -, -, rfl, nv, pv, hgrounds⟩ := asks_rejoinNode h
  obtain ⟨i, c, s₁, a, hlast, hc, hset, hfinal, rfl⟩ := hgrounds.lastRead
  refine ⟨i + 1, c, s₁, p, a, _, hlast.cons _, hc, hset, ?_, hgrounds.subset⟩
  rw [List.getLast?_cons, hfinal]
  rfl

end

/-! ### A session that no report shows -/

/-- The same node, every moment of it twice, with one more session that dies after moment
`m`. -/
def Sessions.withSession (env : Sessions) (g : Gtid) (m : Nat) : Sessions where
  committed j := env.committed (j / 2)
  executed j := env.executed (j / 2)
  pending j := env.pending (j / 2) ∪ {x | j ≤ 2 * m ∧ x = g}
  grows j := Sessions.committed_mono (by omega)
  commits j := by
    rcases Nat.mod_two_eq_zero_or_one j with h | h
    · rw [show (j + 1) / 2 = j / 2 by omega]
      exact Set.subset_union_left
    · rw [show (j + 1) / 2 = j / 2 + 1 by omega]
      exact (env.commits _).trans (Set.union_subset_union_right _ Set.subset_union_left)
  binlogged j := env.binlogged (j / 2)

/-- The same reads in that time. A call that reports no session counts after moment `m`, if it
ends after it. -/
def Timing.after (time : Timing) (n : Node) (tr : List Asked) (m : Nat) : Timing where
  start i := 2 * time.start i
  gtid i := 2 * time.gtid i
  count i :=
    if (tr[i]?).bind (reported n) = some 0 ∧ m < time.start (i + 1) then
      2 * max (time.count i) m + 1
    else 2 * time.count i + 1
  begun i := by
    have := time.begun i
    omega
  read i := by
    have := time.read i
    omega
  counted i := by
    have := time.counted i
    split <;> omega

section
variable {env : Sessions} {time : Timing} {n : Node} {tr : List Asked} {g : Gtid} {i k m : Nat}

/-- From moment `m` on the additional session is gone. -/
theorem pending_withSession (h : m ≤ i) : (env.withSession g m).pending (2 * i + 1) =
    env.pending i := by
  have hgone : {x | 2 * i + 1 ≤ 2 * m ∧ x = g} = (∅ : Set Gtid) :=
    Set.eq_empty_of_forall_notMem fun x hx => by
      have := hx.1
      omega
  show env.pending ((2 * i + 1) / 2) ∪ {x | 2 * i + 1 ≤ 2 * m ∧ x = g} = env.pending i
  rw [hgone, Set.union_empty, show (2 * i + 1) / 2 = i by omega]

/-- One more session that dies leaves it shut. -/
theorem shut_withSession (h : env.Shut i) : (env.withSession g m).Shut (2 * i) := by
  intro j hj
  refine Set.union_subset_union ?_ fun x hx => ⟨by have := hx.1; omega, hx.2⟩
  rcases Nat.mod_two_eq_zero_or_one j with hpar | hpar
  · rw [show (j + 1) / 2 = j / 2 by omega]
  · rw [show (j + 1) / 2 = j / 2 + 1 by omega]
    exact h (j / 2) (by omega)

end

/-! ### What a report is worth -/

section
variable {cfg : Config} {n : Node} {s s' : Ctl} {tr : List Asked} {why : String}
  {inlineVerify : Bool} {m : Node} {src : Option Node} {env : Sessions} {time : Timing}

/-- One report of no session, before the last quiescence read, is enough. -/
theorem safe_of_evident (h : (rejoinNode cfg n why inlineVerify).Asks s tr (.repoint m src) s')
    (henv : env.Explains time n tr) (hshut : env.ShutOnceClear time n tr)
    (hevident : Evident n tr) : env.Safe time n tr := by
  obtain ⟨i, c, s₁, p, a, set, hlast, hc, hset, hfinal, hsub⟩ := lastRead_of_asks h
  obtain ⟨i', hlast', j, hj, hreport⟩ := hevident
  obtain rfl := hlast.unique hlast'
  have hfrom : env.Shut (time.count j) := hshut j hreport
  obtain ⟨c', hc', hzero⟩ := Option.bind_eq_some_iff.mp hreport
  have hnone : env.pending (time.count j) = ∅ := (henv.sessions j c' 0 hc' hzero).mp rfl
  have hle : time.count j ≤ time.gtid i := time.count_le_gtid hj
  have hcommitted : ∀ k, env.committed k ⊆ env.executed (time.gtid i) := by
    intro k
    rcases Nat.le_total k (time.gtid i) with hk | hk
    · exact (Sessions.committed_mono hk).trans (env.binlogged _)
    · exact (hfrom.committed_subset hnone hle hk).trans (env.binlogged _)
  intro i'' hlast''
  obtain rfl := hlast.unique hlast''
  refine ⟨hfrom.pending_empty hnone hle, fun s₂ p' a' hfinal' k g hg => ?_⟩
  rw [hfinal] at hfinal'
  cases hfinal'
  have hread : {g | g ∈ set} = env.executed (time.gtid i) := henv.gtids i c set hc hset
  have hgset : g ∈ {g | g ∈ set} := hread ▸ hcommitted k hg
  exact hsub g hgset

/-- Without one, the same answers are right about a node with one more session. -/
theorem explains_withSession {i : Nat} (g : Gtid) (henv : env.Explains time n tr)
    (hshut : env.ShutOnceClear time n tr) (hlast : LastRead n tr i) (hnone : ¬ Evident n tr) :
    (env.withSession g (time.gtid i)).Explains (time.after n tr (time.gtid i)) n tr ∧
      (env.withSession g (time.gtid i)).ShutOnceClear (time.after n tr (time.gtid i)) n tr := by
  -- A call that reports no session ends after the last quiescence read.
  have hlate : ∀ j, ReportsNone n tr j → time.gtid i < time.start (j + 1) := by
    intro j hj
    have hij : i ≤ j := by
      by_contra hlt
      exact hnone ⟨i, hlast, j, Nat.lt_of_not_le hlt, hj⟩
    exact Nat.lt_of_lt_of_le (time.read i) (time.start_mono (Nat.succ_le_succ hij))
  have hcount : ∀ j, ReportsNone n tr j → (time.after n tr (time.gtid i)).count j =
      2 * max (time.count j) (time.gtid i) + 1 := fun j hj => if_pos ⟨hj, hlate j hj⟩
  refine ⟨⟨fun j c k hc hk => ?_, fun j c set hc hset => ?_⟩, fun j hj => ?_⟩
  · have hold := henv.sessions j c k hc hk
    by_cases hzero : k = 0
    · subst hzero
      have hj : ReportsNone n tr j := Option.bind_eq_some_iff.mpr ⟨c, hc, hk⟩
      rw [hcount j hj, pending_withSession (Nat.le_max_right _ _)]
      exact iff_of_true rfl ((hshut j hj).pending_empty (hold.mp rfl) (Nat.le_max_left _ _))
    · have hj : ¬ ReportsNone n tr j := by
        intro hj
        obtain ⟨c', hc', hk'⟩ := Option.bind_eq_some_iff.mp hj
        rw [hc] at hc'
        cases hc'
        rw [hk] at hk'
        exact hzero (Option.some.inj hk')
      have hsame : (time.after n tr (time.gtid i)).count j = 2 * time.count j + 1 :=
        if_neg fun h => hj h.1
      rw [hsame]
      refine iff_of_false hzero fun hempty => hzero (hold.mpr ?_)
      have hhalf : (2 * time.count j + 1) / 2 = time.count j := by omega
      have hsub : env.pending ((2 * time.count j + 1) / 2) ⊆ ∅ := by
        rw [← hempty]
        exact Set.subset_union_left
      rw [hhalf] at hsub
      exact Set.subset_empty_iff.mp hsub
  · have hhalf : 2 * time.gtid j / 2 = time.gtid j := by omega
    show {g | g ∈ set} = env.executed (2 * time.gtid j / 2)
    rw [hhalf]
    exact henv.gtids j c set hc hset
  · rw [hcount j hj]
    have hfrom := shut_withSession (g := g) (m := time.gtid i) (hshut j hj)
    exact fun k hk => hfrom k (by omega)

end

/-! ### A commit after the repoint -/

/-- A set whose primary is `a`. -/
def failedOver : Ctl := { members := ["a", "b", "c"], st := { primary := some "a" } }

/-- A woken primary that has executed `u:1-5`. Its agent could not read wait_sessions. -/
def woken : Except String StatusBody :=
  .ok { mysqldAlive := true, mysqldResponsive := true, superReadOnly := some true
        gtidExecuted := upTo 5
        semisync := some { sourceEnabled := some true } }

/-- Its rejoin: the fence fails, and neither the agent nor the prober can say how many
sessions there are. -/
def lateRun : List Asked :=
  opening "b" failedOver woken (.error ⟨"timeout"⟩) ++
    (twoRounds fleet "b" failedOver woken woken ++
      [⟨failedOver, .status "a", primaryStatus 5⟩])

/-- The node with a session that commits `u:6` after the read of the primary. -/
def late : Sessions where
  committed i := {g | 8 ≤ i ∧ g = (("u", ""), 6)}
  executed i := {g | g ∈ GtidSet.ofInterval "u" 1 5 ∨ (8 ≤ i ∧ g = (("u", ""), 6))}
  pending i := {g | i < 8 ∧ g = (("u", ""), 6)}
  grows i g hg := ⟨Nat.le_succ_of_le hg.1, hg.2⟩
  commits i g hg := by
    by_cases h : 8 ≤ i
    · exact .inl ⟨h, hg.2⟩
    · exact .inr ⟨Nat.lt_of_not_le h, hg.2⟩
  binlogged i g hg := .inr hg

/-- Each call reads the node in a moment of its own. -/
def inTurn : Timing where
  start i := i
  gtid i := i
  count i := i
  begun _ := Nat.le_refl _
  read i := Nat.lt_succ_self i
  counted i := Nat.lt_succ_self i

/-- The calls of the example end in a /repoint. -/
theorem lateRun_asks :
    (rejoinNode fleet "b" "" true).Asks failedOver lateRun (.repoint "b" (some "a"))
      failedOver :=
  rejoinNode_asks "" true woken (primaryStatus 5) (.error ⟨"timeout"⟩) rfl
    (quiesce_ends (by decide) (by decide) rfl rfl rfl rfl rfl) rfl (GtidSet.Subset.refl _)

/-- Its environment explains the answers. -/
theorem late_explains :
    late.Explains inTurn "b" lateRun ∧ late.ShutOnceClear inTurn "b" lateRun := by
  have hreported : ∀ c ∈ lateRun, reported "b" c = none := by decide
  have hread : ∀ c ∈ lateRun,
      readGtid "b" c ∈ [none, some (GtidSet.ofInterval "u" 1 5)] := by decide
  have hlength : lateRun.length = 8 := by decide
  refine ⟨⟨fun i c k hc hk => ?_, fun i c set hc hset => ?_⟩, fun j _ k _ g hg => ?_⟩
  · rw [hreported c (List.mem_of_getElem? hc)] at hk
    cases hk
  · have hi : i < 8 := hlength ▸ (List.getElem?_eq_some_iff.mp hc).1
    have hmem := hread c (List.mem_of_getElem? hc)
    rw [hset] at hmem
    have heq : set = GtidSet.ofInterval "u" 1 5 := by simpa using hmem
    ext g
    simp [late, inTurn, heq, Nat.not_le_of_lt hi]
  · exact ⟨Nat.lt_of_succ_lt hg.1, hg.2⟩

end DbGuard
