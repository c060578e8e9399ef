import DbGuard.Proofs.CatchUp
import DbGuard.Proofs.Choice
import DbGuard.Proofs.RejoinTrace
import DbGuard.Proofs.Script

/-!
# `DbGuard.Proofs.Unknown`: GTIDs that nobody could read

An agent can answer `/status` with a GTID set that does not parse, or hit its deadline before
it gets to the replica object. `_gs` turns both into the empty set, which is a subset of
everything. `Respected` says that no decision takes such a node for one that holds nothing:
not the rejoin, not the choice of a failover, not the catch-up, not the cold start.

The code has no test for these bodies. What can still save it is something else in the body,
and `Harmless` says what: a session that waits, a reason not to be a candidate, an SQL error
or a relay log that is behind, and a node that takes writes. `respected_iff` shows that
nothing else can.
-/

set_option autoImplicit false

namespace DbGuard

open Coop (Prog)

/-- Whether the field holds a text that `GtidSet.parse` rejects. -/
def rejected (o : Option GtidText) : Bool := o.any fun t => !t.parse.toBool

/-- Whether some GTIDs of the body are unknown: a set does not parse, or the agent did not get
to the replica object before its deadline. -/
def StatusBody.unknown (d : StatusBody) : Bool :=
  let r := d.replica.getD {}
  rejected d.gtidExecuted || rejected r.retrievedGtidSet || rejected r.executedGtidSet ||
    (d.error.isSome && !r.configured && r.retrievedGtidSet.isNone && r.executedGtidSet.isNone)

/-- No decision takes the node `n` of the body `d` for one that holds nothing. The last call
before a /repoint is the read of the primary, and the read of the node is the one before. -/
structure Respected (mode : Mode) (n : Node) (d : StatusBody) : Prop where
  rejoin : ∀ (cfg : Config) (why : String) (inlineVerify : Bool) (s : Ctl) (tr : List Asked)
    (m : Node) (src : Option Node) (s' : Ctl),
    (rejoinNode cfg n why inlineVerify).Asks s tr (.repoint m src) s' →
      (statusAnswers n tr.dropLast).getLast? ≠ some (.ok d)
  choose : ∀ (nodes : List NodeView) (old : Option Node), (nodes.map (·.name)).Nodup →
    .fromStatus n d ∈ nodes → n ∉ (choose nodes mode old).candidates
  catchUp : ∀ (cfg : Config) (target : Option GtidSet) (s : Ctl) (tr : List Asked)
    (why : String) (s' : Ctl), (waitCaughtUp cfg n target).Ends s tr (true, why) s' →
      (statusAnswers n tr).getLast? ≠ some (.ok d)
  coldStart : ∀ (views : Views) (members : List Node) (believed : Option Node) (m : Node),
    n ∈ members → n ∈ views.keys → views.view n = .fromStatus n d → m ≠ n →
      coldStartChoice views members believed ≠ .promote m

/-- What in a body keeps every decision from taking the node for an empty one. -/
structure Harmless (mode : Mode) (n : Node) (d : StatusBody) : Prop where
  waits : (NodeView.fromStatus n d).waiting ≠ 0
  problem : candidateProblem (.fromStatus n d) mode ≠ none
  behind : (NodeView.fromStatus n d).replica.lastSqlError ≠ none ∨
    ((NodeView.fromStatus n d).relayApplied = false ∧
      (NodeView.fromStatus n d).replica.ioRunning = some .yes)
  writable : (NodeView.fromStatus n d).writable = true

/-! ### The rejoin -/

section
variable {cfg : Config} {n : Node} {d : StatusBody} {s s' : Ctl} {tr : List Asked}

/-- The last view that `quiesce` read is the one it settles on, without sessions. -/
theorem Settled.last_status {nv : NodeView} (h : Settled cfg n tr nv) :
    ∃ a, (statusAnswers n tr).getLast? = some a ∧ nv = .ofAnswer n a ∧ nv.waiting = 0 := by
  obtain ⟨pre, first, s₁, last, p, rfl, -, hlast, -⟩ := h
  obtain ⟨s₂, a, s₃, tr', k, s₄, rfl, hnv, hcount, -, hwaiting, -⟩ := hlast
  refine ⟨a, ?_, hnv, hwaiting⟩
  have hnone : statusAnswers n tr' = [] := by
    rcases ends_countCommitting hcount with ⟨s₅, rfl⟩ | ⟨rfl, -⟩
    · rfl
    · rfl
  have hsplit : (⟨s₁, .sleep, ()⟩ :: ⟨s₂, .status n, a⟩ :: tr' : List Asked) =
      [⟨s₁, .sleep, ()⟩, ⟨s₂, .status n, a⟩] ++ tr' := rfl
  rw [hsplit]
  simp only [statusAnswers_append, hnone]
  simp [statusAnswers]

/-- A rejoin repoints a node on a view without sessions. -/
theorem rejoin_waiting {why : String} {inlineVerify : Bool} {m : Node} {src : Option Node}
    (h : (rejoinNode cfg n why inlineVerify).Asks s tr (.repoint m src) s')
    (hlast : (statusAnswers n tr.dropLast).getLast? = some (.ok d)) :
    (NodeView.fromStatus n d).waiting = 0 := by
  obtain ⟨primary, a, tr', -, -, -, rfl, nv, pv, hgrounds⟩ := asks_rejoinNode h
  obtain ⟨settled, s₁, b, rfl, hsettled, -⟩ := hgrounds.calls
  obtain ⟨a', ha', rfl, hwaiting⟩ := hsettled.last_status
  have hdrop : (⟨s, .status n, a⟩ :: (settled ++ [⟨s₁, .status primary, b⟩]) : List Asked).dropLast =
      [⟨s, .status n, a⟩] ++ settled := by
    rw [← List.cons_append, List.dropLast_concat]
    rfl
  rw [hdrop, statusAnswers_append, List.getLast?_append, ha'] at hlast
  cases hlast
  exact hwaiting

/-- Some other node. -/
def another (n : Node) : Node := if n = "a" then "b" else "a"

/-- There is another node. -/
theorem another_ne : another n ≠ n := by
  unfold another
  split
  · rename_i h
    rw [h]
    decide
  · rename_i h
    exact Ne.symm h

/-- A set whose primary is another node. -/
def settledOn (n : Node) : Ctl := { members := [n, another n], st := { primary := some (another n) } }

/-- A responsive node without waiting sessions is repointed, whatever its GTIDs are. -/
theorem rejoin_of_waiting (hresp : d.mysqldResponsive = true)
    (hwaiting : (NodeView.fromStatus n d).waiting = 0) :
    ∃ (s : Ctl) (tr : List Asked) (src : Option Node),
      (rejoinNode fleet n "" true).Asks s tr (.repoint n src) s ∧
        (statusAnswers n tr.dropLast).getLast? = some (.ok d) := by
  have husable : (NodeView.ofAnswer n (.ok d)).usable = true := hresp
  have hquiet : (quiesce fleet n).Ends (settledOn n) _ (some (.ofAnswer n (.ok d)), "ok") _ :=
    quiesce_ends (by decide) (by decide) husable husable hwaiting hwaiting rfl
  refine ⟨settledOn n, _, some (another n),
    rejoinNode_asks "" true (.ok d) (.ok d) (.error ⟨""⟩) rfl hquiet hresp ?_, ?_⟩
  · exact GtidSet.Subset.refl _
  · rw [← List.append_assoc, List.dropLast_concat, statusAnswers_append]
    simp [statusAnswers, twoRounds, uncounted, Config.canCountCommitting, fleet]

end

/-! ### The choice -/

/-- A node that may be promoted is among the candidates. -/
theorem candidates_of_mem {nodes : List NodeView} {mode : Mode} {old : Option Node}
    {nv : NodeView} (h : nv ∈ nodes) (hold : some nv.name ≠ old)
    (hok : candidateProblem nv mode = none) :
    nv.name ∈ (choose nodes mode old).candidates := by
  obtain ⟨i, hi⟩ := admissible_of_mem h hold hok
  have hname : nv.name ∈ (admissible nodes mode old).map (·.2.name) :=
    List.mem_map.mpr ⟨_, hi, rfl⟩
  unfold choose
  dsimp only
  split
  · rename_i hnone
    rw [firstMin_eq_none.mp hnone] at hi
    exact absurd hi List.not_mem_nil
  · split
    · exact hname
    · exact hname

/-! ### The catch-up -/

/-- A node without an SQL error that has applied what it retrieved, or whose IO thread does
not run, is taken for caught up. -/
theorem caughtUp_of_applied {n : Node} {d : StatusBody} (hresp : d.mysqldResponsive = true)
    (herror : (NodeView.fromStatus n d).replica.lastSqlError = none)
    (hbehind : ¬ ((NodeView.fromStatus n d).relayApplied = false ∧
      (NodeView.fromStatus n d).replica.ioRunning = some .yes)) :
    ∃ (s : Ctl) (tr : List Asked) (why : String),
      (waitCaughtUp fleet n none).Ends s tr (true, why) s ∧
        (statusAnswers n tr).getLast? = some (.ok d) := by
  have husable : (NodeView.ofAnswer n (.ok d)).usable = true := hresp
  have herror' : (NodeView.ofAnswer n (.ok d)).replica.lastSqlError = none := herror
  -- It is enough that a round finds it so.
  have hpoll : ∀ tr why, (readCaughtUp fleet n none).Ends (settledOn n) tr (.caughtUp why)
      (settledOn n) → (waitCaughtUp fleet n none).Ends (settledOn n) tr (true, why)
        (settledOn n) := by
    intro tr why hround
    unfold waitCaughtUp ctl
    rw [Prog.ends_look]
    show (pollCaughtUp fleet n none _ (1 + 1)).Ends _ _ _ _
    unfold pollCaughtUp
    rw [← List.append_nil tr]
    exact Prog.ends_seq tr [] (settledOn n) hround ⟨rfl, rfl, rfl⟩
  by_cases happlied : (NodeView.ofAnswer n (.ok d)).relayApplied = true
  · refine ⟨settledOn n, [⟨settledOn n, .status n, .ok d⟩], "ok", hpoll _ _ ?_,
      by simp [statusAnswers]⟩
    unfold readCaughtUp
    refine Prog.ends_seq [_] [] (settledOn n) (ends_status.mpr ⟨.ok d, rfl, rfl⟩) ?_
    rw [if_neg (by simp [husable])]
    simp only [herror', Option.any_none, Bool.false_eq_true, if_false, happlied, if_true]
    exact ⟨rfl, rfl, rfl⟩
  · -- the SQL thread has read all of the relay log
    have hidle : (NodeView.ofAnswer n (.ok d)).replica.ioRunning ≠ some .yes ∧
        fleet.canReadReplicaState = true :=
      ⟨fun hio => hbehind ⟨Bool.eq_false_of_not_eq_true happlied, hio⟩, rfl⟩
    have hround : ∃ why, (readCaughtUp fleet n none).Ends (settledOn n)
        [⟨settledOn n, .status n, .ok d⟩, ⟨settledOn n, .replicaState n, some sqlStateDone⟩]
        (.caughtUp why) (settledOn n) := by
      apply Exists.intro
      unfold readCaughtUp
      refine Prog.ends_seq [_] [_] (settledOn n) (ends_status.mpr ⟨.ok d, rfl, rfl⟩) ?_
      rw [if_neg (by simp [husable])]
      simp only [herror', Option.any_none, Bool.false_eq_true, if_false, happlied, hidle,
        and_self, if_true, ne_eq, not_false_eq_true]
      refine Prog.ends_call_bind.mpr ⟨some sqlStateDone, settledOn n, [], rfl, ?_⟩
      rw [if_pos ⟨by decide, rfl⟩]
      exact ⟨rfl, rfl, rfl⟩
    obtain ⟨why, hround⟩ := hround
    exact ⟨settledOn n, _, why, hpoll _ _ hround, by simp [statusAnswers]⟩

/-! ### The cold start -/

/-- A writable member is not started cold. -/
theorem coldStart_of_writable {views : Views} {members : List Node} {believed : Option Node}
    {n m : Node} (hn : n ∈ members) (hkey : n ∈ views.keys)
    (h : (views.view n).writable = true) :
    coldStartChoice views members believed ≠ .promote m := by
  have husable : (views.view n).usable = true := by
    unfold NodeView.writable at h
    simp only [Bool.and_eq_true] at h
    exact h.1.1
  have hany : ((memberViews views members).keys.filter fun m => (views.view m).usable).any
      (fun m => (views.view m).writable) = true := by
    refine List.any_eq_true.mpr ⟨n, List.mem_filter.mpr ⟨?_, husable⟩, h⟩
    simp [memberViews, hn, hkey]
  unfold coldStartChoice
  dsimp only
  rw [if_pos hany]
  exact nofun

/-- What a fold of unions holds. -/
theorem mem_foldl_union {f : Node → GtidSet} {g : Gtid} :
    ∀ (l : List Node) (e : GtidSet),
      g ∈ l.foldl (fun e m => e ∪ f m) e ↔ g ∈ e ∨ ∃ m ∈ l, g ∈ f m := by
  intro l
  induction l with
  | nil => intro e; simp
  | cons m l ih =>
      intro e
      rw [List.foldl_cons, ih, GtidSet.mem_union]
      simp [or_assoc]

/-- A believed primary that was restarted and has executed what every usable member is seen to
hold is promoted. -/
theorem coldStart_believed {views : Views} {members : List Node} {b : Node} {reach : List Node}
    (hreach : ((memberViews views members).keys.filter fun m => (views.view m).usable) = reach)
    (hb : b ∈ reach) (hwritable : ∀ m ∈ reach, (views.view m).writable = false)
    (hfenced : (views.view b).fenced = false)
    (hreadOnly : (views.view b).superReadOnly = some true)
    (hall : ∀ m ∈ reach, (views.view m).held ⊆ (views.view b).gtidExecuted) :
    coldStartChoice views members (some b) = .promote b := by
  -- Nobody is writable, so the first choice of the source does not apply.
  have hnone : ¬ (reach.any fun m => (views.view m).writable) = true := by
    rw [List.any_eq_true]
    rintro ⟨m, hm, hw⟩
    rw [hwritable m hm] at hw
    cases hw
  have hcold : (!(views.view b).fenced && (views.view b).superReadOnly == some true) = true := by
    rw [hfenced, hreadOnly]
    rfl
  -- The believed node has what all the reachable ones hold together.
  have hsubset : ((reach.foldl (fun e m => e ∪ (views.view m).held) GtidSet.empty).isSubset
      (views.view b).gtidExecuted) = true := by
    rw [GtidSet.isSubset_iff, GtidSet.subset_def]
    intro g hg
    rcases (mem_foldl_union reach _).mp hg with hg | ⟨m, hm, hg⟩
    · exact absurd hg (GtidSet.not_mem_empty g)
    · exact hall m hm g hg
  -- So it is among the read-only nodes that lack nothing.
  have hfull : b ∈ (reach.filter fun m => !(views.view m).fenced &&
      (views.view m).superReadOnly == some true).filter fun m =>
        (reach.foldl (fun e m => e ∪ (views.view m).held) GtidSet.empty).isSubset
          (views.view m).gtidExecuted :=
    List.mem_filter.mpr ⟨List.mem_filter.mpr ⟨hb, hcold⟩, hsubset⟩
  unfold coldStartChoice
  dsimp only
  rw [hreach, if_neg hnone, if_neg (by simp [hb, hcold]),
    Option.filter_some_pos (by simpa using hfull)]

/-- The views of the node `n` of the body `d`, and of another node that was restarted and has
executed everything that `n` is seen to hold. -/
def besideViews (n : Node) (d : StatusBody) : Views where
  keys := [n, another n]
  view m := if m = n then .fromStatus n d else
    { name := m, reachable := true, mysqldResponsive := true, superReadOnly := some true
      gtidExecuted := (NodeView.fromStatus n d).held }

/-- A node that does not take writes is passed over for another one, whatever it holds. -/
theorem coldStart_of_readOnly {n : Node} {d : StatusBody} (hresp : d.mysqldResponsive = true)
    (h : (NodeView.fromStatus n d).writable = false) :
    coldStartChoice (besideViews n d) [n, another n] (some (another n)) =
      .promote (another n) := by
  have hne := another_ne (n := n)
  -- The two views, and that both nodes are reachable.
  have hn : (besideViews n d).view n = .fromStatus n d := if_pos rfl
  have hm : (besideViews n d).view (another n) =
      { name := another n, reachable := true, mysqldResponsive := true
        superReadOnly := some true, gtidExecuted := (NodeView.fromStatus n d).held } :=
    if_neg hne
  have husable : (NodeView.fromStatus n d).usable = true := hresp
  have hreach : ((memberViews (besideViews n d) [n, another n]).keys.filter fun m =>
      ((besideViews n d).view m).usable) = [n, another n] := by
    have hm' : ((besideViews n d).view (another n)).usable = true := by
      rw [hm]
      rfl
    have hkeys : (memberViews (besideViews n d) [n, another n]).keys = [n, another n] := by
      simp [memberViews, besideViews, List.eraseDups_cons, hne]
    rw [hkeys]
    simp [hn, husable, hm']
  -- The other node shows read-only and holds just what `n` holds.
  refine coldStart_believed hreach (by simp) ?_ (by rw [hm]) (by rw [hm]) ?_
  · intro m hmem
    rcases List.mem_pair.mp hmem with rfl | rfl
    · rw [hn]
      exact h
    · rw [hm]
      rfl
  · intro m hmem g hg
    rw [hm]
    rcases List.mem_pair.mp hmem with rfl | rfl
    · rw [hn] at hg
      exact hg
    · rw [hm] at hg
      simpa [NodeView.held, NodeView.applied] using hg

/-! ### What saves a node -/

/-- A responsive node is respected by every decision if and only if something else in its body
keeps each of them from taking it for an empty one. -/
theorem respected_iff {mode : Mode} {n : Node} {d : StatusBody}
    (hresp : d.mysqldResponsive = true) : Respected mode n d ↔ Harmless mode n d := by
  constructor
  · intro h
    refine ⟨fun hwaiting => ?_, fun hproblem => ?_, ?_, ?_⟩
    · obtain ⟨s, tr, src, hasks, hlast⟩ := rejoin_of_waiting hresp hwaiting
      exact h.rejoin _ _ _ _ _ _ _ _ hasks hlast
    · have hcand : n ∈ (choose [.fromStatus n d] mode none).candidates :=
        candidates_of_mem (List.mem_singleton.mpr rfl) nofun hproblem
      exact h.choose [.fromStatus n d] none (by simp) (by simp) hcand
    · by_contra hbehind
      rw [not_or, not_not] at hbehind
      obtain ⟨s, tr, why, hends, hlast⟩ := caughtUp_of_applied hresp hbehind.1 hbehind.2
      exact h.catchUp _ _ _ _ _ _ hends hlast
    · by_contra hwritable
      have hreadOnly := Bool.eq_false_of_not_eq_true hwritable
      exact h.coldStart (besideViews n d) [n, another n] (some (another n)) (another n)
        (by simp) (by simp [besideViews]) (if_pos rfl) another_ne
        (coldStart_of_readOnly hresp hreadOnly)
  · intro h
    refine ⟨?_, ?_, ?_, ?_⟩
    · intro cfg why inlineVerify s tr m src s' hasks hlast
      exact h.waits (rejoin_waiting hasks hlast)
    · intro nodes old hnodup hmem hcand
      obtain ⟨nv, hnv, hname, -, hok⟩ := mem_candidates hcand
      -- The only view of this name.
      have heq : nv = .fromStatus n d := List.inj_on_of_nodup_map hnodup hnv hmem hname
      exact h.problem (heq ▸ hok)
    · intro cfg target s tr why s' hends hlast
      obtain ⟨a, ha, hup⟩ := ends_waitCaughtUp hends
      rw [ha] at hlast
      cases hlast
      rcases h.behind with herror | ⟨hbehind, hio⟩
      · exact herror hup.noError
      · rcases hup.exit with happlied | ⟨hidle, -⟩
        · rw [show (NodeView.ofAnswer n (.ok d)).relayApplied = false from hbehind] at happlied
          cases happlied
        · exact hidle hio
    · intro views members believed m hn hkey hview _
      exact coldStart_of_writable hn hkey (hview ▸ h.writable)

/-- A body whose GTIDs are unknown is respected exactly when something else in it is in the way
of each decision. -/
theorem unknown_respected_iff (mode : Mode) (n : Node) (d : StatusBody) :
    (d.mysqldResponsive = true → d.unknown = true → Respected mode n d) ↔
      (d.mysqldResponsive = true → d.unknown = true → Harmless mode n d) :=
  forall_congr' fun hresp => forall_congr' fun _ => respected_iff hresp

/-- A replica whose gtid_executed does not parse. -/
def garbled : StatusBody :=
  { mysqldAlive := true, mysqldResponsive := true, superReadOnly := some true
    gtidExecuted := some (.malformed "3E11FA47-71CA-11E1-9E33-C80AA9429562:1-")
    replica := some
      { configured := true, sourceHost := some "a", ioRunning := some .yes
        sqlRunning := some .yes }
    semisync := some { replicaEnabled := some true } }

/-- It is repointed as a subset of the primary. -/
theorem garbled_not_respected :
    ¬ (garbled.mysqldResponsive = true → garbled.unknown = true →
      Respected .dbguard "b" garbled) := by
  intro h
  obtain ⟨s, tr, src, hasks, hlast⟩ := rejoin_of_waiting (n := "b") (d := garbled) rfl rfl
  exact (h rfl rfl).rejoin _ _ _ _ _ _ _ _ hasks hlast

end DbGuard
