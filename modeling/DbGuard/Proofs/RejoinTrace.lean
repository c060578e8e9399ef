import DbGuard.Proofs.Requests

/-!
# `DbGuard.Proofs.RejoinTrace`: what a rejoin has read

`rejoin_node` decides from what it reads, and the state of the set may change at each of its
awaits. `asks_rejoinNode` says in which calls its /repoint ends: two rounds of `quiesce` that
found no session and the same gtid_executed, an interval apart, and then a read of the
primary, of which the node's gtid_executed is a subset. `Grounds` is the data of these calls.

The proof follows the functions of `manager/rejoin.py` from the inside out, with one lemma
for each.
-/

set_option autoImplicit false

namespace DbGuard

open Coop (Prog)

/-- The answers to /status of node `n`, in order. -/
def statusAnswers (n : Node) (tr : List Asked) : List (Except String StatusBody) :=
  tr.filterMap fun
    | ⟨_, .status m, a⟩ => if m = n then some a else none
    | _ => none

/-- The answers of two lists of calls come one behind the other. -/
theorem statusAnswers_append (n : Node) (tr tr' : List Asked) :
    statusAnswers n (tr ++ tr') = statusAnswers n tr ++ statusAnswers n tr' :=
  List.filterMap_append

/-- Whether the call is a read of the node's status. -/
def isRead (n : Node) : Asked → Bool
  | ⟨_, .status m, _⟩ => m = n
  | _ => false

/-! ### The rounds of `quiesce` -/

/-- The sessions that wait for a semi-sync ack, none when the view does not say. -/
def NodeView.waiting (nv : NodeView) : Int :=
  ((nv.raw.bind (·.semisync)).bind (·.waitSessions)).getD 0

/-- The calls of a round of `quiesce` that found `n` without sessions, in view `nv`. -/
def Quiet (cfg : Config) (n : Node) (tr : List Asked) (nv : NodeView) : Prop :=
  ∃ (s : Ctl) (a : Except String StatusBody) (s₁ : Ctl) (tr' : List Asked) (k : Option Nat)
    (s₂ : Ctl), tr = ⟨s, .status n, a⟩ :: tr' ∧ nv = .ofAnswer n a ∧
      (countCommitting cfg n).Ends s₁ tr' k s₂ ∧ nv.usable = true ∧ nv.waiting = 0 ∧
        k.getD 0 = 0

/-- The calls of a `quiesce` that settled on the view `nv`: its last two rounds found no
session and the same gtid_executed. -/
def Settled (cfg : Config) (n : Node) (tr : List Asked) (nv : NodeView) : Prop :=
  ∃ (pre first : List Asked) (s : Ctl) (last : List Asked) (p : NodeView),
    tr = pre ++ first ++ ⟨s, .sleep, ()⟩ :: last ∧ Quiet cfg n first p ∧ Quiet cfg n last nv ∧
      p.gtidExecuted = nv.gtidExecuted

section
variable {cfg : Config} {n primary : Node} {s s' : Ctl} {tr : List Asked}

/-- One status ends with its view. -/
theorem ends_status {nv : NodeView} :
    (status n).Ends s tr nv s' ↔
      ∃ a, tr = [⟨s, .status n, a⟩] ∧ nv = NodeView.ofAnswer n a := by
  unfold status await
  rw [Prog.ends_bind]
  constructor
  · rintro ⟨tr₁, tr₂, a, s₁, rfl, h₁, rfl, rfl, rfl⟩
    rw [Prog.ends_call.mp h₁]
    exact ⟨a, rfl, rfl⟩
  · rintro ⟨a, rfl, rfl⟩
    exact ⟨[_], [], a, s', rfl, Prog.ends_call.mpr rfl, rfl, rfl, rfl⟩

/-- It asks for nothing else. -/
theorem asks_status {r : Req} :
    (status n).Asks s tr r s' ↔ tr = [] ∧ .status n = r ∧ s = s' := by
  unfold status await
  rw [Prog.asks_bind]
  constructor
  · rintro (h | ⟨tr₁, tr₂, a, s₁, -, -, hno⟩)
    · exact Prog.asks_call.mp h
    · exact hno.elim
  · intro h
    exact .inl (Prog.asks_call.mpr h)

/-- The count of the committing threads is one request, or none. -/
theorem ends_countCommitting {k : Option Nat}
    (h : (countCommitting cfg n).Ends s tr k s') :
    (∃ s, tr = [⟨s, .committingThreads n, k⟩]) ∨ (tr = [] ∧ k = none) := by
  unfold countCommitting at h
  split at h
  · exact .inl ⟨s, Prog.ends_call.mp h⟩
  · exact .inr ⟨h.1, h.2.1.symm⟩

/-- A round that goes on with a view, or ends with one, found no session. -/
theorem ends_readStillness {prev : Option NodeView} {r : Stillness}
    (h : (readStillness cfg n prev).Ends s tr r s') :
    (∀ nv, r = .still nv →
      Quiet cfg n tr nv ∧ ∃ p, prev = some p ∧ p.gtidExecuted = nv.gtidExecuted) ∧
    (∀ why nv, r = .moving why (some nv) → Quiet cfg n tr nv) := by
  unfold readStillness at h
  obtain ⟨tr₁, tr₂, nv, s₁, rfl, h₁, h⟩ := (Prog.ends_bind _ _ _ _).mp h
  obtain ⟨a, rfl, rfl⟩ := ends_status.mp h₁
  -- The node does not answer.
  split at h
  · obtain ⟨-, rfl, -⟩ := Prog.ends_pure.mp h
    exact ⟨fun _ heq => (by cases heq), fun _ _ heq => by cases heq⟩
  · rename_i husable
    obtain ⟨tr₃, tr₄, k, s₂, rfl, h₂, h⟩ := (Prog.ends_bind _ _ _ _).mp h
    dsimp only at h
    -- Some session is open, or a thread is committing.
    split at h
    · obtain ⟨-, rfl, -⟩ := Prog.ends_pure.mp h
      exact ⟨fun _ heq => (by cases heq), fun _ _ heq => by cases heq⟩
    -- The read is quiet, whatever it is compared with.
    · rename_i hsessions
      rw [not_or, not_not, not_not] at hsessions
      have hquiet : tr₄ = [] →
          Quiet cfg n ([⟨s, .status n, a⟩] ++ (tr₃ ++ tr₄)) (.ofAnswer n a) := by
        rintro rfl
        refine ⟨s, a, s₁, tr₃, k, s₂, by simp, rfl, h₂, by simpa using husable, ?_, ?_⟩
        · exact hsessions.1
        · exact hsessions.2
      split at h
      -- The set is the one read before, so the node stands still.
      · rename_i hequal
        obtain ⟨hnil, rfl, -⟩ := Prog.ends_pure.mp h
        refine ⟨fun nv' heq => ?_, fun _ _ heq => by cases heq⟩
        cases heq
        refine ⟨hquiet hnil, ?_⟩
        obtain ⟨p, hp, hgtid⟩ := (Option.any_eq_true _ _).mp hequal
        exact ⟨p, hp, of_decide_eq_true hgtid⟩
      -- It is another set, but the read was quiet.
      · obtain ⟨hnil, rfl, -⟩ := Prog.ends_pure.mp h
        refine ⟨fun _ heq => (by cases heq), fun why nv' heq => ?_⟩
        cases heq
        exact hquiet hnil

/-- The loop settles with the view of its first round, which equals the one before the loop,
or after two rounds of its own. -/
theorem ends_pollStillness {deadline : Time} {nv : NodeView} {why' : String} :
    ∀ (rounds : Nat) (prev : Option NodeView) (why : String) (s : Ctl) (tr : List Asked),
      (pollStillness cfg n deadline rounds prev why).Ends s tr (some nv, why') s' →
        (∃ p, prev = some p ∧ p.gtidExecuted = nv.gtidExecuted ∧ Quiet cfg n tr nv) ∨
          Settled cfg n tr nv := by
  -- By induction on the rounds. The invariant is what the last read has shown.
  intro rounds
  induction rounds with
  | zero =>
      intro prev why s tr h
      cases h.2.1
  | succ rounds ih =>
      intro prev why s tr h
      unfold pollStillness ctl at h
      rw [Prog.ends_look] at h
      split at h
      · cases h.2.1
      · obtain ⟨tr₁, tr₂, r, s₁, rfl, h₁, h⟩ := (Prog.ends_bind _ _ _ _).mp h
        obtain ⟨hstill, hmoving⟩ := ends_readStillness h₁
        cases r with
        -- Still: the view before and this one have the same set.
        | still nv' =>
            obtain ⟨rfl, heq, -⟩ := h
            cases heq
            obtain ⟨hquiet, p, hp, hgtid⟩ := hstill nv rfl
            rw [List.append_nil]
            exact .inl ⟨p, hp, hgtid, hquiet⟩
        -- Moving: the next round compares with this read.
        | moving why₁ prev' =>
            obtain ⟨x, s₂, tr₃, rfl, h₂⟩ := Prog.ends_call_bind.mp h
            rcases ih prev' why₁ s₂ tr₃ h₂ with ⟨p, rfl, hgtid, hquiet⟩ | hsettled
            · -- this round and the next one
              exact .inr ⟨[], tr₁, s₁, tr₃, p, rfl, hmoving why₁ p rfl, hquiet, hgtid⟩
            -- Two later rounds have settled it.
            · obtain ⟨pre, first, s₃, last, p, rfl, hfirst, hlast, hgtid⟩ := hsettled
              refine .inr ⟨tr₁ ++ ⟨s₁, .sleep, x⟩ :: pre, first, s₃, last, p, ?_, hfirst, hlast,
                hgtid⟩
              simp

/-- A node that is quiesced has settled. -/
theorem ends_quiesce {nv : NodeView} {why : String}
    (h : (quiesce cfg n).Ends s tr (some nv, why) s') : Settled cfg n tr nv := by
  unfold quiesce ctl at h
  rw [Prog.ends_look] at h
  rcases ends_pollStillness _ _ _ _ _ h with ⟨p, hp, -⟩ | hsettled
  · cases hp
  · exact hsettled

/-! ### From the rounds to the repoint -/

/-- The calls that end in a repoint of `n` to `primary`: it settled on the view `nv`, and
then `primary` was read as `pv`. -/
structure Grounds (cfg : Config) (n primary : Node) (tr : List Asked) (nv pv : NodeView) :
    Prop where
  calls : ∃ (settled : List Asked) (s₁ : Ctl) (a : Except String StatusBody),
    tr = settled ++ [⟨s₁, .status primary, a⟩] ∧ Settled cfg n settled nv ∧
      pv = .ofAnswer primary a
  usable : pv.usable = true
  subset : nv.gtidExecuted ⊆ pv.gtidExecuted

/-- More calls before the ones that matter. -/
theorem Grounds.prepend {nv pv : NodeView} (pre : List Asked)
    (h : Grounds cfg n primary tr nv pv) : Grounds cfg n primary (pre ++ tr) nv pv := by
  obtain ⟨settled, s₁, a, rfl, hsettled, hpv⟩ := h.calls
  obtain ⟨pre', first, s₂, last, p, rfl, hrest⟩ := hsettled
  refine ⟨⟨_, s₁, a, (List.append_assoc _ _ _).symm, ?_, hpv⟩, h.usable, h.subset⟩
  exact ⟨pre ++ pre', first, s₂, last, p, by simp, hrest⟩

/-- A request for a repoint is not one of those that a rejoin makes beside it. -/
theorem not_watches_repoint {m : Node} {src : Option Node} :
    ¬ (watchVocabulary n).awaits (.repoint m src) := id

variable {why : String} {inlineVerify : Bool} {m : Node} {src : Option Node}

/-- From the subset check on, the one repoint is asked for at once. -/
theorem asks_repointOrRebuild {phantom : GtidSet}
    (h : (repointOrRebuild cfg n primary phantom why inlineVerify).Asks s tr (.repoint m src)
      s') : tr = [] ∧ phantom.isEmpty = true ∧ m = n ∧ src = some primary ∧ s = s' := by
  unfold repointOrRebuild at h
  split at h
  · rename_i hempty
    rcases Prog.asks_call_bind.mp h with ⟨rfl, heq, rfl⟩ | ⟨x, s₁, tr', -, h⟩
    · cases heq
      exact ⟨rfl, hempty, rfl, rfl, rfl⟩
    · cases x with
      | error e => exact h.elim
      | ok _ =>
          -- The watch asks for no repoint.
          rcases (Prog.asks_bind _ _ _ _).mp h with h | ⟨tr₁, tr₂, _, _, -, -, h⟩
          · exact h.elim
          · rcases (Prog.asks_bind _ _ _ _).mp h with h | ⟨tr₃, tr₄, _, _, -, -, h⟩
            · exact absurd ((watchErrant_speaks cfg n primary inlineVerify).asks h)
                not_watches_repoint
            · exact h.elim
  · rcases (Prog.asks_bind _ _ _ _).mp h with h | ⟨tr₁, tr₂, _, _, -, -, h⟩
    · exact absurd ((rebuild_speaks cfg n why phantom).asks h) not_watches_repoint
    · exact h.elim

/-- A rejoin that repoints has its grounds. -/
theorem asks_checkAndRejoin
    (h : (checkAndRejoin cfg n primary why inlineVerify).Asks s tr (.repoint m src) s') :
    m = n ∧ src = some primary ∧ ∃ nv pv, Grounds cfg n primary tr nv pv := by
  unfold checkAndRejoin at h
  rcases (Prog.asks_bind _ _ _ _).mp h with h | ⟨tr₁, tr₂, stable, s₁, rfl, h₁, h⟩
  · exact absurd (((quiesce_speaks cfg n).mono (Vocabulary.noMaint_le _)).asks h)
      not_watches_repoint
  · obtain ⟨stable, qwhy⟩ := stable
    cases stable with
    | none =>
        rcases (Prog.asks_bind _ _ _ _).mp h with h | ⟨tr₃, tr₄, _, _, -, -, h⟩
        · exact absurd ((rebuild_speaks cfg n _ _).asks h) not_watches_repoint
        · exact h.elim
    | some nv =>
        rcases (Prog.asks_bind _ _ _ _).mp h with h | ⟨tr₃, tr₄, pv, s₂, rfl, h₂, h⟩
        · cases (asks_status.mp h).2.1
        · obtain ⟨a, rfl, rfl⟩ := ends_status.mp h₂
          split at h
          · exact h.elim
          · rename_i husable
            obtain ⟨rfl, hempty, rfl, rfl, -⟩ := asks_repointOrRebuild h
            refine ⟨rfl, rfl, nv, .ofAnswer primary a, ⟨tr₁, s₁, a, by simp, ?_, rfl⟩, ?_, ?_⟩
            · exact ends_quiesce h₁
            · simpa using husable
            · exact (GtidSet.isSubset_iff _ _).mp hempty

/-- What `rejoin_node` has read when it posts /repoint. It names the primary of the state in
which it first read the node. -/
theorem asks_rejoinNode
    (h : (rejoinNode cfg n why inlineVerify).Asks s tr (.repoint m src) s') :
    ∃ primary a tr', s.primary = some primary ∧ m = n ∧ src = some primary ∧
      tr = ⟨s, .status n, a⟩ :: tr' ∧ ∃ nv pv, Grounds cfg n primary tr' nv pv := by
  unfold rejoinNode ctl at h
  rw [Prog.asks_look] at h
  split at h
  · exact h.elim
  · rename_i primary hprimary
    rcases (Prog.asks_bind _ _ _ _).mp h with h | ⟨tr₁, tr₂, fresh, s₁, rfl, h₁, h⟩
    · cases (asks_status.mp h).2.1
    · obtain ⟨a, rfl, rfl⟩ := ends_status.mp h₁
      dsimp only at h
      split at h
      · rcases Prog.asks_call_bind.mp h with ⟨-, heq, -⟩ | ⟨x, s₂, tr₃, rfl, h₂⟩
        · cases heq
        · obtain ⟨rfl, rfl, nv, pv, hgrounds⟩ := asks_checkAndRejoin h₂
          exact ⟨primary, a, _, hprimary, rfl, rfl, rfl, nv, pv, hgrounds.prepend [_]⟩
      · obtain ⟨rfl, rfl, nv, pv, hgrounds⟩ := asks_checkAndRejoin h
        exact ⟨primary, a, _, hprimary, rfl, rfl, rfl, nv, pv, hgrounds⟩

end

/-! ### A rejoin that repoints

The other direction, for a state that stays as it is: when two reads in a row find nothing,
the node is repointed. -/

/-- The calls of `committing_threads` when the prober cannot say. -/
def uncounted (cfg : Config) (n : Node) (s : Ctl) : List Asked :=
  if cfg.canCountCommitting then [⟨s, .committingThreads n, none⟩] else []

/-- The calls of two rounds of `quiesce`, with the answers `a` and `a'`. -/
def twoRounds (cfg : Config) (n : Node) (s : Ctl) (a a' : Except String StatusBody) :
    List Asked :=
  (⟨s, .status n, a⟩ :: uncounted cfg n s) ++
    ⟨s, .sleep, ()⟩ :: (⟨s, .status n, a'⟩ :: uncounted cfg n s)

/-- Whether a node looks like a former primary, which is fenced first. -/
def NodeView.formerPrimary (nv : NodeView) : Bool :=
  nv.usable && (nv.semisync.sourceEnabled || nv.waiting != 0)

/-- The calls before `quiesce`, when the node first looks like `a` and the fence answers
`f`. -/
def opening (n : Node) (s : Ctl) (a : Except String StatusBody) (f : Except AgentError FenceBody) :
    List Asked :=
  ⟨s, .status n, a⟩ ::
    if (NodeView.ofAnswer n a).formerPrimary then [⟨s, .fence n, f⟩] else []

section
variable {cfg : Config} {n primary : Node} {s : Ctl} {a a' : Except String StatusBody}

/-- The count without a manager's right ends at once. -/
theorem countCommitting_ends :
    (countCommitting cfg n).Ends s (uncounted cfg n s) none s := by
  unfold countCommitting uncounted
  split
  · exact Prog.ends_call.mpr rfl
  · exact ⟨rfl, rfl, rfl⟩

/-- A round that finds no session. -/
theorem readStillness_ends (prev : Option NodeView)
    (husable : (NodeView.ofAnswer n a).usable = true)
    (hwaiting : (NodeView.ofAnswer n a).waiting = 0) :
    (readStillness cfg n prev).Ends s (⟨s, .status n, a⟩ :: uncounted cfg n s)
      (if prev.any fun p => p.gtidExecuted = (NodeView.ofAnswer n a).gtidExecuted then
        .still (.ofAnswer n a)
      else .moving s!"{n} gtid_executed still changing" (some (.ofAnswer n a))) s := by
  unfold readStillness
  refine Prog.ends_seq [_] (uncounted cfg n s) s (ends_status.mpr ⟨a, rfl, rfl⟩) ?_
  rw [if_neg (by simp [husable])]
  rw [← List.append_nil (uncounted cfg n s)]
  refine Prog.ends_seq _ [] s countCommitting_ends ?_
  have hnone : ¬ ((((NodeView.ofAnswer n a).raw.bind (·.semisync)).bind
      (·.waitSessions)).getD 0 ≠ 0 ∨ (none : Option Nat).getD 0 ≠ 0) := by
    rintro (h | h)
    · exact h hwaiting
    · exact h rfl
  dsimp only
  rw [if_neg hnone]
  split
  · exact ⟨rfl, rfl, rfl⟩
  · exact ⟨rfl, rfl, rfl⟩

/-- Two rounds that find no session and the same set. -/
theorem quiesce_ends (hrounds : 2 ≤ cfg.rounds) (hsecond : 0 < cfg.second)
    (husable : (NodeView.ofAnswer n a).usable = true)
    (husable' : (NodeView.ofAnswer n a').usable = true)
    (hwaiting : (NodeView.ofAnswer n a).waiting = 0)
    (hwaiting' : (NodeView.ofAnswer n a').waiting = 0)
    (hgtid : (NodeView.ofAnswer n a).gtidExecuted = (NodeView.ofAnswer n a').gtidExecuted) :
    (quiesce cfg n).Ends s (twoRounds cfg n s a a') (some (.ofAnswer n a'), "ok") s := by
  obtain ⟨rounds, hr⟩ := Nat.exists_eq_add_of_le' hrounds
  have hearly : ¬ s.mono + 20 * cfg.second ≤ s.mono :=
    not_le.mpr (Int.lt_add_of_pos_right s.mono (Int.mul_pos (by decide) hsecond))
  unfold quiesce ctl
  rw [Prog.ends_look, hr]
  unfold pollStillness ctl
  rw [Prog.ends_look, if_neg hearly]
  refine Prog.ends_seq _ _ s (readStillness_ends none husable hwaiting) ?_
  refine Prog.ends_call_bind.mpr ⟨(), s, _, rfl, ?_⟩
  unfold pollStillness ctl
  rw [Prog.ends_look, if_neg hearly, ← List.append_nil (_ :: uncounted cfg n s)]
  refine Prog.ends_seq _ [] s (readStillness_ends _ husable' hwaiting') ?_
  rw [if_pos (by simp [hgtid])]
  exact ⟨rfl, rfl, rfl⟩

/-- A node that was found quiet twice, and a subset of the primary, is repointed. -/
theorem rejoinNode_asks (why : String) (inlineVerify : Bool)
    (a₀ b : Except String StatusBody) (f : Except AgentError FenceBody)
    (hprimary : s.primary = some primary)
    (hquiet : (quiesce cfg n).Ends s (twoRounds cfg n s a a') (some (.ofAnswer n a'), "ok") s)
    (hpv : (NodeView.ofAnswer primary b).usable = true)
    (hsub : (NodeView.ofAnswer n a').gtidExecuted ⊆
      (NodeView.ofAnswer primary b).gtidExecuted) :
    (rejoinNode cfg n why inlineVerify).Asks s
      (opening n s a₀ f ++ (twoRounds cfg n s a a' ++ [⟨s, .status primary, b⟩]))
      (.repoint n (some primary)) s := by
  -- From the second round on: the primary is read, and the sets decide for a repoint.
  have hcheck : (checkAndRejoin cfg n primary why inlineVerify).Asks s
      (twoRounds cfg n s a a' ++ [⟨s, .status primary, b⟩]) (.repoint n (some primary)) s := by
    unfold checkAndRejoin
    refine Prog.asks_seq _ _ s hquiet ?_
    refine Prog.asks_seq [_] [] s (ends_status.mpr ⟨b, rfl, rfl⟩) ?_
    rw [if_neg (by simp [hpv])]
    -- Nothing of the node is missing on the primary.
    unfold repointOrRebuild
    have hempty : ((NodeView.ofAnswer n a').gtidExecuted \
        (NodeView.ofAnswer primary b).gtidExecuted).isEmpty = true :=
      (GtidSet.isSubset_iff _ _).mpr hsub
    rw [if_pos hempty]
    exact .inl ⟨rfl, rfl, rfl⟩
  unfold rejoinNode ctl
  rw [Prog.asks_look]
  simp only [hprimary]
  -- The first status of the node decides only whether it is fenced first.
  refine Prog.asks_seq [_] _ s (ends_status.mpr ⟨a₀, rfl, rfl⟩) ?_
  by_cases hformer : (NodeView.ofAnswer n a₀).formerPrimary = true
  · rw [if_pos hformer]
    unfold NodeView.formerPrimary NodeView.waiting at hformer
    rw [if_pos hformer]
    exact Prog.asks_call_bind.mpr (.inr ⟨f, s, _, rfl, hcheck⟩)
  · rw [if_neg hformer]
    unfold NodeView.formerPrimary NodeView.waiting at hformer
    rw [if_neg hformer]
    exact hcheck

end

end DbGuard
