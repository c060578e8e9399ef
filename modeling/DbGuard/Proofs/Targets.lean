import DbGuard.Proofs.CatchUp
import DbGuard.Proofs.RejoinTrace
import DbGuard.Proofs.Script

/-!
# `DbGuard.Proofs.Targets`: which primary a repoint names

A node is repointed outside a failover, a switchover and a cold start by `rejoin_node`, by
`rebuild_and_join` after a clone, and by `_repoint_after` for a former primary. `Posts` is
such a /repoint, the second POST of a lost link included. `Targeted` says that it names the
primary of the moment, after the node was found to hold nothing that this primary lacks.

`rejoin_node` reads the set's primary once, when it starts, and names it some awaits later.
The other two check nothing. `repoint_targets_iff` takes the calls of the task from the log
(`DbGuard.Proofs.RejoinTrace`) and shows that a post is targeted when it is a rejoin's and
the primary is still the same, and for no other reason. A second POST comes after the same
calls and the request itself (`resent_of_runs`), and is judged at its own moment.
-/

set_option autoImplicit false

namespace DbGuard

open Coop (Prog Pool Move Traced dialog)

/-! ### Posts and their grounds -/

/-- Whether a task with this job runs a failover, a cold start or a switchover. -/
def Job.operates : Job → Bool
  | .tick | .switchover _ => true
  | _ => false

/-- After the steps `l` this step posts, for task `t` with job `j` in state `s`, a /repoint of
`n` to `src`, outside a failover, a switchover and a cold start. -/
inductive Posts (l : List Step) : Step → Nat → Job → Node → Option Node → Ctl → Prop
  | single (t : Nat) (j : Job) (n : Node) (src : Option Node) (s : Ctl) :
    Posts l (.issued t j (.repoint n src) s) t j n src s
  | after (t : Nat) (old target : Node) (s : Ctl) :
    Posts l (.issued t (.repointAfter old target) (.repointAll [old] target) s) t
      (.repointAfter old target) old (some target) s
  | again (t : Nat) (j : Job) (q : Req) (s₁ : Ctl) (n : Node) (src : Option Node) (s : Ctl)
    (hissued : .issued t j q s₁ ∈ l) (hj : j.operates = false) :
    Posts l (.resent t (.repoint n src) s) t j n src s

/-- Whether a task with this job runs `rejoin_node`, for a node's own task or a request. -/
def byRejoin : Job → Bool
  | .rejoinNode _ _ | .rejoin _ => true
  | _ => false

/-- The source is the primary of the state, and task `t` has read the node and then this
primary and found the node's gtid_executed to be a subset. `W n k` says that a local write
commits on `n` when the log has `k` steps, and none has come since the read of the node. -/
def Targeted (W : Node → Nat → Prop) (l : List Step) (t : Nat) (n : Node)
    (src : Option Node) (s : Ctl) : Prop :=
  ∃ p, src = some p ∧ s.primary = some p ∧ ∃ l₁ a l₂ b l₃,
    l = l₁ ++ .answered t (.status n) a :: (l₂ ++ .answered t (.status p) b :: l₃) ∧
      (NodeView.ofAnswer p b).usable = true ∧
      (NodeView.ofAnswer n a).gtidExecuted ⊆ (NodeView.ofAnswer p b).gtidExecuted ∧
      ∀ k, W n k → k ≤ l.length → k ≤ l₁.length

/-- The state in which task `t` first asked for a node's status. -/
def atFirstRead (t : Nat) (log : List Step) : Option Ctl :=
  log.findSome? fun
    | .issued t' _ (.status _) s => if t' = t then some s else none
    | _ => none

/-- Every local write on `n` so far came before some read of its status by task `t` that was
not the task's last call. -/
def Undisturbed (W : Node → Nat → Prop) (l : List Step) (t : Nat) (n : Node) : Prop :=
  ∀ k, W n k → k ≤ l.length → ∃ l₁ a l₂ r b l₃,
    l = l₁ ++ .answered t (.status n) a :: (l₂ ++ .answered t r b :: l₃) ∧ k ≤ l₁.length

/-- The post is a rejoin's, the set still has the primary that it had when the rejoin first
read the node, and no local write came after its last quiescence read. -/
structure Kept (W : Node → Nat → Prop) (l : List Step) (t : Nat) (j : Job) (n : Node)
    (s : Ctl) : Prop where
  rejoin : byRejoin j = true
  primary : (atFirstRead t l).map Ctl.primary = some s.primary
  writes : Undisturbed W l t n

/-! ### The calls of a rejoin's task -/

section
variable {cfg : Config} {t : Nat} {s s' : Ctl} {tr : List Asked} {r : Req} {α : Type}

/-- Taking the lock ends without a call. -/
theorem ends_acquire {x : Unit} (h : (acquire t).Ends s tr x s') : tr = [] := by
  unfold acquire ctl at h
  rw [Prog.ends_look] at h
  split at h
  · exact h.1
  · obtain ⟨s₁, -, h⟩ := h
    exact h.1

/-- It asks nothing. -/
theorem asks_acquire : ¬ (acquire t).Asks s tr r s' := by
  unfold acquire ctl
  rw [Prog.asks_look]
  split
  · exact Prog.asks_update
  · rintro ⟨s₁, -, h⟩
    exact h

/-- What is asked under the lock is asked by what runs under it. -/
theorem asks_withLock {m : M α} (h : (withLock t m).Asks s tr r s') :
    ∃ s₁, m.Asks s₁ tr r s' := by
  unfold withLock at h
  rcases (Prog.asks_bind _ _ _ _).mp h with h | ⟨tr₁, tr₂, x, s₁, rfl, h₁, h⟩
  · exact absurd h asks_acquire
  · rw [ends_acquire h₁]
    rcases (Prog.asks_bind _ _ _ _).mp h with h | ⟨tr₃, tr₄, a, s₂, -, -, h⟩
    · exact ⟨s₁, h⟩
    · exact h.elim

/-- The fresh views are the answers to one request. -/
theorem ends_freshViews {ns : List Node} {vs : Views} :
    (freshViews ns).Ends s tr vs s' →
      ∃ a, tr = [⟨s, .freshViews ns, a⟩] ∧ vs = .ofAnswers ns a := by
  intro h
  unfold freshViews await at h
  obtain ⟨tr₁, tr₂, a, s₁, rfl, h₁, rfl, rfl, -⟩ := (Prog.ends_bind _ _ _ _).mp h
  rw [Prog.ends_call.mp h₁]
  exact ⟨a, rfl, rfl⟩

/-- The request handler reads fresh views first, and then runs `rejoin_node`. -/
theorem asks_rejoinLocked {n m : Node} {src : Option Node}
    (h : (rejoinLocked cfg n).Asks s tr (.repoint m src) s') :
    ∃ s₁ ns a s₂ why tr', tr = ⟨s₁, .freshViews ns, a⟩ :: tr' ∧
      (rejoinNode cfg n why false).Asks s₂ tr' (.repoint m src) s' := by
  unfold rejoinLocked ctl at h
  rw [Prog.asks_look] at h
  rcases (Prog.asks_bind _ _ _ _).mp h with h | ⟨tr₁, tr₂, vs, s₁, rfl, h₁, h₂⟩
  · rcases Prog.asks_call_bind.mp h with ⟨-, heq, -⟩ | ⟨_, _, _, -, hno⟩
    · cases heq
    · exact hno.elim
  · obtain ⟨a, rfl, rfl⟩ := ends_freshViews h₁
    rw [Prog.asks_look] at h₂
    split at h₂
    · exact h₂.elim
    · dsimp only at h₂
      split at h₂
      · exact h₂.elim
      · rcases (Prog.asks_bind _ _ _ _).mp h₂ with h₃ | ⟨tr₃, tr₄, x, s₂, rfl, h₃, h₄⟩
        · exact absurd h₃ asks_joinMember
        · rw [ends_joinMember h₃, List.nil_append]
          rcases (Prog.asks_bind _ _ _ _).mp h₄ with h₅ | ⟨_, _, _, _, -, -, h₅⟩
          · exact ⟨s, _, a, s₂, _, tr₄, rfl, h₅⟩
          · exact h₅.elim

/-- The calls of a rejoin's task, when it posts: nothing about a status, then the calls of
`rejoin_node`. -/
theorem asks_rejoin_task {j : Job} {n : Node} {src : Option Node}
    (hj : byRejoin j = true)
    (h : (body cfg t j).Asks s tr (.repoint n src) s') :
    ∃ pre s₁ primary a tr' nv pv, tr = pre ++ ⟨s₁, .status n, a⟩ :: tr' ∧
      (∀ c ∈ pre, ∀ m, isRead m c = false) ∧ s₁.primary = some primary ∧
      src = some primary ∧ Grounds cfg n primary tr' nv pv := by
  cases j
  -- A task that the manager starts for a rejoin.
  case rejoinNode n' why =>
    rcases (Prog.asks_bind _ _ _ _).mp h with h | ⟨_, _, _, _, -, -, h⟩
    · obtain ⟨primary, a, tr', hprimary, rfl, rfl, rfl, nv, pv, hgrounds⟩ := asks_rejoinNode h
      exact ⟨[], s, primary, a, tr', nv, pv, rfl, fun _ hc => absurd hc List.not_mem_nil,
        hprimary, rfl, hgrounds⟩
    · exact h.elim
  -- The rejoin of the API reads the views first, and refuses or takes the lock.
  case rejoin n' =>
    unfold body setRejoin ctl at h
    rw [Prog.asks_look] at h
    split at h
    · cases (Prog.asks_call.mp h).2.1
    · split at h
      · cases (Prog.asks_call.mp h).2.1
      · rcases (Prog.asks_bind _ _ _ _).mp h with h₁ | ⟨_, _, _, _, -, -, h₁⟩
        -- Under the lock it reads fresh views, and then it runs the rejoin's own program.
        · obtain ⟨s₁, h₂⟩ := asks_withLock h₁
          obtain ⟨s₂, ns, a, s₃, why, tr', rfl, h₃⟩ := asks_rejoinLocked h₂
          obtain ⟨primary, a', tr'', hprimary, rfl, rfl, rfl, nv, pv, hgrounds⟩ :=
            asks_rejoinNode h₃
          refine ⟨[⟨s₂, .freshViews ns, a⟩], s₃, primary, a', tr'', nv, pv, rfl, ?_, hprimary,
            rfl, hgrounds⟩
          -- The read of the views is a read of no single node.
          intro c hc m
          rw [List.mem_singleton.mp hc]
          rfl
        · cases (Prog.asks_call.mp h₁).2.1
  -- The other tasks are not started by a rejoin.
  all_goals cases hj

end

/-! ### From the calls to the log -/

section
variable {cfg : Config} {t : Nat} {j : Job} {n primary : Node} {l : List Step}
  {tr : List Asked} {Z : List Step}

/-- The first read is in the calls of the task. -/
theorem atFirstRead_dialog : atFirstRead t (dialog t l) = atFirstRead t l := by
  induction l with
  | nil => rfl
  | cons e l ih =>
      unfold dialog at ih ⊢
      rw [List.filter_cons]
      split
      · unfold atFirstRead at ih ⊢
        rw [List.findSome?_cons, List.findSome?_cons, ih]
      · rename_i hother
        rw [ih]
        -- A step of another task, or no request.
        have hnone : atFirstRead t (e :: l) = atFirstRead t l := by
          unfold atFirstRead
          rw [List.findSome?_cons]
          cases e with
          | issued t' j' r s =>
              have hne : t' ≠ t := by simpa [Coop.Event.isCallOf] using hother
              cases r <;> simp [hne]
          | _ => rfl
        exact hnone.symm

/-- The first status of a node is one after which there is nothing but reads. -/
theorem atFirstRead_steps {pre tr' : List Asked} {s₁ : Ctl} {a : Except String StatusBody}
    (hpre : ∀ c ∈ pre, ∀ m, isRead m c = false)
    (h : dialog t l = Coop.Call.steps t j (pre ++ ⟨s₁, .status n, a⟩ :: tr') ++ Z) :
    atFirstRead t l = some s₁ := by
  rw [← atFirstRead_dialog, h, Coop.Call.steps_append]
  have hnone : atFirstRead t (Coop.Call.steps t j pre) = none := by
    refine List.findSome?_eq_none_iff.mpr fun e he => ?_
    obtain ⟨⟨s₂, r, x⟩, hc, hin⟩ := List.mem_flatMap.mp he
    rcases List.mem_cons.mp hin with rfl | hin
    · cases r with
      | status m => exact absurd (hpre _ hc m) (by simp [isRead])
      | _ => rfl
    · rw [List.mem_singleton.mp hin]
  unfold atFirstRead at hnone ⊢
  rw [List.append_assoc, List.findSome?_append, hnone]
  simp [Coop.Call.steps]

/-- Where the reads of the node and of the primary are in the log. Between them the task has
read no status, and after them it had no answer. -/
theorem Grounds.positions {pre : List Asked} {nv pv : NodeView}
    (hgrounds : Grounds cfg n primary tr nv pv)
    (h : dialog t l = Coop.Call.steps t j (pre ++ tr) ++ Z)
    (hZ : ∀ e ∈ Z, e.isIssued = true) :
    ∃ (l₁ : List Step) (a : Except String StatusBody) (l₂ : List Step)
      (b : Except String StatusBody) (l₃ : List Step),
      l = l₁ ++ .answered t (.status n) a :: (l₂ ++ .answered t (.status primary) b :: l₃) ∧
        nv = .ofAnswer n a ∧ pv = .ofAnswer primary b ∧
          (∀ (r : Req) (x : r.Resp), (.answered t r x : Step) ∉ l₃) ∧
          ∀ m x, (.answered t (.status m) x : Step) ∉ l₂ := by
  -- The grounds are a settled read of the node and then a read of the primary.
  obtain ⟨settled, s₁, b, rfl, hsettled, hpv⟩ := hgrounds.calls
  obtain ⟨pre', first, s₂, last, v, rfl, -, hlast, -⟩ := hsettled
  obtain ⟨s₃, a, s₄, count, k, s₅, rfl, hnv, hcount, -⟩ := hlast
  -- In the dialogue the two answers stand with the count between them.
  have hdialog : dialog t l =
      (Coop.Call.steps t j (pre ++ (pre' ++ first ++ [⟨s₂, .sleep, ()⟩])) ++
        [.issued t j (.status n) s₃]) ++ .answered t (.status n) a ::
          ((Coop.Call.steps t j count ++ [.issued t j (.status primary) s₁]) ++
            .answered t (.status primary) b :: Z) := by
    rw [h]
    simp [Coop.Call.steps]
  -- The log has the same two answers, with events of other tasks in between.
  obtain ⟨l₁, R, rfl, -, hR⟩ := Coop.split_of_dialog hdialog
  obtain ⟨l₂, l₃, rfl, hl₂, hl₃⟩ := Coop.split_of_dialog hR
  refine ⟨l₁, a, l₂, b, l₃, rfl, hnv, hpv, fun r x hx => ?_, fun m x hx => ?_⟩
  -- Nothing is answered after the primary's status: what remains are requests.
  · have hmem : (.answered t r x : Step) ∈ dialog t l₃ :=
      List.mem_filter.mpr ⟨hx, by simp [Coop.Event.isCallOf]⟩
    rw [hl₃] at hmem
    exact Bool.false_ne_true (hZ _ hmem)
  have hmem : (.answered t (.status m) x : Step) ∈ dialog t l₂ :=
    List.mem_filter.mpr ⟨hx, by simp [Coop.Event.isCallOf]⟩
  rw [hl₂] at hmem
  rcases List.mem_append.mp hmem with hmem | hmem
  · -- only the count of committing threads is between them
    rcases ends_countCommitting hcount with ⟨s₆, rfl⟩ | ⟨rfl, -⟩
    · rcases List.mem_cons.mp hmem with heq | hmem
      · cases heq
      · cases List.mem_singleton.mp hmem
    · exact absurd hmem List.not_mem_nil
  · cases List.mem_singleton.mp hmem

/-- A read that another answer of the task follows is not after the last quiescence read. -/
theorem length_le_of_read {l₁ l₂ l₃ m₁ m₂ m₃ : List Step} {a x : Except String StatusBody}
    {b : Except String StatusBody} {r : Req} {y : r.Resp}
    (hsplit : l₁ ++ .answered t (.status n) a :: (l₂ ++ .answered t (.status primary) b :: l₃) =
      m₁ ++ .answered t (.status n) x :: (m₂ ++ .answered t r y :: m₃))
    (hno : ∀ (r : Req) (y : r.Resp), (.answered t r y : Step) ∉ l₃)
    (hl₂ : ∀ m x, (.answered t (.status m) x : Step) ∉ l₂) : m₁.length ≤ l₁.length := by
  by_contra hlt
  -- The later read is in what follows the quiescence read.
  obtain ⟨mid, hmid⟩ : ∃ mid, m₁ = l₁ ++ .answered t (.status n) a :: mid := by
    rcases List.append_eq_append_iff.mp hsplit with ⟨c, hm, hc⟩ | ⟨c, hl, hc⟩
    · cases c with
      | nil =>
          rw [hm, List.append_nil] at hlt
          exact absurd (Nat.le_refl _) hlt
      | cons e c =>
          injection hc with he hc
          exact ⟨c, by rw [hm, ← he]⟩
    · rw [hl, List.length_append] at hlt
      omega
  rw [hmid, List.append_assoc] at hsplit
  have hrest := List.append_cancel_left hsplit
  rw [List.cons_append] at hrest
  injection hrest with _ hrest
  rcases List.append_eq_append_iff.mp hrest with ⟨c, hm, hc⟩ | ⟨c, hl, hc⟩
  · cases c with
    | nil =>
        -- It is the read of the primary, and nothing follows that.
        injection hc with _ hc
        exact hno r y (hc ▸ List.mem_append_right _ List.mem_cons_self)
    | cons e c =>
        injection hc with _ hc
        exact hno (.status n) x (hc ▸ List.mem_append_right _ List.mem_cons_self)
  · cases c with
    | nil =>
        injection hc with _ hc
        exact hno r y (hc ▸ List.mem_append_right _ List.mem_cons_self)
    | cons e c =>
        injection hc with he _
        exact hl₂ n x (hl ▸ he ▸ List.mem_append_right _ List.mem_cons_self)

end

/-! ### When a post is targeted -/

section
variable {cfg : Config} {W : Node → Nat → Prop} {t : Nat} {j : Job} {n : Node}
  {src : Option Node} {s₀ s s₁ : Ctl} {l : List Step} {tr : List Asked} {Z : List Step}

/-- A rejoin's post is targeted exactly when the primary is the one that it started with and
its reads are not overtaken by a local write. -/
theorem targeted_iff_of_rejoin (hj : byRejoin j = true)
    (hasks : (body cfg t j).Asks s₀ tr (.repoint n src) s₁)
    (hdialog : dialog t l = Coop.Call.steps t j tr ++ Z) (hZ : ∀ e ∈ Z, e.isIssued = true) :
    Targeted W l t n src s ↔
      (atFirstRead t l).map Ctl.primary = some s.primary ∧ Undisturbed W l t n := by
  obtain ⟨pre, s₂, primary, a₀, tr', nv, pv, rfl, hpre, hprimary, rfl, hgrounds⟩ :=
    asks_rejoin_task hj hasks
  have hfirst : (atFirstRead t l).map Ctl.primary = some (some primary) := by
    rw [atFirstRead_steps hpre hdialog, Option.map_some, hprimary]
  rw [hfirst]
  constructor
  · rintro ⟨p, hp, hcurrent, l₁, a, l₂, b, l₃, rfl, -, -, hwrites⟩
    cases hp
    refine ⟨by rw [hcurrent], fun k hk hle => ?_⟩
    exact ⟨l₁, a, l₂, .status primary, b, l₃, rfl, hwrites k hk hle⟩
  · rintro ⟨hcurrent, hwrites⟩
    have hdialog' : dialog t l =
        Coop.Call.steps t j ((pre ++ [⟨s₂, .status n, a₀⟩]) ++ tr') ++ Z := by simpa using hdialog
    obtain ⟨l₁, a, l₂, b, l₃, rfl, rfl, rfl, hl₃, hl₂⟩ := hgrounds.positions hdialog' hZ
    refine ⟨primary, rfl, (Option.some.inj hcurrent).symm, l₁, a, l₂, b, l₃, rfl,
      hgrounds.usable, hgrounds.subset, fun k hk hle => ?_⟩
    obtain ⟨m₁, x, m₂, r, y, m₃, hsplit, hkm⟩ := hwrites k hk hle
    exact Nat.le_trans hkm (length_le_of_read hsplit hl₃ hl₂)

/-- The task of a targeted post has read the status of the primary that the post names. -/
theorem Targeted.asks_status (h : Targeted W l t n src s) {r : Req}
    (hasks : (body cfg t j).Asks s₀ tr r s₁)
    (hdialog : dialog t l = Coop.Call.steps t j tr ++ Z) (hZ : ∀ e ∈ Z, e.isIssued = true) :
    ∃ p, src = some p ∧ j.Asks (.status p) := by
  obtain ⟨p, hp, -, l₁, a, l₂, b, l₃, rfl, -⟩ := h
  have hmem : (.answered t (.status p) b : Step) ∈
      l₁ ++ .answered t (.status n) a :: (l₂ ++ .answered t (.status p) b :: l₃) := by simp
  obtain ⟨c, hc, heq⟩ := Coop.call_of_answered_issued hdialog hZ hmem
  have hreq := body_calls hasks c hc
  rw [heq] at hreq
  exact ⟨p, hp, hreq⟩

/-- A single /repoint is a rejoin's or follows a clone. -/
theorem byRejoin_or_clone (h : j.Asks (.repoint n src)) :
    byRejoin j = true ∨ ∀ p, j.Asks (.status p) → p = n := by
  cases j with
  | rejoinNode n' why => exact .inl rfl
  | rejoin n' => exact .inl rfl
  -- A rebuild asks the status of its own node, and so does a replacement.
  | rebuildAndJoin args =>
      refine .inr fun p hp => ?_
      have hn : n = args.node := h
      exact (show p = args.node from hp).trans hn.symm
  | replace spare donor =>
      refine .inr fun p hp => ?_
      rcases h with h | h
      · cases h
      · rcases hp with hp | hp
        · cases hp
        · exact (show p = spare from hp).trans (show n = spare from h).symm
  -- Ticks and switchovers repoint several nodes at once.
  | tick =>
      rcases h with ⟨_, _, h⟩ | h | h
      · cases h
      · exact h.elim
      · exact h.elim
  | switchover target =>
      rcases h with h | ⟨_, h⟩
      · exact h.elim
      · cases h
  | halt _ | resume | getPrimary =>
      obtain ⟨_, h⟩ := h
      cases h
  | fence _ | fenceSecondWriter _ _ | repointAfter _ _ => cases h
  | verifyAfterRepoint _ _ | keepUnstuck _ => exact h.elim

/-- Outside a failover, a switchover and a cold start, only `_repoint_after` asks for the
repoints of several nodes. -/
theorem repointAfter_of_asks {ns : List Node} {p : Node} (hj : j.operates = false)
    (h : j.Asks (.repointAll ns p)) : ∃ old, j = .repointAfter old p ∧ ns = [old] := by
  cases j with
  | tick | switchover _ => cases hj
  | repointAfter old target =>
      have heq : Req.repointAll ns p = .repointAll [old] target := h
      obtain ⟨rfl, rfl⟩ := Req.repointAll.inj heq
      exact ⟨old, rfl, rfl⟩
  | halt _ | resume | getPrimary =>
      obtain ⟨_, h⟩ := h
      cases h
  | rejoin _ =>
      rcases h with h | ⟨_, h⟩
      · exact h.elim
      · cases h
  | replace _ _ =>
      rcases h with h | h
      · cases h
      · exact h.elim
  | fence _ | fenceSecondWriter _ _ => cases h
  | rejoinNode _ _ | rebuildAndJoin _ | verifyAfterRepoint _ _ | keepUnstuck _ => exact h.elim

/-- A task that asks for the repoint of one node posts a targeted one, the first or the second
time, exactly when it keeps to the conditions of `Kept`. -/
theorem kept_iff_targeted (hasks : (body cfg t j).Asks s₀ tr (.repoint n src) s₁)
    (hdialog : dialog t l = Coop.Call.steps t j tr ++ Z) (hZ : ∀ e ∈ Z, e.isIssued = true) :
    (Kept W l t j n s → Targeted W l t n src s) ∧
      (src ≠ some n → Targeted W l t n src s → Kept W l t j n s) := by
  constructor
  · intro hkept
    exact (targeted_iff_of_rejoin hkept.rejoin hasks hdialog hZ).mpr ⟨hkept.primary, hkept.writes⟩
  · intro hne htargeted
    rcases byRejoin_or_clone (body_asks hasks) with hj | hclone
    · obtain ⟨hprimary, hwrites⟩ := (targeted_iff_of_rejoin hj hasks hdialog hZ).mp htargeted
      exact ⟨hj, hprimary, hwrites⟩
    · obtain ⟨p, rfl, hp⟩ := htargeted.asks_status hasks hdialog hZ
      exact absurd (congrArg some (hclone p hp)) hne

/-- `_repoint_after` reads no status, so neither POST of its repoint is targeted. -/
theorem kept_iff_targeted_after {old target : Node} {r : Req}
    (hasks : (body cfg t (.repointAfter old target)).Asks s₀ tr r s₁)
    (hdialog : dialog t l = Coop.Call.steps t (Job.repointAfter old target) tr ++ Z)
    (hZ : ∀ e ∈ Z, e.isIssued = true) :
    Kept W l t (.repointAfter old target) n s ↔ Targeted W l t n src s := by
  constructor
  · intro hkept
    cases hkept.rejoin
  · intro htargeted
    obtain ⟨p, -, hp⟩ := htargeted.asks_status hasks hdialog hZ
    cases hp

end

/-! ### A repoint to the former primary -/

/-- A node without replication that has executed `u:1-n`. -/
def detached (n : Int) : Except String StatusBody :=
  .ok { mysqldAlive := true, mysqldResponsive := true, superReadOnly := some true
        gtidExecuted := upTo n }

/-- `a` is the primary and `c` its replica, `b` replicates from nobody. -/
def beside : Node → Except String StatusBody := fun n =>
  if n = "a" then primaryStatus 5
  else if n = "b" then detached 5
  else if n = "c" then replicaStatus "a" 5 5
  else down

/-- The same after a switchover to `c`. -/
def switchedOver : Node → Except String StatusBody := fun n =>
  if n = "c" then primaryStatus 5
  else if n = "a" ∨ n = "b" then detached 5
  else down

/-- A rejoin of `b` reads the node (task 2), a switchover moves the primary role to `c`
(task 3), and the rejoin goes on. -/
def staleRejoin : List (Move sig) :=
  discovery beside ++
  [.outside (.clock 1000 1000), .arrive .tick, .start 1, .answer 1 (succeed true beside),
   .start 2, .arrive (.switchover (some "c")), .start 3] ++
  List.replicate 7 (.answer 3 (succeed true beside)) ++
  List.replicate 7 (.answer 2 (succeed true switchedOver))

/-- What the last step of that run is. -/
theorem repoint_of_staleRejoin : ∃ p l j s, Runs fleet (fun _ _ _ => True) p ∧
    p.world.log = l ++ .issued 2 j (.repoint "b" (some "a")) s :: [] ∧ s.primary = some "c" := by
  obtain ⟨p, l, e, hp, hlog, hshows⟩ := exists_last fleet staleRejoin
    (asked 2 (.repoint "b" (some "a")) fun _ _ s => s.primary = some "c") (by decide +kernel)
  obtain ⟨j, s, rfl, hshown⟩ := of_asked hshows
  exact ⟨p, l, j, s, hp, hlog, of_decide_eq_true hshown⟩

end DbGuard
