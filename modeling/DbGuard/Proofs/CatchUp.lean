import DbGuard.Proofs.Discipline
import DbGuard.Proofs.RejoinTrace

/-!
# `DbGuard.Proofs.CatchUp`: what `wait_caught_up` has seen

`wait_caught_up` serves failover and switchover. Its rule is proved once here, for any
contract and any invariant `I` of the caller that its requests keep (`Asks`). It says which
steps were added, and that a node that was found caught up looked so in the last view of it.
`ends_waitCaughtUp` says the latter of the calls in a trace, where the state may change to
anything in between.
-/

set_option autoImplicit false

namespace DbGuard

open Coop (Prog World Contract own)

/-- A step in a log. -/
abbrev Step := Coop.Event sig

/-- A request of `wait_caught_up` on `W`. -/
def Req.IsRead (W : Node) (r : Req) : Prop := r = .status W ∨ r = .replicaState W ∨ r = .sleep

/-- A step of `wait_caught_up` on `W`, of task `t` with job `j`. -/
def Step.IsRead (t : Nat) (j : Job) (W : Node) (e : Step) : Prop :=
  ∃ r : Req, r.IsRead W ∧ ((∃ s, e = .issued t j r s) ∨ ∃ a, e = .answered t r a)

/-- The views of node `n` that were read by /status. -/
def statusViews (n : Node) (l : List Step) : List NodeView :=
  l.filterMap fun
    | .answered _ (.status m) a => if m = n then some (.ofAnswer m a) else none
    | _ => none

/-- The views of two logs come one behind the other. -/
theorem statusViews_append (n : Node) (l l' : List Step) :
    statusViews n (l ++ l') = statusViews n l ++ statusViews n l' :=
  List.filterMap_append

/-- How `wait_caught_up` finds a node caught up, with everything of `target` applied. -/
structure CaughtUp (cfg : Config) (target : Option GtidSet) (nv : NodeView) : Prop where
  usable : nv.usable = true
  noError : nv.replica.lastSqlError = none
  target : ∀ set, target = some set → set ⊆ nv.applied
  exit : nv.relayApplied = true ∨
    (nv.replica.ioRunning ≠ some .yes ∧ cfg.canReadReplicaState = true)

/-- Requests of kind `ok` keep the caller's invariant `I` and add their own two steps. -/
def Asks (C : Contract sig) (t : Nat) (j : Job) (I : World sig → Prop) (ok : Req → Prop) : Prop :=
  ∀ r : Req, ok r → ∀ {α : Type} (Q : α → World sig → World sig → Prop) (k : r.Resp → M α)
    (w₀ w : World sig), I w →
      (∀ a w', I w' →
        own t w'.log = own t w.log ++ [.issued t j r w.state, .answered t r a] →
          ∀ w₀, (k a).wp C t j Q w₀ w') →
        (await r >>= k).wp C t j Q w₀ w

/-- The steps `rs` that `wait_caught_up` added, which end in the view `nv`. -/
structure Reads (t : Nat) (j : Job) (W : Node) (rs : List Step) (nv : NodeView) : Prop where
  steps : ∀ e ∈ rs, Step.IsRead t j W e
  last : (statusViews W rs).getLast? = some nv

section
variable {cfg : Config} {C : Contract sig} {t : Nat} {j : Job} {I : World sig → Prop}
  {W : Node} {w₀ w : World sig} {α : Type} {Q : α → World sig → World sig → Prop}

/-- A read of `wait_caught_up` is a request and its answer. -/
theorem isRead_asked {r : Req} (hr : r.IsRead W) (s : Ctl) (a : r.Resp) :
    ∀ e ∈ [(.issued t j r s : Step), .answered t r a], Step.IsRead t j W e := by
  intro e he
  rcases List.mem_cons.mp he with rfl | he
  · exact ⟨r, hr, .inl ⟨s, rfl⟩⟩
  · rw [List.mem_singleton.mp he]
    exact ⟨r, hr, .inr ⟨a, rfl⟩⟩

/-- More steps after some steps. -/
theorem Reads.append {rs rs' : List Step} {nv : NodeView} (h : Reads t j W rs nv)
    (hsteps : ∀ e ∈ rs', Step.IsRead t j W e) (hnone : statusViews W rs' = []) :
    Reads t j W (rs ++ rs') nv where
  steps e he := (List.mem_append.mp he).elim (h.steps e) (hsteps e)
  last := by rw [statusViews_append, hnone, List.append_nil, h.last]

/-- More reads before others. -/
theorem Reads.prepend {rs rs' : List Step} {nv : NodeView} (h : Reads t j W rs' nv)
    (hsteps : ∀ e ∈ rs, Step.IsRead t j W e) : Reads t j W (rs ++ rs') nv where
  steps e he := (List.mem_append.mp he).elim (hsteps e) (h.steps e)
  last := by rw [statusViews_append, List.getLast?_append, h.last]; rfl

/-- One round. -/
theorem wp_readCaughtUp (hI : Asks C t j I (·.IsRead W)) (target : Option GtidSet) (h : I w)
    {k : Reading → M α}
    (hk : ∀ rd rs nv w', I w' → own t w'.log = own t w.log ++ rs → Reads t j W rs nv →
      (∀ why, rd = .caughtUp why → CaughtUp cfg target nv) → ∀ w₀, (k rd).wp C t j Q w₀ w') :
    (readCaughtUp cfg W target >>= k).wp C t j Q w₀ w := by
  unfold readCaughtUp status
  rw [bind_assoc, bind_assoc]
  refine hI _ (.inl rfl) _ _ _ _ h fun a w' h' hown w₀ => ?_
  have hreads : Reads t j W
      [(.issued t j (.status W) w.state : Step), .answered t (.status W) a] (.ofAnswer W a) :=
    ⟨isRead_asked (.inl rfl) w.state a, by simp [statusViews]⟩
  -- A round that ends here does not find the node caught up.
  have hbehind : ∀ rd, (∀ why, rd ≠ .caughtUp why) → (k rd).wp C t j Q w₀ w' :=
    fun rd hne => hk rd _ _ w' h' hown hreads (fun why heq => absurd heq (hne why)) w₀
  rw [pure_bind]
  split
  · rw [pure_bind]
    exact hbehind _ nofun
  · rename_i husable
    split
    · rw [pure_bind]
      exact hbehind _ nofun
    · rename_i hnoError
      split
      · rw [pure_bind]
        exact hbehind _ nofun
      · rename_i hheld
        have husable' : (NodeView.ofAnswer W a).usable = true := by simpa using husable
        split
        · rename_i happlied
          rw [pure_bind]
          refine hk _ _ _ w' h' hown hreads (fun _ _ => ?_) w₀
          refine ⟨husable', hnoError, fun set hset => ?_, .inl happlied⟩
          -- Everything it holds is applied.
          rw [hset] at hheld
          have hsub : set ⊆ (NodeView.ofAnswer W a).held := by simpa using hheld
          exact GtidSet.Subset.trans hsub (NodeView.held_subset_applied _ happlied)
        · dsimp only
          split
          · rename_i hidle
            rw [bind_assoc]
            refine hI _ (.inr (.inl rfl)) _ _ _ _ h' fun state w'' h'' hown'' w₀ => ?_
            have hown3 := hown''.trans (congrArg (· ++ _) hown)
            rw [List.append_assoc] at hown3
            have hreads' := hreads.append (isRead_asked (j := j) (.inr (.inl rfl)) w'.state state)
              (by simp [statusViews])
            split
            · rename_i hdone
              rw [pure_bind]
              refine hk _ _ _ w'' h'' hown3 hreads' (fun _ _ => ?_) w₀
              refine ⟨husable', hnoError, fun set hset => ?_, .inr hidle⟩
              have hall := hdone.2
              rw [hset] at hall
              simpa using hall
            · rw [pure_bind]
              exact hk _ _ _ w'' h'' hown3 hreads' (fun _ heq => by cases heq) w₀
          · rw [pure_bind]
            exact hbehind _ nofun

/-- The loop. -/
theorem wp_pollCaughtUp (hI : Asks C t j I (·.IsRead W)) (target : Option GtidSet)
    (deadline : Time) {k : Bool × String → M α} :
    ∀ (rounds : Nat) (w₀ w : World sig), I w →
      (∀ r rs w', I w' → own t w'.log = own t w.log ++ rs →
        (∃ nv, Reads t j W rs nv ∧ (r.1 = true → CaughtUp cfg target nv)) →
          ∀ w₀, (k r).wp C t j Q w₀ w') →
        (pollCaughtUp cfg W target deadline rounds >>= k).wp C t j Q w₀ w := by
  intro rounds
  -- By induction on the rounds; each round reads once, and then it may sleep.
  induction rounds with
  | zero =>
      intro w₀ w h hk
      unfold pollCaughtUp
      rw [bind_assoc]
      refine wp_readCaughtUp hI target h fun rd rs nv w' h' hown hreads hup w₀ => ?_
      have hnot : false = true → CaughtUp cfg target nv := fun h => absurd h Bool.false_ne_true
      cases rd with
      | caughtUp why => exact hk (true, why) rs w' h' hown ⟨nv, hreads, fun _ => hup _ rfl⟩ w₀
      | failed why => exact hk (false, why) rs w' h' hown ⟨nv, hreads, hnot⟩ w₀
      | behind why => exact hk (false, why) rs w' h' hown ⟨nv, hreads, hnot⟩ w₀
  | succ rounds ih =>
      intro w₀ w h hk
      unfold pollCaughtUp
      rw [bind_assoc]
      refine wp_readCaughtUp hI target h fun rd rs nv w' h' hown hreads hup w₀ => ?_
      have hnot : false = true → CaughtUp cfg target nv := fun h => absurd h Bool.false_ne_true
      cases rd with
      | caughtUp why => exact hk (true, why) rs w' h' hown ⟨nv, hreads, fun _ => hup _ rfl⟩ w₀
      | failed why => exact hk (false, why) rs w' h' hown ⟨nv, hreads, hnot⟩ w₀
      | behind why =>
          -- Behind: the deadline has passed, or the loop sleeps and reads again.
          dsimp only
          rw [bind_assoc, wp_look]
          split
          · exact hk (false, why) rs w' h' hown ⟨nv, hreads, hnot⟩ w₀
          · rw [bind_assoc]
            refine hI _ (.inr (.inr rfl)) _ _ _ _ h' fun a w'' h'' hown'' w₀ => ?_
            refine ih _ _ h'' fun r rs' w3 h3 hown3 hread w₀ => ?_
            obtain ⟨nv', hreads', hup'⟩ := hread
            -- The log of the whole is this round's reads, the sleep, and those of the rest.
            refine hk r (rs ++ ([.issued t j .sleep w'.state, .answered t .sleep a] ++ rs')) w3 h3
              ?_ ⟨nv', ?_, hup'⟩ w₀
            · rw [hown3, hown'', hown]
              simp only [List.append_assoc]
            · refine Reads.prepend (Reads.prepend hreads' ?_) hreads.steps
              exact isRead_asked (.inr (.inr rfl)) w'.state a

/-- `wait_caught_up`. -/
theorem wp_waitCaughtUp (hI : Asks C t j I (·.IsRead W)) (target : Option GtidSet) (h : I w)
    {k : Bool × String → M α}
    (hk : ∀ r rs w', I w' → own t w'.log = own t w.log ++ rs →
      (∃ nv, Reads t j W rs nv ∧ (r.1 = true → CaughtUp cfg target nv)) →
        ∀ w₀, (k r).wp C t j Q w₀ w') :
    (waitCaughtUp cfg W target >>= k).wp C t j Q w₀ w := by
  unfold waitCaughtUp
  rw [bind_assoc, wp_look]
  exact wp_pollCaughtUp hI target _ _ _ _ h hk

end

/-! ### In a trace -/

section
variable {cfg : Config} {n : Node} {target : Option GtidSet} {s s' : Ctl} {tr : List Asked}

/-- A round that finds the node caught up has seen it so. -/
theorem ends_readCaughtUp {why : String}
    (hround : (readCaughtUp cfg n target).Ends s tr (.caughtUp why) s') :
    ∃ a, (statusAnswers n tr).getLast? = some a ∧ CaughtUp cfg target (.ofAnswer n a) := by
  unfold readCaughtUp at hround
  obtain ⟨tr₁, tr₂, nv, s₁, rfl, h₁, h⟩ := (Prog.ends_bind _ _ _ _).mp hround
  obtain ⟨a, rfl, rfl⟩ := ends_status.mp h₁
  refine ⟨a, ?_⟩
  split at h
  · cases (Prog.ends_pure.mp h).2.1
  · rename_i husable
    split at h
    · cases (Prog.ends_pure.mp h).2.1
    · rename_i hnoError
      split at h
      · cases (Prog.ends_pure.mp h).2.1
      · rename_i hheld
        have husable' : (NodeView.ofAnswer n a).usable = true := by simpa using husable
        split at h
        · rename_i happlied
          obtain ⟨rfl, -, -⟩ := Prog.ends_pure.mp h
          refine ⟨by simp [statusAnswers], husable', hnoError, fun set hset => ?_, .inl happlied⟩
          -- Everything it holds is applied.
          rw [hset] at hheld
          have hsub : set ⊆ (NodeView.ofAnswer n a).held := by simpa using hheld
          exact GtidSet.Subset.trans hsub (NodeView.held_subset_applied _ happlied)
        · dsimp only at h
          split at h
          · rename_i hidle
            obtain ⟨state, s₂, tr₃, rfl, h₂⟩ := Prog.ends_call_bind.mp h
            split at h₂
            · rename_i hdone
              obtain ⟨rfl, -, -⟩ := Prog.ends_pure.mp h₂
              refine ⟨by simp [statusAnswers], husable', hnoError, fun set hset => ?_,
                .inr hidle⟩
              have hall := hdone.2
              rw [hset] at hall
              simpa using hall
            · cases (Prog.ends_pure.mp h₂).2.1
          · cases (Prog.ends_pure.mp h).2.1

/-- A wait that succeeds ends in a round that finds the node caught up. -/
theorem ends_pollCaughtUp {deadline : Time} {why : String} :
    ∀ (rounds : Nat) (s : Ctl) (tr : List Asked),
      (pollCaughtUp cfg n target deadline rounds).Ends s tr (true, why) s' →
        ∃ a, (statusAnswers n tr).getLast? = some a ∧ CaughtUp cfg target (.ofAnswer n a) := by
  -- By induction on the rounds; only a round that finds `n` caught up answers with true.
  intro rounds
  induction rounds with
  | zero =>
      intro s tr h
      unfold pollCaughtUp at h
      obtain ⟨tr₁, tr₂, r, s₁, rfl, h₁, h⟩ := (Prog.ends_bind _ _ _ _).mp h
      cases r with
      | caughtUp why' =>
          obtain ⟨rfl, -, -⟩ := h
          rw [List.append_nil]
          exact ends_readCaughtUp h₁
      | failed why' => cases (Prog.ends_pure.mp h).2.1
      | behind why' => cases (Prog.ends_pure.mp h).2.1
  | succ rounds ih =>
      intro s tr h
      unfold pollCaughtUp at h
      obtain ⟨tr₁, tr₂, r, s₁, rfl, h₁, h⟩ := (Prog.ends_bind _ _ _ _).mp h
      cases r with
      | caughtUp why' =>
          obtain ⟨rfl, -, -⟩ := h
          rw [List.append_nil]
          exact ends_readCaughtUp h₁
      | failed why' => cases (Prog.ends_pure.mp h).2.1
      | behind why' =>
          unfold ctl at h
          rw [Prog.ends_look] at h
          split at h
          · cases (Prog.ends_pure.mp h).2.1
          · obtain ⟨x, s₂, tr₃, rfl, h₂⟩ := Prog.ends_call_bind.mp h
            -- The last status of the rest is the last of the whole.
            obtain ⟨a, ha, hup⟩ := ih s₂ tr₃ h₂
            refine ⟨a, ?_, hup⟩
            have hsplit : tr₁ ++ ⟨s₁, .sleep, x⟩ :: tr₃ = tr₁ ++ [⟨s₁, .sleep, x⟩] ++ tr₃ := by
              simp
            rw [hsplit, statusAnswers_append, List.getLast?_append, ha]
            rfl

/-- A wait that succeeds has a last status, and this one shows the node caught up. -/
theorem ends_waitCaughtUp {why : String}
    (h : (waitCaughtUp cfg n target).Ends s tr (true, why) s') :
    ∃ a, (statusAnswers n tr).getLast? = some a ∧ CaughtUp cfg target (.ofAnswer n a) := by
  unfold waitCaughtUp ctl at h
  rw [Prog.ends_look] at h
  exact ends_pollCaughtUp _ _ _ h

end

end DbGuard
