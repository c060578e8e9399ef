import DbGuard.Coop.Dialog
import DbGuard.Proofs.Fake
import DbGuard.Simulation

/-!
# `DbGuard.Proofs.Simulation`: what the nodes say is true

A node that answers tells the truth about itself (`Truthful`), and what the manager gets is what
some node has said (`said_of_hearStatus` and its like) or an error. `request_of_reply` is about
the two requests that are answered and change the node as well.
-/

set_option autoImplicit false

namespace DbGuard

namespace Sim

open Coop (dialog)
open Machine (Reach)

/-! ### What a node says of itself -/

section
variable {F : FakeFleet} {n : Node} {now : Time} {r : Req} {s : Said}

/-- A status shows no more than there is, and all of it when mysqld answers. -/
structure Shows (F : FakeFleet) (n : Node) (b : StatusBody) : Prop where
  held : (NodeView.fromStatus n b).held ⊆ (F.node n).held
  applied : (NodeView.fromStatus n b).applied ⊆ (F.node n).executed
  all : b.mysqldResponsive = true → (F.node n).held ⊆ (NodeView.fromStatus n b).held

/-- The status of a node shows it. -/
theorem shows_statusBody (F : FakeFleet) (now : Time) (n : Node) :
    Shows F n (F.statusBody now n) := by
  -- The executed set is in the body twice, as such and as what was applied.
  have happlied : (NodeView.fromStatus n (F.statusBody now n)).applied =
      if (F.node n).responsive then (F.node n).executed ∪ (F.node n).executed
      else GtidSet.empty ∪ .empty := by
    cases h : (F.node n).responsive <;>
      simp [NodeView.applied, NodeView.fromStatus, FakeFleet.statusBody, ReplicaView.fromJson,
        gs, h]
  -- The retrieved set is there while mysqld responds.
  have hret : (NodeView.fromStatus n (F.statusBody now n)).replica.retrieved =
      if (F.node n).responsive then (F.node n).retrieved else GtidSet.empty := by
    cases h : (F.node n).responsive <;>
      simp [NodeView.fromStatus, FakeFleet.statusBody, ReplicaView.fromJson, gs, h]
  have hexec : (NodeView.fromStatus n (F.statusBody now n)).applied ⊆ (F.node n).executed := by
    intro g hg
    rw [happlied] at hg
    split at hg
    · exact ((GtidSet.mem_union _ _ g).mp hg).elim id id
    · exact absurd ((GtidSet.mem_union _ _ g).mp hg) (by simp)
  refine ⟨fun g hg => ?_, hexec, fun hup g hg => ?_⟩
  -- What the view holds, the node holds.
  · rcases (NodeView.mem_held _ g).mp hg with hg | hg
    · exact (F.node n).mem_held.mpr (.inl (hexec g hg))
    · rw [hret] at hg
      split at hg
      · exact (F.node n).mem_held.mpr (.inr hg)
      · exact absurd hg (GtidSet.not_mem_empty g)
  -- While it responds, the view shows all of it.
  · have hup : (F.node n).responsive = true := hup
    rw [NodeView.mem_held, happlied, hret, if_pos hup, if_pos hup]
    rcases (F.node n).mem_held.mp hg with hg | hg
    · exact .inl ((GtidSet.mem_union _ _ g).mpr (.inl hg))
    · exact .inr hg

/-- The answer is true of the node. -/
def Truthful (F : FakeFleet) (n : Node) : Said → Prop
  | .status b => Shows F n b
  | .stopped => (F.node n).ioStopped = true
  | .state text => text = F.replicaState n
  | .fenced executed => (F.node n).executed = executed ∧ (F.node n).superReadOnly = true
  | .waited executed => (F.node n).executed = executed

/-- What a node answers is true. -/
theorem truthful_of_reply (h : reply F now n r = some s) (heffect : effect n r = none) :
    Truthful F n s := by
  cases r with
  | status m | freshViews ns =>
    obtain ⟨-, ⟨⟩⟩ := Option.ite_none_right_eq_some.mp h
    exact shows_statusBody _ _ _
  | replicaState m =>
    obtain ⟨-, ⟨⟩⟩ := Option.ite_none_right_eq_some.mp h
    rfl
  | waiterWait m set =>
    obtain ⟨-, ⟨⟩⟩ := Option.ite_none_right_eq_some.mp h
    rfl
  | stopIo ns =>
    obtain ⟨hn, -⟩ := Option.ite_none_right_eq_some.mp h
    simp only [Bool.and_eq_true, decide_eq_true_eq] at hn
    simp [effect, hn.1] at heffect
  | fence m =>
    obtain ⟨hn, -⟩ := Option.ite_none_right_eq_some.mp h
    simp only [Bool.and_eq_true, decide_eq_true_eq] at hn
    simp [effect, hn.1] at heffect
  | _ => cases h

/-- A request that is answered and has an effect stops the IO thread or the writes of the node,
and the answer is true after that. -/
theorem request_of_reply {m : FakeFleet.Move} {F' : FakeFleet} (h : reply F now n r = some s)
    (heffect : effect n r = some m) (hmove : F.move m = some F') :
    (m = .stopIo n ∨ m = .fence n) ∧ Truthful F' n s := by
  cases r with
  | stopIo ns =>
    obtain ⟨-, ⟨⟩⟩ := Option.ite_none_right_eq_some.mp h
    obtain ⟨-, ⟨⟩⟩ := Option.ite_none_right_eq_some.mp heffect
    obtain ⟨-, ⟨⟩⟩ := Option.ite_none_right_eq_some.mp hmove
    refine ⟨.inl rfl, ?_⟩
    show (Function.update F.node n _ n).ioStopped = true
    rw [Function.update_self]
  | fence m =>
    obtain ⟨hup, ⟨⟩⟩ := Option.ite_none_right_eq_some.mp h
    obtain ⟨-, ⟨⟩⟩ := Option.ite_none_right_eq_some.mp heffect
    obtain ⟨-, ⟨⟩⟩ := Option.ite_none_right_eq_some.mp hmove
    -- Mysqld is up, so nothing has to be killed.
    have hsql : ((F.node n).hung || !(F.node n).mysqldUp) = false := by
      simp only [Bool.and_eq_true, Bool.not_eq_true'] at hup
      simp [hup.1.2, hup.2]
    refine ⟨.inr rfl, ?_⟩
    simp [Truthful, FakeFleet.fence, hsql]
  | status _ | freshViews _ | replicaState _ | waiterWait _ _ => cases heffect
  | _ => cases h

end

/-! ### What the manager gets -/

section
variable {said : Node → Option Said} {arrives : Node → Bool} {error : Node → ErrorText} {n : Node}

/-- What a task has been told after one more answer, this or an earlier one. -/
theorem said_of_tell {σ : Sim} {t u : Nat} {n m : Node} {s s' : Said}
    (h : (σ.tell u n s).said t m = some s') : (m = n ∧ s' = s) ∨ σ.said t m = some s' := by
  by_cases hu : t = u
  · subst hu
    have h : Function.update σ.said t (Function.update (σ.said t) n (some s)) t m = some s' := h
    rw [Function.update_self, Function.update_apply] at h
    split at h
    · rename_i hm
      cases h
      exact .inl ⟨hm, rfl⟩
    · exact .inr h
  · have h : Function.update σ.said u (Function.update (σ.said u) n (some s)) t m = some s' := h
    rw [Function.update_of_ne hu] at h
    exact .inr h

/-- A status that arrives is what the node said. -/
theorem said_of_hearStatus {b : StatusBody} (h : hearStatus said arrives error n = .ok b) :
    said n = some (.status b) := by
  unfold hearStatus at h
  split at h
  · rename_i hsaid
    cases h
    exact hsaid
  · cases h

/-- A stop that is heard of is what the node said. -/
theorem said_of_hearStopped (h : hearStopped said arrives error n = none) :
    said n = some .stopped := by
  unfold hearStopped at h
  split at h
  · assumption
  · cases h

/-- A fence that is answered says what the old primary has executed. -/
theorem said_of_hearFenced {other : Except AgentError FenceBody} {body : FenceBody}
    (h : hearFenced said arrives error other n = .ok body) :
    ∃ set, body.gtidExecuted = some (.set set) ∧ said n = some (.fenced set) := by
  unfold hearFenced at h
  split at h
  · rename_i set _ hsaid
    cases h
    exact ⟨set, rfl, hsaid⟩
  · cases h

/-- A wait that is over says what the node has executed. -/
theorem said_of_hearWaited {set : GtidSet} {got : Option GtidText}
    (h : hearWaited said arrives error n set = .ok (true, got)) :
    ∃ executed, set ⊆ executed ∧ said n = some (.waited executed) := by
  unfold hearWaited at h
  split at h
  · rename_i executed _ hsaid
    simp only [Except.ok.injEq, Prod.mk.injEq] at h
    exact ⟨executed, (GtidSet.isSubset_iff _ _).mp h.1, hsaid⟩
  · cases h

/-- A candidate, or a node that is caught up, has answered. -/
theorem ok_of_usable {a : Except String StatusBody} (h : (NodeView.ofAnswer n a).usable = true) :
    ∃ b, a = .ok b ∧ b.mysqldResponsive = true := by
  cases a with
  | error e => simp [NodeView.ofAnswer, NodeView.unreachable, NodeView.usable] at h
  | ok b =>
    refine ⟨b, rfl, ?_⟩
    simpa [NodeView.ofAnswer, NodeView.fromStatus, NodeView.usable] using h

end

/-! ### The log -/

section
variable {cfg : Config} {σ σ' : Sim} {m : Move} {t : Nat} {r : Req}

/-- A request that is pending is in the log. -/
theorem mem_log_of_issued {p : Coop.Pool sig} (h : issued p t r = true) :
    ∃ j s, .issued t j r s ∈ p.world.log := by
  obtain ⟨e, he, hshows⟩ := List.any_eq_true.mp h
  cases e with
  | issued t' j r' s =>
    simp only [Bool.and_eq_true, decide_eq_true_eq] at hshows
    obtain ⟨rfl, rfl⟩ := hshows
    exact ⟨j, s, he⟩
  | _ => cases hshows

/-- A move adds requests to the calls of a task, or an answer that is made of what the nodes have
said, and requests. -/
theorem dialog_step (h : step cfg σ m = some σ') :
    ∃ Y, (∀ e ∈ Y, e.isIssued = true) ∧
      (dialog t σ'.pool.world.log = dialog t σ.pool.world.log ++ Y ∨
        ∃ arrives error other r, m = .answer t arrives error other ∧
          dialog t σ'.pool.world.log = dialog t σ.pool.world.log ++
            .answered t r (hear (σ.said t) arrives error other r) :: Y) := by
  rcases pool_of_step h with heq | ⟨pm, -, hfire, hanswer⟩
  · exact ⟨[], fun _ he => absurd he List.not_mem_nil, .inl (by rw [heq, List.append_nil])⟩
  · obtain ⟨Y, hY, heq | ⟨f, r, k, hpm, -, heq⟩⟩ := Coop.dialog_fire (t := t) hfire
    · exact ⟨Y, hY, .inl heq⟩
    · obtain ⟨arrives, error, other, hm, rfl⟩ := hanswer t f hpm
      exact ⟨Y, hY, .inr ⟨arrives, error, other, r, hm, heq⟩⟩

/-- The calls of a task only grow. -/
theorem dialog_of_step (h : step cfg σ m = some σ') :
    ∃ Y, dialog t σ'.pool.world.log = dialog t σ.pool.world.log ++ Y := by
  obtain ⟨Y, -, heq | ⟨_, _, _, _, -, heq⟩⟩ := dialog_step (t := t) h
  · exact ⟨Y, heq⟩
  · exact ⟨_, heq⟩

/-- A call of the dialog is a step of its task. -/
theorem mem_own_of_dialog {l : List (Coop.Event sig)} {e : Coop.Event sig}
    (h : e ∈ dialog t l) : e ∈ Coop.own t l := by
  obtain ⟨hmem, hcall⟩ := List.mem_filter.mp h
  exact List.mem_filter.mpr ⟨hmem, Coop.isBy_of_isCallOf hcall⟩

/-- In every run a node takes writes only as a semi-sync source. -/
theorem semiSynced_of_reach {ok : Sim → Move → Prop} {F : FakeFleet} (hF : F.SemiSynced)
    (h : Reach (step cfg) ok (init cfg F) σ) : σ.fleet.SemiSynced := by
  refine h.invariant (I := fun σ => σ.fleet.SemiSynced) hF fun σ m σ' _ hi _ hstep => ?_
  rcases fleet_of_step hstep with heq | ⟨fm, hmove⟩
  · rw [heq]
    exact hi
  · exact hi.of_safe (FakeFleet.safe_of_move (R := ∅) hmove fun n hn => hn.elim)

/-- What the nodes have answered arrives at task `t`. -/
def delivered (t : Nat) (other : (r : Req) → r.Resp) : Move :=
  .answer t (fun _ => true) (fun _ => ⟨"TimeoutError", by decide⟩) other

end

end Sim

end DbGuard
