import DbGuard.Proofs.Quiesced
import DbGuard.Proofs.Script
import DbGuard.Proofs.Simulation
import DbGuard.Proofs.SwitchoverTrace

/-!
# `DbGuard.Proofs.Handover`: a switchover loses nothing

The manager and the fleet together, from the moment at which a switchover asks the old primary
to stop taking writes. `Stage` is how far it has come since then, by the answers of its task.
Until the candidate is found to have applied the final set, only the old primary can have
commits acknowledged (`FakeFleet.Headed`), and it has executed all that is. An answered fence
has a set that is final. From then on what the candidate has shown, it has applied
(`FakeFleet.Caught`).

`Quiesces.changes` and `Quiesces.caught` say what the task asks for and when, `Stage.Holds.step`
takes one move from stage to stage, and `switchover_lossless` is the switchover's promise for
every run.
-/

set_option autoImplicit false

namespace DbGuard

/-- The answer shows of `W` no more than it has executed. -/
def Said.Within (W : Node) (executed : GtidSet) : Said → Prop
  | .status b => (NodeView.fromStatus W b).applied ⊆ executed
  | .waited set => set ⊆ executed
  | _ => True

/-- What was said within a set was said within a larger one. -/
theorem Said.Within.mono {W : Node} {a b : GtidSet} {s : Said} (h : s.Within W a) (hab : a ⊆ b) :
    s.Within W b := by
  cases s with
  | status _ | waited _ => exact GtidSet.Subset.trans h hab
  | _ => trivial

namespace Sim

open Coop (dialog Checked Traced)
open Machine (Reach)

/-! ### The stages of a switchover -/

/-- How far a switchover has come since it asked the old primary to stop taking writes. The
final set is `g`. -/
inductive Stage
  | asked
  | final (g : GtidSet)
  | caught (g : GtidSet)

/-- The stage after one more answer. -/
def Stage.hear (old W : Node) : Stage → (r : Req) → r.Resp → Stage
  | .asked, .fence n, a => if n = old then ((finalSet a).map .final).getD .asked else .asked
  | .final g, r, x => if showsApplied W g r x then .caught g else .final g
  | p, _, _ => p

/-- The stage after one more step of the task. -/
def Stage.next (old W : Node) (p : Stage) : Step → Stage
  | .answered _ r x => p.hear old W r x
  | _ => p

/-- The stage after the calls in `l`. -/
def stage (old W : Node) (l : List Step) : Stage := l.foldl (Stage.next old W) .asked

section
variable {old W : Node} {tr pre post : List Asked} {t : Nat} {j : Job} {p : Stage} {g : GtidSet}
  {s : Ctl} {r : Req}

/-- The calls of a list move the stage one by one. -/
theorem stage_steps (tr : List Asked) : (Coop.Call.steps t j tr).foldl (Stage.next old W) p =
    tr.foldl (fun p c => p.hear old W c.req c.answer) p :=
  Coop.foldl_steps (fun _ _ _ _ _ => rfl) tr

/-- Requests alone do not move the stage. -/
theorem stage_append {l Y : List Step} (h : ∀ e ∈ Y, e.isIssued = true) :
    stage old W (l ++ Y) = stage old W l := by
  unfold stage
  rw [List.foldl_append]
  exact Coop.foldl_of_issued (fun _ _ _ _ _ => rfl) h

/-- An answer among requests moves it. -/
theorem stage_answered {l Y : List Step} {x : r.Resp} (h : ∀ e ∈ Y, e.isIssued = true) :
    stage old W (l ++ .answered t r x :: Y) = (stage old W l).hear old W r x := by
  unfold stage
  rw [List.foldl_append, List.foldl_cons]
  exact Coop.foldl_of_issued (fun _ _ _ _ _ => rfl) h

/-- The last stage is not left. -/
theorem next_of_caught (l : List Step) :
    l.foldl (Stage.next old W) (.caught g) = .caught g := by
  induction l with
  | nil => rfl
  | cons e l ih => cases e <;> exact ih

/-- What a switchover asks before the stall is no fence. -/
theorem hear_of_prepares {W' : Node} (h : ∀ c ∈ tr, c.req.Prepares old W') :
    tr.foldl (fun p c => p.hear old W c.req c.answer) Stage.asked = .asked := by
  induction tr with
  | nil => rfl
  | cons c tr ih =>
    obtain ⟨s, r, x⟩ := c
    have hr : r.Prepares old W' := h _ List.mem_cons_self
    have hstay : Stage.asked.hear old W r x = .asked := by
      cases r with
      | fence n => exact hr.elim
      | _ => rfl
    show tr.foldl _ (Stage.asked.hear old W r x) = _
    rw [hstay]
    exact ih fun c hc => h c (List.mem_cons_of_mem _ hc)

/-- The target that shows the final set leads to the last stage. -/
theorem hear_shown (h : p = .caught g ∨
    p = .final g ∧ ∃ c ∈ tr, showsApplied W g c.req c.answer = true) :
    tr.foldl (fun p c => p.hear old W c.req c.answer) p = .caught g := by
  induction tr generalizing p with
  | nil =>
    rcases h with rfl | ⟨-, c, hc, -⟩
    · rfl
    · exact absurd hc List.not_mem_nil
  | cons c tr ih =>
    rw [List.foldl_cons]
    refine ih ?_
    rcases h with rfl | ⟨rfl, c', hc', hshows⟩
    · exact .inl rfl
    · by_cases hc : showsApplied W g c.req c.answer = true
      · exact .inl (if_pos hc)
      · rcases List.mem_cons.mp hc' with rfl | hc'
        · exact absurd hshows hc
        · exact .inr ⟨if_neg hc, c', hc', hshows⟩

/-- When a switchover hands over, the candidate has been found to have applied the final
set. -/
theorem stage_of_shown {a : Except AgentError FenceBody} (hfinal : finalSet a = some g)
    (hpre : ∀ c ∈ pre, c.req.Prepares old W)
    (hshown : ∃ c ∈ post, showsApplied W g c.req c.answer = true) (l : List Step) :
    stage old W (Coop.Call.steps t j (pre ++ ⟨s, .fence old, a⟩ :: post) ++ l) = .caught g := by
  have hfence : Stage.asked.hear old W (.fence old) a = .final g := by
    show (if old = old then ((finalSet a).map Stage.final).getD .asked else .asked) = _
    rw [if_pos rfl, hfinal]
    rfl
  unfold stage
  rw [List.foldl_append, stage_steps, List.foldl_append, hear_of_prepares hpre, List.foldl_cons]
  show l.foldl _ (post.foldl _ (Stage.asked.hear old W (.fence old) a)) = _
  rw [hfence, hear_shown (.inr ⟨rfl, hshown⟩)]
  exact next_of_caught l

end

/-! ### What the task asks for -/

section
variable {cfg : Config} {t : Nat} {old W : Node} {wanted : Option Node} {l : List Step}
  {j : Job} {r : Req} {s : Ctl}

/-- Task `t` is a switchover, and has asked `old` to stop taking writes, after nothing but
preparations. -/
def Quiesces (t : Nat) (old : Node) (wanted : Option Node) (l : List Step) : Prop :=
  ∃ tr s Y W, dialog t l = Coop.Call.steps (S := sig) t (.switchover wanted) tr ++
    .issued t (.switchover wanted) (.fence old) s :: Y ∧ ∀ c ∈ tr, c.req.Prepares old W

/-- More calls leave what the switchover quiesces. -/
theorem Quiesces.append (h : Quiesces t old wanted l) {l' Y : List Step}
    (heq : dialog t l' = dialog t l ++ Y) : Quiesces t old wanted l' := by
  obtain ⟨tr, s, Y', W, hl, htr⟩ := h
  exact ⟨tr, s, Y' ++ Y, W, by rw [heq, hl, List.append_assoc, List.cons_append], htr⟩

/-- When a switchover asks for the fence, it quiesces. -/
theorem quiesces_of_last
    (htraced : Checked (Traced (body cfg)) (l ++ [.issued t (.switchover wanted) (.fence old) s])) :
    Quiesces t old wanted (l ++ [.issued t (.switchover wanted) (.fence old) s]) ∧
      stage old W (dialog t (l ++ [.issued t (.switchover wanted) (.fence old) s])) = .asked := by
  obtain ⟨s₀, tr, hasks, hdialog⟩ := htraced l _ [] rfl
  have heq : dialog t (l ++ [.issued t (.switchover wanted) (.fence old) s]) =
      Coop.Call.steps (S := sig) t (.switchover wanted) tr ++
        [.issued t (.switchover wanted) (.fence old) s] := by
    rw [Coop.dialog_append, hdialog]
    simp [dialog, Coop.Event.isCallOf]
  obtain ⟨old', W', -, hcourse⟩ := asks_switchover hasks trivial
  have hprepares : ∃ W', ∀ c ∈ tr, c.req.Prepares old W' := by
    cases hcourse with
    | prepare _ hr => exact hr.elim
    | quiesce htr => exact ⟨W', htr⟩
    | conclude _ hpost => rcases hpost.shown with h | ⟨h | h, -⟩ <;> cases h
  obtain ⟨W', htr⟩ := hprepares
  refine ⟨⟨tr, s, [], W', heq, htr⟩, ?_⟩
  rw [heq, stage_append fun e he => by rw [List.mem_singleton.mp he]; rfl]
  unfold stage
  rw [stage_steps, hear_of_prepares htr]

/-- Where a request of the task stands among its calls. -/
theorem Quiesces.asked (h : Quiesces t old wanted l) (htraced : Checked (Traced (body cfg)) l)
    (hmem : .issued t j r s ∈ l) : ∃ tr s₀ l₂, (setFailover cfg t wanted).Asks s₀ tr r s ∧
      dialog t l = Coop.Call.steps (S := sig) t j tr ++ .issued t j r s :: l₂ := by
  obtain ⟨l₁, l₂, rfl⟩ := List.append_of_mem hmem
  obtain ⟨s₀, tr, hasks, hdialog⟩ := htraced l₁ _ l₂ rfl
  obtain ⟨tr₀, s₁, Y, W, hfence, htr⟩ := h
  have heq : dialog t (l₁ ++ .issued t j r s :: l₂) =
      Coop.Call.steps t j tr ++ .issued t j r s :: dialog t l₂ := by
    rw [Coop.dialog_append, hdialog]
    simp [dialog, Coop.Event.isCallOf]
  -- All calls of a task are of one job.
  have hjob : j = .switchover wanted := by
    rw [heq] at hfence
    rcases Coop.mem_or_mem_of_append_eq hfence with hin | he | hin
    · exact (Coop.call_of_issued hin).1
    · cases he
      rfl
    · exact (Coop.call_of_issued hin).1.symm
  subst hjob
  exact ⟨tr, s₀, _, hasks, heq⟩

/-- A request that makes `W` the primary, or `old` its replica. -/
def HandsOver (old W : Node) (r : Req) : Prop :=
  r = .promote W ∨ ∃ ns, old ∈ ns ∧ r = .repointAll ns W

/-- Such a request comes after the fence of `old`, at the end of the course. -/
theorem Quiesces.concludes (hne : W ≠ old) (h : Quiesces t old wanted l)
    (htraced : Checked (Traced (body cfg)) l) (hmem : .issued t j r s ∈ l)
    (hr : HandsOver old W r) : ∃ pre s₁ a post l₂,
      dialog t l = Coop.Call.steps (S := sig) t j (pre ++ ⟨s₁, .fence old, a⟩ :: post) ++
        .issued t j r s :: l₂ ∧
      (∀ c ∈ pre, c.req.Prepares old W) ∧ Concludes old W a post r := by
  have hchanges : r.Changes := by
    rcases hr with rfl | ⟨ns, -, rfl⟩ <;> trivial
  obtain ⟨tr, s₀, l₂, hasks, heq⟩ := h.asked htraced hmem
  obtain ⟨tr₀, s₁, Y, W₀, hfence, htr₀⟩ := h
  -- The fence is among the calls before it.
  have hbefore : ∃ c ∈ tr, c.req = .fence old := by
    rw [heq] at hfence
    rcases Coop.mem_or_mem_of_append_eq hfence with hin | he | hin
    · obtain ⟨-, c, hc, hreq⟩ := Coop.call_of_issued hin
      have hprep := htr₀ c hc
      rw [hreq] at hprep
      rcases hr with rfl | ⟨ns, hold, rfl⟩
      · exact hprep.elim
      · exact absurd hold hprep.1
    · cases he
      rcases hr with he | ⟨ns, -, he⟩ <;> cases he
    · exact (Coop.call_of_issued hin).2
  obtain ⟨c, hc, hreq⟩ := hbefore
  obtain ⟨old', W', hne', hcourse⟩ := asks_switchover hasks hchanges
  obtain ⟨pre, s₂, a, post, rfl, htr, hpost, hc⟩ :=
    hcourse.concludes hc (by rw [hreq]; exact id)
  have hold : old' = old := by
    rcases hc with rfl | hc
    · cases hreq
      rfl
    · have := hpost.changes c hc (by rw [hreq]; trivial)
      cases hreq.symm.trans this
  subst hold
  have hcandidate : W' = W := by
    rcases hpost.shown with he | ⟨he | he, -⟩
    · rcases hr with rfl | ⟨ns, -, rfl⟩
      · cases he
        exact absurd rfl hne
      · cases he
    · rcases hr with rfl | ⟨ns, -, rfl⟩
      · cases he
        rfl
      · cases he
    · rcases hr with rfl | ⟨ns, -, rfl⟩
      · cases he
      · cases he
        rfl
  subst hcandidate
  exact ⟨pre, s₂, a, post, l₂, heq, htr, hpost⟩

/-- Every fence that was answered came with a set. -/
def Honest (t : Nat) (l : List Step) : Prop :=
  ∀ n (a : Except AgentError FenceBody), (.answered t (.fence n) a : Step) ∈ dialog t l →
    ∀ body, a = .ok body → ∃ g, finalSet a = some g

/-- In every run of the fake fleet the nodes tell the truth. -/
theorem honest_of_reach {ok : Sim → Move → Prop} {F : FakeFleet} {σ : Sim}
    (h : Reach (step cfg) ok (init cfg F) σ) : Honest t σ.pool.world.log := by
  refine h.invariant (I := fun σ => Honest t σ.pool.world.log) ?_ fun σ m σ' _ hi _ hstep => ?_
  · intro n a ha
    exact absurd ha List.not_mem_nil
  · intro n a ha
    obtain ⟨Y, hY, heq | ⟨arrives, error, other, r, -, heq⟩⟩ := dialog_step (t := t) hstep
    · rw [heq] at ha
      rcases List.mem_append.mp ha with ha | ha
      · exact hi n a ha
      · cases hY _ ha
    · rw [heq] at ha
      rcases List.mem_append.mp ha with ha | ha
      · exact hi n a ha
      · rcases List.mem_cons.mp ha with he | ha
        · cases he
          intro body hok
          obtain ⟨set, hset, -⟩ := said_of_hearFenced hok
          refine ⟨set, ?_⟩
          rw [hok]
          show body.gtidExecuted.bind _ = _
          rw [hset]
          rfl
        · cases hY _ ha

/-- The candidate is given the set only once it was found to have applied the final set. -/
theorem Quiesces.caught (hne : W ≠ old) (h : Quiesces t old wanted l)
    (htraced : Checked (Traced (body cfg)) l) (hhonest : Honest t l)
    (hmem : .issued t j r s ∈ l) (hr : HandsOver old W r) :
    ∃ g, stage old W (dialog t l) = .caught g := by
  obtain ⟨pre, s₁, a, post, l₂, heq, hpre, hpost⟩ := h.concludes hne htraced hmem hr
  obtain ⟨body, rfl⟩ := hpost.answered
  obtain ⟨g, hg⟩ := hhonest old (.ok body) (by rw [heq]; simp [Coop.Call.steps]) body rfl
  have hshown : ∃ c ∈ post, showsApplied W g c.req c.answer = true := by
    rcases hpost.shown with he | ⟨-, hshown⟩
    · rcases hr with rfl | ⟨ns, -, rfl⟩
      · cases he
        exact absurd rfl hne
      · cases he
    · exact hshown g hg
  refine ⟨g, ?_⟩
  rw [heq]
  exact stage_of_shown hg hpre hshown _

/-- A switchover that promotes `W` asks for no other changes than these. -/
theorem Quiesces.changes (hne : W ≠ old) (h : Quiesces t old wanted l)
    (htraced : Checked (Traced (body cfg)) l) {j₀ : Job} {s₀ : Ctl}
    (hpromote : .issued t j₀ (.promote W) s₀ ∈ l) (hmem : .issued t j r s ∈ l)
    (hr : r.Changes) : r = .fence old ∨ r.Reassigns W := by
  -- The dialogue up to the promote is the course of one switchover.
  obtain ⟨pre, s₁, a, post, l₂, hend, hpre, hpost⟩ :=
    h.concludes hne htraced hpromote (.inl rfl)
  -- The request in question is one of the same dialogue.
  obtain ⟨tr, s₂, l₃, hasks, heq⟩ := h.asked htraced hmem
  rw [heq] at hend
  rcases Coop.mem_or_mem_of_append_eq hend with hin | he | hin
  · -- before the promote
    obtain ⟨-, c, hc, rfl⟩ := Coop.call_of_issued hin
    rcases List.mem_append.mp hc with hc | hc
    -- Preparing repoints to the target only.
    · have hprep := hpre c hc
      cases hreq : c.req with
      | repointAll ns source =>
        rw [hreq] at hprep
        exact .inr hprep.2
      | _ =>
        rw [hreq] at hprep hr
        first
        | exact hprep.elim
        | exact hr.elim
    -- The fence comes next, and behind it everything reassigns to the target.
    · rcases List.mem_cons.mp hc with rfl | hc
      · exact .inl rfl
      · right
        rw [hpost.changes c hc hr]
        rfl
  -- The promote itself.
  · cases he
    exact .inr rfl
  · -- after it, nothing
    obtain ⟨-, c, hc, hreq⟩ := Coop.call_of_issued hin
    obtain ⟨old', W', -, hcourse⟩ := asks_switchover hasks hr
    exact absurd hreq (hcourse.no_promote hc W)

end

/-! ### What holds in each stage -/

section
variable (rs : String) (old W : Node) (t : Nat)

/-- What `W` has said to task `t`, it has executed. -/
def Backed (σ : Sim) : Prop :=
  ∀ s, σ.said t W = some s → s.Within W (σ.fleet.node W).executed

/-- What holds in a stage of the switchover of task `t`. -/
def Stage.Holds : Stage → Sim → Prop
  | .asked, σ => σ.fleet.Headed rs old W none ∧ Backed W t σ ∧
    ∀ g, σ.said t old = some (.fenced g) → (σ.fleet.node old).Heads (some g)
  | .final g, σ => σ.fleet.Headed rs old W (some g) ∧ Backed W t σ
  | .caught g, σ => σ.fleet.Caught rs old W g

end

section
variable {rs : String} {old W n : Node} {t u : Nat} {σ σ' : Sim} {p : Stage} {g : GtidSet}
  {F' : FakeFleet}

/-- A node that has said nothing is backed. -/
theorem Backed.of_none (h : σ.said t W = none) : Backed W t σ := fun s hs => by
  rw [h] at hs
  cases hs

/-- What holds at a stage is about the fleet and what was said to the task. -/
theorem Stage.Holds.congr (h : p.Holds rs old W t σ) (hfleet : σ'.fleet = σ.fleet)
    (hsaid : σ'.said t = σ.said t) : p.Holds rs old W t σ' := by
  have hbacked : Backed W t σ → Backed W t σ' := fun hb s hs => by
    rw [hfleet]
    exact hb s (hsaid ▸ hs)
  cases p with
  | asked =>
    obtain ⟨hhead, hb, hfenced⟩ := h
    exact ⟨hfleet ▸ hhead, hbacked hb, fun g hg => hfleet ▸ hfenced g (hsaid ▸ hg)⟩
  | final g => exact ⟨hfleet ▸ h.1, hbacked h.2⟩
  | caught g =>
    show σ'.fleet.Caught rs old W g
    rw [hfleet]
    exact h

/-- The fleet changes, and spares both ends. -/
theorem Stage.Holds.spared (h : p.Holds rs old W t σ) (hs : σ.fleet.Spared old W F') :
    p.Holds rs old W t { σ with fleet := F' } := by
  have hbacked : Backed W t σ → Backed W t { σ with fleet := F' } :=
    fun hb s hsaid => (hb s hsaid).mono (hs.executed W (.inr rfl))
  cases p with
  | asked =>
    obtain ⟨hhead, hb, hfenced⟩ := h
    exact ⟨hhead.spared hs, hbacked hb, fun g hg => hs.heads _ (hfenced g hg)⟩
  | final g => exact ⟨h.1.spared hs, hbacked h.2⟩
  | caught g => exact FakeFleet.Caught.spared h hs

/-- A node tells some task the truth. -/
theorem Stage.Holds.tell {s : Said} (h : p.Holds rs old W t σ) (hs : Truthful σ.fleet n s) :
    p.Holds rs old W t (σ.tell u n s) := by
  have hbacked : Backed W t σ → Backed W t (σ.tell u n s) := by
    intro hb s' heq
    rcases said_of_tell heq with ⟨rfl, rfl⟩ | heq
    · cases s' with
      | status b => exact hs.applied
      | waited set =>
        have hset : (σ.fleet.node W).executed = set := hs
        rw [← hset]
        exact GtidSet.Subset.refl _
      | _ => trivial
    · exact hb s' heq
  cases p with
  | asked =>
    obtain ⟨hhead, hb, hfenced⟩ := h
    refine ⟨hhead, hbacked hb, fun g hg => ?_⟩
    rcases said_of_tell hg with ⟨rfl, rfl⟩ | heq
    · -- the fence took effect before the old primary answered
      obtain ⟨hexec, hro⟩ : (σ.fleet.node old).executed = g ∧
        (σ.fleet.node old).superReadOnly = true := hs
      refine ⟨hhead.heads.source, hhead.heads.pending, hhead.heads.retrieved, fun g' hg' => ?_⟩
      cases hg'
      rw [← hexec]
      exact ⟨hro, GtidSet.Subset.refl _⟩
    · exact hfenced g heq
  | final g => exact ⟨h.1, hbacked h.2⟩
  | caught g => exact h

/-- The answers so far are used up. -/
theorem Stage.Holds.forget (h : p.Holds rs old W t σ) (hfleet : σ'.fleet = σ.fleet)
    (hnone : ∀ m, σ'.said t m = none) : p.Holds rs old W t σ' := by
  cases p with
  | asked =>
    refine ⟨hfleet ▸ h.1, .of_none (hnone W), fun g hg => ?_⟩
    rw [hnone] at hg
    cases hg
  | final g => exact ⟨hfleet ▸ h.1, .of_none (hnone W)⟩
  | caught g =>
    show σ'.fleet.Caught rs old W g
    rw [hfleet]
    exact h

/-- What an answer shows of `W`, `W` has executed. -/
theorem Backed.shown {arrives : Node → Bool} {error : Node → ErrorText}
    {other : (r : Req) → r.Resp} {r : Req} (h : Backed W t σ)
    (hshows : showsApplied W g r (Sim.hear (σ.said t) arrives error other r) = true) :
    g ⊆ (σ.fleet.node W).executed := by
  cases r with
  | status n =>
    simp only [showsApplied, Sim.hear, Bool.and_eq_true, decide_eq_true_eq] at hshows
    obtain ⟨⟨rfl, husable⟩, hsub⟩ := hshows
    obtain ⟨b, hb, -⟩ := ok_of_usable husable
    rw [hb] at hsub
    exact GtidSet.Subset.trans ((GtidSet.isSubset_iff _ _).mp hsub)
      (h _ (said_of_hearStatus hb))
  | waiterWait n set =>
    simp only [showsApplied, Sim.hear, Bool.and_eq_true, decide_eq_true_eq] at hshows
    obtain ⟨⟨rfl, hsub⟩, hdone⟩ := hshows
    split at hdone
    · rename_i done got heq
      cases hdone
      obtain ⟨executed, hset, hsaid⟩ := said_of_hearWaited heq
      exact GtidSet.Subset.trans ((GtidSet.isSubset_iff _ _).mp hsub)
        (GtidSet.Subset.trans hset (h _ hsaid))
    · cases hdone
  | _ => cases hshows

/-- Task `t` gets an answer. -/
theorem Stage.Holds.answer {arrives : Node → Bool} {error : Node → ErrorText}
    {other : (r : Req) → r.Resp} {r : Req} (h : p.Holds rs old W t σ)
    (hfleet : σ'.fleet = σ.fleet) (hnone : ∀ m, σ'.said t m = none) :
    (p.hear old W r (Sim.hear (σ.said t) arrives error other r)).Holds rs old W t σ' := by
  cases p with
  | asked =>
    cases r with
    | fence n =>
      simp only [Stage.hear]
      split
      · rename_i hn
        subst hn
        cases hset : finalSet (Sim.hear (σ.said t) arrives error other (.fence n)) with
        | none => exact h.forget hfleet hnone
        | some g =>
          obtain ⟨hhead, hb, hfenced⟩ := h
          -- The old primary has answered, so it rests.
          have hsaid : σ.said t n = some (.fenced g) := by
            cases hok : Sim.hear (σ.said t) arrives error other (.fence n) with
            | error e =>
              rw [hok] at hset
              cases hset
            | ok body =>
              obtain ⟨set, hbody, hsaid⟩ := said_of_hearFenced hok
              rw [hok] at hset
              have hg : body.gtidExecuted.bind (fun text => text.parse.toOption) = some g := hset
              rw [hbody] at hg
              cases hg
              exact hsaid
          have hfinal : Stage.Holds rs n W t (.final g) σ :=
            ⟨⟨hhead.sole, hfenced g hsaid, hhead.acked⟩, hb⟩
          exact hfinal.forget hfleet hnone
      · exact h.forget hfleet hnone
    | _ => exact h.forget hfleet hnone
  | final g =>
    show Stage.Holds rs old W t (if showsApplied W g r _ then .caught g else .final g) σ'
    split
    · -- what the candidate has shown it has executed
      rename_i hshows
      have hcaught : Stage.Holds rs old W t (.caught g) σ := h.1.caught (h.2.shown hshows)
      exact hcaught.forget hfleet hnone
    · exact h.forget hfleet hnone
  | caught g => exact h.forget hfleet hnone

end

/-! ### The run -/

/-- Nobody gives a role to another node than `W`, and `W` takes over only when task `t` has asked
for it. -/
def Handed (t : Nat) (old W : Node) (σ : Sim) : Move → Prop
  | .fleet m => m.Spares old W
  | .effect u r n => u = t ∨ (∀ m ∈ effect n r, m.Spares old W) ∨
    (r.Reassigns W ∧ issued σ.pool t (.promote W) = true)
  | _ => True

instance (W : Node) : ∀ r : Req, Decidable (r.Reassigns W)
  | .promote n => inferInstanceAs (Decidable (n = W))
  | .repointAll _ source => inferInstanceAs (Decidable (source = W))
  | .status _ | .freshViews _ | .observe _ _ | .fence _ | .repoint _ _ | .rebuild _ _
  | .unstick _ | .stopIo _ | .replicaState _ | .committingThreads _ | .gtidWaiter _
  | .waiterWait _ _ | .waiterClose _ | .provision _ | .sleep | .reply _ => .isFalse id

instance (t : Nat) (old W : Node) (σ : Sim) : ∀ m : Move, Decidable (Handed t old W σ m)
  | .fleet m => inferInstanceAs (Decidable (m.Spares old W))
  | .effect u r n => inferInstanceAs (Decidable (u = t ∨
      (∀ m ∈ effect n r, m.Spares old W) ∨ (r.Reassigns W ∧ issued σ.pool t (.promote W) = true)))
  | .manager _ | .answer _ _ _ _ | .serve _ _ _ => .isTrue trivial

/-- A request of a switchover from `old` to `W`. -/
def Proper (old W : Node) : Step → Prop
  | .issued _ _ r _ => r.Changes → r = .fence old ∨ r.Reassigns W
  | _ => True

section
variable {cfg : Config} {rs : String} {old W n : Node} {t : Nat} {wanted : Option Node}
  {σ σ' : Sim} {m : Move} {r : Req}

/-- A request with an effect on the fleet changes it. -/
theorem changes_of_effect {fm : FakeFleet.Move} (h : effect n r = some fm) : r.Changes := by
  cases r with
  | fence _ | promote _ | repoint _ _ | repointAll _ _ | rebuild _ _ | stopIo _ => trivial
  | _ => cases h

/-- A request that gives the set to `W` takes effect. -/
theorem Stage.Holds.reassign {p : Stage} (hne : W ≠ old)
    (hcaught : HandsOver old W r → ∃ g, p = .caught g) {fm : FakeFleet.Move} {F' : FakeFleet}
    (hr : r.Reassigns W) (heffect : Sim.effect n r = some fm) (hmove : σ.fleet.move fm = some F')
    (h : p.Holds rs old W t σ) : p.Holds rs old W t { σ with fleet := F' } := by
  cases r with
  | promote k =>
    obtain rfl : k = W := hr
    obtain ⟨rfl, ⟨⟩⟩ := Option.ite_none_right_eq_some.mp heffect
    obtain ⟨g, rfl⟩ := hcaught (.inl rfl)
    exact FakeFleet.Caught.reassign hne h hmove (.inl rfl)
  | repointAll ns source =>
    obtain rfl : source = W := hr
    obtain ⟨hn, ⟨⟩⟩ := Option.ite_none_right_eq_some.mp heffect
    by_cases hold : n = old
    · subst hold
      obtain ⟨g, rfl⟩ := hcaught (.inr ⟨ns, hn, rfl⟩)
      exact FakeFleet.Caught.reassign hne h hmove (.inr ⟨n, rfl⟩)
    · exact h.spared (FakeFleet.spared_of_move hmove ⟨hold, rfl⟩)
  | _ => exact hr.elim

/-- One move. -/
theorem Stage.Holds.step (hne : W ≠ old) (hstep : Sim.step cfg σ m = some σ')
    (hok : Handed t old W σ m) (htraced : Checked (Traced (body cfg)) σ.pool.world.log)
    (hhonest : Honest t σ.pool.world.log) (hquiesces : Quiesces t old wanted σ.pool.world.log)
    (hproper : ∀ e ∈ dialog t σ.pool.world.log, Proper old W e)
    (h : (stage old W (dialog t σ.pool.world.log)).Holds rs old W t σ) :
    (stage old W (dialog t σ'.pool.world.log)).Holds rs old W t σ' := by
  -- The requests of a move leave the stage, an answer is heard.
  have hdialog := dialog_step (t := t) hstep
  cases m with
  | fleet fm =>
    obtain ⟨-, hstep⟩ := Option.ite_none_left_eq_some.mp hstep
    obtain ⟨F', hmove, rfl⟩ := Option.map_eq_some_iff.mp hstep
    exact h.spared (FakeFleet.spared_of_move hmove hok)
  | manager pm =>
    obtain ⟨-, hstep⟩ := Option.ite_none_left_eq_some.mp hstep
    obtain ⟨pool, hfire, rfl⟩ := Option.map_eq_some_iff.mp hstep
    obtain ⟨Y, hY, heq | ⟨_, _, _, _, hm, -⟩⟩ := hdialog
    · rw [heq, stage_append hY]
      exact h.congr rfl rfl
    · cases hm
  | answer u arrives error other =>
    have hgone : ∀ m, Function.update σ.said u (fun _ => none) u m = none := fun m => by
      rw [Function.update_self]
    obtain ⟨pool, hfire, rfl⟩ := Option.map_eq_some_iff.mp hstep
    obtain ⟨Y, hY, heq | ⟨arrives', error', other', r, hm, heq⟩⟩ := hdialog
    · rw [heq, stage_append hY]
      by_cases hu : u = t
      · subst hu
        exact h.forget rfl hgone
      · exact h.congr rfl (Function.update_of_ne (Ne.symm hu) _ _)
    · cases hm
      rw [heq, stage_answered hY]
      exact h.answer rfl hgone
  | serve u n now =>
    simp only [Sim.step] at hstep
    split at hstep
    · unfold serve at hstep
      split at hstep
      · cases hstep
      · rename_i s hreply heffect
        cases hstep
        exact h.tell (truthful_of_reply hreply heffect)
      · rename_i s fm hreply heffect
        obtain ⟨F', hmove, rfl⟩ := Option.map_eq_some_iff.mp hstep
        obtain ⟨hfm, htrue⟩ := request_of_reply hreply heffect hmove
        have hspares : fm.Spares old W := by
          rcases hfm with rfl | rfl
          · trivial
          · trivial
        exact (h.spared (FakeFleet.spared_of_move hmove hspares)).tell htrue
    · cases hstep
  | effect u r n =>
    obtain ⟨hissued, hstep⟩ := Option.ite_none_right_eq_some.mp hstep
    obtain ⟨fm, heffect, hstep⟩ := Option.bind_eq_some_iff.mp hstep
    obtain ⟨F', hmove, rfl⟩ := Option.map_eq_some_iff.mp hstep
    rcases hok with rfl | hspares | ⟨hr, hpromote⟩
    · obtain ⟨j, c, hmem⟩ := mem_log_of_issued hissued
      have hin : .issued u j r c ∈ dialog u σ.pool.world.log :=
        List.mem_filter.mpr ⟨hmem, by simp [Coop.Event.isCallOf]⟩
      rcases hproper _ hin (changes_of_effect heffect) with rfl | hr
      · obtain ⟨rfl, ⟨⟩⟩ := Option.ite_none_right_eq_some.mp heffect
        exact h.spared (FakeFleet.spared_of_move hmove trivial)
      · exact h.reassign hne (hquiesces.caught hne htraced hhonest hmem) hr heffect hmove
    · exact h.spared (FakeFleet.spared_of_move hmove (hspares fm heffect))
    · obtain ⟨j, c, hmem⟩ := mem_log_of_issued hpromote
      exact h.reassign hne (fun _ => hquiesces.caught hne htraced hhonest hmem (.inl rfl)) hr
        heffect hmove

end

/-- Task `t` is a switchover that has just asked `old` to stop taking writes, and neither end has
answered yet. -/
structure Quiescing (t : Nat) (old W : Node) (wanted : Option Node) (σ : Sim) : Prop where
  last : ∃ l s, σ.pool.world.log = l ++ [.issued t (.switchover wanted) (.fence old) s]
  unsaid : ∀ n ∈ [old, W], σ.said t n = none

/-- Task 1 moves the primary from `a` to `b`. `c` follows `b` by now, and `a` was just asked to stop
taking writes. -/
def stalling : Sim :=
  Machine.run (step DbGuard.fleet)
    (init DbGuard.fleet (.new [("rs1", ["a", "b", "c"])] true [] fun n => n))
    [.fleet (.setup "rs1" "a"), .manager (.arrive .tick), .manager (.start 0),
     delivered 0 (succeed true settled), .fleet (.write true), .fleet (.step 1),
     .fleet (.step 2), .manager (.arrive (.switchover (some "b"))), .manager (.start 1),
     .serve 1 "a" 3, .serve 1 "b" 3, .serve 1 "c" 3, delivered 1 (succeed true settled),
     .effect 1 (.repointAll ["c"] "b") "c", delivered 1 (succeed true settled),
     .serve 1 "c" 4, delivered 1 (succeed true settled), delivered 1 (succeed true settled),
     .serve 1 "b" 5, delivered 1 (succeed true settled)]

/-- `a` commits once more before the fence reaches it. `b` applies that, is promoted, and
commits, first with `c` and then with `a` as its replica. -/
def exchange : List Move :=
  [.fleet (.step 6), .serve 1 "a" 7, .fleet (.step 8), delivered 1 (succeed true settled),
   .serve 1 "b" 9, delivered 1 (succeed true settled), .effect 1 (.promote "b") "b",
   .fleet (.step 10), delivered 1 (succeed true settled), .manager (.start 2),
   .effect 2 (.repointAll ["a"] "b") "a", .fleet (.step 11)]

end Sim

end DbGuard
