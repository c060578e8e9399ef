import DbGuard.Coop.Dialog
import DbGuard.Proofs.Operations

/-!
# `DbGuard.Proofs.Requests`: which task asks what

`Job.Asks` lists the requests that a task with a job issues, and `body_asks` says that it
issues no others, whatever the other tasks do. `traced_of_runs` finds the program's own calls
for every request in the log of a run.
-/

set_option autoImplicit false

namespace DbGuard

open Coop (Prog Pool Move Checked Traced dialog)

/-- A call that was answered. -/
abbrev Asked := Coop.Call sig

/-! ### Vocabularies and traces -/

section
variable {V : Vocabulary} {α : Type} {m : M α} {s s' : Ctl} {tr : List Asked} {r : Req}

/-- The start of a node task asks nothing. -/
theorem asks_spawnNodeTask {n : Node} {j : Job} : ¬ (spawnNodeTask n j).Asks s tr r s' := by
  unfold spawnNodeTask ctl
  rw [Prog.asks_look]
  split
  · exact Prog.asks_pure
  · rintro ⟨t, h⟩
    exact h

/-- Nor does the start of the maintenance task. -/
theorem asks_startMaintenance {j : Job} {ns : List Node} :
    ¬ (startMaintenance j ns).Asks s tr r s' := by
  unfold startMaintenance ctl
  rw [Prog.asks_look]
  split
  · exact Prog.asks_pure
  · rintro ⟨t, h⟩
    exact h

/-- Nor does the append of a member. -/
theorem asks_joinMember {n : Node} : ¬ (joinMember n).Asks s tr r s' := by
  unfold joinMember ctl
  rw [Prog.asks_look]
  split
  · exact Prog.asks_pure
  · exact Prog.asks_update

/-- The start of a node task ends without a call. -/
theorem ends_spawnNodeTask {n : Node} {j : Job} {b : Bool}
    (h : (spawnNodeTask n j).Ends s tr b s') : tr = [] := by
  unfold spawnNodeTask ctl at h
  rw [Prog.ends_look] at h
  split at h
  · exact h.1
  · obtain ⟨t, h⟩ := h
    exact h.1

/-- So does the start of the maintenance task. -/
theorem ends_startMaintenance {j : Job} {ns : List Node} {b : Bool}
    (h : (startMaintenance j ns).Ends s tr b s') : tr = [] := by
  unfold startMaintenance ctl at h
  rw [Prog.ends_look] at h
  split at h
  · exact h.1
  · obtain ⟨t, h⟩ := h
    exact h.1

/-- So does the append of a member. -/
theorem ends_joinMember {n : Node} {x : Unit} (h : (joinMember n).Ends s tr x s') :
    tr = [] := by
  unfold joinMember ctl at h
  rw [Prog.ends_look] at h
  split at h
  · exact h.1
  · exact h.1

/-- A program asks only what its vocabulary has. -/
theorem Speaks.asks (hm : Speaks V m) (h : m.Asks s tr r s') : V.awaits r := by
  refine Prog.asks_of_madeOf (P := V.awaits) (fun γ m hp s tr r s' h => ?_) hm h
  cases hp with
  | ctl => exact absurd h Prog.asks_get
  | edit _ => exact absurd h Prog.asks_update
  | await hr =>
      obtain ⟨-, rfl, -⟩ := Prog.asks_call.mp h
      exact hr
  | create _ => exact absurd h Prog.asks_create
  | nodeTask _ => exact absurd h asks_spawnNodeTask
  | maint _ => exact absurd h asks_startMaintenance
  | join _ => exact absurd h asks_joinMember
  | block c => exact absurd h Prog.asks_blockUntil
  | hang a => exact absurd h Prog.asks_hang

/-- The calls that it has made by then are in its vocabulary too. -/
theorem Speaks.calls (hm : Speaks V m) (h : m.Asks s tr r s') : ∀ c ∈ tr, V.awaits c.req := by
  -- A program that asks nothing has no calls.
  have hnil : ∀ {tr : List Asked}, tr = [] → ∀ c ∈ tr, V.awaits c.req := by
    rintro _ rfl c hc
    exact absurd hc List.not_mem_nil
  -- It is enough to look at the parts, once where they end and once where they ask.
  refine Prog.calls_of_asks_madeOf (P := V.awaits) (fun γ m hp s tr a s' h => ?_)
    (fun γ m hp s tr r s' h => ?_) hm h
  -- The parts that end.
  · cases hp with
    | ctl => exact hnil h.1
    | edit _ => exact hnil h.1
    | await hr =>
        rw [Prog.ends_call.mp h]
        intro c hc
        rw [List.mem_singleton.mp hc]
        exact hr
    | create _ => exact hnil (Prog.ends_create.mp h).1
    | nodeTask _ => exact hnil (ends_spawnNodeTask h)
    | maint _ => exact hnil (ends_startMaintenance h)
    | join _ => exact hnil (ends_joinMember h)
    | block c => exact hnil (Prog.ends_blockUntil.mp h).1
    | hang a => exact absurd h Prog.ends_hang
  -- The parts that ask.
  · cases hp with
    | ctl => exact absurd h Prog.asks_get
    | edit _ => exact absurd h Prog.asks_update
    | await hr => exact hnil (Prog.asks_call.mp h).1
    | create _ => exact absurd h Prog.asks_create
    | nodeTask _ => exact absurd h asks_spawnNodeTask
    | maint _ => exact absurd h asks_startMaintenance
    | join _ => exact absurd h asks_joinMember
    | block c => exact absurd h Prog.asks_blockUntil
    | hang a => exact absurd h Prog.asks_hang

/-- A program that does not suspend makes no calls. -/
theorem Still.ends {a : α} (hm : Still V m) (h : m.Ends s tr a s') : tr = [] := by
  have hcalls : ∀ c ∈ tr, False := by
    refine Prog.calls_of_madeOf (P := fun _ => False) (fun γ m hp s tr a s' h => ?_) hm h
    have hnil : tr = [] := by
      cases hp with
      | ctl => exact h.1
      | edit _ => exact h.1
      | nodeTask _ => exact ends_spawnNodeTask h
      | join _ => exact ends_joinMember h
    rw [hnil]
    exact fun c hc => absurd hc List.not_mem_nil
  exact List.eq_nil_iff_forall_not_mem.mpr hcalls

/-- A program in one segment asks nothing. -/
theorem Still.asks (hm : Still V m) : ¬ m.Asks s tr r s' := by
  intro h
  refine Prog.asks_of_madeOf (P := fun _ => False) (fun γ m hp s tr r s' h => ?_) hm h
  cases hp with
  | ctl => exact Prog.asks_get h
  | edit _ => exact Prog.asks_update h
  | nodeTask _ => exact asks_spawnNodeTask h
  | join _ => exact asks_joinMember h

end

/-! ### The requests of each task -/

/-- The requests that a task with this job issues. -/
def Job.Asks : Job → Req → Prop
  | .tick, r =>
    (∃ p ns, r = .observe p ns) ∨ failoverVocabulary.awaits r ∨ coldVocabulary.awaits r
  | .switchover _, r => switchoverVocabulary.awaits r ∨ ∃ x, r = .reply x
  | .rejoin n, r => (nodeVocabulary n).awaits r ∨ ∃ x, r = .reply x
  | .halt _, r | .resume, r | .getPrimary, r => ∃ x, r = .reply x
  | .fence n, r | .fenceSecondWriter n _, r => r = .fence n
  | .rejoinNode n _, r => (nodeVocabulary n).awaits r
  | .verifyAfterRepoint n _, r => (watchVocabulary n).awaits r
  | .repointAfter old target, r => r = .repointAll [old] target
  | .rebuildAndJoin args, r => (rebuildVocabulary args.node args.eventType).awaits r
  | .replace spare _, r => r = .provision spare ∨ (rebuildVocabulary spare .replace).awaits r
  | .keepUnstuck _, r => keeperVocabulary.awaits r

/-- What a program that issues only requests of `P` may do. -/
def asking (P : Req → Prop) : Vocabulary where
  edits _ := True
  awaits := P
  creates _ := True
  nodeTasks _ _ := True
  maints _ _ := True
  joins _ := True

/-- A vocabulary is about what it asks. -/
theorem le_asking {V : Vocabulary} {P : Req → Prop} (h : ∀ r, V.awaits r → P r) :
    V.Le (asking P) where
  edits _ _ := trivial
  awaits := h
  creates _ _ := trivial
  nodeTasks _ _ _ := trivial
  maints _ _ _ := trivial
  joins _ _ := trivial

/-- Every task asks what its job may ask. -/
theorem body_speaks_asking (cfg : Config) (t : Nat) (j : Job) :
    Speaks (asking j.Asks) (body cfg t j) := by
  -- What a job may ask is what its vocabulary awaits, so each task is one look at its parts.
  cases j with
  | tick =>
      refine tick_speaks cfg t (le_asking fun r h => .inr (.inl h))
        (le_asking fun r h => .inr (.inr h)) (le_asking fun _ h => h.elim) ?_ ?_ ?_ ?_ ?_
      · exact fun p ns => .inl ⟨p, ns, rfl⟩
      · exact fun _ _ => trivial
      · trivial
      · trivial
      · trivial
  | switchover target =>
      unfold body setFailover switchover
      refine speaks_bind (withLock_speaks t trivial trivial trivial
        ((switchoverLocked_speaks cfg target).mono (le_asking fun r h => .inl h))) fun r => ?_
      -- The reply comes after the lock.
      split
      · exact speaks_await (.inr ⟨_, rfl⟩)
      · exact speaks_await (.inr ⟨_, rfl⟩)
      · exact speaks_await (.inr ⟨_, rfl⟩)
  | rejoin n =>
      unfold body setRejoin
      refine speaks_look fun s => ?_
      split
      · exact speaks_await (.inr ⟨_, rfl⟩)
      · split
        · exact speaks_await (.inr ⟨_, rfl⟩)
        · refine speaks_bind (withLock_speaks t trivial trivial trivial
            ((rejoinLocked_speaks cfg n).mono (le_asking fun r h => .inl h))) fun reply => ?_
          exact speaks_await (.inr ⟨_, rfl⟩)
  | halt reason =>
      unfold body setHalt
      exact speaks_bind (speaks_edit trivial) fun _ => speaks_look fun s =>
        speaks_await ⟨_, rfl⟩
  | resume =>
      unfold body setResume
      refine speaks_bind (speaks_edit trivial) fun _ => speaks_bind (speaks_edit trivial) fun _ => ?_
      exact speaks_bind (speaks_edit trivial) fun _ => speaks_look fun s =>
        speaks_await ⟨_, rfl⟩
  | getPrimary => exact speaks_look fun s => speaks_await ⟨_, rfl⟩
  | fence n => exact speaks_bind (speaks_fence rfl) fun r => speaks_edit trivial
  | fenceSecondWriter n primary =>
      exact speaks_bind (speaks_await rfl) fun a => speaks_event trivial
  | rejoinNode n why =>
      refine speaks_bind ?_ fun _ => speaks_pure _
      exact (rejoinNode_speaks cfg n why true).mono (le_asking fun _ h => h)
  | verifyAfterRepoint n primary =>
      exact (verifyAfterRepoint_speaks cfg n primary).mono (le_asking fun _ h => h)
  | repointAfter old target => exact repointAfter_speaks old target rfl fun _ _ => trivial
  | rebuildAndJoin args =>
      refine maintenance_speaks trivial ?_
      exact (rebuildAndJoin_speaks cfg args).mono (le_asking fun _ h => h)
  | replace spare donor =>
      refine maintenance_speaks trivial (replace_speaks cfg spare donor ?_ ?_ ?_ ?_ ?_ ?_)
      · exact le_asking fun _ h => .inr h
      · exact fun _ => trivial
      · exact fun _ _ => trivial
      · exact fun _ => trivial
      · trivial
      · exact .inl rfl
  | keepUnstuck donor =>
      exact (keepUnstuck_speaks t donor _).mono (le_asking fun _ h => h)

variable {cfg : Config}

/-- A task issues only the requests of its job. -/
theorem body_asks {t : Nat} {j : Job} {s s' : Ctl} {tr : List Asked} {r : Req}
    (h : (body cfg t j).Asks s tr r s') : j.Asks r :=
  (body_speaks_asking cfg t j).asks h

/-- What it has asked before is so, too. -/
theorem body_calls {t : Nat} {j : Job} {s s' : Ctl} {tr : List Asked} {r : Req}
    (h : (body cfg t j).Asks s tr r s') : ∀ c ∈ tr, j.Asks c.req :=
  (body_speaks_asking cfg t j).calls h

/-- Every request in the log of a run is one that the program of its task asks, after the
calls that the log has of this task. -/
theorem traced_of_runs {cond : Pool sig → Move sig → Pool sig → Prop} {p : Pool sig}
    (h : Runs cfg cond p) : Checked (Traced (body cfg)) p.world.log :=
  Coop.Reach.asks h

/-! ### Requests that are sent again -/

/-- After a request of task `t` and before its next call, whether `r` was sent again. -/
theorem sentAgain_append {t : Nat} {j : Job} {q r : Req} {s₁ : Ctl} {l₁ l₂ : List (Coop.Event sig)}
    (hl₂ : dialog t l₂ = []) :
    sentAgain t r (l₁ ++ .issued t j q s₁ :: l₂) = false ↔ ∀ s, .resent t r s ∉ l₂ := by
  have hnone : ∀ e ∈ l₂.reverse, (!issuedBy t e) = true := by
    intro e he
    have hcall : e.isCallOf t = false := by
      simpa using List.filter_eq_nil_iff.mp hl₂ e (List.mem_reverse.mp he)
    cases e with
    | issued t' j' r' s => simpa [Coop.Event.isCallOf, issuedBy] using hcall
    | created | answered | landed | resent | finished => rfl
  unfold sentAgain
  rw [List.reverse_append, List.reverse_cons, List.append_assoc, List.takeWhile_append_of_pos hnone,
    List.singleton_append, List.takeWhile_cons_of_neg (by simp [issuedBy]), List.append_nil,
    List.any_eq_false]
  constructor
  · intro h s hmem
    exact h _ (List.mem_reverse.mpr hmem) (by simp [resentFor])
  · intro h e he heq
    cases e with
    | resent t' r' s =>
      simp only [resentFor, Bool.and_eq_true, decide_eq_true_eq] at heq
      obtain ⟨rfl, rfl⟩ := heq
      exact h s (List.mem_reverse.mp he)
    | created | issued | answered | landed | finished => cases heq

/-- The client sends a request again only while the task that issued it awaits the answer, and
only once. -/
theorem resent_of_runs {cond : Pool sig → Move sig → Pool sig → Prop} {p : Pool sig}
    (h : Runs cfg cond p) {l l' : List (Coop.Event sig)} {t : Nat} {r : Req} {s : Ctl}
    (hlog : p.world.log = l ++ .resent t r s :: l') :
    ∃ (j : Job) (q : Req) (s₀ s₁ : Ctl) (tr : List Asked) (l₁ l₂ : List (Coop.Event sig)),
      l = l₁ ++ .issued t j q s₁ :: l₂ ∧ q.reposts r = true ∧
        (body cfg t j).Asks s₀ tr q s₁ ∧ dialog t l₁ = Coop.Call.steps t j tr ∧
          dialog t l₂ = [] ∧ ∀ s', .resent t r s' ∉ l₂ := by
  have hchecked := Coop.Reach.resent
    (P := fun l t r _ => ∃ X j q s₁, dialog t l = X ++ [.issued t j q s₁] ∧
      q.reposts r = true ∧ sentAgain t r l = false) (fun p t r p' hrun ho => by
        have hmay : mayResend p t r = true := ho.1
        unfold mayResend at hmay
        split at hmay
        · rename_i q k hprog
          simp only [Bool.and_eq_true, Bool.not_eq_true'] at hmay
          obtain ⟨X, j, s₁, -, hX⟩ := hrun.awaits hprog
          exact ⟨X, j, q, s₁, hX, hmay⟩
        · cases hmay) h
  obtain ⟨X, j, q, s₁, hX, hq, honce⟩ := hchecked l _ l' hlog t r s rfl
  obtain ⟨l₁, l₂, rfl, -, hl₂⟩ := Coop.split_of_dialog hX
  obtain ⟨s₀, tr, hasks, hdialog⟩ := traced_of_runs h l₁ (.issued t j q s₁)
    (l₂ ++ .resent t r s :: l') (by rw [hlog, List.append_assoc, List.cons_append])
  exact ⟨j, q, s₀, s₁, tr, l₁, l₂, rfl, hq, hasks, hdialog, hl₂,
    (sentAgain_append hl₂).mp honce⟩

end DbGuard
