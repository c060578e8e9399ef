import DbGuard.Coop.Contract
import DbGuard.Manager

/-!
# `DbGuard.Proofs.Vocabulary`: what the tasks say

A `Vocabulary` bounds what a program does: its updates, its requests, the tasks it creates.
`Speaks V m` says that `m` keeps to `V`. Most parts of a controller are harmless for most
properties, and this module finds out once for each program what it does not do, so that a
contract has to be proved only for the parts of a vocabulary
(`Coop.Prog.wp_of_madeOf`).

The start of a node task or of the maintenance task and the append of a member are parts of
their own (`spawnNodeTask`, `startMaintenance`, `joinMember`), because a guard and what it
guards belong together.
-/

set_option autoImplicit false

namespace DbGuard

open Coop (Prog World Contract)

/-- What a program may do. -/
structure Vocabulary where
  edits : Update → Prop
  awaits : Req → Prop
  creates : Job → Prop := fun _ => False
  nodeTasks : Node → Job → Prop := fun _ _ => False
  maints : Job → List Node → Prop := fun _ _ => False
  joins : Node → Prop := fun _ => False

/-- The parts of programs with a vocabulary. -/
inductive Vocabulary.Part (V : Vocabulary) : (γ : Type) → M γ → Prop
  | ctl : V.Part Ctl ctl
  | edit {u : Update} : V.edits u → V.Part Unit (edit u)
  | await {r : Req} : V.awaits r → V.Part r.Resp (await r)
  | create {j : Job} : V.creates j → V.Part Nat (Prog.create j)
  | nodeTask {n : Node} {j : Job} : V.nodeTasks n j → V.Part Bool (spawnNodeTask n j)
  | maint {j : Job} {ns : List Node} : V.maints j ns → V.Part Bool (startMaintenance j ns)
  | join {n : Node} : V.joins n → V.Part Unit (joinMember n)
  | block (c : Ctl → Bool) : V.Part Unit (Prog.blockUntil c)
  | hang {γ : Type} (a : γ) : V.Part γ (Prog.hang a)

/-- The program keeps to the vocabulary. -/
abbrev Speaks (V : Vocabulary) {α : Type} (m : M α) : Prop := Prog.MadeOf V.Part m

/-- A vocabulary that includes another one. -/
structure Vocabulary.Le (V V' : Vocabulary) : Prop where
  edits : ∀ u, V.edits u → V'.edits u
  awaits : ∀ r, V.awaits r → V'.awaits r
  creates : ∀ j, V.creates j → V'.creates j
  nodeTasks : ∀ n j, V.nodeTasks n j → V'.nodeTasks n j
  maints : ∀ j ns, V.maints j ns → V'.maints j ns
  joins : ∀ n, V.joins n → V'.joins n

section
variable {V V' : Vocabulary} {α β : Type}

/-- A program keeps to every larger vocabulary. -/
theorem Speaks.mono (h : V.Le V') {m : M α} (hm : Speaks V m) : Speaks V' m := by
  refine Prog.MadeOf.mono (fun γ m hp => ?_) hm
  cases hp with
  | ctl => exact .ctl
  | edit hu => exact .edit (h.edits _ hu)
  | await hr => exact .await (h.awaits _ hr)
  | create hj => exact .create (h.creates _ hj)
  | nodeTask hj => exact .nodeTask (h.nodeTasks _ _ hj)
  | maint hj => exact .maint (h.maints _ _ hj)
  | join hn => exact .join (h.joins _ hn)
  | block c => exact .block c
  | hang a => exact .hang a

/-- A vocabulary includes itself. -/
theorem Vocabulary.Le.refl (V : Vocabulary) : V.Le V where
  edits _ h := h
  awaits _ h := h
  creates _ h := h
  nodeTasks _ _ h := h
  maints _ _ h := h
  joins _ h := h

/-- Inclusion of vocabularies is transitive. -/
theorem Vocabulary.Le.trans {V'' : Vocabulary} (h : V.Le V') (h' : V'.Le V'') : V.Le V'' where
  edits u hu := h'.edits u (h.edits u hu)
  awaits r hr := h'.awaits r (h.awaits r hr)
  creates j hj := h'.creates j (h.creates j hj)
  nodeTasks n j hj := h'.nodeTasks n j (h.nodeTasks n j hj)
  maints j ns hj := h'.maints j ns (h.maints j ns hj)
  joins n hn := h'.joins n (h.joins n hn)

/-- The same without the start of a maintenance task. -/
def Vocabulary.noMaint (V : Vocabulary) : Vocabulary := { V with maints := fun _ _ => False }

/-- Without the start of a maintenance task it is smaller. -/
theorem Vocabulary.noMaint_le (V : Vocabulary) : V.noMaint.Le V where
  edits _ h := h
  awaits _ h := h
  creates _ h := h
  nodeTasks _ _ h := h
  maints _ _ h := h.elim
  joins _ h := h

/-- Leaving this start out keeps an inclusion. -/
theorem Vocabulary.Le.noMaint (h : V.Le V') : V.noMaint.Le V'.noMaint where
  edits := h.edits
  awaits := h.awaits
  creates := h.creates
  nodeTasks := h.nodeTasks
  maints _ _ hj := hj
  joins := h.joins

/-- A program that does nothing keeps to every vocabulary. -/
theorem speaks_pure {Leaf : (γ : Type) → M γ → Prop} (a : α) :
    Prog.MadeOf Leaf (pure a : M α) := .pure a

/-- One part after the other. -/
theorem speaks_bind {Leaf : (γ : Type) → M γ → Prop} {m : M α} {f : α → M β}
    (hm : Prog.MadeOf Leaf m) (hf : ∀ a, Prog.MadeOf Leaf (f a)) :
    Prog.MadeOf Leaf (m >>= f) := .bind hm hf

/-- A look at the state. -/
theorem speaks_ctl : Speaks V ctl := .leaf .ctl

/-- After a look at the state. -/
theorem speaks_look {f : Ctl → M β} (hf : ∀ s, Speaks V (f s)) : Speaks V (ctl >>= f) :=
  .bind speaks_ctl hf

/-- An update. -/
theorem speaks_edit {u : Update} (h : V.edits u) : Speaks V (edit u) := .leaf (.edit h)

/-- An event for the event log. -/
theorem speaks_event {e : Event} (h : V.edits (.event e)) : Speaks V (event e) :=
  speaks_edit h

/-- A request and the wait for its answer. -/
theorem speaks_await {r : Req} (h : V.awaits r) : Speaks V (await r) := .leaf (.await h)

/-- A wait for a condition on the state. -/
theorem speaks_block (c : Ctl → Bool) : Speaks V (Prog.blockUntil c : M Unit) :=
  .leaf (.block c)

/-- A task that never goes on. -/
theorem speaks_hang (a : α) : Speaks V (Prog.hang a : M α) := .leaf (.hang a)

/-- The creation of a task. -/
theorem speaks_create {j : Job} (h : V.creates j) : Speaks V (Prog.create j : M Nat) :=
  .leaf (.create h)

/-- The start of a node task. -/
theorem speaks_nodeTask {n : Node} {j : Job} (h : V.nodeTasks n j) :
    Speaks V (spawnNodeTask n j) := .leaf (.nodeTask h)

/-- The start of the maintenance task. -/
theorem speaks_maint {j : Job} {ns : List Node} (h : V.maints j ns) :
    Speaks V (startMaintenance j ns) := .leaf (.maint h)

/-- The append of a member. -/
theorem speaks_join {n : Node} (h : V.joins n) : Speaks V (joinMember n) := .leaf (.join h)

/-- `/status` of a node. -/
theorem speaks_status {n : Node} (h : V.awaits (.status n)) : Speaks V (status n) :=
  .bind (speaks_await h) fun _ => .pure _

/-- `/status` of some nodes at once. -/
theorem speaks_freshViews {ns : List Node} (h : V.awaits (.freshViews ns)) :
    Speaks V (freshViews ns) :=
  .bind (speaks_await h) fun _ => .pure _

/-- `/repoint` of some nodes at once. -/
theorem speaks_repointAll {ns : List Node} {source : Node}
    (h : V.awaits (.repointAll ns source)) : Speaks V (repointAll ns source) :=
  .bind (speaks_await h) fun _ => .pure _

/-- `/fence` of a node. -/
theorem speaks_fence {n : Node} (h : V.awaits (.fence n)) : Speaks V (fence n) :=
  .bind (speaks_await h) fun _ => .pure _

/-- A loop over nodes. -/
theorem speaks_each {Leaf : (γ : Type) → M γ → Prop} {f : Node → M Unit}
    (hf : ∀ n, Prog.MadeOf Leaf (f n)) : ∀ ns : List Node, Prog.MadeOf Leaf (each f ns)
  | [] => .pure _
  | n :: ns => .bind (hf n) fun _ => speaks_each hf ns

end

/-! ### Stepping through a program, under any contract -/

section
variable {C : Contract sig} {t : Nat} {j : Job} {α : Type} {w₀ w : World sig}
  {Q : α → World sig → World sig → Prop}

/-- The rule of a look: it goes on with the state as it is. -/
theorem wp_look {f : Ctl → M α} :
    (ctl >>= f).wp C t j Q w₀ w ↔ (f w.state).wp C t j Q w₀ w := Iff.rfl

/-- The rule of an update. -/
theorem wp_edit {u : Update} {f : Unit → M α} :
    (edit u >>= f).wp C t j Q w₀ w ↔ (f ()).wp C t j Q w₀ (w.edit u) := Iff.rfl

/-- The rule of a creation: the task gets the next number. -/
theorem wp_create {j' : Job} {f : Nat → M α} :
    (Prog.create j' >>= f).wp C t j Q w₀ w ↔
      (f w.jobs.length).wp C t j Q w₀ (w.spawn t j') := Iff.rfl

/-- The rule of a request: what the contract allows may hold at its issue, and every answer that the
environment may give is to be handled. -/
theorem wp_await {r : Req} {f : r.Resp → M α} :
    (await r >>= f).wp C t j Q w₀ w ↔
      (C.allowed t w₀ (w.issue t j r) → C.may t w₀ (w.issue t j r) ∧
        ∀ w' a, C.inv w' → C.rely t (w.issue t j r) w' → C.answers t w' r a →
          (f a).wp C t j Q w' (w'.answer t r a)) := Iff.rfl

/-- The rule of a wait for a condition. -/
theorem wp_block {c : Ctl → Bool} {f : Unit → M α} :
    (Prog.blockUntil c >>= f).wp C t j Q w₀ w ↔
      (C.allowed t w₀ w → C.may t w₀ w ∧
        ∀ w', C.inv w' → C.rely t w w' → c w'.state = true → (f ()).wp C t j Q w' w') :=
  Iff.rfl

/-- The rule of `acquire`. -/
theorem wp_acquire {f : Unit → M α}
    (hfree : w.state.lock.owner = none → (f ()).wp C t j Q w₀ (w.edit (.acquire t)))
    (hwait : C.allowed t w₀ (w.edit (.enqueue t)) → C.may t w₀ (w.edit (.enqueue t)) ∧
      ∀ w', C.inv w' → C.rely t (w.edit (.enqueue t)) w' → w'.state.lock.owner = none →
        (f ()).wp C t j Q w' (w'.edit (.acquire t))) :
    (acquire t >>= f).wp C t j Q w₀ w := by
  unfold acquire
  rw [bind_assoc, wp_look]
  split
  · rename_i h
    exact hfree h.1
  · rw [bind_assoc, wp_edit, bind_assoc, wp_block]
    intro ha
    obtain ⟨hmay, hk⟩ := hwait ha
    refine ⟨hmay, fun w' hi hr hc => hk w' hi hr ?_⟩
    simp only [Bool.and_eq_true, Option.isNone_iff_eq_none] at hc
    exact hc.1

end

/-! ### Keeping a relation, under any contract -/

/-- What a relation between the start of a segment of task `t` and the current world has to
survive, so that every program of a vocabulary keeps it. -/
structure Vocabulary.Kept (V : Vocabulary) (C : Contract sig) (t : Nat) (j : Job)
    (K : World sig → World sig → Prop) : Prop where
  edit {w₀ w u} : K w₀ w → V.edits u → K w₀ (w.edit u)
  await {w₀ w r} : K w₀ w → V.awaits r → (await r).wp C t j (fun _ w₀ w => K w₀ w) w₀ w
  create {w₀ w j'} : K w₀ w → V.creates j' → K w₀ (w.spawn t j')
  nodeTask {w₀ w n j'} : K w₀ w → V.nodeTasks n j' → w.state.nodeBusy n = false →
    K w₀ ((w.spawn t j').edit (.nodeTask n w.jobs.length))
  maint {w₀ w j' ns} : K w₀ w → V.maints j' ns → w.state.maintRunning = false →
    K w₀ ((w.spawn t j').edit (.startMaint w.jobs.length ns))
  join {w₀ w n} : K w₀ w → V.joins n → n ∉ w.state.members → K w₀ (w.edit (.addMember n))
  block {w₀ w} (c : Ctl → Bool) : K w₀ w →
    (Prog.blockUntil c).wp C t j (fun _ w₀ w => K w₀ w) w₀ w

section
variable {V : Vocabulary} {C : Contract sig} {t : Nat} {j : Job} {γ : Type} {m : M γ}
  {K : World sig → World sig → Prop} {w₀ w : World sig}

/-- A part of the vocabulary keeps an assertion that survives each of its words. -/
theorem Vocabulary.Kept.part (h : V.Kept C t j K) (hm : V.Part γ m) (hK : K w₀ w) :
    m.wp C t j (fun _ w₀ w => K w₀ w) w₀ w := by
  cases hm with
  | ctl => exact hK
  | edit hu => exact h.edit hK hu
  | await hr => exact h.await hK hr
  | create hj => exact h.create hK hj
  -- The three operations that look before they act; where they do not act nothing is to show.
  | nodeTask hj =>
      unfold spawnNodeTask
      rw [wp_look]
      split
      · exact hK
      · rename_i hfree
        exact h.nodeTask hK hj (by simpa using hfree)
  | maint hj =>
      unfold startMaintenance
      rw [wp_look]
      split
      · exact hK
      · rename_i hfree
        exact h.maint hK hj (by simpa using hfree)
  | join hn =>
      unfold joinMember
      rw [wp_look]
      split
      · exact hK
      · rename_i hout
        exact h.join hK hn hout
  | block c => exact h.block c hK
  -- A task that hangs has blocked for good.
  | hang a => exact Prog.wp_hang fun ha => (h.block (fun _ => false) hK ha).1

/-- Every program of the vocabulary keeps the relation. -/
theorem Vocabulary.Kept.wp (h : V.Kept C t j K) (hm : Speaks V m) (hK : K w₀ w) :
    m.wp C t j (fun _ w₀ w => K w₀ w) w₀ w :=
  Prog.wp_of_madeOf (fun _ _ hp _ _ hk => h.part hp hk) hm hK

end

/-! ### Programs that do not suspend -/

/-- The parts of such a program. -/
inductive Vocabulary.StillPart (V : Vocabulary) : (γ : Type) → M γ → Prop
  | ctl : V.StillPart Ctl ctl
  | edit {u : Update} : V.edits u → V.StillPart Unit (edit u)
  | nodeTask {n : Node} {j : Job} : V.nodeTasks n j → V.StillPart Bool (spawnNodeTask n j)
  | join {n : Node} : V.joins n → V.StillPart Unit (joinMember n)

/-- The program keeps to the vocabulary, all of it in one segment. -/
abbrev Still (V : Vocabulary) {α : Type} (m : M α) : Prop := Prog.MadeOf V.StillPart m

section
variable {V : Vocabulary} {α : Type}

/-- A program in one segment keeps to the vocabulary. -/
theorem Still.speaks {m : M α} (hm : Still V m) : Speaks V m := by
  refine Prog.MadeOf.mono (fun γ m hp => ?_) hm
  cases hp with
  | ctl => exact .ctl
  | edit hu => exact .edit hu
  | nodeTask hj => exact .nodeTask hj
  | join hn => exact .join hn

/-- It keeps to every larger one, too. -/
theorem Still.mono {V' : Vocabulary} (h : V.Le V') {m : M α} (hm : Still V m) : Still V' m := by
  refine Prog.MadeOf.mono (fun γ m hp => ?_) hm
  cases hp with
  | ctl => exact .ctl
  | edit hu => exact .edit (h.edits _ hu)
  | nodeTask hj => exact .nodeTask (h.nodeTasks _ _ hj)
  | join hn => exact .join (h.joins _ hn)

/-- A look at the state, in one segment. -/
theorem still_look {f : Ctl → M α} (hf : ∀ s, Still V (f s)) : Still V (ctl >>= f) :=
  speaks_bind (.leaf .ctl) hf

/-- An update, in one segment. -/
theorem still_edit {u : Update} (h : V.edits u) : Still V (edit u) := .leaf (.edit h)

/-- An event, in one segment. -/
theorem still_event {e : Event} (h : V.edits (.event e)) : Still V (event e) := still_edit h

/-- The start of a node task, in one segment. -/
theorem still_nodeTask {n : Node} {j : Job} (h : V.nodeTasks n j) :
    Still V (spawnNodeTask n j) := .leaf (.nodeTask h)

/-- The append of a member, in one segment. -/
theorem still_join {n : Node} (h : V.joins n) : Still V (joinMember n) := .leaf (.join h)

end

/-! ### Node tasks -/

/-- What a rejoin of node `n` does beside its fence and its repoint. -/
def watchVocabulary (n : Node) : Vocabulary where
  edits
    | .backoff m _ => m = n
    | .event e => e.type = .rejoin
    | _ => False
  awaits
    | .status _ | .freshViews _ | .committingThreads _ | .sleep => True
    | _ => False
  nodeTasks m j := m = n ∧ ∃ primary, j = .verifyAfterRepoint n primary
  maints j ns := ns = [n] ∧
    ∃ args : Rebuild, j = .rebuildAndJoin args ∧ args.node = n ∧ args.eventType = .rejoin

/-- What a rejoin of node `n` does. -/
def nodeVocabulary (n : Node) : Vocabulary where
  edits := (watchVocabulary n).edits
  awaits
    | .fence m => m = n
    | .repoint m _ => m = n
    | r => (watchVocabulary n).awaits r
  nodeTasks := (watchVocabulary n).nodeTasks
  maints := (watchVocabulary n).maints

/-- The watch of a node is part of its node task. -/
theorem watch_le (n : Node) : (watchVocabulary n).Le (nodeVocabulary n) where
  edits _ h := h
  awaits r h := by
    cases r
    case fence => exact h.elim
    case repoint => exact h.elim
    all_goals exact h
  creates _ h := h
  nodeTasks _ _ h := h
  maints _ _ h := h
  joins _ h := h

/-- The parts of a rejoin of node `n`. The choice of a donor and the start of the rebuild
from it are one part, because the start is right about the views that were just read. -/
inductive Vocabulary.RejoinPart (V : Vocabulary) (n : Node) : (γ : Type) → M γ → Prop
  | part {γ : Type} {m : M γ} : V.noMaint.Part γ m → V.RejoinPart n γ m
  | tryRebuild (phantom : GtidSet) (why : String) (branch : Branch) :
    V.RejoinPart n Bool (tryRebuild n phantom why branch)

/-- The program is a rejoin of `n`, or a part of one. -/
abbrev Rejoins (V : Vocabulary) (n : Node) {α : Type} (m : M α) : Prop :=
  Prog.MadeOf (V.RejoinPart n) m

section
variable {V V' : Vocabulary} {n : Node} {α β : Type}

/-- A program without a maintenance task is one that starts none. -/
theorem rejoins_of {m : M α} (hm : Speaks V.noMaint m) : Rejoins V n m :=
  Prog.MadeOf.mono (fun _ _ hp => .part hp) hm

/-- It may do so in every larger vocabulary. -/
theorem Rejoins.mono (h : V.Le V') {m : M α} (hm : Rejoins V n m) : Rejoins V' n m := by
  refine Prog.MadeOf.flatten (fun γ m hp => ?_) hm
  cases hp with
  | part hp => exact rejoins_of (Speaks.mono h.noMaint (.leaf hp))
  | tryRebuild phantom why branch => exact .leaf (.tryRebuild phantom why branch)

/-- The start of the maintenance task may come last. -/
theorem rejoins_bind {m : M α} {f : α → M β} (hm : Speaks V.noMaint m)
    (hf : ∀ a, Rejoins V n (f a)) : Rejoins V n (m >>= f) :=
  .bind (rejoins_of hm) hf

/-- It may come after a look at the state. -/
theorem rejoins_look {f : Ctl → M β} (hf : ∀ s, Rejoins V n (f s)) :
    Rejoins V n (ctl >>= f) :=
  rejoins_bind speaks_ctl hf

/-- The wait for the maintenance slot keeps to every vocabulary. -/
theorem waitMaintenanceSlot_speaks : Speaks V waitMaintenanceSlot := by
  unfold waitMaintenanceSlot
  refine speaks_look fun s => ?_
  split
  · exact speaks_block _
  · exact speaks_pure _

/-- One try to start a rebuild. -/
theorem tryRebuild_speaks (phantom : GtidSet) (why : String) (branch : Branch) :
    Speaks (watchVocabulary n) (tryRebuild n phantom why branch) := by
  unfold tryRebuild
  refine speaks_bind waitMaintenanceSlot_speaks fun _ => speaks_look fun s => ?_
  refine speaks_bind (speaks_freshViews trivial) fun views => speaks_look fun s' => ?_
  split
  · exact speaks_pure _
  · exact speaks_maint ⟨rfl, _, rfl, rfl, rfl⟩

/-- What a rejoin says. -/
theorem Rejoins.speaks (h : (watchVocabulary n).Le V) {m : M α} (hm : Rejoins V n m) :
    Speaks V m := by
  refine Prog.MadeOf.flatten (fun γ m hp => ?_) hm
  cases hp with
  | part hp => exact Speaks.mono V.noMaint_le (.leaf hp)
  | tryRebuild phantom why branch => exact (tryRebuild_speaks phantom why branch).mono h

end

section
variable (cfg : Config) (n primary : Node) (why : String)

/-- The fence of a second writer starts no rebuild. -/
theorem fenceSecondWriter_speaks :
    Speaks (nodeVocabulary n).noMaint (fenceSecondWriter n primary) := by
  unfold fenceSecondWriter
  exact speaks_bind (speaks_await rfl) fun a => speaks_event rfl

/-- The loop that waits for the slot and starts the rebuild. -/
theorem startRebuildWhenFree_rejoins (phantom : GtidSet) (branch : Branch)
    (deadline : Option Time) (rounds : Nat) :
    Rejoins (watchVocabulary n) n
      (startRebuildWhenFree n phantom why branch deadline rounds) := by
  induction rounds with
  | zero =>
      unfold startRebuildWhenFree
      split
      · exact rejoins_of (speaks_hang _)
      · exact .pure _
  | succ rounds ih =>
      unfold startRebuildWhenFree
      refine rejoins_look fun s => ?_
      split
      · exact .pure _
      · refine .bind (.leaf (.tryRebuild phantom why branch)) fun started => ?_
        split
        · exact .pure _
        · exact rejoins_bind (speaks_await trivial) fun _ => ih

/-- `rebuild` ends with the start of the maintenance task. -/
theorem rebuild_rejoins (phantom : GtidSet) :
    Rejoins (watchVocabulary n) n (rebuild cfg n phantom why) := by
  unfold rebuild
  refine rejoins_look fun s => ?_
  refine .bind (startRebuildWhenFree_rejoins n why phantom _ _ _) fun started => ?_
  split
  · exact .pure _
  · exact rejoins_look fun s' => rejoins_of (speaks_edit rfl)

/-- The count of the committing threads. -/
theorem countCommitting_speaks :
    Speaks (watchVocabulary n).noMaint (countCommitting cfg n) := by
  unfold countCommitting
  split
  · exact speaks_await trivial
  · exact speaks_pure _

/-- One read of the two that `quiesce` compares. -/
theorem readStillness_speaks (prev : Option NodeView) :
    Speaks (watchVocabulary n).noMaint (readStillness cfg n prev) := by
  unfold readStillness
  refine speaks_bind (speaks_status trivial) fun nv => ?_
  split
  · exact speaks_pure _
  · refine speaks_bind (countCommitting_speaks cfg n) fun committing => ?_
    dsimp only
    split
    · exact speaks_pure _
    · split
      · exact speaks_pure _
      · exact speaks_pure _

/-- The loop of `quiesce`, round by round. -/
theorem pollStillness_speaks (deadline : Time) (rounds : Nat) :
    ∀ (prev : Option NodeView) (why : String),
      Speaks (watchVocabulary n).noMaint (pollStillness cfg n deadline rounds prev why) := by
  induction rounds with
  | zero => intro prev why; exact speaks_pure _
  | succ rounds ih =>
      intro prev why
      unfold pollStillness
      refine speaks_look fun s => ?_
      split
      · exact speaks_pure _
      · refine speaks_bind (readStillness_speaks cfg n prev) fun r => ?_
        cases r with
        | still nv => exact speaks_pure _
        | moving why prev => exact speaks_bind (speaks_await trivial) fun _ => ih prev why

/-- `quiesce` starts no rebuild. -/
theorem quiesce_speaks : Speaks (watchVocabulary n).noMaint (quiesce cfg n) := by
  unfold quiesce
  exact speaks_look fun s => pollStillness_speaks cfg n _ _ _ _

/-- The polls of the errant transactions may end in a rebuild. -/
theorem pollErrant_rejoins (deadline : Time) (rounds : Nat) :
    ∀ seen, Rejoins (watchVocabulary n) n (pollErrant cfg n primary deadline rounds seen) := by
  induction rounds with
  | zero => intro seen; exact .pure _
  | succ rounds ih =>
      intro seen
      unfold pollErrant
      refine rejoins_look fun s => ?_
      split
      · exact .pure _
      · refine rejoins_bind (speaks_await trivial) fun _ => rejoins_look fun s' => ?_
        split
        · exact .pure _
        · refine rejoins_bind (speaks_status trivial) fun nv => ?_
          refine rejoins_bind (speaks_status trivial) fun pv => ?_
          split
          · exact ih seen
          · dsimp only
            split
            · exact ih _
            · split
              · exact ih _
              · exact .bind (startRebuildWhenFree_rejoins n _ _ _ _ _) fun _ => .pure _

/-- The verification after a repoint may end in a rebuild. -/
theorem verifyAfterRepoint_rejoins :
    Rejoins (watchVocabulary n) n (verifyAfterRepoint cfg n primary) := by
  unfold verifyAfterRepoint
  exact rejoins_look fun s => pollErrant_rejoins cfg n primary _ _ _

/-- So may the watch of the errant transactions. -/
theorem watchErrant_rejoins (inlineVerify : Bool) :
    Rejoins (watchVocabulary n) n (watchErrant cfg n primary inlineVerify) := by
  unfold watchErrant
  split
  · exact verifyAfterRepoint_rejoins cfg n primary
  · exact rejoins_bind (speaks_nodeTask ⟨rfl, _, rfl⟩) fun _ => .pure _

/-- A repoint or a rebuild of the node. -/
theorem repointOrRebuild_rejoins (phantom : GtidSet) (inlineVerify : Bool) :
    Rejoins (nodeVocabulary n) n
      (repointOrRebuild cfg n primary phantom why inlineVerify) := by
  unfold repointOrRebuild
  split
  · refine rejoins_bind (speaks_await rfl) fun a => ?_
    cases a with
    | error e => exact .pure _
    | ok _ =>
        refine rejoins_bind (speaks_event rfl) fun _ => ?_
        exact .bind ((watchErrant_rejoins cfg n primary inlineVerify).mono (watch_le n))
          fun _ => .pure _
  · exact .bind ((rebuild_rejoins cfg n why phantom).mono (watch_le n)) fun _ => .pure _

/-- The check of a node and its rejoin. -/
theorem checkAndRejoin_rejoins (inlineVerify : Bool) :
    Rejoins (nodeVocabulary n) n (checkAndRejoin cfg n primary why inlineVerify) := by
  unfold checkAndRejoin
  refine rejoins_bind ((quiesce_speaks cfg n).mono (watch_le n).noMaint) fun r => ?_
  obtain ⟨stable, qwhy⟩ := r
  cases stable with
  | none => exact .bind ((rebuild_rejoins cfg n _ _).mono (watch_le n)) fun _ => .pure _
  | some stable =>
      refine rejoins_bind (speaks_status trivial) fun pnow => ?_
      split
      · exact rejoins_look fun s => rejoins_bind (speaks_edit rfl) fun _ => .pure _
      · exact repointOrRebuild_rejoins cfg n primary why _ _

/-- The whole rejoin of a node. -/
theorem rejoinNode_rejoins (inlineVerify : Bool) :
    Rejoins (nodeVocabulary n) n (rejoinNode cfg n why inlineVerify) := by
  unfold rejoinNode
  refine rejoins_look fun s => ?_
  split
  · exact .pure _
  · refine rejoins_bind (speaks_status trivial) fun fresh => ?_
    dsimp only
    split
    · exact rejoins_bind (speaks_await rfl) fun _ => checkAndRejoin_rejoins cfg n _ why _
    · exact checkAndRejoin_rejoins cfg n _ why _

/-- The watch keeps to its vocabulary. -/
theorem watchErrant_speaks (inlineVerify : Bool) :
    Speaks (watchVocabulary n) (watchErrant cfg n primary inlineVerify) :=
  (watchErrant_rejoins cfg n primary inlineVerify).speaks (.refl _)

/-- A rebuild keeps to the vocabulary of the watch. -/
theorem rebuild_speaks (phantom : GtidSet) :
    Speaks (watchVocabulary n) (rebuild cfg n phantom why) :=
  (rebuild_rejoins cfg n why phantom).speaks (.refl _)

/-- The verification keeps to it. -/
theorem verifyAfterRepoint_speaks :
    Speaks (watchVocabulary n) (verifyAfterRepoint cfg n primary) :=
  (verifyAfterRepoint_rejoins cfg n primary).speaks (.refl _)

/-- The node task keeps to its vocabulary. -/
theorem rejoinNode_speaks (inlineVerify : Bool) :
    Speaks (nodeVocabulary n) (rejoinNode cfg n why inlineVerify) :=
  (rejoinNode_rejoins cfg n why inlineVerify).speaks (watch_le n)

end

/-! ### Rebuild and replacement -/

/-- What a rebuild of `node` that records events of type `type` does. -/
def rebuildVocabulary (node : Node) (type : EventType) : Vocabulary where
  edits
    | .unstickStart | .unstickCall _ | .unstickStill _ | .cancel _ | .halt _ => True
    | .event e => e.type = .rebuild ∨ e.type = type
    | _ => False
  awaits
    | .sleep | .unstick _ => True
    | .status m => m = node
    | .rebuild m _ => m = node
    | .repoint m _ => m = node
    | _ => False
  creates j := ∃ donor, j = .keepUnstuck donor

/-- What releases the sessions of `donor` does, before the /rebuild. -/
def quietVocabulary (donor : Node) : Vocabulary where
  edits
    | .unstickCall _ | .unstickStill _ | .halt _ => True
    | .event e => e.type = .rebuild
    | _ => False
  awaits
    | .sleep => True
    | .unstick m => m = donor
    | _ => False
  creates j := j = .keepUnstuck donor

/-- What a rebuild of `node` does after the /rebuild. -/
def joinVocabulary (node : Node) (type : EventType) : Vocabulary where
  edits
    | .cancel _ => True
    | .event e => e.type = .rebuild ∨ e.type = type
    | _ => False
  awaits
    | .sleep => True
    | .status m => m = node
    | .repoint m _ => m = node
    | _ => False

/-- Quieting a donor is part of a rebuild. -/
theorem quiet_le_rebuild (donor node : Node) (type : EventType) :
    (quietVocabulary donor).Le (rebuildVocabulary node type) where
  edits u h := by
    cases u
    case event e => exact Or.inl h
    all_goals trivial
  awaits r h := by cases r <;> trivial
  creates _ h := ⟨donor, h⟩
  nodeTasks _ _ h := h.elim
  maints _ _ h := h.elim
  joins _ h := h.elim

/-- Joining the rebuilt node is part of a rebuild. -/
theorem join_le_rebuild (node : Node) (type : EventType) :
    (joinVocabulary node type).Le (rebuildVocabulary node type) where
  edits u h := by cases u <;> first | exact h | trivial
  awaits r h := by cases r <;> first | exact h | trivial
  creates _ h := h.elim
  nodeTasks _ _ h := h.elim
  maints _ _ h := h.elim
  joins _ h := h.elim

/-- What the task that keeps releasing sessions does. -/
def keeperVocabulary : Vocabulary where
  edits
    | .unstickCall _ => True
    | _ => False
  awaits
    | .sleep | .unstick _ => True
    | _ => False

section
variable (cfg : Config) {V : Vocabulary}

/-- `/unstick` of the donor and the count of its calls. -/
theorem unstick_speaks (donor : Node) (hawait : V.awaits (.unstick donor))
    (hedit : ∀ k, V.edits (.unstickCall k)) : Speaks V (unstick donor) := by
  unfold unstick
  refine speaks_bind (speaks_await hawait) fun a => ?_
  cases a with
  | error e => exact speaks_pure _
  | ok body => exact speaks_bind (speaks_edit (hedit _)) fun _ => speaks_pure _

/-- The keeper repeats `/unstick` while a flag is set. -/
theorem keepUnstuck_speaks (me : Nat) (donor : Node) (rounds : Nat) :
    Speaks keeperVocabulary (keepUnstuck me donor rounds) := by
  induction rounds with
  | zero => exact speaks_hang _
  | succ rounds ih =>
      unfold keepUnstuck
      refine speaks_bind (speaks_await trivial) fun _ => speaks_look fun s => ?_
      split
      · exact speaks_pure _
      · refine speaks_bind (unstick_speaks donor trivial fun _ => trivial) fun _ => ?_
        refine speaks_look fun s' => ?_
        split
        · exact speaks_pure _
        · exact ih

/-- The wait for the rebuilt node. -/
theorem waitUsable_speaks (node : Node) (deadline : Time) (hstatus : V.awaits (.status node))
    (hsleep : V.awaits .sleep) (rounds : Nat) :
    Speaks V (waitUsable node deadline rounds) := by
  induction rounds with
  | zero => exact speaks_pure _
  | succ rounds ih =>
      unfold waitUsable
      refine speaks_look fun s => ?_
      split
      · exact speaks_pure _
      · refine speaks_bind (speaks_status hstatus) fun nv => ?_
        split
        · exact speaks_pure _
        · exact speaks_bind (speaks_await hsleep) fun _ => ih

/-- `/unstick` again after an error. -/
theorem unstickRetry_speaks (donor : Node) (attempts : Nat) :
    ∀ last, Speaks (quietVocabulary donor) (unstickRetry donor attempts last) := by
  induction attempts with
  | zero => intro last; exact speaks_pure _
  | succ attempts ih =>
      intro last
      unfold unstickRetry
      refine speaks_bind (speaks_await trivial) fun _ => ?_
      refine speaks_bind (unstick_speaks donor rfl fun _ => trivial) fun still => ?_
      refine speaks_bind (speaks_edit trivial) fun _ => ?_
      split
      · exact speaks_pure _
      · exact ih _

/-- `/unstick` until no session waits. -/
theorem unstickUntilClear_speaks (donor : Node) :
    Speaks (quietVocabulary donor) (unstickUntilClear donor) := by
  unfold unstickUntilClear
  refine speaks_bind (unstick_speaks donor rfl fun _ => trivial) fun still => ?_
  refine speaks_bind (speaks_edit trivial) fun _ => ?_
  split
  · exact speaks_pure _
  · exact unstickRetry_speaks donor _ _

variable (args : Rebuild)

/-- The keeper is stopped. -/
theorem stopKeeper_speaks (keeper : Option Nat) :
    Speaks (joinVocabulary args.node args.eventType) (stopKeeper keeper) := by
  cases keeper with
  | none => exact speaks_pure _
  | some t => exact speaks_bind (speaks_edit trivial) fun _ => speaks_block _

/-- The stalled primary becomes quiet before it is cloned. -/
theorem quietPrimary_speaks : Speaks (quietVocabulary args.donor) (quietPrimary args) := by
  unfold quietPrimary
  refine speaks_bind (unstickUntilClear_speaks _) fun still => ?_
  split
  · refine speaks_look fun s => ?_
    refine speaks_bind (speaks_event rfl) fun _ => ?_
    exact speaks_bind (speaks_edit trivial) fun _ => speaks_pure _
  · exact speaks_bind (speaks_create rfl) fun _ => speaks_pure _

/-- The same for a donor, which is quieted if it is the primary. -/
theorem quietDonor_speaks (primary : Option Node) :
    Speaks (quietVocabulary args.donor) (quietDonor args primary) := by
  unfold quietDonor
  split
  · exact quietPrimary_speaks args
  · exact speaks_pure _

/-- The rebuilt node joins the set. -/
theorem joinRebuilt_speaks (body : RebuildBody) :
    Speaks (joinVocabulary args.node args.eventType) (joinRebuilt cfg args body) := by
  unfold joinRebuilt
  refine speaks_look fun s => ?_
  refine speaks_bind (waitUsable_speaks _ _ rfl trivial _) fun _ => speaks_look fun s' => ?_
  refine speaks_bind (speaks_await rfl) fun _ => ?_
  exact speaks_bind (speaks_event (Or.inr rfl)) fun _ => speaks_pure _

/-- A rebuild and the join that follows. -/
theorem rebuildAndJoin_speaks :
    Speaks (rebuildVocabulary args.node args.eventType) (rebuildAndJoin cfg args) := by
  have hjoin := join_le_rebuild args.node args.eventType
  unfold rebuildAndJoin
  refine speaks_bind (speaks_edit trivial) fun _ => speaks_look fun s => ?_
  refine speaks_bind ((quietDonor_speaks args _).mono (quiet_le_rebuild _ _ _)) fun r => ?_
  obtain ⟨quiet, keeper⟩ := r
  dsimp only
  split
  · exact speaks_pure _
  · refine speaks_bind (speaks_await rfl) fun resp => ?_
    cases resp with
    | error e =>
        refine speaks_look fun s' => speaks_bind (speaks_event (Or.inl rfl)) fun _ => ?_
        exact speaks_bind ((stopKeeper_speaks args keeper).mono hjoin) fun _ => speaks_pure _
    | ok body =>
        refine speaks_bind ((stopKeeper_speaks args keeper).mono hjoin) fun _ => ?_
        refine speaks_bind ((joinRebuilt_speaks cfg args body).mono hjoin) fun _ => ?_
        exact speaks_pure _

end

end DbGuard
