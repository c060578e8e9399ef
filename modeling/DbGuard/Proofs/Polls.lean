import DbGuard.Proofs.Decision
import DbGuard.Proofs.Script

/-!
# `DbGuard.Proofs.Polls`: when two polls agree on a cold start

The counter of `_cold_start_check` is changed only by the tick that takes the lock, in the
segment in which it takes it (`counting`). So one step of a tick says what its poll chose and
what the counter makes of it. The counter stands for the poll before only if that poll neither
returned early nor chose something else (`Agrees`).
-/

set_option autoImplicit false

namespace DbGuard

open Coop (Prog Pool Move World Contract Adds Grows frame own)

namespace Polling

/-! ### The counter -/

/-- What `_cold_start_check` leaves in the counter. -/
def counted (c : ColdStart) (k : Nat) : Nat :=
  match c with
  | .halt _ => k
  | .no => 0
  | .promote _ => if k + 1 < 2 then k + 1 else 0

/-- A tick calls `cold_start` of `n` in the segment. -/
def calls (w₀ w : World sig) (n : Node) : Bool :=
  (w.log.drop w₀.log.length).any (coldStarts n)

/-- What a segment that decides on these views does to the counter, and whom it starts. -/
def Counts (w₀ w : World sig) : Option Views → Prop
  | none =>
    w.state.coldStartSeen = w₀.state.coldStartSeen ∧
      (w₀.state.op ≠ some .coldStart → ∀ n, calls w₀ w n = false)
  | some views =>
    (w₀.state.primary = none → w.state.coldStartSeen = w₀.state.coldStartSeen) ∧
      ∀ q, w₀.state.primary = some q →
        let c := coldStartChoice views w₀.state.members (some q)
        w.state.coldStartSeen = counted c w₀.state.coldStartSeen ∧
          ∀ n, calls w₀ w n = true → c = .promote n ∧ w₀.state.coldStartSeen ≠ 0

/-- What a segment of task `t` does. -/
structure Deciding (t : Nat) (w₀ w : World sig) : Prop where
  primary : w₀.state.primary.isSome = true → w.state.primary.isSome = true
  counts : Counts w₀ w (looked t w₀ w)

/-- The counter of the cold start check. -/
def counting : Contract sig where
  inv w := w.state.coldStartSeen ≤ 1 ∧
    (w.state.coldStartSeen = 1 → w.state.primary.isSome = true)
  rely _ _ _ := True
  allowed _ _ _ := True
  answers _ _ _ _ := True
  may := Deciding
  pre _ _ _ := True

section
variable {t : Nat} {j : Job} {w₀ w w' : World sig} {e : Coop.Event sig} {n : Node}

/-! ### Segments -/

/-- A record adds its own call to those of the segment. -/
theorem calls_record (hle : w₀.log.length ≤ w.log.length) :
    calls w₀ (w.record e) n = (calls w₀ w n || coldStarts n e) := by
  show ((w.log ++ [e]).drop w₀.log.length).any (coldStarts n) = _
  rw [List.drop_append_of_le_length hle, List.any_append]
  simp [calls]

/-- A segment that has just begun has called nobody. -/
theorem calls_refl : calls w w n = false := by simp [calls]

/-- Where neither the counter nor the calls change. -/
theorem Counts.congr {o : Option Views} (h : Counts w₀ w o)
    (hseen : w'.state.coldStartSeen = w.state.coldStartSeen)
    (hcalls : ∀ n, calls w₀ w' n = calls w₀ w n) : Counts w₀ w' o := by
  cases o with
  | none => exact ⟨hseen.trans h.1, fun hop n => (hcalls n).trans (h.2 hop n)⟩
  | some views =>
      refine ⟨fun hq => hseen.trans (h.1 hq), fun q hq => ⟨hseen.trans (h.2 q hq).1, fun n hn => ?_⟩⟩
      exact (h.2 q hq).2 n ((hcalls n).symm.trans hn)

/-- A segment that decides on nothing leaves the counter and starts nobody. -/
theorem Counts.refl : Counts w w none := ⟨rfl, fun _ _ => calls_refl⟩

/-- Only the check changes the counter. -/
theorem seen_apply {u : Update} (hu : ∀ k, u ≠ .coldStartSeen k) (s : Ctl) :
    (u.apply s).coldStartSeen = s.coldStartSeen := by
  cases u with
  | goTo new note emit detect =>
      exact goTo_keeps (f := Ctl.coldStartSeen) (fun _ _ _ => rfl) s new note emit detect
  | halt reason =>
      exact goTo_keeps (f := Ctl.coldStartSeen) (fun _ _ _ => rfl) s .halted (some reason) true none
  | resume => exact resume_keeps (f := Ctl.coldStartSeen) (fun _ _ _ => rfl) s
  | coldStartSeen k => exact absurd rfl (hu k)
  | _ => rfl

/-- A set that has a primary keeps one. -/
theorem primary_apply (u : Update) {s : Ctl} (h : s.primary.isSome = true) :
    (u.apply s).primary.isSome = true := by
  cases u with
  | setPrimary n => rfl
  | goTo new note emit detect => rwa [Update.apply, (goTo_same s new note emit detect).primary]
  | halt reason => rwa [Update.apply, Ctl.halt, (goTo_same s .halted (some reason) true none).primary]
  | resume => rwa [Update.apply, (resume_same s).primary]
  | _ => exact h

/-! ### The tasks that are no ticks -/

/-- What a task does that neither polls nor counts. -/
structure Aside (V : Vocabulary) : Prop where
  edits : ∀ k, ¬ V.edits (.coldStartSeen k)
  awaits : ∀ q ns, ¬ V.awaits (.observe q ns)

/-- Every task but a tick neither polls nor counts. -/
theorem task_aside (cfg : Config) (t : Nat) (hj : j ≠ .tick) : Aside (taskVocabulary cfg t j) := by
  cases j with
  | tick => exact absurd rfl hj
  | switchover | rejoin | rebuildAndJoin | replace =>
      exact ⟨fun _ h => h.elim id id, fun _ _ h => h.elim id id⟩
  | _ => exact ⟨fun _ h => h, fun _ _ h => h⟩

/-- A segment so far of another task than a tick. -/
structure Beside (t : Nat) (j : Job) (w₀ w : World sig) : Prop extends Deciding t w₀ w where
  log : w₀.log.length ≤ w.log.length
  look : looked t w₀ w = none
  unpolled : hasPoll t w.log = false

namespace Beside

/-- A segment that has just begun, of a task that does not poll. -/
theorem refl (h : hasPoll t w.log = false) : Beside t j w w where
  primary h := h
  counts := by
    rw [looked_refl (.inl h)]
    exact .refl
  log := le_refl _
  look := looked_refl (.inl h)
  unpolled := h

/-- A change that is not the counter's. -/
theorem edit {u : Update} (h : Beside t j w₀ w) (hu : ∀ k, u ≠ .coldStartSeen k) :
    Beside t j w₀ (w.edit u) where
  primary hp := primary_apply u (h.primary hp)
  counts := h.counts.congr (seen_apply hu w.state) fun _ => rfl
  log := h.log
  look := h.look
  unpolled := h.unpolled

/-- A step that is no answer and calls no cold start. -/
theorem record (h : Beside t j w₀ w) (he : isAnswer e = false)
    (hcall : ∀ n, coldStarts n e = false) : Beside t j w₀ (w.record e) where
  primary := h.primary
  counts := by
    rw [looked_record h.log he]
    exact h.counts.congr rfl fun n => by rw [calls_record h.log, hcall, Bool.or_false]
  log := le_trans h.log (List.prefix_append w.log [e]).length_le
  look := (looked_record h.log he).trans h.look
  unpolled := by rw [hasPoll_record, h.unpolled, hasPoll_of_not_isAnswer he, Bool.or_false]

/-- A task that it creates. -/
theorem spawn {j' : Job} (h : Beside t j w₀ w) : Beside t j w₀ (w.spawn t j') := by
  have hcreated := h.record (e := .created t j' w.jobs.length) rfl fun _ => rfl
  exact ⟨⟨hcreated.primary, hcreated.counts⟩, hcreated.log, hcreated.look, hcreated.unpolled⟩

/-- The answer that it goes on from. -/
theorem answered {r : Req} {a : r.Resp} (h : hasPoll t w.log = false)
    (hr : ∀ q ns, r ≠ .observe q ns) : Beside t j w (w.answer t r a) where
  primary h := h
  counts := by
    rw [looked_answer hr]
    refine ⟨rfl, fun _ n => ?_⟩
    rw [World.answer, calls_record (le_refl _), calls_refl]
    rfl
  log := (List.prefix_append w.log [_]).length_le
  look := looked_answer hr
  unpolled := by
    rw [World.answer, hasPoll_record, h]
    cases r with
    | observe q ns => exact absurd rfl (hr q ns)
    | _ => rfl

/-- The task has not polled when it goes on either. -/
theorem next (h : Beside t j w₀ w) (hr : (tickBase.upon counting).rely t w w') :
    hasPoll t w'.log = false := (hasPoll_of_own hr.1.1.1.own).trans h.unpolled

end Beside

/-- The parts of a task that is no tick. -/
theorem beside_kept {V : Vocabulary} (hV : Aside V) (hj : j ≠ .tick) :
    V.Kept (tickBase.upon counting) t j (Beside t j) where
  edit h hu := h.edit fun k heq => hV.edits k (heq ▸ hu)
  await {w₀ w r} h hr _ := by
    have hissued : Beside t j w₀ (w.record (.issued t j r w.state)) :=
      h.record rfl fun n => by
        cases j with
        | tick => exact absurd rfl hj
        | _ => rfl
    refine ⟨hissued.toDeciding, fun w' a _ hrely _ => Beside.answered (hissued.next hrely) ?_⟩
    exact fun q ns heq => hV.awaits q ns (heq ▸ hr)
  create h _ := h.spawn
  nodeTask h _ _ := h.spawn.edit (by simp)
  maint h _ _ := h.spawn.edit (by simp)
  join h _ _ := h.edit (by simp)
  block _ h _ := ⟨h.toDeciding, fun w' _ hrely _ => .refl (h.next hrely)⟩

/-! ### A tick that holds the lock -/

/-- What a tick does under the lock, beside the check itself and `cold_start`. -/
def restVocabulary (cfg : Config) : Vocabulary where
  edits u := (heldVocabulary cfg).edits u ∧ (∀ k, u ≠ .coldStartSeen k) ∧ u ≠ .enter .coldStart
  awaits r := ∀ q ns, r ≠ .observe q ns
  creates _ := True
  nodeTasks _ _ := True
  maints _ _ := True
  joins _ := True

/-- A failover is no cold start. -/
theorem failover_le_rest (cfg : Config) : failoverVocabulary.Le (restVocabulary cfg) where
  edits u h := by
    refine ⟨(failoverVocabulary_le cfg).edits u h, fun k heq => ?_, fun heq => ?_⟩
    · rw [heq] at h
      exact h
    · rw [heq] at h
      cases h
  awaits r h q ns heq := by
    rw [heq] at h
    exact h
  creates _ _ := trivial
  nodeTasks _ _ _ := trivial
  maints _ _ _ := trivial
  joins _ _ := trivial

/-- Nor is the rest of a tick. -/
theorem tick_le_rest (cfg : Config) : (tickVocabulary cfg).Le (restVocabulary cfg) where
  edits u h := by
    refine ⟨(tickVocabulary_le cfg).edits u h, fun k heq => ?_, fun heq => ?_⟩
    · rw [heq] at h
      exact h
    · rw [heq] at h
      exact h
  awaits _ h := h.elim
  creates _ _ := trivial
  nodeTasks _ _ _ := trivial
  maints _ _ _ := trivial
  joins _ _ := trivial

/-- Nor is bootstrap. -/
theorem bootstrap_rest (cfg : Config) : Speaks (restVocabulary cfg) (bootstrap cfg) :=
  bootstrap_speaks_of cfg ⟨trivial, nofun, nofun⟩ (fun _ => ⟨trivial, nofun, nofun⟩)
    (fun _ => ⟨trivial, nofun, nofun⟩) (fun _ _ => ⟨trivial, nofun, nofun⟩) (fun _ => nofun)
    fun _ _ => nofun

/-- A segment so far of a tick that holds the lock and is not in `cold_start`. -/
structure Holding (t : Nat) (w₀ w : World sig) : Prop extends Deciding t w₀ w where
  log : w₀.log.length ≤ w.log.length
  owner : w.state.lock.owner = some t
  op : w.state.op ≠ some .coldStart

/-- The operation under way is changed only by its begin and by the release. -/
theorem op_apply {u : Update} (henter : ∀ op, u ≠ .enter op) (hrelease : u ≠ .release) (s : Ctl) :
    (u.apply s).op = s.op := by
  cases u with
  | goTo new note emit detect => exact (goTo_same s new note emit detect).op
  | halt reason => exact (goTo_same s .halted (some reason) true none).op
  | resume => exact (resume_same s).op
  | enter op => exact absurd rfl (henter op)
  | release => exact absurd rfl hrelease
  | _ => rfl

/-- A request calls no cold start unless `cold_start` is the operation in progress. -/
theorem coldStarts_issued {r : Req} {s : Ctl} (hop : s.op ≠ some .coldStart) :
    coldStarts n (.issued t j r s) = false := by
  have hne : (s.op == some .coldStart) = false := by simpa using hop
  unfold coldStarts
  split
  · rename_i heq
    cases heq
    rw [hne, Bool.and_false]
  · rename_i heq
    cases heq
    rw [hne, Bool.and_false]
  · rfl

namespace Holding

/-- A change that keeps the lock, and under which no cold start begins. -/
theorem change {u : Update} (h : Holding t w₀ w) (hseen : ∀ k, u ≠ .coldStartSeen k)
    (howner : (u.apply w.state).lock.owner = w.state.lock.owner)
    (hop : (u.apply w.state).op ≠ some .coldStart) : Holding t w₀ (w.edit u) where
  primary hp := primary_apply u (h.primary hp)
  counts := h.counts.congr (seen_apply hseen w.state) fun _ => rfl
  log := h.log
  owner := howner.trans h.owner
  op := hop

/-- Every change of the rest of a tick is one. -/
theorem edit {cfg : Config} {u : Update} (h : Holding t w₀ w) (hu : (restVocabulary cfg).edits u) :
    Holding t w₀ (w.edit u) := by
  refine h.change hu.2.1 (held_owner hu.1 w.state).1 ?_
  by_cases henter : ∃ op, u = .enter op
  · obtain ⟨op, rfl⟩ := henter
    exact fun heq => hu.2.2 (congrArg Update.enter (Option.some.inj heq))
  · have hrelease : u ≠ .release := fun heq => by
      rw [heq] at hu
      exact hu.1
    rw [op_apply (fun op heq => henter ⟨op, heq⟩) hrelease]
    exact h.op

/-- A record of what is neither an answer nor a call. -/
theorem record (h : Holding t w₀ w) (he : isAnswer e = false)
    (hcall : ∀ n, coldStarts n e = false) : Holding t w₀ (w.record e) where
  primary := h.primary
  counts := by
    rw [looked_record h.log he]
    exact h.counts.congr rfl fun n => by rw [calls_record h.log, hcall, Bool.or_false]
  log := le_trans h.log (List.prefix_append w.log [e]).length_le
  owner := h.owner
  op := h.op

/-- A task that it creates. -/
theorem spawn {j' : Job} (h : Holding t w₀ w) : Holding t w₀ (w.spawn t j') := by
  have hcreated := h.record (e := .created t j' w.jobs.length) rfl fun _ => rfl
  exact ⟨⟨hcreated.primary, hcreated.counts⟩, hcreated.log, hcreated.owner, hcreated.op⟩

/-- The next segment, before it goes on. -/
theorem next (h : Holding t w₀ w) (hr : (tickBase.upon counting).rely t w w') :
    Holding t w' w' := by
  have hsees : Sees t w w' := hr.1.1.2
  have howner : w'.state.lock.owner = some t := hsees.owner.mpr h.owner
  refine ⟨⟨fun h => h, ?_⟩, le_refl _, howner, ?_⟩
  · rw [looked_refl (.inr (by rw [howner]; rfl))]
    exact .refl
  · rw [hsees.op h.owner]
    exact h.op

/-- An answer to any request but a poll. -/
theorem answered {r : Req} {a : r.Resp} (h : Holding t w w) (hr : ∀ q ns, r ≠ .observe q ns) :
    Holding t w (w.answer t r a) where
  primary h := h
  counts := by
    rw [looked_answer hr]
    refine ⟨rfl, fun _ n => ?_⟩
    rw [World.answer, calls_record (le_refl _), calls_refl]
    rfl
  log := (List.prefix_append w.log [_]).length_le
  owner := h.owner
  op := h.op

end Holding

/-- The rest of a tick keeps the counter and calls nobody. -/
theorem holding_kept (cfg : Config) :
    (restVocabulary cfg).Kept (tickBase.upon counting) t j (Holding t) where
  edit h hu := h.edit hu
  await {w₀ w r} h hr _ := by
    have hissued : Holding t w₀ (w.record (.issued t j r w.state)) :=
      h.record rfl fun n => coldStarts_issued h.op
    exact ⟨hissued.toDeciding, fun w' a _ hrely _ => (hissued.next hrely).answered hr⟩
  create h _ := h.spawn
  nodeTask h _ _ := h.spawn.change (by simp) rfl h.op
  maint h _ _ := h.spawn.change (by simp) rfl h.op
  join h _ _ := h.change (by simp) rfl h.op
  block _ h _ := ⟨h.toDeciding, fun w' _ hrely _ => h.next hrely⟩

/-! ### A tick in `cold_start` -/

/-- The check of this segment has chosen `src`, with a counter that stood already. -/
def Due (t : Nat) (src : Node) (w₀ w : World sig) : Prop :=
  ∃ views, looked t w₀ w = some views ∧ ∀ q, w₀.state.primary = some q →
    coldStartChoice views w₀.state.members (some q) = .promote src ∧
      w₀.state.coldStartSeen ≠ 0

/-- A segment so far of a tick in `cold_start` of `src`. -/
structure Starting (src : Node) (t : Nat) (w₀ w : World sig) : Prop extends Deciding t w₀ w where
  log : w₀.log.length ≤ w.log.length
  owner : w.state.lock.owner = some t
  op : w.state.op = some .coldStart
  due : w₀.state.op = some .coldStart ∧ looked t w₀ w = none ∨ Due t src w₀ w

/-- What `cold_start` of `src` does once it has begun. -/
def startVocabulary (src : Node) : Vocabulary where
  edits
    | .setPrimary _ | .event _ => True
    | _ => False
  awaits
    | .repointAll _ n | .promote n => n = src
    | _ => False

namespace Starting

variable {src : Node}

/-- A change of `cold_start`. -/
theorem edit {u : Update} (h : Starting src t w₀ w) (hu : (startVocabulary src).edits u) :
    Starting src t w₀ (w.edit u) := by
  have hsame : (u.apply w.state).coldStartSeen = w.state.coldStartSeen ∧
      (u.apply w.state).lock.owner = w.state.lock.owner ∧
        (u.apply w.state).op = w.state.op := by
    cases u with
    | setPrimary | event => exact ⟨rfl, rfl, rfl⟩
    | _ => exact hu.elim
  exact ⟨⟨fun hp => primary_apply u (h.primary hp),
    h.counts.congr hsame.1 fun _ => rfl⟩, h.log, hsame.2.1.trans h.owner,
    hsame.2.2.trans h.op, h.due⟩

/-- A request of `cold_start`: its first one is the call. -/
theorem issue {r : Req} (h : Starting src t w₀ w) (hr : (startVocabulary src).awaits r) :
    Starting src t w₀ (w.issue t .tick r) := by
  have hlook := looked_record (t := t) (e := .issued t .tick r w.state) h.log rfl
  have hcall : ∀ n, coldStarts n (.issued t .tick r w.state) = true → n = src := by
    intro n hn
    cases r with
    | promote m | repointAll ns m =>
        have hm : m = src := hr
        simp only [coldStarts, Bool.and_eq_true, beq_iff_eq] at hn
        rw [← hn.1, hm]
    | _ => cases hn
  refine ⟨⟨h.primary, ?_⟩, le_trans h.log (List.prefix_append w.log [_]).length_le, h.owner, h.op,
    ?_⟩
  · have hcounts := h.counts
    rw [World.issue, hlook]
    rcases h.due with ⟨hop, hnone⟩ | ⟨views, hviews, hdue⟩
    · rw [hnone] at hcounts ⊢
      exact ⟨hcounts.1, fun hne => absurd hop hne⟩
    · rw [hviews] at hcounts ⊢
      refine ⟨hcounts.1, fun q hq => ⟨(hcounts.2 q hq).1, fun n hn => ?_⟩⟩
      rw [calls_record h.log, Bool.or_eq_true] at hn
      rcases hn with hn | hn
      · exact (hcounts.2 q hq).2 n hn
      · rw [hcall n hn]
        exact hdue q hq
  · rw [World.issue, Due, hlook]
    exact h.due

/-- An answer to `cold_start`. -/
theorem answered {r : Req} {a : r.Resp} (h : Starting src t w₀ w)
    (hr : (tickBase.upon counting).rely t w w') (hne : ∀ q ns, r ≠ .observe q ns) :
    Starting src t w' (w'.answer t r a) := by
  have hsees : Sees t w w' := hr.1.1.2
  have hop : w'.state.op = some .coldStart := (hsees.op h.owner).trans h.op
  refine ⟨⟨fun h => h, ?_⟩, (List.prefix_append w'.log [_]).length_le, hsees.owner.mpr h.owner,
    hop, .inl ⟨hop, looked_answer hne⟩⟩
  rw [looked_answer hne]
  exact ⟨rfl, fun hnot => absurd hop hnot⟩

/-- The task goes on in `cold_start`. -/
theorem resumed (h : Starting src t w₀ w) (hr : (tickBase.upon counting).rely t w w') :
    Starting src t w' w' := by
  have hsees : Sees t w w' := hr.1.1.2
  have howner : w'.state.lock.owner = some t := hsees.owner.mpr h.owner
  have hop : w'.state.op = some .coldStart := (hsees.op h.owner).trans h.op
  have hlook : looked t w' w' = none := looked_refl (.inr (by rw [howner]; rfl))
  refine ⟨⟨fun h => h, ?_⟩, le_refl _, howner, hop, .inl ⟨hop, hlook⟩⟩
  rw [hlook]
  exact .refl

end Starting

/-- `cold_start` of `src` calls `src` and nobody else. -/
theorem starting_kept (src : Node) :
    (startVocabulary src).Kept (tickBase.upon counting) t .tick (Starting src t) where
  edit h hu := h.edit hu
  await {w₀ w r} h hr _ := by
    have hissued := h.issue hr
    refine ⟨hissued.toDeciding, fun w' a _ hrely _ => hissued.answered hrely ?_⟩
    intro q ns heq
    rw [heq] at hr
    exact hr
  create _ h := h.elim
  nodeTask _ h _ := h.elim
  maint _ h _ := h.elim
  join _ h _ := h.elim
  block _ h _ := ⟨h.toDeciding, fun w' _ hrely _ => h.resumed hrely⟩

/-- `cold_start` of the node that the check has chosen. -/
theorem wp_coldStart {src : Node} {views : Views} (h : Holding t w₀ w) (hdue : Due t src w₀ w) :
    (coldStart src views).wp (tickBase.upon counting) t .tick (fun _ w₀ w => Starting src t w₀ w)
      w₀ w := by
  unfold coldStart
  rw [wp_look, wp_edit]
  refine (starting_kept src).wp ?_ ⟨⟨h.primary, h.counts.congr
    rfl fun _ => rfl⟩, h.log, h.owner, rfl, .inr hdue⟩
  refine speaks_bind ?_ fun _ => ?_
  · unfold repointMovers
    split
    · exact speaks_pure _
    · exact speaks_bind (speaks_repointAll rfl) fun _ => speaks_pure _
  · refine speaks_bind (speaks_await rfl) fun a => ?_
    cases a with
    | error e => exact speaks_edit trivial
    | ok body =>
        refine speaks_look fun s' => speaks_bind (speaks_edit trivial) fun _ => ?_
        exact speaks_event trivial

/-! ### The tick -/

/-- A tick that has just taken the lock, with its poll. -/
structure Entered (t : Nat) (ob : Observation) (w₀ w : World sig) : Prop where
  log : w₀.log.length ≤ w.log.length
  look : looked t w₀ w = some ob.nodes
  quiet : ∀ n, calls w₀ w n = false
  seen : w.state.coldStartSeen = w₀.state.coldStartSeen
  primary : w.state.primary = w₀.state.primary
  members : w.state.members = w₀.state.members
  owner : w.state.lock.owner = some t
  op : w.state.op = none

/-- A poll calls no cold start. -/
theorem Polled.quiet (h : Polled w₀ w) : calls w₀ w n = false := by
  unfold calls
  rw [List.any_eq_false]
  intro e he
  have hpolling := h.silent e he
  cases e with
  | issued t' j' r s =>
      cases r with
      | observe q ns => simp [coldStarts]
      | _ => cases hpolling
  | answered => simp [coldStarts]
  | created | landed | resent | finished => cases hpolling

/-- A tick that has the lock and its poll may decide. -/
theorem Locks.entered {ob : Observation} (h : Locks t ob w₀ w) : Entered t ob w₀ w := by
  obtain ⟨lastObs, history, lock, hsame⟩ := h.same
  refine ⟨h.log, h.look, fun n => h.toPolled.quiet, ?_, ?_, ?_, h.owner, h.op⟩
  · rw [hsame]
  · rw [hsame]
    rfl
  · rw [hsame]

/-- It changes the counter as the check says. -/
theorem Entered.holding {ob : Observation} (h : Entered t ob w₀ w) (hlog : w'.log = w.log)
    (hprimary : w.state.primary.isSome = true → w'.state.primary.isSome = true)
    (howner : w'.state.lock.owner = w.state.lock.owner) (hop : w'.state.op = w.state.op)
    (hnone : w.state.primary = none → w'.state.coldStartSeen = w.state.coldStartSeen)
    (hsome : ∀ q, w.state.primary = some q → w'.state.coldStartSeen =
      counted (coldStartChoice ob.nodes w.state.members (some q)) w.state.coldStartSeen) :
    Holding t w₀ w' := by
  have hlook : looked t w₀ w' = some ob.nodes := by
    rw [← h.look]
    unfold looked firstStep
    rw [hlog]
  have hquiet : ∀ n, calls w₀ w' n = false := by
    intro n
    rw [← h.quiet n]
    unfold calls
    rw [hlog]
  refine ⟨⟨fun hp => hprimary (by rwa [h.primary]), ?_⟩, hlog ▸ h.log, howner.trans h.owner, ?_⟩
  · rw [hlook]
    refine ⟨fun hp => (hnone (h.primary.trans hp)).trans h.seen, fun q hq => ⟨?_, fun n hn => ?_⟩⟩
    · rw [← h.members, ← h.seen]
      exact hsome q (h.primary.trans hq)
    · rw [hquiet n] at hn
      cases hn
  · rw [hop, h.op]
    exact nofun

/-- Without a believed primary there is no check. -/
theorem Entered.unbelieved {ob : Observation} (h : Entered t ob w₀ w)
    (hp : w.state.primary = none) : Holding t w₀ w :=
  h.holding rfl (fun h => h) rfl rfl (fun _ => rfl) fun q hq => by
    rw [hp] at hq
    cases hq

/-- A segment so far of a tick that gives the lock back. -/
structure Done (t : Nat) (w₀ w : World sig) : Prop extends Deciding t w₀ w where
  log : w₀.log.length ≤ w.log.length

/-- A tick that holds the lock can give it back. -/
theorem Holding.done (h : Holding t w₀ w) : Done t w₀ w := ⟨h.toDeciding, h.log⟩

/-- So can one that has started its node. -/
theorem Starting.done {src : Node} (h : Starting src t w₀ w) : Done t w₀ w :=
  ⟨h.toDeciding, h.log⟩

/-- The check counts the poll. If it does not act, nobody was called. -/
theorem wp_coldStartCheck {ob : Observation} {q : Node} (h : Entered t ob w₀ w)
    (hq : w.state.primary = some q) :
    (coldStartCheck ob).wp (tickBase.upon counting) t .tick
      (fun acted w₀ w => Done t w₀ w ∧ (acted = false → Holding t w₀ w)) w₀ w := by
  have hnot : ∀ {P : Prop}, w.state.primary = none → P := fun hnone => by
    rw [hq] at hnone
    cases hnone
  -- An update that leaves the counter as the check says.
  have hedit : ∀ u : Update, (u.apply w.state).lock.owner = w.state.lock.owner →
      (u.apply w.state).op = w.state.op → (u.apply w.state).coldStartSeen =
        counted (coldStartChoice ob.nodes w.state.members w.state.primary) w.state.coldStartSeen →
          Holding t w₀ (w.edit u) := by
    intro u howner hop hseen
    refine h.holding rfl (primary_apply u) howner hop hnot fun q' hq' => ?_
    rw [← hq']
    exact hseen
  unfold coldStartCheck
  rw [wp_look]
  split
  · rename_i reason hc
    have hsame := goTo_same w.state .halted (some reason) true none
    have hhalt := hedit (.halt reason) hsame.owner hsame.op (by
      rw [hc]
      exact seen_apply (u := .halt reason) nofun w.state)
    exact ⟨hhalt.done, nofun⟩
  · rename_i hc
    have hzero := hedit (.coldStartSeen 0) rfl rfl (by
      rw [hc]
      rfl)
    exact ⟨hzero.done, fun _ => hzero⟩
  · rename_i src hc
    split
    · rename_i hlt
      have hone := hedit (.coldStartSeen (w.state.coldStartSeen + 1)) rfl rfl (by
        rw [hc]
        exact (if_pos hlt).symm)
      exact ⟨hone.done, fun _ => hone⟩
    · rename_i hge
      have hzero := hedit (.coldStartSeen 0) rfl rfl (by
        rw [hc]
        exact (if_neg hge).symm)
      have hdue : Due t src w₀ (w.edit (.coldStartSeen 0)) := by
        refine ⟨ob.nodes, h.look, fun q' hq' => ⟨?_, ?_⟩⟩
        · rw [← h.members, ← hq', ← h.primary]
          exact hc
        · rw [← h.seen]
          omega
      rw [wp_edit]
      refine Prog.wp_seq (wp_coldStart hzero hdue) fun _ w₀ w hs => ?_
      exact ⟨hs.done, nofun⟩

/-- Discovery counts it in the same way. -/
theorem wp_discover (cfg : Config) {ob : Observation} (h : Entered t ob w₀ w)
    (hp : w.state.primary = none) :
    (discover cfg ob).wp (tickBase.upon counting) t .tick (fun _ w₀ w => Done t w₀ w) w₀ w := by
  have hheld : Holding t w₀ w := h.unbelieved hp
  have hset : ∀ n, Done t w₀ (w.edit (.setPrimary n)) := fun n =>
    (hheld.change (u := .setPrimary n) nofun rfl hheld.op).done
  have hhalt : ∀ reason, Done t w₀ (w.edit (.halt reason)) := by
    intro reason
    have hsame := goTo_same w.state .halted (some reason) true none
    exact (hheld.change (u := .halt reason) nofun hsame.owner (hsame.op ▸ hheld.op)).done
  unfold discover
  rw [wp_look]
  dsimp only
  split
  · exact hset _
  · exact hhalt _
  · split
    · exact Prog.wp_mono (fun _ _ _ hd => Holding.done hd) _ _ _
        ((holding_kept cfg).wp (bootstrap_rest cfg) hheld)
    · split
      · exact hhalt _
      · refine Prog.wp_mono (fun _ _ _ hd => Starting.done hd) _ _ _ (wp_coldStart hheld ?_)
        refine ⟨ob.nodes, h.look, fun q hq => ?_⟩
        rw [← h.primary, hp] at hq
        cases hq
      · exact hset _
      · exact hheld.done

/-- The tick decides on its poll once. -/
theorem wp_tickLocked (cfg : Config) {ob : Observation} (h : Entered t ob w₀ w) :
    (tickLocked cfg ob).wp (tickBase.upon counting) t .tick (fun _ w₀ w => Done t w₀ w) w₀ w := by
  unfold tickLocked
  rw [wp_look]
  split
  · rename_i hp
    exact wp_discover cfg h hp
  · rename_i q hq
    refine Prog.wp_seq (wp_coldStartCheck h hq) fun acted w₀ w hchecked => ?_
    split
    · exact hchecked.1
    · rename_i hacted
      have hheld := hchecked.2 (by simpa using hacted)
      refine Prog.wp_mono (fun _ _ _ hd => Holding.done hd) _ _ _ ((holding_kept cfg).wp ?_ hheld)
      refine speaks_look fun s => speaks_bind ?_ fun _ => ?_
      · exact Speaks.mono ((repairVocabulary_le cfg).trans (tick_le_rest cfg))
          (checkStall_still cfg _ ob).speaks
      · exact act_speaks cfg _ ob (failover_le_rest cfg) (tick_le_rest cfg) _

/-- The segment in which a tick takes the lock, to its end. -/
theorem wp_locked (cfg : Config) {ob : Observation} (h : Entered t ob w₀ w) :
    (tickLocked cfg ob >>= fun a => edit .release >>= fun _ => pure a).wp (tickBase.upon counting)
      t .tick (fun _ w₀ w => Done t w₀ w) w₀ w := by
  refine Prog.wp_seq (wp_tickLocked cfg h) fun _ w₀ w hd => ?_
  exact ⟨⟨hd.primary, hd.counts.congr rfl fun _ => rfl⟩, hd.log⟩

/-- A tick that does not take the lock in this segment. -/
theorem Idle.done (h : Idle t w₀ w) : Done t w₀ w := by
  obtain ⟨lastObs, history, lock, hsame⟩ := h.same
  refine ⟨⟨fun hp => by rw [hsame]; exact hp, ?_⟩, h.log⟩
  rw [h.look]
  exact ⟨by rw [hsame], fun _ n => h.toPolled.quiet⟩

/-- A tick. -/
theorem wp_tick (cfg : Config) (hj : w.jobs[t]? = some .tick) (hlive : t ∉ w.state.finished)
    (hpoll : hasPoll t w.log = false) :
    (tick cfg t).wp (tickBase.upon counting) t .tick (fun _ w₀ w => Done t w₀ w) w w :=
  wp_tick_of_locks (fun _ _ h => h.done.toDeciding) (fun _ _ h => h.done)
    (fun _ _ _ h => wp_locked cfg h.entered) hj hlive hpoll

/-! ### The contract -/

/-- The end of the segment. -/
theorem Done.finish (h : Done t w₀ w) : Deciding t w₀ (w.finish t) := by
  have hcounts := h.counts
  rw [← looked_record (e := .finished t w.state) h.log rfl] at hcounts
  refine ⟨h.primary, hcounts.congr rfl fun n => ?_⟩
  show calls w₀ (w.record (.finished t w.state)) n = _
  rw [calls_record h.log]
  exact Bool.or_false _

/-- The counter's invariant holds after a segment that decides. -/
theorem Counts.seen_le (hi : counting.inv w₀) (h : Deciding t w₀ w) : counting.inv w := by
  have hcounts := h.counts
  have hle := hi.1
  cases hlook : looked t w₀ w with
  | none =>
      rw [hlook] at hcounts
      refine ⟨hcounts.1 ▸ hle, fun hone => h.primary (hi.2 ?_)⟩
      rw [← hcounts.1, hone]
  | some views =>
      rw [hlook] at hcounts
      cases hp : w₀.state.primary with
      | none =>
          have hseen := hcounts.1 hp
          refine ⟨hseen ▸ hle, fun hone => h.primary (hi.2 ?_)⟩
          rw [← hseen, hone]
      | some q =>
          have hseen := (hcounts.2 q hp).1
          refine ⟨?_, fun _ => h.primary (by rw [hp]; rfl)⟩
          rw [hseen]
          unfold counted
          split
          · exact hle
          · exact Nat.zero_le _
          · split <;> omega

/-- Every task keeps the contract. -/
theorem counting_sound (cfg : Config) {ok : Pool sig → Move sig → Pool sig → Prop}
    (hok : ∀ p m p', ok p m p' → environment p m = true) :
    tickBase.SoundOver counting (body cfg) ok where
  rely_refl _ _ := trivial
  rely_trans _ _ _ _ _ _ := trivial
  rely_of_may _ _ _ _ _ _ _ _ _ := trivial
  rely_arrive _ _ _ _ _ _ := trivial
  rely_outside _ _ _ _ _ _ := trivial
  rely_land _ _ _ _ _ _ _ := trivial
  rely_resend _ _ _ _ _ _ _ := trivial
  -- The counter of a tick never passes what has been seen.
  inv_may _ _ _ _ hi _ h := Counts.seen_le hi h
  inv_arrive _ _ _ _ hi := hi
  inv_outside p u p' ho hi := by
    obtain ⟨time, mono, rfl⟩ := clock_of_environment (hok _ _ _ ho)
    exact hi
  inv_land _ _ _ _ _ hi := hi
  inv_resend _ _ _ _ _ hi := hi
  pre_rely _ _ _ _ _ _ _ := trivial
  pre_may _ _ _ _ _ _ _ _ _ _ _ := trivial
  pre_arrive _ _ _ _ _ := trivial
  allowed_start _ _ _ _ := trivial
  allowed_answer _ _ _ _ _ := trivial
  allowed_wake _ _ _ _ := trivial
  answers_ok _ _ _ _ _ _ _ _ := trivial
  body_wp t j w _ _ hj hpre _ := by
    have hpoll : hasPoll t w.log = false := hasPoll_of_own_nil hpre.1.1.2
    -- Only a tick counts. It starts without a poll of its own, and ends having counted it or not.
    by_cases htick : j = .tick
    · subst htick
      refine Prog.wp_mono ?_ _ _ _ (wp_tick cfg hj hpre.2 hpoll)
      exact fun _ _ _ h _ => h.finish
    -- Every other task leaves the counter alone.
    · refine Prog.wp_mono (fun _ _ _ h _ => Done.finish ⟨h.toDeciding, h.log⟩) _ _ _
        ((beside_kept (task_aside cfg t htick) htick).wp (body_speaks_task cfg t j) (.refl hpoll))

end

open Machine (Reach)

/-! ### The condition and the invariant -/

/-- The poll chose a node. -/
def picks : ColdChoice → Bool
  | (_, .promote _) => true
  | _ => false

/-- The last poll that chose a node. -/
def lastPick (s : Polling) : Option ColdChoice := s.polls.findSome? (·.filter picks)

/-- While the counter stands, no tick returns early with its poll. A poll that is decided on
chooses nobody, or what the last poll chose that chose a node. -/
def Agrees (s : Polling) (m : Move sig) : Prop :=
  s.state.coldStartSeen = 1 → leftEarly s.pool m = false ∧
    ∀ views ∈ decided s.pool m, ∀ x ∈ s.state.chosen views, x.2 = .no ∨ s.lastPick = some x

/-- The counter stands for the last poll. -/
def Stands (s : Polling) : Prop :=
  s.state.coldStartSeen = 1 → ∃ q n rest, s.polls = some (q, .promote n) :: rest

section
variable {cfg : Config} {s s' : Polling} {m : Move sig} {p p' : Pool sig} {views : Views}

/-- A tick that leaves early decides on nothing. -/
theorem decided_of_leftEarly (h : leftEarly p m = true) : decided p m = none := by
  cases m with
  | answer t f =>
      unfold leftEarly at h
      dsimp only at h
      unfold decided
      dsimp only
      split at h
      · exact if_pos (by rw [h]; rfl)
      · cases h
  | start | wake | arrive | outside | land | resend => cases h

/-- The chooser's verdict on the decided poll goes on top. -/
theorem after_of_decided (h : decided s.pool m = some views) :
    s.after m = s.state.chosen views :: s.polls := by
  have hstay : ¬ leftEarly s.pool m = true := by
    intro hleft
    rw [decided_of_leftEarly hleft] at h
    cases h
  unfold after
  rw [if_neg hstay, h]

/-- A move that decides on nothing leaves the polls. -/
theorem after_of_undecided (h : decided s.pool m = none) (hstay : leftEarly s.pool m = false) :
    s.after m = s.polls := by
  unfold after
  rw [hstay, h]
  rfl

/-- The contracts hold in every run. -/
theorem holds_of_reach {ok : Polling → Move sig → Prop}
    (h : Reach (step cfg) ok (start cfg) s) : (tickBase.both counting).Holds s.pool := by
  have hruns : Runs cfg (fun _ _ _ => True) s.pool := by
    refine Coop.Reach.of_machine Polling.pool (fun s m s' _ hm => ?_) h
    obtain ⟨henv, hfire⟩ := Option.ite_none_right_eq_some.mp hm
    obtain ⟨p, hp, rfl⟩ := Option.map_eq_some_iff.mp hfire
    exact .inr ⟨m, hp, henv, trivial⟩
  exact holds_of_ticks (counting_sound cfg fun _ _ _ h => h.1) ⟨Nat.zero_le _, nofun⟩ hruns

/-- What a move of a task does to the counter. -/
theorem counts_of_fire (hh : (tickBase.both counting).Holds p) (henv : environment p m = true)
    (hf : p.fire (body cfg) m = some p') {t : Nat} (ht : m.task = some t) :
    Counts p.world p'.world (decided p m) := by
  have hok : ∀ (p : Pool sig) m (p' : Pool sig), environment p m = true → environment p m = true :=
    fun _ _ _ h => h
  have hmay := ((tickBase_sound cfg hok).both (counting_sound cfg hok)).may_of_fire hh hf henv ht
  rw [← looked_of_fire hh hf ht]
  exact hmay.2.counts

/-- A move of no task leaves the counter, and is no poll. -/
theorem still_of_fire (henv : environment p m = true) (hf : p.fire (body cfg) m = some p')
    (ht : m.task = none) : p'.world.state.coldStartSeen = p.world.state.coldStartSeen ∧
      leftEarly p m = false ∧ decided p m = none ∧ ∀ n, calls p.world p'.world n = false := by
  cases m with
  | start t | answer t f | wake t => cases ht
  | arrive j =>
      cases hf
      exact ⟨rfl, rfl, rfl, fun n => calls_refl⟩
  | outside u =>
      cases hf
      obtain ⟨time, mono, rfl⟩ := clock_of_environment henv
      exact ⟨rfl, rfl, rfl, fun n => calls_refl⟩
  | land t r | resend t r =>
      cases hf
      refine ⟨rfl, rfl, rfl, fun n => ?_⟩
      rw [calls_record (le_refl _), calls_refl]
      rfl

/-- The counter after a decision. -/
theorem seen_of_decided {q : Node} (hcounts : Counts p.world p'.world (some views))
    (hq : p.world.state.primary = some q) (hone : p'.world.state.coldStartSeen = 1) :
    (∃ n, coldStartChoice views p.world.state.members (some q) = .promote n) ∨
      (∃ reason, coldStartChoice views p.world.state.members (some q) = .halt reason) ∧
        p.world.state.coldStartSeen = 1 := by
  have hseen := (hcounts.2 q hq).1
  rw [hone] at hseen
  unfold counted at hseen
  split at hseen
  · rename_i reason hc
    exact .inr ⟨⟨reason, hc⟩, hseen.symm⟩
  · cases hseen
  · rename_i n hc
    exact .inl ⟨n, hc⟩

/-- Every move keeps it. -/
theorem Stands.step (h : s.Stands) (hh : (tickBase.both counting).Holds s.pool)
    (hok : Agrees s m) (hm : s.step cfg m = some s') : s'.Stands := by
  obtain ⟨henv, hfire⟩ := Option.ite_none_right_eq_some.mp hm
  obtain ⟨p, hp, rfl⟩ := Option.map_eq_some_iff.mp hfire
  intro hone
  cases ht : m.task with
  | none =>
      obtain ⟨hseen, hstay, hundecided, -⟩ := still_of_fire henv hp ht
      rw [after_of_undecided hundecided hstay]
      exact h (hseen.symm.trans hone)
  | some t =>
      have hcounts := counts_of_fire hh henv hp ht
      cases hdecided : decided s.pool m with
      | none =>
          rw [hdecided] at hcounts
          have hbefore : s.state.coldStartSeen = 1 := hcounts.1.symm.trans hone
          rw [after_of_undecided hdecided (hok hbefore).1]
          exact h hbefore
      | some views =>
          rw [hdecided] at hcounts
          rw [after_of_decided hdecided]
          cases hq : s.state.primary with
          | none =>
              -- Without a primary the counter does not stand.
              have hbefore : s.state.coldStartSeen = 1 := (hcounts.1 hq).symm.trans hone
              have hsome : s.state.primary.isSome = true := hh.inv.2.2 hbefore
              rw [hq] at hsome
              cases hsome
          | some q =>
              have hchosen : s.state.chosen views =
                  some (q, coldStartChoice views s.state.members (some q)) := by
                rw [Ctl.chosen, hq]
                rfl
              rcases seen_of_decided hcounts hq hone with ⟨n, hc⟩ | ⟨⟨reason, hc⟩, hbefore⟩
              · refine ⟨q, n, s.polls, ?_⟩
                rw [hchosen]
                exact congrArg (fun c => some (q, c) :: s.polls) hc
              · -- A halt while the counter stands does not meet the condition.
                obtain ⟨q', n, rest, hpolls⟩ := h hbefore
                have hagrees := (hok hbefore).2 views hdecided _ hchosen
                rw [show coldStartChoice views s.state.members (some q) = .halt reason from hc]
                  at hagrees
                rcases hagrees with hno | hlast
                · cases hno
                · rw [lastPick, hpolls] at hlast
                  cases hlast

/-- In a run whose polls agree, the counter stands for the last one. -/
theorem stands_of_reach (h : Reach (step cfg) Agrees (start cfg) s) : s.Stands :=
  Reach.invariant (I := Stands) h (fun hone => by cases hone) fun _ _ _ hrun hi hok hm =>
    hi.step (holds_of_reach hrun) hok hm

/-- A tick with a believed primary calls `cold_start` only on two polls in a row that chose the
node for this primary. -/
theorem called_of_agrees (h : Reach (step cfg) Agrees (start cfg) s) (hok : Agrees s m)
    (hm : s.step cfg m = some s') {q n : Node} (hq : s.state.primary = some q)
    (hcalled : called s.pool s'.pool n = true) :
    ∃ rest, s'.polls = some (q, .promote n) :: some (q, .promote n) :: rest := by
  -- The invariant of the run, and then what this one step did.
  have hh := holds_of_reach h
  obtain ⟨henv, hfire⟩ := Option.ite_none_right_eq_some.mp hm
  obtain ⟨p, hp, rfl⟩ := Option.map_eq_some_iff.mp hfire
  obtain ⟨hop, hcall⟩ := Bool.and_eq_true_iff.mp hcalled
  have hcall : calls s.pool.world p.world n = true := hcall
  cases ht : m.task with
  -- A step that is no task's calls nobody.
  | none =>
      rw [(still_of_fire henv hp ht).2.2.2 n] at hcall
      cases hcall
  | some t =>
      have hcounts := counts_of_fire hh henv hp ht
      cases hdecided : decided s.pool m with
      -- No poll was decided on in this step, so nobody was called.
      | none =>
          rw [hdecided] at hcounts
          rw [hcounts.2 (by simpa using hop) n] at hcall
          cases hcall
      | some views =>
          rw [hdecided] at hcounts
          -- The step decided to promote `n`, and the counter was not at zero.
          obtain ⟨hc, hne⟩ := (hcounts.2 q hq).2 n hcall
          have hone : s.state.coldStartSeen = 1 := by
            have hle : s.pool.world.state.coldStartSeen ≤ 1 := hh.inv.2.1
            exact Nat.le_antisymm hle (Nat.one_le_iff_ne_zero.mpr hne)
          have hchosen : s.state.chosen views = some (q, .promote n) := by
            rw [Ctl.chosen, hq]
            exact congrArg (fun c => some (q, c)) hc
          -- So the poll before chose a node, and it is still remembered.
          obtain ⟨q', n', rest, hpolls⟩ := stands_of_reach h hone
          -- A pick of nothing is no pick of `n`; otherwise the two polls agree.
          rcases (hok hone).2 views hdecided _ hchosen with hno | hlast
          · cases hno
          · -- The last poll that chose a node is the last poll.
            have hlast' : s.lastPick = some (q', .promote n') := by
              rw [lastPick, hpolls]
              rfl
            obtain ⟨rfl, hn⟩ := Prod.mk.inj (Option.some.inj (hlast'.symm.trans hlast))
            refine ⟨rest, ?_⟩
            rw [after_of_decided hdecided, hchosen, hpolls, hn]

end

/-! ### Runs -/

instance (s : Polling) (m : Move sig) : Decidable (Agrees s m) :=
  inferInstanceAs (Decidable (s.state.coldStartSeen = 1 → leftEarly s.pool m = false ∧
    ∀ views ∈ decided s.pool m, ∀ x ∈ s.state.chosen views, x.2 = .no ∨ s.lastPick = some x))

/-- `a` after a reboot, with `u:1-n` executed. -/
def rebooted (n : Int) : Except String StatusBody :=
  .ok { mysqldAlive := true, mysqldResponsive := true, superReadOnly := some true
        gtidExecuted := upTo n }

/-- The whole set has restarted, and `b` holds `u:1-n`. -/
def allBooted (n : Int) : Node → Except String StatusBody := fun node =>
  if node = "a" then rebooted 5
  else if node = "b" then replicaStatus "a" n n
  else if node = "c" then replicaStatus "a" 5 5
  else down

/-- Tick `t` polls. -/
def poll (t : Nat) (view : Node → Except String StatusBody) : List (Move sig) :=
  [.arrive .tick, .start t, .answer t (succeed true view)]

/-- A first poll after the restart. The second one is out. -/
def polledOnce : Polling :=
  Machine.run (step fleet) (start fleet)
    (poll 0 settled ++ poll 1 (allBooted 5) ++ [.arrive .tick, .start 2])

/-- Two polls that agree call the node that both chose. -/
theorem called_of_agrees_twice :
    ∃ rest, (Machine.run (step fleet) polledOnce [.answer 2 (succeed true (allBooted 5))]).polls =
      some ("a", .promote "a") :: some ("a", .promote "a") :: rest :=
  called_of_agrees
    (Machine.reach_run_of_obeys (by decide +kernel) (by decide +kernel)) (by decide +kernel)
    (Machine.step_eq_run (by decide +kernel)) (by decide +kernel) (by decide +kernel)

/-- The first poll chooses `a`. The second one sees that `b` holds more, chooses `b`, and `b` is
promoted on this poll alone. -/
theorem called_otherwise :
    Reach (step fleet) Machine.Free (start fleet) polledOnce ∧
      (polledOnce.step fleet (.answer 2 (succeed true (allBooted 6)))).any fun s' =>
        polledOnce.state.primary == some "a" && called polledOnce.pool s'.pool "b" &&
          s'.polls.take 2 == [some ("a", .promote "b"), some ("a", .promote "a")] :=
  ⟨Machine.reach_run (by decide +kernel), by decide +kernel⟩

end Polling

end DbGuard
