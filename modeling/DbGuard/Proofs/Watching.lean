import DbGuard.Proofs.Polls

/-!
# `DbGuard.Proofs.Watching`: what the tasks do to the history

Only the poll of a tick adds to the history, and whoever changes ctl.primary drops it (`Drops`).
A tick begins a failover in the segment in which it takes the lock, on the verdict that it finds
there (`Fails`). `watching` says both as a contract over the order of the ticks.
-/

set_option autoImplicit false

namespace DbGuard

open Coop (Prog Pool Move World Contract own)

namespace Watching

open Polling (firstStep firstStep_record firstStep_refl looked looked_record isAnswer
  Attends wp_tick_of_attends op_apply)

/-! ### The contract -/

/-- The poll that a segment begins with. -/
def polledIn (w₀ w : World sig) : Option (Option Node × List Node × PollAnswer) :=
  match firstStep w₀ w with
  | some (.answered _ (.observe primary ns) a) => some (primary, ns, a)
  | _ => none

/-- The history at the beginning of the segment, with the observation of its poll. -/
def Gathers (cfg : Config) (w₀ w : World sig) (l : List Observation) : Prop :=
  match polledIn w₀ w with
  | some (primary, ns, a) => ∃ ts keep,
    w.state.lastObs = some (cfg.observation primary ns a ts) ∧
      l = (w₀.state.observed (cfg.observation primary ns a ts) keep).history
  | none => l = w₀.state.history

/-- The history is gathered, or dropped. It is dropped when the primary changes. -/
def Drops (cfg : Config) (w₀ w : World sig) : Prop :=
  (∃ l, Gathers cfg w₀ w l ∧ w.state.history = l ∧ w.state.primary = w₀.state.primary) ∨
    w.state.history = []

/-- A poll. -/
def isAsk : Coop.Event sig → Bool
  | .issued _ _ (.observe _ _) _ => true
  | _ => false

/-- The segment finds that `old` is to be replaced. -/
structure Finds (cfg : Config) (t : Nat) (old : Node) (w₀ w : World sig) : Prop where
  look : (looked t w₀ w).isSome = true
  gathers : Gathers cfg w₀ w w.state.history
  primary : w.state.primary = some old
  members : w.state.members = w₀.state.members
  halted : w.state.halted = w₀.state.halted
  cooled : w.state.inCooldown = w₀.state.inCooldown
  cooldown : w.state.inCooldown = false
  dead : (evaluate w.state.history w.state.members cfg.params none).dead = true

/-- The segment begins the failover of `old`. -/
structure Fails (cfg : Config) (t : Nat) (old : Node) (w₀ w : World sig) : Prop
    extends Finds cfg t old w₀ w where
  opens : (w.log.drop w₀.log.length).any (opensFailover cfg old) = true

/-- Task `t` polls, in its first segment. -/
structure Asks (t : Nat) (w₀ w : World sig) (j : Job) (primary : Option Node) : Prop where
  job : j = .tick
  primary : primary = w.state.primary
  first : own t w₀.log = []
  live : t ∉ w.state.finished

/-- What a segment of task `t` does. -/
structure Watches (cfg : Config) (t : Nat) (w₀ w : World sig) : Prop where
  drops : Drops cfg w₀ w
  asks : ∀ j primary ns s, .issued t j (.observe primary ns) s ∈ w.log.drop w₀.log.length →
    Asks t w₀ w j primary
  begins : w₀.state.op ≠ some .failover → w.state.op = some .failover →
    ∃ old, Fails cfg t old w₀ w

/-- What the tasks do to the history. -/
def watching (cfg : Config) : Contract sig where
  inv _ := True
  rely _ _ _ := True
  allowed _ _ _ := True
  answers _ _ _ _ := True
  may := Watches cfg
  pre _ _ _ := True

section
variable {cfg : Config} {t : Nat} {j : Job} {w₀ w w' : World sig} {e : Coop.Event sig}
  {old : Node} {γ : Type} {m : M γ}

/-! ### Segments -/

/-- A record that is no answer leaves the poll of the segment. -/
theorem polledIn_record (hle : w₀.log.length ≤ w.log.length) (he : isAnswer e = false) :
    polledIn w₀ (w.record e) = polledIn w₀ w := by
  unfold polledIn
  rw [firstStep_record hle]
  cases firstStep w₀ w with
  | some e' => rfl
  | none =>
      cases e with
      | answered t' r a => cases he
      | created | issued | landed | resent | finished => rfl

/-- The poll of a segment is read off its log. -/
theorem polledIn_congr (hlog : w'.log = w.log) : polledIn w₀ w' = polledIn w₀ w := by
  unfold polledIn firstStep
  rw [hlog]

/-- A segment that has just begun has no poll. -/
theorem polledIn_refl : polledIn w w = none := by
  unfold polledIn
  rw [firstStep_refl]

/-- Nor has one that begins with the answer to another request. -/
theorem polledIn_answer {r : Req} {a : r.Resp} (hr : ∀ q ns, r ≠ .observe q ns) :
    polledIn w (w.answer t r a) = none := by
  have hfirst : firstStep w (w.answer t r a) = some (.answered t r a) := by
    rw [World.answer, firstStep_record (le_refl _), firstStep_refl]
    rfl
  unfold polledIn
  rw [hfirst]
  cases r with
  | observe q ns => exact absurd rfl (hr q ns)
  | _ => rfl

/-- A segment that begins with a poll. -/
theorem polledIn_poll {primary : Option Node} {ns : List Node} {a : PollAnswer} {u : Update} :
    polledIn w ((w.answer t (.observe primary ns) a).edit u) = some (primary, ns, a) := by
  have hfirst : firstStep w ((w.answer t (.observe primary ns) a).edit u) =
      some (.answered t (.observe primary ns) a) := by
    show firstStep w (w.record (.answered t (.observe primary ns) a)) = _
    rw [firstStep_record (le_refl _), firstStep_refl]
    rfl
  unfold polledIn
  rw [hfirst]

/-- What is gathered depends on the poll and on the last observation only. -/
theorem Gathers.congr {l : List Observation} (h : Gathers cfg w₀ w l)
    (hpoll : polledIn w₀ w' = polledIn w₀ w) (hobs : w'.state.lastObs = w.state.lastObs) :
    Gathers cfg w₀ w' l := by
  unfold Gathers
  rw [hpoll, hobs]
  exact h

/-- What is dropped depends on these and on the history only. -/
theorem Drops.congr (h : Drops cfg w₀ w) (hpoll : polledIn w₀ w' = polledIn w₀ w)
    (hobs : w'.state.lastObs = w.state.lastObs)
    (hsame : w'.state.history = w.state.history ∧ w'.state.primary = w.state.primary ∨
      w'.state.history = []) : Drops cfg w₀ w' := by
  rcases hsame with ⟨hhistory, hprimary⟩ | hnil
  · rcases h with ⟨l, hl, hh, hp⟩ | hnil
    · exact .inl ⟨l, hl.congr hpoll hobs, hhistory.trans hh, hprimary.trans hp⟩
    · exact .inr (hhistory.trans hnil)
  · exact .inr hnil

/-- A segment that has just begun drops nothing. -/
theorem Drops.refl : Drops cfg w w := by
  refine .inl ⟨w.state.history, ?_, rfl, rfl⟩
  unfold Gathers
  rw [polledIn_refl]

/-- Only a poll adds to the history, and a new primary drops it. -/
theorem history_apply {u : Update} (hu : ∀ ob keep, u ≠ .observed ob keep) (s : Ctl) :
    (u.apply s).history = s.history ∧ (u.apply s).primary = s.primary ∨
      (u.apply s).history = [] := by
  have hkeeps : ∀ (s : Ctl) st events, Ctl.history { s with st, events } = s.history :=
    fun _ _ _ => rfl
  cases u with
  | goTo new note emit detect =>
      exact .inl ⟨goTo_keeps hkeeps s new note emit detect,
        (goTo_same s new note emit detect).primary⟩
  | halt reason =>
      exact .inl ⟨goTo_keeps hkeeps s .halted (some reason) true none,
        (goTo_same s .halted (some reason) true none).primary⟩
  | resume => exact .inl ⟨resume_keeps hkeeps s, (resume_same s).primary⟩
  | observed ob keep => exact absurd rfl (hu ob keep)
  | setPrimary | clearHistory => exact .inr rfl
  | _ => exact .inl ⟨rfl, rfl⟩

/-- A segment so far that asks for no poll. -/
structure Silent (cfg : Config) (w₀ w : World sig) : Prop where
  log : w₀.log.length ≤ w.log.length
  drops : Drops cfg w₀ w
  unasked : ∀ e ∈ w.log.drop w₀.log.length, isAsk e = false

namespace Silent

/-- A segment that has just begun is silent. -/
theorem refl : Silent cfg w w := ⟨le_refl _, .refl, by simp⟩

/-- A change that files no observation. -/
theorem edit {u : Update} (h : Silent cfg w₀ w) (hu : ∀ ob keep, u ≠ .observed ob keep) :
    Silent cfg w₀ (w.edit u) where
  log := h.log
  drops := h.drops.congr (polledIn_congr rfl) (lastObs_apply hu w.state)
    (history_apply hu w.state)
  unasked := h.unasked

/-- A step that is neither a poll nor an answer. -/
theorem record (h : Silent cfg w₀ w) (he : isAnswer e = false) (hask : isAsk e = false) :
    Silent cfg w₀ (w.record e) where
  log := le_trans h.log (List.prefix_append w.log [e]).length_le
  drops := h.drops.congr (polledIn_record h.log he) rfl (.inl ⟨rfl, rfl⟩)
  unasked := by
    show ∀ x ∈ (w.log ++ [e]).drop w₀.log.length, _
    rw [List.drop_append_of_le_length h.log]
    intro x hx
    rcases List.mem_append.mp hx with hx | hx
    · exact h.unasked x hx
    · rw [List.mem_singleton.mp hx]
      exact hask

/-- A task that it creates. -/
theorem spawn {j' : Job} (h : Silent cfg w₀ w) : Silent cfg w₀ (w.spawn t j') := by
  have hcreated := h.record (e := .created t j' w.jobs.length) rfl rfl
  refine ⟨hcreated.log, hcreated.drops.congr (polledIn_congr rfl) rfl (.inl ⟨rfl, rfl⟩),
    hcreated.unasked⟩

/-- The answer to any request but a poll. -/
theorem answered {r : Req} {a : r.Resp} (hr : ∀ q ns, r ≠ .observe q ns) :
    Silent cfg w (w.answer t r a) where
  log := (List.prefix_append w.log [_]).length_le
  drops := by
    have hsame : Drops cfg w w := .refl
    refine hsame.congr ?_ rfl (.inl ⟨rfl, rfl⟩)
    rw [polledIn_answer hr, polledIn_refl]
  unasked := by
    rw [World.answer_log, List.drop_left]
    intro x hx
    rw [List.mem_singleton.mp hx]
    rfl

/-- A silent segment is one that asks for nothing. -/
theorem may (h : Silent cfg w₀ w) (hbegins : w₀.state.op ≠ some .failover →
    w.state.op = some .failover → ∃ old, Fails cfg t old w₀ w) : Watches cfg t w₀ w where
  drops := h.drops
  asks j primary ns s hissued := by
    have hask := h.unasked _ hissued
    cases hask
  begins := hbegins

end Silent

/-! ### Segments that begin no failover -/

/-- A segment so far that begins no failover. -/
structure Plain (cfg : Config) (w₀ w : World sig) : Prop extends Silent cfg w₀ w where
  op : w.state.op = some .failover → w₀.state.op = some .failover

/-- Only `enter` makes a failover the operation in progress. -/
theorem op_of_apply {u : Update} (henter : u ≠ .enter .failover) {s : Ctl}
    (h : (u.apply s).op = some .failover) : s.op = some .failover := by
  by_cases hrelease : u = .release
  · subst hrelease
    cases h
  · by_cases hother : ∃ op, u = .enter op
    · obtain ⟨op, rfl⟩ := hother
      exact absurd (congrArg Update.enter (Option.some.inj h)) henter
    · rwa [op_apply (fun op heq => hother ⟨op, heq⟩) hrelease] at h

/-- What a task does that neither polls nor begins a failover. -/
structure Calm (V : Vocabulary) : Prop where
  edits : ∀ ob keep, ¬ V.edits (.observed ob keep)
  enters : ¬ V.edits (.enter .failover)
  awaits : ∀ q ns, ¬ V.awaits (.observe q ns)

namespace Plain

/-- A segment that has just begun begins no failover. -/
theorem refl : Plain cfg w w := ⟨.refl, fun h => h⟩

/-- It is within what the contract allows. -/
theorem may (h : Plain cfg w₀ w) : Watches cfg t w₀ w :=
  h.toSilent.may fun hne hop => absurd (h.op hop) hne

/-- A change that files no observation and does not enter a failover. -/
theorem edit {u : Update} (h : Plain cfg w₀ w) (hu : ∀ ob keep, u ≠ .observed ob keep)
    (henter : u ≠ .enter .failover) : Plain cfg w₀ (w.edit u) :=
  ⟨h.toSilent.edit hu, fun hop => h.op (op_of_apply henter hop)⟩

/-- A task that it creates. -/
theorem spawn {j' : Job} (h : Plain cfg w₀ w) : Plain cfg w₀ (w.spawn t j') :=
  ⟨h.toSilent.spawn, h.op⟩

end Plain

/-- A calm vocabulary keeps a segment plain. -/
theorem plain_kept {V : Vocabulary} (hV : Calm V) :
    V.Kept (tickBase.upon (watching cfg)) t j (Plain cfg) where
  edit h hu := h.edit (fun ob keep heq => hV.edits ob keep (heq ▸ hu))
    fun heq => hV.enters (heq ▸ hu)
  await {w₀ w r} h hr _ := by
    have hne : ∀ q ns, r ≠ .observe q ns := fun q ns heq => hV.awaits q ns (heq ▸ hr)
    have hask : isAsk (.issued t j r w.state) = false := by
      cases r with
      | observe q ns => exact absurd rfl (hne q ns)
      | _ => rfl
    have hissued : Plain cfg w₀ (w.issue t j r) := ⟨h.toSilent.record rfl hask, h.op⟩
    exact ⟨hissued.may, fun w' a _ _ _ => ⟨.answered hne, fun hop => hop⟩⟩
  create h _ := h.spawn
  nodeTask h _ _ := h.spawn.edit (by simp) (by simp)
  maint h _ _ := h.spawn.edit (by simp) (by simp)
  join h _ _ := h.edit (by simp) (by simp)
  block _ h _ := ⟨h.may, fun w' _ _ _ => .refl⟩

/-- So a program of calm words does. -/
theorem wp_plain {V : Vocabulary} (hV : Calm V) (hm : Speaks V m) (h : Plain cfg w₀ w) :
    m.wp (tickBase.upon (watching cfg)) t j (fun _ w₀ w => Plain cfg w₀ w) w₀ w :=
  (plain_kept hV).wp hm h

/-- Cold start, bootstrap and discovery are calm. -/
theorem cold_calm : Calm coldVocabulary where
  edits _ _ h := h
  enters h := by rcases h with h | h <;> cases h
  awaits _ _ h := h

/-- The rest of a tick is calm. -/
theorem tick_calm : Calm (tickVocabulary cfg) := ⟨fun _ _ h => h, fun h => h, fun _ _ h => h⟩

/-- The repair is calm. -/
theorem mend_calm : Calm mendVocabulary := ⟨fun _ _ h => h, fun h => h, fun _ _ h => h⟩

/-- Only a tick polls and begins a failover. -/
theorem task_calm (hj : j ≠ .tick) : Calm (taskVocabulary cfg t j) := by
  cases j with
  | tick => exact absurd rfl hj
  | switchover target =>
      refine ⟨fun _ _ h => h.elim id id, fun h => ?_, fun _ _ h => h.elim id id⟩
      rcases h with h | h
      · cases h
      · exact h
  | rejoin | rebuildAndJoin | replace =>
      exact ⟨fun _ _ h => h.elim id id, fun h => h.elim id id, fun _ _ h => h.elim id id⟩
  | _ => exact ⟨fun _ _ h => h, fun h => h, fun _ _ h => h⟩

/-! ### A failover -/

/-- A segment so far of a failover after its first one. -/
structure Leads (cfg : Config) (t : Nat) (w₀ w : World sig) : Prop extends Silent cfg w₀ w where
  owner : w.state.lock.owner = some t
  was : w₀.state.op = some .failover
  op : w.state.op = some .failover

/-- A failover after its first segment begins none. -/
theorem Leads.plain (h : Leads cfg t w₀ w) : Plain cfg w₀ w := ⟨h.toSilent, fun _ => h.was⟩

/-- A failover goes on when its task does. -/
theorem leads_next (howner : w.state.lock.owner = some t) (hop : w.state.op = some .failover)
    (hr : (tickBase.upon (watching cfg)).rely t w w') : Leads cfg t w' w' := by
  have hsees : Sees t w w' := hr.1.1.2
  have hop' : w'.state.op = some .failover := (hsees.op howner).trans hop
  exact ⟨.refl, hsees.owner.mpr howner, hop', hop'⟩

/-- An answer to it. -/
theorem Leads.answered {r : Req} {a : r.Resp} (h : Leads cfg t w w)
    (hr : ∀ q ns, r ≠ .observe q ns) : Leads cfg t w (w.answer t r a) :=
  ⟨.answered hr, h.owner, h.was, h.op⟩

/-- Its words leave the history and the polls alone. -/
theorem leads_kept : failoverVocabulary.Kept (tickBase.upon (watching cfg)) t j (Leads cfg t) where
  edit {w₀ w u} h hu := by
    -- A failover stores no observation.
    have hobserved : ∀ ob keep, u ≠ .observed ob keep := by
      intro ob keep heq
      rw [heq] at hu
      exact hu
    refine ⟨h.toSilent.edit hobserved,
      (held_owner ((failoverVocabulary_le cfg).edits u hu) w.state).1.trans h.owner, h.was, ?_⟩
    -- Entering the failover is the one edit that writes the operation.
    by_cases henter : ∃ op, u = .enter op
    · obtain ⟨op, rfl⟩ := henter
      have hop : op = .failover := hu
      rw [hop]
      rfl
    · have hrelease : u ≠ .release := by
        intro heq
        rw [heq] at hu
        exact hu
      exact (op_apply (fun op heq => henter ⟨op, heq⟩) hrelease w.state).trans h.op
  await {w₀ w r} h hr _ := by
    -- Nor does it poll, so its requests ask for no node's state.
    have hne : ∀ q ns, r ≠ .observe q ns := by
      intro q ns heq
      rw [heq] at hr
      exact hr
    have hask : isAsk (.issued t j r w.state) = false := by
      cases r with
      | observe q ns => exact absurd rfl (hne q ns)
      | _ => rfl
    have hissued : Leads cfg t w₀ (w.issue t j r) :=
      ⟨h.toSilent.record rfl hask, h.owner, h.was, h.op⟩
    exact ⟨hissued.plain.may,
      fun w' a _ hrely _ => (leads_next hissued.owner hissued.op hrely).answered hne⟩
  create h _ := ⟨h.toSilent.spawn, h.owner, h.was, h.op⟩
  nodeTask _ h _ := h.elim
  maint _ h _ := h.elim
  join _ h _ := h.elim
  block _ h _ := ⟨h.plain.may, fun w' _ hrely _ => leads_next h.owner h.op hrely⟩

/-! ### The first segment of a failover -/

/-- The changes of a tick before it decides. -/
def Minor : Update → Prop
  | .stallSince _ | .event _ | .coldStartSeen _ => True
  | _ => False

/-- A segment so far of a tick that has taken the lock to decide on its poll. -/
structure Ready (cfg : Config) (t : Nat) (w₀ w : World sig) : Prop extends Silent cfg w₀ w where
  look : (looked t w₀ w).isSome = true
  gathers : Gathers cfg w₀ w w.state.history
  st : w.state.st = w₀.state.st
  time : w.state.time = w₀.state.time
  members : w.state.members = w₀.state.members
  owner : w.state.lock.owner = some t
  op : w.state.op = none

/-- A tick that is about to decide has begun no failover. -/
theorem Ready.plain (h : Ready cfg t w₀ w) : Plain cfg w₀ w :=
  ⟨h.toSilent, fun hop => by rw [h.op] at hop; cases hop⟩

/-- A minor change before it decides. -/
theorem Ready.edit {u : Update} (h : Ready cfg t w₀ w) (hu : Minor u) :
    Ready cfg t w₀ (w.edit u) := by
  have hobserved : ∀ ob keep, u ≠ .observed ob keep := by
    intro ob keep heq
    rw [heq] at hu
    exact hu
  have hlook : looked t w₀ (w.edit u) = looked t w₀ w := rfl
  cases u with
  | stallSince | event | coldStartSeen =>
      exact ⟨h.toSilent.edit hobserved, hlook ▸ h.look, h.gathers.congr (polledIn_congr rfl) rfl,
        h.st, h.time, h.members, h.owner, h.op⟩
  | _ => exact hu.elim

/-- A segment so far of a tick that begins the failover of `old`. -/
structure Begun (cfg : Config) (t : Nat) (old : Node) (w₀ w : World sig) : Prop
    extends Silent cfg w₀ w where
  finds : Finds cfg t old w₀ w
  owner : w.state.lock.owner = some t
  op : w.state.op = some .failover

/-- It has opened the failover. -/
structure Opened (cfg : Config) (t : Nat) (old : Node) (w₀ w : World sig) : Prop
    extends Begun cfg t old w₀ w where
  opens : (w.log.drop w₀.log.length).any (opensFailover cfg old) = true

/-- The first segment of a failover is within what the contract allows. -/
theorem Opened.may (h : Opened cfg t old w₀ w) : Watches cfg t w₀ w :=
  h.toSilent.may fun _ _ => ⟨old, h.finds, h.opens⟩

/-- A step that is neither a poll nor an answer. -/
theorem Begun.record (h : Begun cfg t old w₀ w) (he : isAnswer e = false)
    (hask : isAsk e = false) : Begun cfg t old w₀ (w.record e) :=
  { h.toSilent.record he hask with
    finds :=
      { h.finds with
        look := by rw [looked_record h.log he]; exact h.finds.look
        gathers := h.finds.gathers.congr (polledIn_record h.log he) rfl }
    owner := h.owner
    op := h.op }

/-- A task that arrives meanwhile. -/
theorem Begun.arrive {j' : Job} (h : Begun cfg t old w₀ w) : Begun cfg t old w₀ (w.arrive j') := by
  have hlook : looked t w₀ (w.arrive j') = looked t w₀ w := rfl
  exact
    { log := h.log
      drops := h.drops.congr (polledIn_congr rfl) rfl (.inl ⟨rfl, rfl⟩)
      unasked := h.unasked
      finds :=
        { h.finds with
          look := hlook ▸ h.finds.look
          gathers := h.finds.gathers.congr (polledIn_congr rfl) rfl }
      owner := h.owner
      op := h.op }

/-- A record opens a failover if it is the event of its start. -/
theorem opens_record (hle : w₀.log.length ≤ w.log.length) :
    ((w.record e).log.drop w₀.log.length).any (opensFailover cfg old) =
      ((w.log.drop w₀.log.length).any (opensFailover cfg old) || opensFailover cfg old e) := by
  show ((w.log ++ [e]).drop w₀.log.length).any (opensFailover cfg old) = _
  rw [List.drop_append_of_le_length hle, List.any_append]
  simp

/-- The step that opens it. -/
theorem Begun.opened (h : Begun cfg t old w₀ w) (he : isAnswer e = false) (hask : isAsk e = false)
    (hopens : opensFailover cfg old e = true) : Opened cfg t old w₀ (w.record e) :=
  { h.record he hask with
    opens := by rw [opens_record h.log, hopens, Bool.or_true] }

/-- A record of the first segment, neither an answer nor a poll. -/
theorem Opened.record (h : Opened cfg t old w₀ w) (he : isAnswer e = false)
    (hask : isAsk e = false) : Opened cfg t old w₀ (w.record e) :=
  { h.toBegun.record he hask with
    opens := by rw [opens_record h.log, h.opens, Bool.true_or] }

/-- HALTED is left and entered by no move to FAILING_OVER. -/
theorem halted_goTo_failingOver (s : Ctl) (note : Option String) (emit : Bool)
    (detect : Option Detect) : (s.goTo .failingOver note emit detect).halted = s.halted := by
  unfold Ctl.goTo Ctl.halted
  dsimp only
  split
  · rfl
  · split
    · rfl
    · rename_i hhalted
      rw [if_neg (by simp)]
      have hs : (s.st.state == .halted) = false := by simpa using hhalted
      split
      · rename_i hevent
        cases hevent
      · exact hs.symm

/-- `start`. -/
theorem Ready.begun (h : Ready cfg t w₀ w) (hold : w.state.primary = some old)
    (hdead : (evaluate w.state.history w.state.members cfg.params none).dead = true)
    (hcool : w.state.inCooldown = false) : Begun cfg t old w₀
      ((w.edit (.enter .failover)).edit (.goTo .failingOver none false none)) := by
  -- Entering and going to another mode write the mode and the operation only.
  have hsame := goTo_same { w.state with op := some .failover } .failingOver none false none
  have hmembers := members_goTo { w.state with op := some .failover } .failingOver none false none
  have hhistory := goTo_keeps (f := Ctl.history) (fun _ _ _ => rfl)
    { w.state with op := some .failover } .failingOver none false none
  have hobs := goTo_keeps (f := Ctl.lastObs) (fun _ _ _ => rfl)
    { w.state with op := some .failover } .failingOver none false none
  have hcooldown :=
    inCooldown_goTo { w.state with op := some .failover } .failingOver none false none
  have hhalted := halted_goTo_failingOver { w.state with op := some .failover } none false none
  have hst : w.state.halted = w₀.state.halted := by rw [Ctl.halted, h.st, Ctl.halted]
  have hcooled : w.state.inCooldown = w₀.state.inCooldown := by
    rw [Ctl.inCooldown, h.st, h.time, Ctl.inCooldown]
  exact
    -- Silent since the observation, and every finding is read off fields that stay.
    { (h.toSilent.edit (u := .enter .failover) (by simp)).edit
        (u := .goTo .failingOver none false none) (by simp) with
      finds :=
        { look := h.look
          gathers := by
            show Gathers cfg w₀ _ (Ctl.goTo { w.state with op := some .failover } _ _ _ _).history
            rw [hhistory]
            exact h.gathers.congr (polledIn_congr rfl) hobs
          primary := hsame.primary.trans hold
          members := hmembers.trans h.members
          halted := hhalted.trans hst
          cooled := hcooldown.trans hcooled
          cooldown := hcooldown.trans hcool
          -- The verdict is evaluated over the same history and the same members.
          dead := by
            show (evaluate (Ctl.goTo { w.state with op := some .failover } _ _ _ _).history
              (Ctl.goTo { w.state with op := some .failover } _ _ _ _).members _ _).dead = true
            rw [hhistory, hmembers]
            exact hdead }
      owner := hsame.owner.trans h.owner
      op := hsame.op }

/-- A failover that is about to look at the other members. -/
def Looks (cfg : Config) (t : Nat) (old : Node) (run : Run) (w₀ w : World sig) : Prop :=
  Leads cfg t w₀ w ∨ Opened cfg t old w₀ w ∨
    cfg.mode = .naive ∧ Begun cfg t old w₀ w ∧ run.others = w.state.members.filter (· ≠ old)

/-- The fence and the stops leave the primary and the members as the failover found them. -/
theorem wp_fenceAndStopIo {run : Run} (h : Begun cfg t old w₀ w) (hold : run.old = old)
    (hothers : run.others = w.state.members.filter (· ≠ old)) :
    (run.fenceAndStopIo cfg).wp (tickBase.upon (watching cfg)) t .tick
      (fun r w₀ w => Looks cfg t old r.1 w₀ w) w₀ w := by
  unfold Run.fenceAndStopIo
  split
  -- A mode without fencing: nothing is opened here.
  · rename_i hmode
    exact .inr (.inr ⟨hmode, h, hothers⟩)
  · rename_i hmode
    -- The fence that is spawned is what opens the failover.
    have hopens : opensFailover cfg old (.created t (.fence run.old) w.jobs.length) = true := by
      rw [hold, opensFailover, hmode]
      simp
    have hopened : Opened cfg t old w₀ (w.spawn t (.fence run.old)) :=
      h.arrive.opened rfl rfl hopens
    rw [wp_create, wp_look]
    unfold stopIoThreads
    split
    · rw [bind_assoc, wp_await]
      intro _
      -- The request to stop the IO threads, and its answer.
      have hissued := hopened.record (e := .issued t .tick
        (.stopIo (Run.toStop w.state run.others)) w.state) rfl rfl
      refine ⟨hissued.may, fun w' a _ hr _ => ?_⟩
      have hleads := (leads_next hissued.owner hissued.op hr).answered
        (r := .stopIo (Run.toStop w.state run.others)) (a := a) nofun
      refine Prog.wp_mono (fun _ _ _ hl => Or.inl hl) _ _ _ (leads_kept.wp ?_ hleads)
      refine speaks_bind (speaks_pure _) fun ioStop => ?_
      dsimp only
      split
      · exact speaks_pure _
      · exact speaks_bind ((fenceDone_speaks _).mono leadVocabulary_le) fun _ => speaks_pure _
    -- Nothing is stopped, so the failover goes on from the spawn.
    · exact .inr (.inl hopened)

/-- From the choice of the winner on, the failover only leads. -/
theorem wp_chooseWinner {run : Run} (h : Looks cfg t old run w₀ w)
    (ioStop : List (Node × Option ErrorText)) :
    (run.chooseWinner cfg ioStop).wp (tickBase.upon (watching cfg)) t .tick
      (fun _ w₀ w => Leads cfg t w₀ w) w₀ w := by
  -- It has opened the failover, or this look does.
  have hstep : Opened cfg t old w₀ (w.issue t .tick (.freshViews run.others)) →
      (run.chooseWinner cfg ioStop).wp (tickBase.upon (watching cfg)) t .tick
        (fun _ w₀ w => Leads cfg t w₀ w) w₀ w := by
    intro hissued
    unfold Run.chooseWinner freshViews
    rw [bind_assoc, wp_await]
    intro _
    refine ⟨hissued.may, fun w' a _ hr _ => leads_kept.wp ?_
      ((leads_next hissued.owner hissued.op hr).answered nofun)⟩
    refine speaks_bind (speaks_pure _) fun views => ?_
    dsimp only
    split
    · refine speaks_bind ((awaitFence_speaks _).mono leadVocabulary_le) fun run => ?_
      exact speaks_bind ((finish_speaks run _ _ _).mono leadVocabulary_le) fun _ => speaks_pure _
    · exact speaks_pure _
  rcases h with h | h | ⟨hmode, h, hothers⟩
  · exact leads_kept.wp ((chooseWinner_speaks cfg run ioStop).mono leadVocabulary_le) h
  · exact hstep (h.record rfl rfl)
  · refine hstep (h.opened rfl rfl ?_)
    rw [hothers, opensFailover, hmode]
    simp

/-- A failover may begin where the verdict is dead and the cooldown is through. -/
theorem wp_failover (h : Ready cfg t w₀ w) (hold : w.state.primary = some old)
    (hdead : (evaluate w.state.history w.state.members cfg.params none).dead = true)
    (hcool : w.state.inCooldown = false) (v : Verdict) :
    (failover cfg old v).wp (tickBase.upon (watching cfg)) t .tick
      (fun _ w₀ w => Plain cfg w₀ w) w₀ w := by
  have hmembers := members_goTo { w.state with op := some .failover } .failingOver none false none
  rw [failover_eq, Run.start, bind_assoc, wp_look, bind_assoc, wp_edit, bind_assoc, wp_edit,
    pure_bind]
  refine Prog.wp_seq (wp_fenceAndStopIo (h.begun hold hdead hcool) rfl ?_) fun r w₀ w hlooks => ?_
  · exact congrArg (List.filter _) hmembers.symm
  refine Prog.wp_seq (wp_chooseWinner hlooks r.2) fun r w₀ w hleads => ?_
  refine Prog.wp_mono (fun _ _ _ hl => Leads.plain hl) _ _ _ (leads_kept.wp ?_ hleads)
  exact carryOut_speaks_of cfg r.1 leadVocabulary_le (fun _ => trivial) (fun _ _ _ => nofun) r.2

/-! ### The tick -/

/-- The check for a stall leaves alone what the verdict is about. -/
theorem wp_checkStall {ob : Observation} (h : Ready cfg t w₀ w) (primary : Node) :
    (checkStall cfg ob primary).wp (tickBase.upon (watching cfg)) t .tick
      (fun _ w₀ w' => Ready cfg t w₀ w' ∧ w'.state.history = w.state.history ∧
        w'.state.members = w.state.members ∧ w'.state.primary = w.state.primary) w₀ w := by
  have hstall : ∀ since e, Ready cfg t w₀ ((w.edit (.stallSince since)).edit (.event e)) :=
    fun since e => (h.edit (u := .stallSince since) trivial).edit trivial
  unfold checkStall
  rw [wp_look]
  split
  · exact ⟨hstall _ _, rfl, rfl, rfl⟩
  · exact ⟨hstall _ _, rfl, rfl, rfl⟩
  · exact ⟨h, rfl, rfl, rfl⟩

/-- The cold start check begins no failover, and leaves the tick as it was unless it acts. -/
theorem wp_coldStartCheck {ob : Observation} (h : Ready cfg t w₀ w) :
    (coldStartCheck ob).wp (tickBase.upon (watching cfg)) t .tick
      (fun acted w₀ w' => Plain cfg w₀ w' ∧
        (acted = false → Ready cfg t w₀ w' ∧ w'.state.primary = w.state.primary)) w₀ w := by
  have hseen : ∀ k, Ready cfg t w₀ (w.edit (.coldStartSeen k)) := fun k => h.edit trivial
  unfold coldStartCheck
  rw [wp_look]
  split
  · rw [wp_edit]
    exact ⟨h.plain.edit (by simp) (by simp), nofun⟩
  · rw [wp_edit]
    exact ⟨(hseen _).plain, fun _ => ⟨hseen _, rfl⟩⟩
  · split
    · rw [wp_edit]
      exact ⟨(hseen _).plain, fun _ => ⟨hseen _, rfl⟩⟩
    · rw [wp_edit]
      refine Prog.wp_seq (wp_plain cold_calm (coldStart_speaks _ _) (hseen 0).plain)
        fun _ w₀ w h => ?_
      exact ⟨h, nofun⟩

/-- The decision of a tick. -/
theorem wp_act {ob : Observation} (h : Ready cfg t w₀ w) (hold : w.state.primary = some old)
    {v : Verdict} (hv : evaluate w.state.history w.state.members cfg.params none = v) :
    (act cfg ob old v).wp (tickBase.upon (watching cfg)) t .tick
      (fun _ w₀ w => Plain cfg w₀ w) w₀ w := by
  unfold act
  rw [wp_look]
  split
  · rename_i hdead
    split
    · split
      · exact h.plain
      · rw [wp_edit]
        have hlogged := h.plain.edit (u := .cooldownLogged true) (by simp) (by simp)
        exact hlogged.edit (by simp) (by simp)
    · rename_i hcool
      refine Prog.wp_seq (wp_failover h hold (hv ▸ hdead) (by simpa using hcool) v)
        fun _ _ _ hp => ?_
      exact hp
  · have hplain := h.plain.edit (u := .cooldownLogged false) (by simp) (by simp)
    rw [wp_edit]
    split
    · rw [wp_edit]
      have hsuspect : ∀ note, Plain cfg w₀ ((w.edit (.cooldownLogged false)).edit
          (.goTo .suspect note true (some v.detect))) := fun note => hplain.edit (by simp) (by simp)
      split
      · exact wp_plain mend_calm (rejoinActions_mends cfg ob).speaks (hsuspect _)
      · exact hsuspect _
    · exact wp_plain tick_calm (reconcile_speaks cfg old ob) hplain

/-- What a tick does under the lock: it begins a failover only on its verdict. -/
theorem wp_tickLocked {ob : Observation} (h : Ready cfg t w₀ w) :
    (tickLocked cfg ob).wp (tickBase.upon (watching cfg)) t .tick
      (fun _ w₀ w => Plain cfg w₀ w) w₀ w := by
  unfold tickLocked
  rw [wp_look]
  split
  · exact wp_plain cold_calm (discover_speaks cfg ob) h.plain
  · rename_i old hold
    refine Prog.wp_seq (wp_coldStartCheck h) fun acted w₀ w hchecked => ?_
    split
    · exact hchecked.1
    · rename_i hacted
      obtain ⟨h, hprimary⟩ := hchecked.2 (by simpa using hacted)
      rw [wp_look]
      refine Prog.wp_seq (wp_checkStall h old) fun _ w₀ w' hstall => ?_
      obtain ⟨h', hhistory, hmembers, hsame⟩ := hstall
      exact wp_act h' ((hsame.trans hprimary).trans hold) (by rw [hhistory, hmembers])

/-- The end of a segment. -/
theorem Plain.finish (h : Plain cfg w₀ w) : Watches cfg t w₀ (w.finish t) := by
  have hfinished : Silent cfg w₀ (w.record (.finished t w.state)) := h.toSilent.record rfl rfl
  refine ⟨hfinished.drops.congr rfl rfl (.inl ⟨rfl, rfl⟩), fun j primary ns s hissued => ?_,
    fun hne hop => absurd (h.op hop) hne⟩
  have hask := hfinished.unasked _ hissued
  cases hask

/-- What a tick keeps from its poll until it has the lock. -/
def Tracks (cfg : Config) (w₀ w : World sig) : Prop :=
  Silent cfg w₀ w ∧ Gathers cfg w₀ w w.state.history

/-- What a tick keeps from its poll survives its wait for the lock. -/
theorem tracks_attends : Attends cfg t (Tracks cfg) where
  refl w := by
    refine ⟨.refl, ?_⟩
    unfold Gathers
    rw [polledIn_refl]
  polled w primary ns a ts keep := by
    have hgathers : Gathers cfg w ((w.answer t (.observe primary ns) a).edit
        (.observed (cfg.observation primary ns a ts) keep))
        (w.state.observed (cfg.observation primary ns a ts) keep).history := by
      unfold Gathers
      rw [polledIn_poll]
      exact ⟨ts, keep, rfl, rfl⟩
    refine ⟨⟨(List.prefix_append w.log [_]).length_le, .inl ⟨_, hgathers, rfl, rfl⟩, ?_⟩, hgathers⟩
    rw [World.edit_log, World.answer_log, List.drop_left]
    intro x hx
    rw [List.mem_singleton.mp hx]
    rfl
  lock w₀ w u hu h := by
    rcases hu with rfl | rfl
    · exact ⟨h.1.edit (by simp), h.2.congr (polledIn_congr rfl) rfl⟩
    · exact ⟨h.1.edit (by simp), h.2.congr (polledIn_congr rfl) rfl⟩

/-- A tick that has polled. -/
theorem plain_of_polled (h : Polling.Polled w₀ w) (hs : Silent cfg w₀ w) : Plain cfg w₀ w := by
  obtain ⟨lastObs, history, lock, hsame⟩ := h.same
  refine ⟨hs, fun hop => ?_⟩
  rw [hsame] at hop
  exact hop

/-- A tick that takes the lock with its poll. -/
theorem ready_of_locks {ob : Observation} (h : Polling.Locks t ob w₀ w) (hs : Tracks cfg w₀ w) :
    Ready cfg t w₀ w := by
  obtain ⟨lastObs, history, lock, hsame⟩ := h.same
  exact
    { hs.1 with
      look := by
        rw [h.look]
        rfl
      gathers := hs.2
      st := by rw [hsame]
      time := by rw [hsame]
      members := by rw [hsame]
      owner := h.owner
      op := h.op }

/-- The poll of a tick. -/
theorem watches_ask {primary : Option Node} {ns : List Node} (hfirst : own t w.log = [])
    (hlive : t ∉ w.state.finished) (hprimary : primary = w.state.primary) :
    Watches cfg t w (w.issue t .tick (.observe primary ns)) := by
  refine ⟨Drops.refl.congr (polledIn_record (le_refl _) rfl) rfl (.inl ⟨rfl, rfl⟩),
    fun j primary' ns' s hissued => ?_, fun hne hop => absurd hop hne⟩
  rw [World.issue_log, List.drop_left] at hissued
  cases List.mem_singleton.mp hissued
  exact ⟨rfl, hprimary, hfirst, hlive⟩

/-- A tick. -/
theorem wp_tick (hj : w.jobs[t]? = some .tick) (hlive : t ∉ w.state.finished)
    (hfirst : own t w.log = []) :
    (tick cfg t).wp (tickBase.upon (watching cfg)) t .tick (fun _ w₀ w => Plain cfg w₀ w) w w := by
  refine wp_tick_of_attends tracks_attends (fun _ _ h hs => (plain_of_polled h.toPolled hs.1).may)
    (fun _ _ h hs => plain_of_polled h.toPolled hs.1) (fun ob w₀ w h hs => ?_) hj hlive
    (watches_ask hfirst hlive rfl)
  exact Prog.wp_seq (wp_tickLocked (ready_of_locks h hs)) fun _ w₀ w hp =>
    hp.edit (by simp) (by simp)

end

/-- Every task keeps the contract. -/
theorem watching_sound (cfg : Config) {ok : Pool sig → Move sig → Pool sig → Prop} :
    tickBase.SoundOver (watching cfg) (body cfg) ok where
  rely_refl _ _ := trivial
  rely_trans _ _ _ _ _ _ := trivial
  rely_of_may _ _ _ _ _ _ _ _ _ := trivial
  rely_arrive _ _ _ _ _ _ := trivial
  rely_outside _ _ _ _ _ _ := trivial
  rely_land _ _ _ _ _ _ _ := trivial
  rely_resend _ _ _ _ _ _ _ := trivial
  inv_may _ _ _ _ _ _ _ := trivial
  inv_arrive _ _ _ _ _ := trivial
  inv_outside _ _ _ _ _ := trivial
  inv_land _ _ _ _ _ _ := trivial
  inv_resend _ _ _ _ _ _ := trivial
  pre_rely _ _ _ _ _ _ _ := trivial
  pre_may _ _ _ _ _ _ _ _ _ _ _ := trivial
  pre_arrive _ _ _ _ _ := trivial
  allowed_start _ _ _ _ := trivial
  allowed_answer _ _ _ _ _ := trivial
  allowed_wake _ _ _ _ := trivial
  answers_ok _ _ _ _ _ _ _ _ := trivial
  body_wp t j w _ _ hj hpre _ := by
    by_cases htick : j = .tick
    · subst htick
      exact Prog.wp_mono (fun _ _ _ h _ => h.finish) _ _ _ (wp_tick hj hpre.2 hpre.1.1.2)
    · exact Prog.wp_mono (fun _ _ _ h _ => h.finish) _ _ _
        (wp_plain (task_calm htick) (body_speaks_task cfg t j) .refl)

end Watching

end DbGuard
