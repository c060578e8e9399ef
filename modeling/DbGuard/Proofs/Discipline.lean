import DbGuard.Coop.Frame
import DbGuard.Proofs.Operations

/-!
# `DbGuard.Proofs.Discipline`: the lock and the result of the fence

While a task holds the set's lock, no other task takes the lock from it, changes the primary
or the operation under way, posts a /promote, or records a failover. A fence task's result
is the answer of its own request. `discipline` says this as a contract, and
`discipline_sound` that all tasks of a controller keep it. `base` is the contract that the
proofs about single operations rely on.
-/

set_option autoImplicit false

namespace DbGuard

open Coop (Prog Pool Move World Contract Adds Grows frame)

/-- The failover events. -/
def Ctl.failovers (s : Ctl) : List Event := s.events.filter (·.type == .failover)

/-- Whether an event posts /promote. -/
def isPost : Coop.Event sig → Bool
  | .issued _ _ (.promote _) _ => true
  | _ => false

/-- The posts of /promote in a log. -/
def posts (log : List (Coop.Event sig)) : List (Coop.Event sig) := log.filter isPost

/-- A rebuild does not record its event as a failover. -/
def Job.Sane : Job → Prop
  | .rebuildAndJoin args => args.eventType ≠ .failover
  | _ => True

/-- What a suspended task `t` can rely on. -/
structure Sees (t : Nat) (w w' : World sig) : Prop where
  owner : w'.state.lock.owner = some t ↔ w.state.lock.owner = some t
  primary : w.state.lock.owner = some t → w'.state.primary = w.state.primary
  op : w.state.lock.owner = some t → w'.state.op = w.state.op
  failovers : w.state.lock.owner = some t → w'.state.failovers = w.state.failovers
  posts : w.state.lock.owner = some t → posts w'.log = posts w.log
  fenced : w'.state.fenced t = w.state.fenced t

/-- Task `f` is a fence task, and `r` is what it made of its answer. -/
def FencedBy (w : World sig) (f : Nat) (r : FenceResult) : Prop :=
  ∃ n a, w.jobs[f]? = some (.fence n) ∧ .answered f (.fence n) a ∈ w.log ∧ r = fenceResult a

/-- What a segment of task `t` does. -/
structure Does (t : Nat) (w₀ w : World sig) : Prop where
  others : ∀ t', t ≠ t' → Sees t' w₀ w
  op : w.state.lock.owner = none → w.state.op = none
  fenced : ∀ r, w.state.fenced t = some r → w₀.state.fenced t = some r ∨ FencedBy w t r
  created : ∀ (i : Nat) j, w₀.jobs.length ≤ i → w.jobs[i]? = some j → j.Sane

/-- What holds between any two segments. -/
structure Disciplined (w : World sig) : Prop where
  op : w.state.lock.owner = none → w.state.op = none
  owner : ∀ t, w.state.lock.owner = some t → t < w.jobs.length
  fenced : ∀ f r, w.state.fenced f = some r → FencedBy w f r

/-- The lock discipline. -/
def discipline : Contract sig where
  inv := Disciplined
  rely := Sees
  allowed _ _ _ := True
  answers _ _ _ _ := True
  may := Does
  pre t j w := w.state.lock.owner ≠ some t ∧ j.Sane

/-- The contract that all tasks keep. -/
def base : Contract sig := (frame sig).both discipline

/-- What a fence task made of its answer stays on record. -/
theorem FencedBy.mono {w w' : World sig} {f : Nat} {r : FenceResult}
    (hjobs : w.jobs <+: w'.jobs) (hlog : w.log <+: w'.log) (h : FencedBy w f r) :
    FencedBy w' f r := by
  obtain ⟨n, a, hj, ha, hr⟩ := h
  refine ⟨n, a, ?_, hlog.subset ha, hr⟩
  obtain ⟨l, hl⟩ := hjobs
  rw [← hl, List.getElem?_append_left (List.getElem?_eq_some_iff.mp hj).1, hj]

/-! ### Updates -/

/-- A change that leaves alone what the discipline is about. -/
structure Ctl.Same (s s' : Ctl) : Prop where
  owner : s'.lock.owner = s.lock.owner
  primary : s'.primary = s.primary
  op : s'.op = s.op
  failovers : s'.failovers = s.failovers
  fenced : s'.fenced = s.fenced

/-- Nothing changes. -/
theorem Ctl.Same.refl (s : Ctl) : s.Same s := ⟨rfl, rfl, rfl, rfl, rfl⟩

/-- An event of another type is no failover event. -/
theorem failovers_append (s : Ctl) (e : Event) (h : e.type ≠ .failover) :
    (s.append e).failovers = s.failovers := by
  have : (e.type == .failover) = false := by simpa using h
  simp [Ctl.failovers, Ctl.append, List.filter_append, this]

/-- So it changes nothing that the discipline is about. -/
theorem append_same (s : Ctl) (e : Event) (h : e.type ≠ .failover) : s.Same (s.append e) :=
  ⟨rfl, rfl, rfl, failovers_append s e h, rfl⟩

/-- No state has a failover event of its own. -/
theorem eventFor_ne_failover {state : State} {type : EventType}
    (h : Ctl.eventFor state = some type) : type ≠ .failover := by
  rintro rfl
  cases state <;> cases h

/-- A move to another state changes nothing that the discipline is about. -/
theorem goTo_same (s : Ctl) (new : State) (note : Option String) (emit : Bool)
    (detect : Option Detect) : s.Same (s.goTo new note emit detect) := by
  unfold Ctl.goTo
  dsimp only
  split
  · exact .refl s
  · split
    · exact .refl s
    · split
      · exact .refl s
      · split
        · rename_i htype
          exact ⟨rfl, rfl, rfl, failovers_append _ _ (eventFor_ne_failover htype), rfl⟩
        · exact ⟨rfl, rfl, rfl, rfl, rfl⟩

/-- A move to another state changes the state and the events alone. -/
theorem goTo_keeps {α : Type} {f : Ctl → α}
    (hf : ∀ (s : Ctl) st events, f { s with st, events } = f s) (s : Ctl) (new : State)
    (note : Option String) (emit : Bool) (detect : Option Detect) :
    f (s.goTo new note emit detect) = f s := by
  unfold Ctl.goTo
  dsimp only
  split
  · rfl
  · split
    · rfl
    · split
      · rfl
      · split <;> exact hf s _ _

/-- So does a resume. -/
theorem resume_keeps {α : Type} {f : Ctl → α}
    (hf : ∀ (s : Ctl) st events, f { s with st, events } = f s) (s : Ctl) : f s.resume = f s := by
  unfold Ctl.resume
  split
  · rfl
  · exact hf s _ _

/-- It leaves the members. -/
theorem members_goTo (s : Ctl) (new : State) (note : Option String) (emit : Bool)
    (detect : Option Detect) : (s.goTo new note emit detect).members = s.members :=
  goTo_keeps (f := Ctl.members) (fun _ _ _ => rfl) s new note emit detect

/-- It leaves the cooldown. -/
theorem cooldownUntil_goTo (s : Ctl) (new : State) (note : Option String) (emit : Bool)
    (detect : Option Detect) :
    (s.goTo new note emit detect).st.cooldownUntil = s.st.cooldownUntil := by
  unfold Ctl.goTo
  dsimp only
  split
  · rfl
  · split
    · rfl
    · split
      · rfl
      · split <;> rfl

/-- A move to another state is no end of a cooldown. -/
theorem inCooldown_goTo (s : Ctl) (new : State) (note : Option String) (emit : Bool)
    (detect : Option Detect) : (s.goTo new note emit detect).inCooldown = s.inCooldown := by
  have htime : (s.goTo new note emit detect).time = s.time :=
    goTo_keeps (f := Ctl.time) (fun _ _ _ => rfl) s new note emit detect
  rw [Ctl.inCooldown, Ctl.inCooldown, cooldownUntil_goTo, htime]

/-- A resume changes nothing that the discipline is about. -/
theorem resume_same (s : Ctl) : s.Same s.resume := by
  unfold Ctl.resume
  split
  · exact .refl s
  · exact ⟨rfl, rfl, rfl, failovers_append _ _ nofun, rfl⟩

/-- What any task may do at any time. -/
def openVocabulary : Vocabulary where
  edits
    | .setPrimary _ | .enter _ | .enqueue _ | .acquire _ | .release | .resolve _ _
    | .clock _ _ => False
    | .event e => e.type ≠ .failover
    | _ => True
  awaits
    | .promote _ => False
    | _ => True
  creates := Job.Sane
  nodeTasks _ := Job.Sane
  maints j _ := j.Sane
  joins _ := True

/-- Nor does any change that a task may make at any time. -/
theorem open_same {u : Update} (h : openVocabulary.edits u) (s : Ctl) : s.Same (u.apply s) := by
  cases u with
  | goTo new note emit detect => exact goTo_same s new note emit detect
  | halt reason => exact goTo_same s .halted (some reason) true none
  | resume => exact resume_same s
  | event e => exact append_same s e h
  | setPrimary | enter | enqueue | acquire | release | resolve | clock => exact h.elim
  | _ => exact ⟨rfl, rfl, rfl, rfl, rfl⟩

/-- The holder of the lock keeps it, and no fence result changes. -/
theorem held_owner {cfg : Config} {u : Update} (h : (heldVocabulary cfg).edits u) (s : Ctl) :
    (u.apply s).lock.owner = s.lock.owner ∧ (u.apply s).fenced = s.fenced := by
  cases u with
  | goTo new note emit detect =>
      exact ⟨(goTo_same s new note emit detect).owner, (goTo_same s new note emit detect).fenced⟩
  | halt reason =>
      exact ⟨(goTo_same s .halted (some reason) true none).owner,
        (goTo_same s .halted (some reason) true none).fenced⟩
  | resume | observed | clearHistory | clearBackoff | addMember | startMaint | clearBusy
  | nodeTask | cancel | unstickStart | unstickCall | unstickStill | enqueue | acquire | release
  | resolve | clock => exact h.elim
  | _ => exact ⟨rfl, rfl⟩

/-! ### Segments -/

namespace Sees

/-- Nothing happens to a suspended task. -/
theorem refl (t : Nat) (w : World sig) : Sees t w w :=
  ⟨Iff.rfl, fun _ => rfl, fun _ => rfl, fun _ => rfl, fun _ => rfl, rfl⟩

/-- What it relies on holds over several moves. -/
theorem trans {t : Nat} {w₁ w₂ w₃ : World sig} (h : Sees t w₁ w₂) (h' : Sees t w₂ w₃) :
    Sees t w₁ w₃ where
  owner := h'.owner.trans h.owner
  primary ho := (h'.primary (h.owner.mpr ho)).trans (h.primary ho)
  op ho := (h'.op (h.owner.mpr ho)).trans (h.op ho)
  failovers ho := (h'.failovers (h.owner.mpr ho)).trans (h.failovers ho)
  posts ho := (h'.posts (h.owner.mpr ho)).trans (h.posts ho)
  fenced := h'.fenced.trans h.fenced

/-- A change that the discipline does not see. -/
theorem same {t : Nat} {w₀ w w' : World sig} (h : Sees t w₀ w) (hs : w.state.Same w'.state)
    (hp : DbGuard.posts w'.log = DbGuard.posts w.log) : Sees t w₀ w' where
  owner := by rw [hs.owner]; exact h.owner
  primary ho := hs.primary.trans (h.primary ho)
  op ho := hs.op.trans (h.op ho)
  failovers ho := hs.failovers.trans (h.failovers ho)
  posts ho := hp.trans (h.posts ho)
  fenced := (congrFun hs.fenced t).trans h.fenced

/-- While another task holds the lock, nothing else matters. -/
theorem other {t : Nat} {w₀ w : World sig} (h₀ : w₀.state.lock.owner ≠ some t)
    (h : w.state.lock.owner ≠ some t) (hf : w.state.fenced t = w₀.state.fenced t) :
    Sees t w₀ w where
  owner := ⟨fun ho => absurd ho h, fun ho => absurd ho h₀⟩
  primary ho := absurd ho h₀
  op ho := absurd ho h₀
  failovers ho := absurd ho h₀
  posts ho := absurd ho h₀
  fenced := hf

end Sees

/-- A segment so far of task `t`, which does not hold the lock. -/
structure Open (t : Nat) (w₀ w : World sig) : Prop extends Does t w₀ w where
  owner : w.state.lock.owner ≠ some t

/-- A segment so far of task `t`, which holds the lock. -/
structure Held (t : Nat) (w₀ w : World sig) : Prop extends Does t w₀ w where
  owner : w.state.lock.owner = some t

section
variable {t : Nat} {j : Job} {w₀ w w' : World sig}

/-- A segment that has just begun. -/
theorem Does.refl (h : Disciplined w) : Does t w w where
  others t' _ := Sees.refl t' w
  op := h.op
  fenced _ hr := .inl hr
  created _ _ hle hj := absurd (List.getElem?_eq_some_iff.mp hj).1 (Nat.not_lt.mpr hle)

/-- A change that the discipline does not see, which may add a sane task. -/
theorem Does.same (h : Does t w₀ w) (hs : w.state.Same w'.state)
    (hp : posts w'.log = posts w.log) (hlog : w.log <+: w'.log) (hjobs : w.jobs <+: w'.jobs)
    (hnew : ∀ i, w.jobs.length ≤ i → ∀ j, w'.jobs[i]? = some j → j.Sane) :
    Does t w₀ w' where
  others t' hne := (h.others t' hne).same hs hp
  op ho := by
    rw [hs.op]
    exact h.op (hs.owner ▸ ho)
  fenced r hr := by
    rw [hs.fenced] at hr
    exact (h.fenced r hr).imp_right (FencedBy.mono hjobs hlog)
  created i j hle hj := by
    by_cases hlt : i < w.jobs.length
    · obtain ⟨l, hl⟩ := hjobs
      rw [← hl, List.getElem?_append_left hlt] at hj
      exact h.created i j hle hj
    · exact hnew i (Nat.le_of_not_lt hlt) j hj

/-- A task that is not there yet is no insane one. -/
private theorem no_new (w : World sig) (i : Nat) (hle : w.jobs.length ≤ i) (j : Job)
    (hj : w.jobs[i]? = some j) : j.Sane :=
  absurd (List.getElem?_eq_some_iff.mp hj).1 (Nat.not_lt.mpr hle)

/-- A change that any task may make. -/
theorem Does.edit_open {u : Update} (h : Does t w₀ w) (hu : openVocabulary.edits u) :
    Does t w₀ (w.edit u) :=
  h.same (open_same hu _) rfl (List.prefix_refl _) (List.prefix_refl _) (no_new w)

/-- A record that is no post of /promote. -/
theorem Does.record {e : Coop.Event sig} (h : Does t w₀ w) (he : isPost e = false) :
    Does t w₀ (w.record e) := by
  refine h.same (.refl _) ?_ (List.prefix_append _ _) (List.prefix_refl _) (no_new w)
  simp [World.record, posts, List.filter_append, he]

/-- A task that it creates. -/
theorem Does.spawn (h : Does t w₀ w) (hj : j.Sane) : Does t w₀ (w.spawn t j) := by
  refine h.same (.refl _) ?_ (List.prefix_append _ _) (List.prefix_append _ _) ?_
  · simp [posts, List.filter_append, isPost]
  · intro i hle j' hj'
    have hlt := (List.getElem?_eq_some_iff.mp hj').1
    have hi : i = w.jobs.length := by simp at hlt; omega
    subst hi
    have : j = j' := by simpa using hj'
    exact this ▸ hj

/-- While task `t` holds the lock, the others see no change. -/
theorem Held.of_state (h : Held t w₀ w) (ho : w'.state.lock.owner = some t)
    (hf : w'.state.fenced = w.state.fenced) (hlog : w.log <+: w'.log)
    (hjobs : w.jobs = w'.jobs) : Held t w₀ w' where
  others t' hne := by
    have h₀ : w₀.state.lock.owner ≠ some t' := fun h' =>
      hne (Option.some.inj (h.owner.symm.trans ((h.others t' hne).owner.mpr h')))
    refine Sees.other h₀ (fun h' => hne (Option.some.inj (ho.symm.trans h'))) ?_
    exact (congrFun hf t').trans (h.others t' hne).fenced
  op ho' := by rw [ho] at ho'; cases ho'
  fenced r hr := by
    rw [hf] at hr
    exact (h.fenced r hr).imp_right (FencedBy.mono (hjobs ▸ List.prefix_refl _) hlog)
  created i j hle hj := h.created i j hle (hjobs ▸ hj)
  owner := ho

/-- A segment that has just begun without the lock. -/
theorem Open.refl (h : Disciplined w) (ho : w.state.lock.owner ≠ some t) : Open t w w :=
  ⟨Does.refl h, ho⟩

/-- A segment that has just begun with it. -/
theorem Held.refl (h : Disciplined w) (ho : w.state.lock.owner = some t) : Held t w w :=
  ⟨Does.refl h, ho⟩

/-- The holder of the lock may make its changes. -/
theorem Held.edit {cfg : Config} {u : Update} (h : Held t w₀ w)
    (hu : (heldVocabulary cfg).edits u) : Held t w₀ (w.edit u) := by
  obtain ⟨ho, hf⟩ := held_owner hu w.state
  exact h.of_state (ho.trans h.owner) hf (List.prefix_refl _) rfl

/-- It may record what it likes, a post included. -/
theorem Held.record (h : Held t w₀ w) (e : Coop.Event sig) : Held t w₀ (w.record e) :=
  h.of_state h.owner rfl (List.prefix_append _ _) rfl

/-- The task that holds the lock gives it back. -/
theorem Held.release (h : Held t w₀ w) : Open t w₀ (w.edit .release) where
  others t' hne := by
    have h₀ : w₀.state.lock.owner ≠ some t' := fun h' =>
      hne (Option.some.inj (h.owner.symm.trans ((h.others t' hne).owner.mpr h')))
    exact Sees.other h₀ (by simp [Update.apply]) (h.others t' hne).fenced
  op _ := rfl
  fenced r hr := h.fenced r hr
  created := h.created
  owner := by simp [Update.apply]

/-- A task takes the free lock. -/
theorem Open.acquire (h : Open t w₀ w) (hfree : w.state.lock.owner = none) :
    Held t w₀ (w.edit (.acquire t)) where
  others t' hne := by
    have h₀ : w₀.state.lock.owner ≠ some t' := fun h' => by
      have := (h.others t' hne).owner.mpr h'
      rw [hfree] at this
      cases this
    exact Sees.other h₀ (by simpa [Update.apply] using hne) (h.others t' hne).fenced
  op ho := by cases ho
  fenced r hr := h.fenced r hr
  created := h.created
  owner := rfl

end

/-! ### The discipline of the tasks -/

section
variable {t : Nat} {j : Job} {w₀ w : World sig} {γ : Type} {m : M γ}

/-- Who does not hold the lock makes only open changes. -/
theorem Open.edit {u : Update} (h : Open t w₀ w) (hu : openVocabulary.edits u) :
    Open t w₀ (w.edit u) :=
  ⟨h.toDoes.edit_open hu, fun ho => h.owner ((open_same hu w.state).owner ▸ ho)⟩

/-- It records no post. -/
theorem Open.record {e : Coop.Event sig} (h : Open t w₀ w) (he : isPost e = false) :
    Open t w₀ (w.record e) := ⟨h.toDoes.record he, h.owner⟩

/-- It may create tasks. -/
theorem Open.spawn {j' : Job} (h : Open t w₀ w) (hj : j'.Sane) : Open t w₀ (w.spawn t j') :=
  ⟨h.toDoes.spawn hj, h.owner⟩

/-- No open request posts /promote. -/
theorem isPost_issue {r : Req} (hr : openVocabulary.awaits r) {s : Ctl} :
    isPost (.issued t j r s) = false := by
  cases r with
  | promote n => exact hr.elim
  | _ => rfl

/-- The tasks that do not hold the lock. -/
theorem open_kept : openVocabulary.Kept ((frame sig).upon discipline) t j (Open t) where
  edit h hu := h.edit hu
  await h hr _ := by
    refine ⟨(h.record (isPost_issue hr)).toDoes, fun w' a hi hr' _ => ?_⟩
    exact (Open.refl hi.2 fun ho => h.owner (hr'.2.owner.mp ho)).record rfl
  create h hj := h.spawn hj
  nodeTask h hj _ := (h.spawn hj).edit trivial
  maint h hj _ := (h.spawn hj).edit trivial
  join h _ _ := h.edit trivial
  block _ h _ :=
    ⟨h.toDoes, fun w' hi hr _ => Open.refl hi.2 fun ho => h.owner (hr.2.owner.mp ho)⟩

/-- A program that keeps to the open vocabulary. -/
theorem wp_open (hm : Speaks openVocabulary m) (h : Open t w₀ w) :
    m.wp ((frame sig).upon discipline) t j (fun _ w₀ w => Open t w₀ w) w₀ w :=
  open_kept.wp hm h

/-- The holder may create tasks. -/
theorem Held.spawn {j' : Job} (h : Held t w₀ w) (hj : j'.Sane) : Held t w₀ (w.spawn t j') :=
  ⟨h.toDoes.spawn hj, h.owner⟩

/-- The holder may make open changes. -/
theorem Held.edit_open {u : Update} (h : Held t w₀ w) (hu : openVocabulary.edits u) :
    Held t w₀ (w.edit u) :=
  ⟨h.toDoes.edit_open hu, (open_same hu w.state).owner.trans h.owner⟩

variable (cfg : Config)

/-- A node task is sane. -/
theorem sane_of_node {n : Node} (h : j.node = some n) : j.Sane := by
  cases j with
  | rebuildAndJoin args => cases h
  | _ => trivial

/-- So is a maintenance task that is started under the lock. -/
theorem sane_of_maint {ns : List Node} (h : (heldVocabulary cfg).maints j ns) : j.Sane := by
  obtain ⟨args, rfl, -, htype⟩ | ⟨spare, donor, rfl, -⟩ := h
  · exact fun h' => by rw [htype] at h'; cases h'
  · trivial

/-- The operations that hold the lock. -/
theorem held_kept : (heldVocabulary cfg).Kept ((frame sig).upon discipline) t j (Held t) where
  edit h hu := h.edit hu
  await h _ _ := by
    refine ⟨(h.record _).toDoes, fun w' a hi hr' _ => ?_⟩
    exact (Held.refl hi.2 (hr'.2.owner.mpr h.owner)).record _
  create h hj := by
    obtain ⟨n, rfl⟩ := hj
    exact h.spawn trivial
  nodeTask h hj _ := (h.spawn (sane_of_node hj)).edit_open trivial
  maint h hj _ := (h.spawn (sane_of_maint cfg hj)).edit_open trivial
  join h _ _ := h.edit_open trivial
  block _ h _ := ⟨h.toDoes, fun w' hi hr _ => Held.refl hi.2 (hr.2.owner.mpr h.owner)⟩

/-- An operation under the lock. -/
theorem wp_withLock (hm : Speaks (heldVocabulary cfg) m) (h : Open t w₀ w) :
    (withLock t m).wp ((frame sig).upon discipline) t j (fun _ w₀ w => Open t w₀ w) w₀ w := by
  have hbody : ∀ w₀ w, Held t w₀ w →
      (m >>= fun a => edit .release >>= fun _ => pure a).wp ((frame sig).upon discipline) t j
        (fun _ w₀ w => Open t w₀ w) w₀ w := by
    intro w₀ w h
    refine Prog.wp_seq ((held_kept cfg).wp hm h) fun a w₀ w h => ?_
    exact h.release
  unfold withLock
  refine wp_acquire (fun hfree => hbody _ _ (h.acquire hfree)) fun _ => ?_
  have hq : Open t w₀ (w.edit (.enqueue t)) :=
    ⟨h.toDoes.same ⟨rfl, rfl, rfl, rfl, rfl⟩ rfl (List.prefix_refl _) (List.prefix_refl _)
      (no_new _), h.owner⟩
  refine ⟨hq.toDoes, fun w' hi hr hfree => hbody _ _ (Open.acquire ?_ hfree)⟩
  exact Open.refl hi.2 fun ho => h.owner (hr.2.owner.mp ho)

end

/-! ### The open vocabulary of the tasks -/

/-- A node task keeps to what any task may do. -/
theorem nodeVocabulary_le (n : Node) : (nodeVocabulary n).Le openVocabulary where
  edits u h := by
    cases u with
    | event e => exact fun h' => by rw [show e.type = .rejoin from h] at h'; cases h'
    | _ => trivial
  awaits r h := by cases r <;> trivial
  creates _ h := h.elim
  nodeTasks m j h := by obtain ⟨-, primary, rfl⟩ := h; trivial
  maints j ns h := by
    obtain ⟨-, args, rfl, -, htype⟩ := h
    exact fun h' => by rw [htype] at h'; cases h'
  joins _ h := h.elim

/-- So does a rebuild that is no failover. -/
theorem rebuildVocabulary_le (n : Node) {type : EventType} (htype : type ≠ .failover) :
    (rebuildVocabulary n type).Le openVocabulary where
  edits u h := by
    cases u with
    | event e =>
        rcases h with h | h
        · exact fun h' => by rw [h] at h'; cases h'
        · exact fun h' => htype (h.symm.trans h')
    | _ => trivial
  awaits r h := by cases r <;> trivial
  creates j h := by obtain ⟨donor, rfl⟩ := h; trivial
  nodeTasks _ _ h := h.elim
  maints _ _ h := h.elim
  joins _ h := h.elim

/-- So does the keeper. -/
theorem keeperVocabulary_le : keeperVocabulary.Le openVocabulary where
  edits u h := by cases u <;> trivial
  awaits r h := by cases r <;> trivial
  creates _ h := h.elim
  nodeTasks _ _ h := h.elim
  maints _ _ h := h.elim
  joins _ h := h.elim

section
variable (cfg : Config)

/-- The tasks that never take the lock, but for the fence. -/
theorem body_speaks (t : Nat) {j : Job} (hj : j.Sane)
    (hkind : match j with
      | .tick | .switchover _ | .rejoin _ | .fence _ => False
      | _ => True) : Speaks openVocabulary (body cfg t j) := by
  cases j with
  | tick | switchover | rejoin | fence => exact hkind.elim
  -- A halt and a resume change the state without the lock, as the source does.
  | halt reason =>
      unfold body setHalt
      refine speaks_bind (speaks_edit trivial) fun _ => speaks_look fun s => ?_
      exact speaks_await trivial
  | resume =>
      unfold body setResume
      refine speaks_bind (speaks_edit trivial) fun _ => speaks_bind (speaks_edit trivial) fun _ => ?_
      refine speaks_bind (speaks_edit trivial) fun _ => speaks_look fun s => ?_
      exact speaks_await trivial
  | getPrimary =>
      unfold body getPrimary
      exact speaks_look fun s => speaks_await trivial
  | rejoinNode n why =>
      refine speaks_bind ?_ fun _ => speaks_pure _
      exact (rejoinNode_speaks cfg n why true).mono (nodeVocabulary_le n)
  | fenceSecondWriter n primary =>
      exact (fenceSecondWriter_speaks n primary).mono
        ((Vocabulary.noMaint_le _).trans (nodeVocabulary_le n))
  | verifyAfterRepoint n primary =>
      exact ((verifyAfterRepoint_speaks cfg n primary).mono (watch_le n)).mono (nodeVocabulary_le n)
  | repointAfter old target =>
      refine repointAfter_speaks old target trivial fun e he => ?_
      exact fun h => by rw [he] at h; cases h
  | rebuildAndJoin args =>
      -- The maintenance task posts nothing and leaves the failover events alone.
      refine maintenance_speaks trivial ?_
      exact (rebuildAndJoin_speaks cfg args).mono (rebuildVocabulary_le _ hj)
  | replace spare donor =>
      refine maintenance_speaks trivial (replace_speaks cfg spare donor
        (rebuildVocabulary_le _ nofun) (fun _ => trivial) (fun e he => ?_) (fun _ => trivial)
        trivial trivial)
      exact fun h => by rw [he] at h; cases h
  | keepUnstuck donor =>
      exact (keepUnstuck_speaks t donor _).mono keeperVocabulary_le

end

/-! ### The contract -/

/-- An API request or a tick may arrive. -/
theorem sane_of_environment {p : Pool sig} {j : Job} (h : environment p (.arrive j) = true) :
    j.Sane := by
  cases j with
  | rebuildAndJoin args => cases h
  | _ => trivial

/-- Only the clock changes from outside. -/
theorem clock_of_environment {p : Pool sig} {u : Update}
    (h : environment p (.outside u) = true) : ∃ time mono, u = .clock time mono := by
  cases u with
  | clock time mono => exact ⟨time, mono, rfl⟩
  | _ => cases h

/-- The end of a segment. -/
theorem Open.finish {t : Nat} {w₀ w : World sig} (h : Open t w₀ w) :
    Does t w₀ (w.finish t) :=
  (h.toDoes.record (e := .finished t w.state) rfl).same ⟨rfl, rfl, rfl, rfl, rfl⟩ rfl
    (List.prefix_refl _) (List.prefix_refl _) (no_new _)

/-- The program of each job keeps the discipline. -/
theorem body_discipline (cfg : Config) {t : Nat} {j : Job} {w : World sig} (hi : Disciplined w)
    (hjob : w.jobs[t]? = some j) (ho : w.state.lock.owner ≠ some t) (hj : j.Sane) :
    (body cfg t j).wp ((frame sig).upon discipline) t j (fun _ w₀ w => Open t w₀ w) w w := by
  have hopen : Open t w w := Open.refl hi ho
  cases j with
  | tick =>
      unfold body tick
      -- A tick polls without the lock, and takes it only if nobody has it.
      refine Prog.wp_seq (wp_open (poll_speaks cfg (fun _ _ => trivial) fun _ _ => trivial) hopen)
        fun ob w₀ w h => ?_
      rw [wp_look]
      split
      · exact h
      · exact wp_withLock cfg (tickLocked_speaks cfg ob (failoverVocabulary_le cfg)
          (coldVocabulary_le cfg) (tickVocabulary_le cfg)) h
  | switchover target =>
      unfold body setFailover switchover
      -- A switchover waits for the lock.
      refine Prog.wp_seq (wp_withLock cfg
        ((switchoverLocked_speaks cfg target).mono (switchoverVocabulary_le cfg)) hopen)
        fun r w₀ w h => ?_
      split
      · exact wp_open (speaks_await trivial) h
      · exact wp_open (speaks_await trivial) h
      · exact wp_open (speaks_await trivial) h
  -- A rejoin looks before it takes the lock, and answers after it has given it back.
  | rejoin node =>
      unfold body setRejoin
      rw [wp_look]
      split
      · exact wp_open (speaks_await trivial) hopen
      · split
        · exact wp_open (speaks_await trivial) hopen
        · refine Prog.wp_seq (wp_withLock cfg
            ((rejoinLocked_speaks cfg node).mono (requestVocabulary_le cfg node)) hopen)
            fun r w₀ w h => ?_
          exact wp_open (speaks_await trivial) h
  -- The fence task files its own result, and no other task's.
  | fence node =>
      change (fence node >>= fun r => edit (.resolve t r)).wp _ _ _ _ _ _
      unfold fence
      rw [bind_assoc, wp_await]
      intro _
      have hissue := hopen.record (e := .issued t (.fence node) (.fence node) w.state) rfl
      refine ⟨hissue.toDoes, fun w' a hi' hr _ => ?_⟩
      have h' : Open t w' (w'.answer t (.fence node) a) :=
        (Open.refl hi'.2 fun ho' => ho (hr.2.owner.mp ho')).record rfl
      have hjob' : w'.jobs[t]? = some (.fence node) := hr.1.job hjob
      exact
        { others := fun t' hne => by
            refine ⟨Iff.rfl, fun _ => rfl, fun _ => rfl, fun _ => rfl, fun ho => ?_, ?_⟩
            · exact (h'.others t' hne).posts ho
            · simp [Update.apply, Function.update_of_ne (Ne.symm hne)]
          op := h'.op
          fenced := fun r hr => by
            refine .inr ⟨node, a, hjob', List.mem_append_right _ (List.mem_singleton.mpr rfl), ?_⟩
            simpa [Update.apply] using hr.symm
          created := h'.created
          owner := h'.owner }
  | halt | resume | getPrimary | rejoinNode | fenceSecondWriter | verifyAfterRepoint
  | repointAfter | rebuildAndJoin | replace | keepUnstuck =>
      exact wp_open (body_speaks cfg t hj trivial) hopen

/-- More tasks and more events leave the discipline. -/
theorem Disciplined.grow {w w' : World sig} (h : Disciplined w) (hs : w'.state = w.state)
    (hjobs : w.jobs <+: w'.jobs) (hlog : w.log <+: w'.log) :
    Disciplined w' where
  op := hs ▸ h.op
  owner t ho := Nat.lt_of_lt_of_le (h.owner t (hs ▸ ho)) hjobs.length_le
  fenced f r hr := (h.fenced f r (hs ▸ hr)).mono hjobs hlog

/-- All tasks of a controller keep the discipline. -/
theorem discipline_sound (cfg : Config) {ok : Pool sig → Move sig → Pool sig → Prop}
    (hok : ∀ p m p', ok p m p' → environment p m = true) :
    Contract.SoundOver (frame sig) discipline (body cfg) ok where
  rely_refl := Sees.refl
  rely_trans _ _ _ _ := Sees.trans
  rely_of_may t t' w₀ w hne _ _ _ h := h.others t' hne
  rely_arrive p j p' t _ _ := (Sees.refl t p.world).same (.refl _) rfl
  rely_outside p u p' t ho _ := by
    obtain ⟨time, mono, rfl⟩ := clock_of_environment (hok _ _ _ ho)
    exact (Sees.refl t p.world).same ⟨rfl, rfl, rfl, rfl, rfl⟩ rfl
  rely_land p t' r p' t _ _ := by
    refine (Sees.refl t p.world).same (.refl _) ?_
    simp [World.record, posts, List.filter_append, isPost]
  rely_resend p t' r p' t _ _ := by
    refine (Sees.refl t p.world).same (.refl _) ?_
    simp [World.record, posts, List.filter_append, isPost]
  inv_may t w₀ w _ hi ha h := by
    -- The ids of an owner and of a result are those of tasks that exist.
    refine ⟨h.op, fun x hx => ?_, fun f r hr => ?_⟩
    · by_cases htx : t = x
      · exact htx ▸ Nat.lt_of_lt_of_le ha.lt ha.jobs.length_le
      · exact Nat.lt_of_lt_of_le (hi.owner x ((h.others x htx).owner.mp hx)) ha.jobs.length_le
    · have hlog : w₀.log <+: w.log := by
        obtain ⟨l, hl, -⟩ := ha.log
        exact hl ▸ List.prefix_append _ _
      by_cases htf : t = f
      · subst htf
        rcases h.fenced r hr with hr | hr
        · exact (hi.fenced t r hr).mono ha.jobs hlog
        · exact hr
      · rw [(h.others f htf).fenced] at hr
        exact (hi.fenced f r hr).mono ha.jobs hlog
  inv_arrive p j p' _ hi := Disciplined.grow hi rfl (List.prefix_append _ _) (List.prefix_refl _)
  inv_outside p u p' ho hi := by
    obtain ⟨time, mono, rfl⟩ := clock_of_environment (hok _ _ _ ho)
    exact ⟨hi.op, hi.owner, hi.fenced⟩
  inv_land p t r p' _ hi := Disciplined.grow hi rfl (List.prefix_refl _) (List.prefix_append _ _)
  inv_resend p t r p' _ hi := Disciplined.grow hi rfl (List.prefix_refl _) (List.prefix_append _ _)
  pre_rely t j w w' hp _ hr := ⟨fun ho => hp.1 (hr.owner.mp ho), hp.2⟩
  pre_may t w₀ w t' j _ hi ha h hle hj := by
    have hne : t ≠ t' := Nat.ne_of_lt (Nat.lt_of_lt_of_le ha.lt hle)
    refine ⟨fun ho => ?_, h.created t' j hle hj⟩
    -- A task that is created does not own the lock, because the owner exists already.
    exact absurd (hi.owner t' ((h.others t' hne).owner.mp ho)) (Nat.not_lt.mpr hle)
  pre_arrive p j p' ho hi :=
    ⟨fun h => absurd (hi.owner _ h) (Nat.lt_irrefl _), sane_of_environment (hok _ _ _ ho)⟩
  allowed_start _ _ _ _ := trivial
  allowed_answer _ _ _ _ _ := trivial
  allowed_wake _ _ _ _ := trivial
  answers_ok _ _ _ _ _ _ _ _ := trivial
  body_wp t j w _ hi hj _ hp :=
    Prog.wp_mono (fun _ _ _ h _ => h.finish) _ _ _ (body_discipline cfg hi hj hp.1 hp.2)

/-- The frame and the discipline together. -/
theorem base_sound (cfg : Config) {ok : Pool sig → Move sig → Pool sig → Prop}
    (hok : ∀ p m p', ok p m p' → environment p m = true) : base.Sound (body cfg) ok :=
  (Coop.frame_sound _ _).both (discipline_sound cfg hok)

/-- The contract at the start of a controller. -/
theorem base_init (cfg : Config) : base.inv (Pool.init (Ctl.init cfg) []).world :=
  ⟨fun _ he => absurd he List.not_mem_nil, fun _ => rfl, nofun, nofun⟩

/-- A contract over the discipline holds along every run of a controller. -/
theorem holds_of_runs {cfg : Config} {cond : Pool sig → Move sig → Pool sig → Prop}
    {X : Contract sig} {p : Pool sig}
    (hX : base.SoundOver X (body cfg) (fun p m p' => environment p m = true ∧ cond p m p'))
    (hinit : X.inv (Pool.init (Ctl.init cfg) []).world) (hp : Runs cfg cond p) :
    (base.both X).Holds p :=
  ((base_sound cfg fun _ _ _ h => h.1).both hX).holds_reach
    (Contract.holds_init ⟨base_init cfg, hinit⟩ nofun) hp

end DbGuard
