import DbGuard.Coop.Beside
import DbGuard.Evidence
import DbGuard.Proofs.Ticks

/-!
# `DbGuard.Proofs.Decision`: the poll that a tick decides on

A tick polls, and decides in the segment in which it takes the lock. `looked` reads off the log of
a segment which poll that is, and `looked_of_fire` says that it is the one of the move.
`wp_tick_of_locks` is the rule for a tick: all that it does before it has the lock is idle.
-/

set_option autoImplicit false

namespace DbGuard

open Coop (Prog Pool Move World Contract frame own)

namespace Polling

/-! ### The poll of a segment -/

/-- The first event of a segment. -/
def firstStep (w₀ w : World sig) : Option (Coop.Event sig) := (w.log.drop w₀.log.length).head?

/-- The poll that a segment of task `t` decides on, if it takes the lock. -/
def looked (t : Nat) (w₀ w : World sig) : Option Views :=
  match firstStep w₀ w with
  | some (.answered _ (.observe _ ns) a) =>
    if w₀.state.leaves || !w₀.state.lock.waiters.isEmpty then none
    else some (.ofAnswers ns (a : PollAnswer).view)
  | some (.answered _ _ _) => none
  | _ =>
    if hasPoll t w₀.log && w₀.state.lock.owner.isNone then w₀.state.lastObs.map (·.nodes)
    else none

/-- Whether an event is an answer. -/
def isAnswer : Coop.Event sig → Bool
  | .answered _ _ _ => true
  | _ => false

section
variable {t : Nat} {j : Job} {w₀ w w' : World sig} {e : Coop.Event sig}

/-- A record is the first step of the segment unless there is one. -/
theorem firstStep_record (hle : w₀.log.length ≤ w.log.length) :
    firstStep w₀ (w.record e) = (firstStep w₀ w).or (some e) := by
  show ((w.log ++ [e]).drop w₀.log.length).head? = _
  rw [List.drop_append_of_le_length hle, List.head?_append]
  rfl

/-- Only an answer is a poll. -/
theorem looked_record (hle : w₀.log.length ≤ w.log.length) (he : isAnswer e = false) :
    looked t w₀ (w.record e) = looked t w₀ w := by
  unfold looked
  rw [firstStep_record hle]
  cases firstStep w₀ w with
  | some e' => rfl
  | none =>
      cases e with
      | answered t' r a => cases he
      | created | issued | landed | resent | finished => rfl

/-- A segment that has just begun has none. -/
theorem firstStep_refl : firstStep w w = none := by simp [firstStep]

/-- One that begins with another answer has not polled. -/
theorem looked_answer {r : Req} {a : r.Resp} (hr : ∀ q ns, r ≠ .observe q ns) :
    looked t w (w.answer t r a) = none := by
  have hfirst : firstStep w (w.answer t r a) = some (.answered t r a) := by
    rw [World.answer, firstStep_record (le_refl _), firstStep_refl]
    rfl
  unfold looked
  rw [hfirst]
  cases r with
  | observe q ns => exact absurd rfl (hr q ns)
  | _ => rfl

/-- A step of another task is no poll of this one. -/
theorem hasPoll_of_not_isBy (h : e.isBy t = false) : hasPoll t [e] = false := by
  cases e with
  | answered t' r a =>
      have hne : (t' == t) = false := by simpa [Coop.Event.isBy] using h
      cases r with
      | observe q ns => exact (Bool.or_false _).trans hne
      | _ => rfl
  | created | issued | landed | resent | finished => rfl

/-- A poll is found by a look at the task's own part of the log. -/
theorem hasPoll_own (l : List (Coop.Event sig)) : hasPoll t (own t l) = hasPoll t l := by
  induction l with
  | nil => rfl
  | cons e l ih =>
      have hsplit : ∀ l, hasPoll t (e :: l) = (hasPoll t [e] || hasPoll t l) := fun l => by
        rw [← List.singleton_append]
        exact List.any_append
      cases hby : e.isBy t with
      | true =>
          rw [own, List.filter_cons_of_pos hby, hsplit, hsplit l]
          exact congrArg (hasPoll t [e] || ·) ih
      | false =>
          rw [own, List.filter_cons_of_neg (by rw [hby]; simp), hsplit l, hasPoll_of_not_isBy hby]
          exact ih

/-- So it stays found, or not, while that part is the same. -/
theorem hasPoll_of_own (h : own t w'.log = own t w.log) : hasPoll t w'.log = hasPoll t w.log := by
  rw [← hasPoll_own w'.log, h, hasPoll_own]

/-- A record is a poll or none. -/
theorem hasPoll_record : hasPoll t (w.record e).log = (hasPoll t w.log || hasPoll t [e]) :=
  List.any_append

/-- Only an answer can be one. -/
theorem hasPoll_of_not_isAnswer (he : isAnswer e = false) : hasPoll t [e] = false := by
  cases e with
  | answered t' r a => cases he
  | created | issued | landed | resent | finished => rfl

/-- A segment that has just begun has not looked, if the task has not polled or the lock is held. -/
theorem looked_refl (h : hasPoll t w.log = false ∨ w.state.lock.owner.isNone = false) :
    looked t w w = none := by
  unfold looked
  rw [firstStep_refl]
  refine if_neg fun hand => ?_
  rw [Bool.and_eq_true] at hand
  rcases h with h | h
  · rw [hand.1] at h
    cases h
  · rw [hand.2] at h
    cases h

/-- A task that has done nothing has not polled. -/
theorem hasPoll_of_own_nil (h : own t w.log = []) : hasPoll t w.log = false := by
  rw [← hasPoll_own, h]
  rfl

/-! ### A tick up to the lock -/

/-- A step of a poll. -/
def isPolling : Coop.Event sig → Bool
  | .answered _ _ _ => true
  | .issued _ _ (.observe _ _) _ => true
  | _ => false

/-- A segment so far of a tick that has done nothing but poll, and stand in line for the lock. -/
structure Polled (w₀ w : World sig) : Prop where
  log : w₀.log.length ≤ w.log.length
  silent : ∀ e ∈ w.log.drop w₀.log.length, isPolling e = true
  same : ∃ lastObs history lock, w.state = { w₀.state with lastObs, history, lock }

/-- Such a segment of a tick that does not take the lock. -/
structure Idle (t : Nat) (w₀ w : World sig) : Prop extends Polled w₀ w where
  look : looked t w₀ w = none

/-- Such a segment of a tick that has just taken the lock, to decide on the poll `ob`. -/
structure Locks (t : Nat) (ob : Observation) (w₀ w : World sig) : Prop extends Polled w₀ w where
  look : looked t w₀ w = some ob.nodes
  lastObs : w.state.lastObs = some ob
  owner : w.state.lock.owner = some t
  op : w.state.op = none

/-- A tick that has its poll, before it looks at the lock. -/
structure Fresh (t : Nat) (ob : Observation) (w₀ w : World sig) : Prop extends Polled w₀ w where
  job : w.jobs[t]? = some .tick
  live : t ∉ w.state.finished
  poll : hasPoll t w.log = true
  look : looked t w₀ w =
    if w.state.leaves || !w.state.lock.waiters.isEmpty then none else some ob.nodes
  lastObs : w.state.lastObs = some ob
  op : w.state.lock.owner = none → w.state.op = none

/-- A segment that has just begun with the poll. -/
theorem Polled.refl : Polled w w := ⟨le_refl _, by simp, _, _, _, rfl⟩

/-- The records of a poll. -/
theorem Polled.record (h : Polled w₀ w) (he : isPolling e = true) : Polled w₀ (w.record e) := by
  refine ⟨le_trans h.log (List.prefix_append w.log [e]).length_le, ?_, h.same⟩
  show ∀ x ∈ (w.log ++ [e]).drop w₀.log.length, _
  rw [List.drop_append_of_le_length h.log]
  intro x hx
  rcases List.mem_append.mp hx with hx | hx
  · exact h.silent x hx
  · rw [List.mem_singleton.mp hx]
    exact he

/-- An edit of the polls or of the lock. -/
theorem Polled.edit {u : Update} (h : Polled w₀ w)
    (hu : ∃ lastObs history lock, u.apply w.state = { w.state with lastObs, history, lock }) :
    Polled w₀ (w.edit u) := by
  obtain ⟨lastObs, history, lock, hsame⟩ := h.same
  obtain ⟨lastObs', history', lock', hu⟩ := hu
  refine ⟨h.log, h.silent, lastObs', history', lock', ?_⟩
  show u.apply w.state = _
  rw [hu, hsame]

/-- A tick that leaves the lock alone in this segment. -/
theorem Fresh.idle {ob : Observation} (h : Fresh t ob w₀ w)
    (hleft : (w.state.leaves || !w.state.lock.waiters.isEmpty) = true) : Idle t w₀ w :=
  ⟨h.toPolled, h.look.trans (if_pos hleft)⟩

/-- A relation that a tick keeps up to the lock, when it holds as soon as it has its poll. -/
structure Attends (cfg : Config) (t : Nat) (R : World sig → World sig → Prop) : Prop where
  refl : ∀ w, R w w
  polled : ∀ w primary ns a ts keep, R w
    ((w.answer t (.observe primary ns) a).edit (.observed (cfg.observation primary ns a ts) keep))
  lock : ∀ w₀ w u, u = .acquire t ∨ u = .enqueue t → R w₀ w → R w₀ (w.edit u)

section
variable {cfg : Config} {X : Contract sig} {Q : Unit → World sig → World sig → Prop}

section
variable {R : World sig → World sig → Prop} (hR : Attends cfg t R)
  (hmay : ∀ w₀ w, Idle t w₀ w → R w₀ w → X.may t w₀ w)
  (hidle : ∀ w₀ w, Idle t w₀ w → R w₀ w → Q () w₀ w)
  (hlocks : ∀ ob w₀ w, Locks t ob w₀ w → R w₀ w →
    (tickLocked cfg ob >>= fun a => edit .release >>= fun _ => pure a).wp (tickBase.upon X)
      t .tick Q w₀ w)
include hR hmay hidle hlocks

/-- A tick goes on after its poll if the set is not halted and nobody holds the lock. -/
theorem wp_fresh {ob : Observation} (h : Fresh t ob w₀ w) (hr : R w₀ w) :
    (ctl >>= fun s => if s.halted || s.lock.owner.isSome then pure ()
      else withLock t (tickLocked cfg ob)).wp (tickBase.upon X) t .tick Q w₀ w := by
  rw [wp_look]
  split
  · rename_i hleft
    exact hidle _ _ (h.idle (by rw [Ctl.leaves, hleft]; rfl)) hr
  · rename_i hstay
    have hleaves : w.state.leaves = false := by simpa [Ctl.leaves] using hstay
    unfold withLock acquire
    rw [bind_assoc, wp_look]
    split
    · rename_i hfree
      have hlook := h.look
      rw [hleaves, hfree.2] at hlook
      have hlocked : Locks t ob w₀ (w.edit (.acquire t)) :=
        ⟨h.toPolled.edit ⟨_, _, _, rfl⟩, hlook, h.lastObs, rfl, h.op hfree.1⟩
      exact hlocks _ _ _ hlocked (hR.lock _ _ _ (.inl rfl) hr)
    · rename_i hbusy
      have hfree : w.state.lock.owner = none := by
        simp only [Ctl.leaves, Bool.or_eq_false_iff] at hleaves
        simpa using hleaves.2
      have hqueue : w.state.lock.waiters ≠ [] := fun hempty => hbusy ⟨hfree, hempty⟩
      have hwait : Idle t w₀ (w.edit (.enqueue t)) :=
        ⟨h.toPolled.edit ⟨_, _, _, rfl⟩, (h.idle (by simp [hqueue])).look⟩
      rw [bind_assoc, wp_edit, bind_assoc, wp_block]
      intro _
      refine ⟨hmay _ _ hwait (hR.lock _ _ _ (.inr rfl) hr), fun w' hi hrely hc => ?_⟩
      -- It has the lock. Its poll is still the last one.
      simp only [Bool.and_eq_true, Option.isNone_iff_eq_none] at hc
      have hpoll : hasPoll t w'.log = true := (hasPoll_of_own hrely.1.1.1.own).trans h.poll
      have hobs : w'.state.lastObs = some ob := (hrely.1.2.lastObs h.job h.live).trans h.lastObs
      have hlook : looked t w' w' = some ob.nodes := by
        unfold looked
        rw [firstStep_refl, hpoll, hc.1, hobs]
        rfl
      have hlocked : Locks t ob w' (w'.edit (.acquire t)) :=
        ⟨Polled.refl.edit ⟨_, _, _, rfl⟩, hlook, hobs, rfl, hi.1.1.2.op hc.1⟩
      exact hlocks _ _ _ hlocked (hR.lock _ _ _ (.inl rfl) (hR.refl w'))

/-- A tick, from what it does with the lock, and from a relation that it keeps from its poll
until then. -/
theorem wp_tick_of_attends (hj : w.jobs[t]? = some .tick) (hlive : t ∉ w.state.finished)
    (hask : X.may t w (w.issue t .tick (.observe w.state.primary (w.state.allNodes cfg)))) :
    (tick cfg t).wp (tickBase.upon X) t .tick Q w w := by
  unfold tick poll
  rw [bind_assoc, wp_look, bind_assoc, wp_await]
  intro _
  refine ⟨hask, fun w' a hi hr _ => ?_⟩
  have hjob : w'.jobs[t]? = some .tick := hr.1.2.job hj
  rw [bind_assoc, wp_edit, pure_bind]
  refine wp_fresh hR hmay hidle hlocks ⟨(Polled.refl.record rfl).edit ⟨_, _, _, rfl⟩, hjob,
    hr.1.2.live hlive, ?_, ?_, rfl, hi.1.1.2.op⟩ (hR.polled w' _ _ a _ _)
  · show hasPoll t (w'.record _).log = true
    rw [hasPoll_record]
    simp [hasPoll]
  · show looked t w' (w'.record _) = _
    unfold looked
    rw [firstStep_record (le_refl _), firstStep_refl]
    rfl

end

/-- A tick, from what it does with the lock. -/
theorem wp_tick_of_locks (hmay : ∀ w₀ w, Idle t w₀ w → X.may t w₀ w)
    (hidle : ∀ w₀ w, Idle t w₀ w → Q () w₀ w)
    (hlocks : ∀ ob w₀ w, Locks t ob w₀ w →
      (tickLocked cfg ob >>= fun a => edit .release >>= fun _ => pure a).wp (tickBase.upon X)
        t .tick Q w₀ w)
    (hj : w.jobs[t]? = some .tick) (hlive : t ∉ w.state.finished)
    (hpoll : hasPoll t w.log = false) : (tick cfg t).wp (tickBase.upon X) t .tick Q w w := by
  have hissued : Idle t w (w.issue t .tick (.observe w.state.primary (w.state.allNodes cfg))) :=
    ⟨Polled.refl.record rfl, (looked_record (le_refl _) rfl).trans (looked_refl (.inl hpoll))⟩
  exact wp_tick_of_attends (R := fun _ _ => True)
    ⟨fun _ => trivial, fun _ _ _ _ _ _ => trivial, fun _ _ _ _ _ => trivial⟩
    (fun _ _ h _ => hmay _ _ h) (fun _ _ h _ => hidle _ _ h)
    (fun _ _ _ h _ => hlocks _ _ _ h) hj hlive (hmay _ _ hissued)

end

/-! ### The poll of a move -/

/-- The poll that a move decides on is the one of its segment. -/
theorem looked_of_fire {cfg : Config} {p p' : Pool sig} {m : Move sig} {X : Contract sig}
    (hh : (tickBase.both X).Holds p) (hf : p.fire (body cfg) m = some p')
    (hm : m.task = some t) : looked t p.world p'.world = decided p m := by
  obtain ⟨j, a, l, e, hj, hlog, ha, hl, he⟩ := Pool.log_of_fire hf hm
  have hrest : ∀ x ∈ (l ++ e).head?, isAnswer x = false := by
    intro x hx
    rcases List.mem_append.mp (List.mem_of_mem_head? hx) with hx | hx
    · obtain ⟨j', i, rfl⟩ := hl x hx
      rfl
    · rcases he with rfl | ⟨r, rfl⟩ | ⟨s, rfl⟩
      · cases hx
      · cases List.mem_singleton.mp hx
        rfl
      · cases List.mem_singleton.mp hx
        rfl
  have hfirst : firstStep p.world p'.world = (a ++ (l ++ e)).head? := by
    rw [firstStep, hlog, List.append_assoc, List.drop_left]
  -- Without an answer, it is the poll it has waited with.
  have hnone : a = [] → looked t p.world p'.world =
      if hasPoll t p.world.log && p.world.state.lock.owner.isNone then
        p.world.state.lastObs.map (·.nodes)
      else none := by
    intro hnil
    unfold looked
    rw [hfirst, hnil, List.nil_append]
    cases hhead : (l ++ e).head? with
    | none => rfl
    | some x =>
        have hx := hrest x hhead
        cases x with
        | answered t' r b => cases hx
        | created | issued | landed | resent | finished => rfl
  cases m with
  | start t' =>
      cases hm
      have hnil : a = [] := by
        rcases ha with ⟨-, ha⟩ | ⟨f, r, k, heq, -⟩
        · exact ha
        · cases heq
      have hprog : p.progs t = none := by
        simp only [Pool.fire] at hf
        split at hf
        · assumption
        · cases hf
      have hpre : (tickBase.both X).pre t j p.world := by
        simpa [Contract.Resumable, hprog] using hh.resumable t j hj
      rw [hnone hnil, hasPoll_of_own_nil hpre.1.1.1.2]
      rfl
  | wake t' =>
      cases hm
      refine hnone ?_
      rcases ha with ⟨-, ha⟩ | ⟨f, r, k, heq, -⟩
      · exact ha
      · cases heq
  | answer t' f =>
      cases hm
      rcases ha with ⟨hne, -⟩ | ⟨f, r, k, heq, hprog, rfl⟩
      · exact absurd rfl (hne f)
      · cases heq
        unfold looked
        rw [hfirst]
        simp only [decided, hprog]
        cases r with
        | observe primary ns => rfl
        | _ => rfl
  | arrive j => cases hm
  | outside u => cases hm
  | land t' r | resend t' r => cases hm

end

end Polling

end DbGuard
