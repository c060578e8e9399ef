import DbGuard.StatusCache

/-!
# `DbGuard.Proofs.StatusCache`: how old a served view is

After `invalidate` the cache refuses every view that came before the call. A view that comes
later is served, and its `ts` says when it came, not when the agent read it.

`Overtaken p c n` is the state in which this makes a difference. The agent of `n` began to
read before now, and the answer is still on its way and within its timeout. The second part
is the same for an answer that came in the very moment of the call.

`get_after_invalidate_iff` is the main result. Take any cache state and any run from its
`invalidate`. The views that `get` serves for `n` were all read after the call if and only
if the node was not overtaken at the call. The invariant of the run is `Fresh`: what is
stored or on its way was read after the call, or will not be served.
-/

set_option autoImplicit false

namespace DbGuard.StatusCache

open Machine (Reach Free)

variable {p : StatusPolling} {c c' : StatusCache} {n : Node}

/-- An answer that the agent began to read before now is under way, or came just now. -/
def Overtaken (p : StatusPolling) (c : StatusCache) (n : Node) : Prop :=
  (∃ sent r, c.tasks n = some (.asking sent (some r)) ∧ r < c.clock ∧
      c.clock ≤ sent + p.timeoutS) ∨
    ∃ v, c.views n = some v ∧ v.view.usable = true ∧ c.clock ≤ v.ts ∧ v.readFrom < c.clock

/-- What the caches show of `n` from a call of `invalidate` at `t` on. A request is read after
`t` or has passed its timeout, and a view is read after `t`, came before `t` or is
unusable. -/
structure Fresh (p : StatusPolling) (n : Node) (t : Time) (c : StatusCache) : Prop where
  clock : t ≤ c.clock
  notBefore : t ≤ c.notBefore
  task : ∀ sent r, c.tasks n = some (.asking sent (some r)) →
    t ≤ r ∨ sent + p.timeoutS < c.clock
  view : ∀ v, c.views n = some v → v.view.usable = true → t ≤ v.readFrom ∨ v.ts < t

/-- An unreachable view is not usable. -/
@[simp] theorem usable_unreachable (n : Node) (e : String) :
    (NodeView.unreachable n e).usable = false := rfl

/-- What a usable answer of `get` says. -/
theorem get_usable {now : Option Time} (h : (c.get p n now).usable = true) :
    ∃ v, c.views n = some v ∧ c.get p n now = v.view ∧ c.notBefore ≤ v.ts := by
  unfold get at h ⊢
  cases hv : c.views n with
  | none => simp [hv] at h
  | some v =>
    simp only [hv] at h ⊢
    split at h
    · simp at h
    · rename_i hold
      split at h
      · simp at h
      · rename_i hage
        exact ⟨v, rfl, by rw [if_neg hold, if_neg hage], not_lt.mp hold⟩

/-- A view that came after the last `invalidate` is served to a caller whose `now` is not
too late for it. -/
theorem exists_get_eq {v : Stamped} (hv : c.views n = some v) (hts : c.notBefore ≤ v.ts) :
    ∃ now, c.get p n now = v.view := by
  refine ⟨some (min (-1) (v.ts + maxAge p)), ?_⟩
  have hne : min (-1) (v.ts + maxAge p) ≠ 0 :=
    ne_of_lt (lt_of_le_of_lt (min_le_left _ _) (by simp))
  have hage : min (-1) (v.ts + maxAge p) - v.ts ≤ maxAge p :=
    sub_le_iff_le_add'.mpr (min_le_right _ _)
  simp [get, hv, not_lt.mpr hts, Option.filter, hne, not_lt.mpr hage]

/-! ### The invariant -/

/-- A node that is not overtaken is fresh after the call. -/
theorem fresh_invalidate (h : ¬ Overtaken p c n) :
    Fresh p n c.clock c.invalidate where
  clock := le_refl _
  notBefore := le_refl _
  task := by
    intro sent r htask
    by_contra hlate
    obtain ⟨hr, htime⟩ := not_or.mp hlate
    exact h (.inl ⟨sent, r, htask, not_le.mp hr, not_lt.mp htime⟩)
  view := by
    intro v hv husable
    by_contra hlate
    obtain ⟨hr, hts⟩ := not_or.mp hlate
    exact h (.inr ⟨v, hv, husable, not_lt.mp hts, not_le.mp hr⟩)

/-- The end of a round keeps `Fresh` if the view that it stores is fresh. -/
theorem Fresh.store {t sent : Time} {m : Node} {v : Stamped} (h : Fresh p n t c)
    (hv : m = n → v.view.usable = true → t ≤ v.readFrom) : Fresh p n t (c.store p m v sent) where
  clock := h.clock
  notBefore := h.notBefore
  task := by
    intro sent' r htask
    by_cases hm : m = n
    · subst hm
      simp [StatusCache.store] at htask
    · exact h.task sent' r (by
        simpa [StatusCache.store, Function.update_of_ne (Ne.symm hm)] using htask)
  view := by
    intro v' hv' husable
    by_cases hm : m = n
    · subst hm
      have heq : v = v' := by simpa [StatusCache.store] using hv'
      subst heq
      exact .inl (hv rfl husable)
    · exact h.view v' (by
        simpa [StatusCache.store, Function.update_of_ne (Ne.symm hm)] using hv') husable

/-- Replacing the poller of a node by one that has read nothing, or that reads now. -/
theorem Fresh.poller {t : Time} {m : Node} {q : Poller} (h : Fresh p n t c)
    (hq : ∀ sent r, q = .asking sent (some r) → r = c.clock) :
    Fresh p n t { c with tasks := Function.update c.tasks m (some q) } where
  clock := h.clock
  notBefore := h.notBefore
  task := by
    intro sent r htask
    by_cases hm : m = n
    · subst hm
      have heq : q = .asking sent (some r) := by simpa using htask
      exact .inl (by rw [hq sent r heq]; exact h.clock)
    · exact h.task sent r (by simpa [Function.update_of_ne (Ne.symm hm)] using htask)
  view := h.view

/-- Each move keeps `Fresh`. -/
theorem fresh_step {t : Time} {m : Move} (h : Fresh p n t c) (hm : step p c m = some c') :
    Fresh p n t c' := by
  cases m with
  | tick d =>
    cases hm
    refine ⟨?_, h.notBefore, ?_, h.view⟩
    · have hclock := h.clock
      show t ≤ c.clock + (d : Int)
      exact le_trans hclock (by simp)
    · intro sent r htask
      have hle : c.clock ≤ c.clock + (d : Int) := by simp
      exact (h.task sent r htask).imp_right fun hlt => lt_of_lt_of_le hlt hle
  | ensure ns =>
    cases hm
    refine ⟨h.clock, h.notBefore, ?_, h.view⟩
    intro sent r htask
    cases htask' : c.tasks n with
    | none => simp [ensure, htask'] at htask
    | some q =>
      simp only [ensure, htask'] at htask
      exact h.task sent r (htask'.trans htask)
  | close =>
    cases hm
    exact ⟨h.clock, h.notBefore, by simp [close], h.view⟩
  | invalidate =>
    cases hm
    exact ⟨h.clock, h.clock, h.task, h.view⟩
  | send m =>
    simp only [step] at hm
    split at hm
    · split at hm
      · cases hm
        exact h.poller (by simp)
      · cases hm
    · cases hm
  | read m =>
    simp only [step] at hm
    split at hm
    · cases hm
      exact h.poller (by simp)
    · cases hm
  | answer m body =>
    simp only [step] at hm
    split at hm
    · rename_i sent r htask
      split at hm
      · rename_i htime
        cases hm
        -- An answer that comes within its timeout is not the overtaken one.
        refine h.store fun hmn _ => ?_
        subst hmn
        exact (h.task sent r htask).resolve_right (not_lt.mpr htime)
      · cases hm
    · cases hm
  | fail m error =>
    simp only [step] at hm
    split at hm
    · cases hm
      exact h.store fun _ husable => by simp [NodeView.ofAnswer] at husable
    · cases hm

/-- A fresh cache stays fresh over every run. -/
theorem fresh_run {t : Time} (h : Fresh p n t c) (hrun : Reach (step p) Free c c') :
    Fresh p n t c' :=
  hrun.invariant h fun _ _ _ _ hi _ hm => fresh_step hi hm

/-- In a fresh cache every view that is served was read after the call. -/
theorem Fresh.get {t : Time} {now : Option Time} (h : Fresh p n t c)
    (husable : (c.get p n now).usable = true) {v : Stamped} (hv : c.views n = some v) :
    t ≤ v.readFrom := by
  obtain ⟨v', hv', hget, hts⟩ := get_usable husable
  have heq : v = v' := Option.some.inj (hv.symm.trans hv')
  subst heq
  refine (h.view v hv (hget ▸ husable)).resolve_right ?_
  exact not_lt.mpr (le_trans h.notBefore hts)

/-! ### The views that are served after a call -/

/-- A usable view that came after the last call is served. -/
theorem served_of_view {v : Stamped} (hv : c.views n = some v) (husable : v.view.usable = true)
    (hts : c.notBefore ≤ v.ts) : ∃ now, (c.get p n now).usable = true := by
  obtain ⟨now, hget⟩ := exists_get_eq (p := p) hv hts
  exact ⟨now, hget ▸ husable⟩

/-- An overtaken answer arrives at once and is served. -/
theorem served_of_overtaken (h : Overtaken p c n) :
    ∃ c' now v, Reach (step p) Free c.invalidate c' ∧ (c'.get p n now).usable = true ∧
      c'.views n = some v ∧ v.readFrom < c.clock := by
  rcases h with ⟨sent, r, htask, hr, htime⟩ | ⟨v, hv, husable, hts, hr⟩
  · let body : StatusBody := { mysqldAlive := true, mysqldResponsive := true }
    let v : Stamped := ⟨.ofAnswer n (.ok body), c.clock, r⟩
    have hstep : step p c.invalidate (.answer n body) = some (c.invalidate.store p n v sent) := by
      simp [step, invalidate, htask, htime, v]
    have hv : (c.invalidate.store p n v sent).views n = some v := by simp [store]
    obtain ⟨now, hserved⟩ := served_of_view (p := p) hv rfl (le_refl c.clock)
    exact ⟨_, now, v, .single trivial hstep, hserved, hv, hr⟩
  · obtain ⟨now, hserved⟩ := served_of_view (c := c.invalidate) (p := p) hv husable hts
    exact ⟨_, now, v, .refl, hserved, hv, hr⟩

/-- Take the cache at any call of `invalidate`. Every usable view of `n` that `get` serves
from then on was read after the call, if and only if no answer that the agent began to read
before the call was still under way. -/
theorem get_after_invalidate_iff (p : StatusPolling) (c : StatusCache) (n : Node) :
    (∀ c', Reach (step p) Free c.invalidate c' → ∀ now, (c'.get p n now).usable = true →
        ∀ v, c'.views n = some v → c.clock ≤ v.readFrom) ↔ ¬ Overtaken p c n := by
  constructor
  · intro h hover
    obtain ⟨c', now, v, hrun, husable, hv, hr⟩ := served_of_overtaken hover
    exact absurd (h c' hrun now husable v hv) (not_le.mpr hr)
  · intro h c' hrun now husable v hv
    exact (fresh_run (fresh_invalidate h) hrun).get husable hv

/-! ### A view from before the call -/

/-- A fleet with one node that polls twice a second. -/
def oneNode : StatusPolling where
  cfg := { nodes := ["db1"], spare := none, nodes_ne := by decide, nodes_nodup := by decide,
           spare_notMem := by simp, rounds := 0 }
  intervalS := 500

/-- The agent of `db1` begins to read its state at 10. -/
def readAt10 : List Move := [.ensure ["db1"], .send "db1", .tick 10, .read "db1", .tick 10]

/-- Its answer comes at 30. -/
def answerAt30 : List Move :=
  [.tick 10, .answer "db1" { mysqldAlive := true, mysqldResponsive := true }]

/-- The cache is invalidated at 20, and at 30 it serves what the agent read at 10. -/
theorem view_from_before_invalidate_served :
    ¬ ∀ (p : StatusPolling) (t : Time) (c c' : StatusCache),
      Reach (step p) Free (start t) c → Reach (step p) Free c.invalidate c' →
      ∀ n now, (c'.get p n now).usable = true →
        ∀ v, c'.views n = some v → c.clock ≤ v.readFrom := by
  intro h
  let c := Machine.run (step oneNode) (start 0) readAt10
  let c' := Machine.run (step oneNode) c.invalidate answerAt30
  have hbefore : Reach (step oneNode) Free (start 0) c := Machine.reach_run (by decide +kernel)
  have hafter : Reach (step oneNode) Free c.invalidate c' :=
    Machine.reach_run (by decide +kernel)
  have hserved : (c'.get oneNode "db1" none).usable = true := by decide +kernel
  have hread : (c'.views "db1").map (·.readFrom) = some 10 := by decide +kernel
  have hclock : c.clock = 20 := by decide +kernel
  obtain ⟨v, hv, hr⟩ := Option.map_eq_some_iff.mp hread
  have hle := h oneNode 0 c c' hbefore hafter "db1" none hserved v hv
  rw [hclock, hr] at hle
  exact absurd hle (by decide)

end DbGuard.StatusCache
