import DbGuard.Proofs.CatchUp

/-!
# `DbGuard.Proofs.Donors`: the donors of rebuilds

A rebuild names its donor long before it posts anything about it: a replacement is provisioned
first, and every rebuild is a task of its own. `donors` are the nodes that some task has chosen
and may still name, in the /rebuild or in an /unstick. `Fit` says which nodes may be named: a
member seen streaming from the primary, or the primary itself while it is stalled and no member
streams.

`Steady` says what a step may not do while a donor is out: another primary, or a view that
speaks against the donor. Such a step keeps a donor fit (`Fit.steady`). The choices themselves,
of `pick_donor` and of `maybe_replace`, are right about the views that they were made on.
-/

set_option autoImplicit false

namespace DbGuard

open Coop (Prog Pool Move World Contract Checked own)

/-! ### What the manager has seen -/

/-- The view of `n` that an answer gives. -/
def viewOf (n : Node) : Step → Option NodeView
  | .answered _ (.status m) a => if m = n then some (.ofAnswer m a) else none
  | .answered _ (.freshViews ns) a => (Views.ofAnswers ns a).get? n
  | .answered _ (.observe _ ns) a => (Views.ofAnswers ns a.view).get? n
  | _ => none

/-- The last view of `n`. -/
def lastView (n : Node) (l : List Step) : Option NodeView := (l.filterMap (viewOf n)).getLast?

/-- Whether `n` was last seen streaming from the primary of the state. -/
def streaming (l : List Step) (s : Ctl) (n : Node) : Bool :=
  (lastView n l).any (·.replicatingFrom s.primary)

/-- The node may be cloned from and, if it is the primary, unstuck: a streaming replica, or the
stalled primary when no member streams. -/
inductive Fit (l : List Step) (s : Ctl) (d : Node) : Prop
  | replica (member : d ∈ s.members) (other : s.primary ≠ some d)
    (streams : streaming l s d = true)
  | lastResort (primary : s.primary = some d)
    (stalled : s.stalledPrimaryAlive s.lastObs = true)
    (none : ∀ m ∈ s.members, m ≠ d → streaming l s m = false)

/-- The donor that a request names. -/
def Req.donor : Req → Option Node
  | .rebuild _ d => some d
  | .unstick d => some d
  | _ => none

/-- A posted /rebuild or /unstick names a node that may be the donor. -/
def Donated (l : List Step) : Step → Prop
  | .issued _ _ r s => ∀ d, r.donor = some d → Fit l s d
  | _ => True

/-! ### Donors that are out -/

/-- The donor of a task that clones or keeps releasing sessions. -/
def Job.donor : Job → Option Node
  | .rebuildAndJoin args => some args.donor
  | .replace _ donor => some donor
  | .keepUnstuck donor => some donor
  | _ => none

/-- The last step of a task that names its donor: the /rebuild, or its end. -/
def isLastPost : Step → Bool
  | .issued _ _ (.rebuild _ _) _ => true
  | .finished _ _ => true
  | _ => false

/-- `_keep_unstuck`, which ends when it is cancelled. -/
def Job.isKeeper : Job → Bool
  | .keepUnstuck _ => true
  | _ => false

/-- Whether task `t` with job `j` will not name its donor any more. -/
def isDone (w : World sig) (t : Nat) (j : Job) : Bool :=
  (own t w.log).any isLastPost || j.isKeeper && t ∈ w.state.cancelled

/-- The donor that task `t` may still name. -/
def donorOf (w : World sig) (t : Nat) : Option Node :=
  (w.jobs[t]?).bind fun j => if isDone w t j then none else j.donor

/-- The donors that are out. -/
def donors (w : World sig) : List Node :=
  (List.range w.jobs.length).filterMap (donorOf w)

/-- The views of `n` that came in from `w` to `w'`. -/
def newViews (w w' : World sig) (n : Node) : List NodeView :=
  (w'.log.drop w.log.length).filterMap (viewOf n)

/-- Nothing from `w` to `w'` speaks against the donor `d`. The set gets no other primary. When
`d` is a replica, no view of it comes in that does not show it streaming. When `d` is the primary,
no poll ends its stall, no view of a member comes in that shows it streaming, and no node that
streams becomes a member. -/
structure Steady (w w' : World sig) (d : Node) : Prop where
  primary : w'.state.primary = w.state.primary
  replica : w.state.primary ≠ some d → ∀ nv ∈ newViews w w' d,
    nv.replicatingFrom w.state.primary = true
  stalled : w.state.primary = some d → w.state.stalledPrimaryAlive w.state.lastObs = true →
    w'.state.stalledPrimaryAlive w'.state.lastObs = true
  views : w.state.primary = some d → ∀ m ∈ w'.state.members, m ≠ d → ∀ nv ∈ newViews w w' m,
    nv.replicatingFrom w.state.primary = false
  joins : w.state.primary = some d → ∀ m ∈ w'.state.members, m ∉ w.state.members →
    streaming w.log w.state m = false

instance (w w' : World sig) (d : Node) : Decidable (Steady w w' d) :=
  decidable_of_iff
    (w'.state.primary = w.state.primary ∧
      (w.state.primary ≠ some d → ∀ nv ∈ newViews w w' d,
        nv.replicatingFrom w.state.primary = true) ∧
      (w.state.primary = some d → w.state.stalledPrimaryAlive w.state.lastObs = true →
        w'.state.stalledPrimaryAlive w'.state.lastObs = true) ∧
      (w.state.primary = some d → ∀ m ∈ w'.state.members, m ≠ d → ∀ nv ∈ newViews w w' m,
        nv.replicatingFrom w.state.primary = false) ∧
      (w.state.primary = some d → ∀ m ∈ w'.state.members, m ∉ w.state.members →
        streaming w.log w.state m = false))
    ⟨fun h => ⟨h.1, h.2.1, h.2.2.1, h.2.2.2.1, h.2.2.2.2⟩,
      fun h => ⟨h.primary, h.replica, h.stalled, h.views, h.joins⟩⟩

/-- The node that a task rejoins. -/
def Job.rejoined : Job → Option Node
  | .rejoinNode n _ => some n
  | .verifyAfterRepoint n _ => some n
  | .rejoin n => some n
  | _ => none

/-- Whether the answer to a request of a task with job `j` comes at a moment when a donor that is
chosen by it will do. A poll comes at a bad moment while the lock is free and others wait for
it, because then the tick waits too and chooses by old views. The views that a donor is picked
from come at a bad moment when the primary is stalled and a member that they leave out streams. -/
def timely (w : World sig) (j : Job) : Req → Bool
  | .observe _ _ => w.state.lock.owner.isSome || w.state.lock.waiters.isEmpty
  | .freshViews ns =>
    !(j.rejoined.any (· ∉ ns) && w.state.stalledPrimaryAlive w.state.lastObs) ||
      w.state.members.all fun m =>
        m ∈ ns || w.state.primary = some m || !streaming w.log w.state m
  | _ => true

section
variable {l l' : List Step} {s s' : Ctl} {d n : Node} {e : Step} {w w' : World sig} {t : Nat}
  {j : Job} {u : Update}

/-! ### Steps that are no views -/

/-- An event that shows nothing leaves the last view. -/
theorem lastView_concat (h : viewOf n e = none) : lastView n (l ++ [e]) = lastView n l := by
  simp [lastView, List.filterMap_append, h]

/-- One that shows the node is the last view. -/
theorem lastView_concat_some {nv : NodeView} (h : viewOf n e = some nv) :
    lastView n (l ++ [e]) = some nv := by
  simp [lastView, List.filterMap_append, h]

/-- Whether a node may be the donor depends on the views, the primary, the members and the last
poll. -/
theorem Fit.congr (h : Fit l s d) (hview : ∀ n, lastView n l' = lastView n l)
    (hprimary : s'.primary = s.primary) (hmembers : s'.members = s.members)
    (hobs : s'.lastObs = s.lastObs) : Fit l' s' d := by
  have hstream : ∀ n, streaming l' s' n = streaming l s n := by
    intro n
    rw [streaming, streaming, hview, hprimary]
  cases h with
  | replica member other streams =>
      exact .replica (hmembers ▸ member) (hprimary ▸ other) (by rw [hstream, streams])
  | lastResort primary stalled none =>
      refine .lastResort (hprimary ▸ primary) ?_ fun m hm hne => ?_
      · rw [hobs]
        unfold Ctl.stalledPrimaryAlive at stalled ⊢
        rw [hprimary]
        exact stalled
      · rw [hstream]
        exact none m (hmembers ▸ hm) hne

/-- The last view of a node after more steps is one of theirs, or the one before. -/
theorem lastView_append (Y : List Step) :
    lastView n (l ++ Y) = ((Y.filterMap (viewOf n)).getLast?).or (lastView n l) := by
  simp [lastView, List.filterMap_append, List.getLast?_append]

/-- What all the views that came in show as the last one before them, the last one shows. -/
theorem streaming_of_newViews {b : Bool} (hgrows : w.log <+: w'.log)
    (hprimary : w'.state.primary = w.state.primary)
    (hviews : ∀ nv ∈ newViews w w' n, nv.replicatingFrom w.state.primary = b)
    (h : streaming w.log w.state n = b) : streaming w'.log w'.state n = b := by
  obtain ⟨Y, hY⟩ := hgrows
  have hnew : newViews w w' n = Y.filterMap (viewOf n) := by
    rw [newViews, ← hY, List.drop_left]
  rw [streaming, ← hY, lastView_append, hprimary, ← hnew]
  cases hlast : (newViews w w' n).getLast? with
  | none => exact h
  | some nv => exact hviews nv (List.mem_of_getLast? hlast)

/-- A steady step keeps a donor fit. -/
theorem Fit.steady (h : Fit w.log w.state d) (hs : Steady w w' d) (hgrows : w.log <+: w'.log)
    (hm : ∀ m ∈ w.state.members, m ∈ w'.state.members) : Fit w'.log w'.state d := by
  cases h with
  | replica member other streams =>
      refine .replica (hm d member) (hs.primary ▸ other) ?_
      exact streaming_of_newViews hgrows hs.primary (hs.replica other) streams
  | lastResort primary stalled none =>
      refine .lastResort (hs.primary.trans primary) (hs.stalled primary stalled) ?_
      intro m hmem hne
      refine streaming_of_newViews hgrows hs.primary (hs.views primary m hmem hne) ?_
      by_cases hold : m ∈ w.state.members
      · exact none m hold hne
      · exact hs.joins primary m hmem hold

/-! ### How the donors change -/

/-- The donors are those of tasks that are not done. -/
theorem mem_donors :
    d ∈ donors w ↔
      ∃ t j, w.jobs[t]? = some j ∧ isDone w t j = false ∧ j.donor = some d := by
  have hspec : ∀ t, donorOf w t = some d ↔
      ∃ j, w.jobs[t]? = some j ∧ isDone w t j = false ∧ j.donor = some d := by
    intro t
    simp [donorOf, Option.bind_eq_some_iff]
  constructor
  · intro h
    obtain ⟨t, -, ht⟩ := List.mem_filterMap.mp h
    exact ⟨t, (hspec t).mp ht⟩
  · rintro ⟨t, j, hjob, hd⟩
    refine List.mem_filterMap.mpr ⟨t, ?_, (hspec t).mpr ⟨j, hjob, hd⟩⟩
    exact List.mem_range.mpr (List.getElem?_eq_some_iff.mp hjob).1

/-- A cancelled task stays cancelled. -/
theorem cancelled_apply {i : Nat} (h : i ∈ s.cancelled) : i ∈ (u.apply s).cancelled := by
  have hgoTo : ∀ new note emit detect, (s.goTo new note emit detect).cancelled = s.cancelled :=
    goTo_keeps (f := Ctl.cancelled) (fun _ _ _ => rfl) s
  cases u with
  | goTo new note emit detect => exact (hgoTo new note emit detect).symm ▸ h
  | halt reason => exact (hgoTo .halted (some reason) true none).symm ▸ h
  | resume => exact (resume_keeps (f := Ctl.cancelled) (fun _ _ _ => rfl) s).symm ▸ h
  | cancel t => exact List.mem_cons_of_mem t h
  | _ => exact h

/-- A task is not done before its last post, or for a keeper its cancellation. -/
theorem isDone_eq_false :
    isDone w t j = false ↔
      (own t w.log).any isLastPost = false ∧ (j.isKeeper = true → t ∉ w.state.cancelled) := by
  cases hkeeper : j.isKeeper <;> simp [isDone, hkeeper]

/-- A change of the state frees donors only. -/
theorem donors_edit (h : d ∈ donors (w.edit u)) : d ∈ donors w := by
  obtain ⟨t, j, hjob, hdone, hd⟩ := mem_donors.mp h
  obtain ⟨hlast, hkeeper⟩ := isDone_eq_false.mp hdone
  refine mem_donors.mpr ⟨t, j, hjob, isDone_eq_false.mpr ⟨hlast, fun hk => ?_⟩, hd⟩
  exact fun hc => hkeeper hk (cancelled_apply hc)

/-- So does a step. -/
theorem donors_record (h : d ∈ donors (w.record e)) : d ∈ donors w := by
  obtain ⟨t, j, hjob, hdone, hd⟩ := mem_donors.mp h
  obtain ⟨hlast, hkeeper⟩ := isDone_eq_false.mp hdone
  refine mem_donors.mpr ⟨t, j, hjob, isDone_eq_false.mpr ⟨?_, hkeeper⟩, hd⟩
  have hboth : (own t (w.log ++ [e])).any isLastPost = false := hlast
  rw [Coop.own_append, List.any_append, Bool.or_eq_false_iff] at hboth
  exact hboth.1

/-- A new task brings its own donor. -/
theorem donors_arrive (h : d ∈ donors (w.arrive j)) : d ∈ donors w ∨ j.donor = some d := by
  obtain ⟨t, j', hjob, hdone, hd⟩ := mem_donors.mp h
  rw [World.arrive_jobs, List.getElem?_append] at hjob
  split at hjob
  · exact .inl (mem_donors.mpr ⟨t, j', hjob, hdone, hd⟩)
  · right
    have hj : j = j' := List.mem_singleton.mp (List.mem_of_getElem? hjob) |>.symm
    rw [hj, hd]

/-- A new task brings its donor and no other. -/
theorem donors_spawn (h : d ∈ donors (w.spawn t j)) : d ∈ donors w ∨ j.donor = some d :=
  donors_arrive (donors_record h)

/-! ### The choices -/

/-- A healthy replica is another member that streams from the primary. -/
theorem mem_healthyReplicas {vs : Views} {m : Node} :
    m ∈ s.healthyReplicas vs n ↔
      m ∈ s.members ∧ s.primary ≠ some m ∧ m ≠ n ∧
        (vs.get? m).any (·.replicatingFrom s.primary) = true := by
  simp only [Ctl.healthyReplicas, List.mem_filter, Bool.and_eq_true, decide_eq_true_eq, and_assoc,
    ne_comm (a := some m)]

/-- What a timely answer to the views of a donor says of the members that they leave out. -/
theorem left_out_of_timely {ns : List Node} (hj : j.rejoined = some n) (hns : n ∉ ns)
    (h : timely w j (.freshViews ns) = true)
    (hstalled : w.state.stalledPrimaryAlive w.state.lastObs = true) :
    ∀ m ∈ w.state.members, m ∉ ns → w.state.primary ≠ some m →
      streaming w.log w.state m = false := by
  intro m hm hout hother
  simp only [timely, hj, Option.any_some, hns, not_false_eq_true, decide_true, hstalled,
    Bool.and_self, Bool.not_true, Bool.false_or, List.all_eq_true] at h
  simpa [hout, hother] using h m hm

/-- The donor of `pick_donor`, when the views that it was picked from have just come in. -/
theorem fit_of_pickDonor {ns : List Node} {a : Node → Except String StatusBody} {note : String}
    (hpick : pickDonor w.state (.ofAnswers ns a) n = some (d, note)) (hns : n ∉ ns)
    (hleft : w.state.stalledPrimaryAlive w.state.lastObs = true → ∀ m ∈ w.state.members,
      m ∉ ns → w.state.primary ≠ some m → streaming w.log w.state m = false) :
    Fit (w.log ++ [.answered t (.freshViews ns) a]) w.state d := by
  have hin : ∀ m ∈ ns, streaming (w.log ++ [.answered t (.freshViews ns) a]) w.state m =
      ((Views.ofAnswers ns a).get? m).any (·.replicatingFrom w.state.primary) := by
    intro m hm
    have hget : (Views.ofAnswers ns a).get? m = some ((Views.ofAnswers ns a).view m) :=
      Views.get?_of_mem hm
    have hview : viewOf m (.answered t (.freshViews ns) a : Step) = _ := hget
    rw [streaming, lastView_concat_some hview, hget]
  have hout : ∀ m, m ∉ ns → streaming (w.log ++ [.answered t (.freshViews ns) a]) w.state m =
      streaming w.log w.state m := by
    intro m hm
    have hview : viewOf m (.answered t (.freshViews ns) a : Step) = none := if_neg hm
    rw [streaming, streaming, lastView_concat hview]
  unfold pickDonor at hpick
  split at hpick
  · rename_i donor rest hhead
    cases hpick
    have hmem : d ∈ w.state.healthyReplicas (.ofAnswers ns a) n := by simp [hhead]
    obtain ⟨hmember, hother, -, hstreams⟩ := mem_healthyReplicas.mp hmem
    have hd : d ∈ ns := by
      by_contra hd
      have hget : (Views.ofAnswers ns a).get? d = none := if_neg hd
      rw [hget] at hstreams
      cases hstreams
    exact .replica hmember hother (by rw [hin d hd, hstreams])
  · rename_i hnone
    split at hpick
    · rename_i hstalled
      obtain ⟨p, hp, heq⟩ := Option.map_eq_some_iff.mp hpick
      cases heq
      refine .lastResort hp hstalled fun m hmember hne => ?_
      have hother : w.state.primary ≠ some m := by
        rw [hp]
        exact fun h => hne (Option.some.inj h).symm
      by_cases hm : m ∈ ns
      · rw [hin m hm]
        -- It would be among the healthy replicas.
        refine Bool.eq_false_of_not_eq_true fun hstreams => ?_
        have hmn : m ≠ n := fun h => hns (h ▸ hm)
        have hmem := mem_healthyReplicas.mpr ⟨hmember, hother, hmn, hstreams⟩
        rw [hnone] at hmem
        cases hmem
      · rw [hout m hm]
        exact hleft hstalled m hmember hm hother
    · cases hpick

end

end DbGuard
