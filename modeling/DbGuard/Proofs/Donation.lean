import DbGuard.Proofs.Donors
import DbGuard.Proofs.Script

/-!
# `DbGuard.Proofs.Donation`: who is cloned from and unstuck

The contract of the donors: when every step is steady for the donors that are out, and the
answers that a donor is chosen by are timely, every donor that is out is fit, and so is every
node that a /rebuild or an /unstick names. `donors_fit` says so of every run.

Nothing in the code makes a step steady. A replacement names the donor that it was started
with, and `rebuild_and_join` takes a donor that is the primary by now for a stalled one.
`unstick_healthy` is such a run.
-/

set_option autoImplicit false

namespace DbGuard

open Coop (Prog Pool Move World Contract Checked own)

/-- The contract of the donors. -/
def donation : Contract sig where
  inv w := Checked Donated w.log ∧ ∀ d ∈ donors w, Fit w.log w.state d
  rely _ _ _ := True
  allowed _ w₀ w := ∀ d ∈ donors w₀, Steady w₀ w d
  answers t w r _ := ∀ j, w.jobs[t]? = some j → timely w j r = true
  may _ _ w := Checked Donated w.log ∧ ∀ d ∈ donors w, Fit w.log w.state d
  pre _ _ _ := True

/-! ### Segments -/

/-- A segment so far, of task `t` with job `j`. A donor that it has chosen itself is fit, and
`fresh` says whether there may be one. -/
structure Segment (fresh : Bool) (t : Nat) (j : Job) (w₀ w : World sig) : Prop where
  fit : ∀ d ∈ donors w₀, Fit w₀.log w₀.state d
  checked : Checked Donated w.log
  grown : w₀.log <+: w.log
  members : ∀ m ∈ w₀.state.members, m ∈ w.state.members
  known : ∀ d ∈ donors w, d ∈ donors w₀ ∨ fresh = true ∧ Fit w.log w.state d
  job : w.jobs[t]? = some j

/-- The change keeps what a choice rests on. -/
def Update.Harmless (u : Update) : Prop :=
  ∀ s : Ctl, (u.apply s).primary = s.primary ∧ (u.apply s).members = s.members ∧
    (u.apply s).lastObs = s.lastObs

section
variable {fresh : Bool} {t : Nat} {j j' : Job} {w₀ w w' : World sig} {e : Step} {d : Node}
  {u : Update}

/-- A member stays one. -/
theorem mem_members_apply {m : Node} {s : Ctl} (h : m ∈ s.members) :
    m ∈ (u.apply s).members := by
  cases u with
  | addMember n => exact List.mem_append_left _ h
  | goTo new note emit detect => exact (members_goTo s new note emit detect).symm ▸ h
  | halt reason => exact (members_goTo s .halted (some reason) true none).symm ▸ h
  | resume => exact (resume_keeps (f := Ctl.members) (fun _ _ _ => rfl) s).symm ▸ h
  | _ => exact h

namespace Segment

/-- A segment that has just begun. -/
theorem refl (hi : donation.inv w) (hj : w.jobs[t]? = some j) : Segment fresh t j w w :=
  ⟨hi.2, hi.1, List.prefix_refl _, fun _ hm => hm, fun _ hd => .inl hd, hj⟩

/-- A segment with no fresh donor is one that may have some. -/
theorem weaken (h : Segment false t j w₀ w) : Segment fresh t j w₀ w :=
  { h with
    known := fun d hd => .inl ((h.known d hd).resolve_right fun hf => absurd hf.1 nofun) }

/-- The donors of a segment whose steps were steady. -/
theorem fit_of_steady (h : Segment fresh t j w₀ w) (hs : ∀ d ∈ donors w₀, Steady w₀ w d) :
    ∀ d ∈ donors w, Fit w.log w.state d := by
  intro d hd
  rcases h.known d hd with hold | ⟨-, hfit⟩
  · exact (h.fit d hold).steady (hs d hold) h.grown h.members
  · exact hfit

/-- A harmless change, or any where no donor is fresh. -/
theorem edit (h : Segment fresh t j w₀ w) (hu : fresh = true → u.Harmless) :
    Segment fresh t j w₀ (w.edit u) where
  fit := h.fit
  checked := h.checked
  grown := h.grown
  members m hm := mem_members_apply (h.members m hm)
  known d hd := by
    refine (h.known d (donors_edit hd)).imp id fun ⟨hfresh, hfit⟩ => ⟨hfresh, ?_⟩
    obtain ⟨hprimary, hmembers, hobs⟩ := hu hfresh w.state
    exact hfit.congr (fun _ => rfl) hprimary hmembers hobs
  job := h.job

/-- A record that names a fit donor or none, and shows no new view of a node. -/
theorem record (h : Segment fresh t j w₀ w) (he : Donated w.log e)
    (hview : fresh = true → ∀ n, viewOf n e = none) : Segment fresh t j w₀ (w.record e) where
  fit := h.fit
  checked := h.checked.concat he
  grown := h.grown.trans (List.prefix_append _ _)
  members := h.members
  known d hd := by
    refine (h.known d (donors_record hd)).imp id fun ⟨hfresh, hfit⟩ => ⟨hfresh, ?_⟩
    exact hfit.congr (fun n => lastView_concat (hview hfresh n)) rfl rfl rfl
  job := h.job

/-- A new task. Its donor is out already, or it was chosen well. -/
theorem spawn (h : Segment fresh t j w₀ w)
    (hj : ∀ d, j'.donor = some d → d ∈ donors w₀ ∨ fresh = true ∧ Fit w.log w.state d) :
    Segment fresh t j w₀ (w.spawn t j') where
  fit := h.fit
  checked := h.checked.concat trivial
  grown := h.grown.trans (List.prefix_append _ _)
  members := h.members
  known d hd := by
    have hknown : d ∈ donors w₀ ∨ fresh = true ∧ Fit w.log w.state d :=
      (donors_spawn hd).elim (h.known d) (hj d)
    refine hknown.imp id fun ⟨hfresh, hfit⟩ => ⟨hfresh, ?_⟩
    exact hfit.congr (fun n => lastView_concat rfl) rfl rfl rfl
  job := by
    rw [World.spawn_jobs, List.getElem?_append_left (List.getElem?_eq_some_iff.mp h.job).1]
    exact h.job

end Segment

/-- A request that names a donor which is out. -/
theorem Segment.issue {r : Req} (h : Segment fresh t j w₀ w)
    (hr : ∀ d, r.donor = some d → d ∈ donors w₀)
    (hs : ∀ d ∈ donors w₀, Steady w₀ (w.issue t j r) d) :
    Segment fresh t j w₀ (w.issue t j r) := by
  refine h.record (fun d hd => ?_) fun _ _ => rfl
  have hgrown : w₀.log <+: (w.issue t j r).log := h.grown.trans (List.prefix_append _ _)
  have hfit := (h.fit d (hr d hd)).steady (hs d (hr d hd)) hgrown h.members
  exact hfit.congr (fun n => (lastView_concat rfl).symm) rfl rfl rfl

section
variable {α : Type} {Q : α → World sig → World sig → Prop} {γ : Type} {m : M γ}
  {V : Vocabulary}

/-- A task that goes on has no fresh donor. -/
theorem Segment.resume (h : Segment fresh t j w₀ w) (hi : (base.upon donation).inv w')
    (hr : (base.upon donation).rely t w w') : Segment false t j w' w' :=
  .refl hi.2 (hr.1.1.job h.job)

/-- The rule of a request. -/
theorem Segment.await {r : Req} {k : r.Resp → M α} (h : Segment fresh t j w₀ w)
    (hr : ∀ d, r.donor = some d → d ∈ donors w₀)
    (hk : ∀ a w', Segment false t j w' (w'.answer t r a) →
      own t (w'.answer t r a).log =
        own t w.log ++ [.issued t j r w.state, .answered t r a] → timely w' j r = true →
          (k a).wp (base.upon donation) t j Q w' (w'.answer t r a)) :
    (await r >>= k).wp (base.upon donation) t j Q w₀ w := by
  rw [wp_await]
  intro ha
  have hissue := h.issue hr ha.2
  refine ⟨⟨hissue.checked, hissue.fit_of_steady ha.2⟩, fun w' a hi hrely hans => ?_⟩
  have hresume := hissue.resume hi hrely
  refine hk a w' (hresume.record trivial nofun) ?_ (hans.2 j hresume.job)
  have hown : own t w'.log = own t (w.log ++ [.issued t j r w.state]) := hrely.1.1.own
  show own t (w'.log ++ [.answered t r a]) = _
  rw [Coop.own_append, hown, Coop.own_append, List.append_assoc]
  simp [own, Coop.Event.isBy]

/-- What a segment may do that keeps a fresh donor fit, and names none. -/
structure Vocabulary.Modest (fresh : Bool) (V : Vocabulary) : Prop where
  edits : fresh = true → ∀ u, V.edits u → u.Harmless
  awaits : ∀ r, V.awaits r → r.donor = none
  creates : ∀ j, V.creates j → j.donor = none
  nodeTasks : ∀ n j, V.nodeTasks n j → j.donor = none
  maints : ∀ j ns, ¬V.maints j ns
  joins : fresh = true → ∀ n, ¬V.joins n

/-- The start of a node task is harmless. -/
theorem harmless_nodeTask (n : Node) (i : Nat) : (Update.nodeTask n i).Harmless :=
  fun _ => ⟨rfl, rfl, rfl⟩

/-- A request without a donor names none. -/
theorem of_no_donor {o : Option Node} {P : Node → Prop} (h : o = none) : ∀ d, o = some d → P d := by
  intro d hd
  rw [h] at hd
  cases hd

/-- A modest vocabulary keeps the segment. -/
theorem modest_kept (hV : V.Modest fresh) :
    V.Kept (base.upon donation) t j (Segment fresh t j) where
  edit h hu := h.edit fun hf => hV.edits hf _ hu
  await {w₀ w r} h hr := by
    have hk := h.await (k := fun a => pure a) (Q := fun _ w₀ w => Segment fresh t j w₀ w)
      (of_no_donor (hV.awaits r hr)) fun a w' h' _ _ => h'.weaken
    exact hk
  create h hj := h.spawn (of_no_donor (hV.creates _ hj))
  nodeTask h hj _ :=
    (h.spawn (of_no_donor (hV.nodeTasks _ _ hj))).edit fun _ => harmless_nodeTask _ _
  maint _ hj := absurd hj (hV.maints _ _)
  join h hn _ := h.edit fun hf => absurd hn (hV.joins hf _)
  block _ h ha :=
    ⟨⟨h.checked, h.fit_of_steady ha.2⟩, fun w' hi hr _ => (h.resume hi hr).weaken⟩

/-- So a program of modest words does. -/
theorem wp_modest (hV : V.Modest fresh) (hm : Speaks V m) (h : Segment fresh t j w₀ w) :
    m.wp (base.upon donation) t j (fun _ w₀ w => Segment fresh t j w₀ w) w₀ w :=
  (modest_kept hV).wp hm h

end

/-! ### A rejoin -/

section
variable {α : Type} {m : M α} {n : Node}

/-- A node task is modest until it starts the maintenance task. -/
theorem node_modest (n : Node) : (nodeVocabulary n).noMaint.Modest true where
  edits _ u hu := by
    cases u
    case backoff => exact fun _ => ⟨rfl, rfl, rfl⟩
    case event => exact fun _ => ⟨rfl, rfl, rfl⟩
    all_goals exact hu.elim
  awaits r hr := by cases r <;> first | rfl | exact hr.elim
  creates _ hj := hj.elim
  nodeTasks _ _ hj := by
    obtain ⟨-, primary, rfl⟩ := hj
    rfl
  maints _ _ hj := hj
  joins _ _ hn := hn

/-- The choice of a donor, and the start of the rebuild from it. -/
theorem wp_tryRebuild (phantom : GtidSet) (why : String) (branch : Branch)
    (hj : j.rejoined = some n) (h : Segment true t j w₀ w) :
    (tryRebuild n phantom why branch).wp (base.upon donation) t j
      (fun _ w₀ w => Segment true t j w₀ w) w₀ w := by
  unfold tryRebuild
  refine Prog.wp_seq (wp_modest (node_modest n) waitMaintenanceSlot_speaks h) fun _ w₀ w h => ?_
  rw [wp_look]
  unfold freshViews
  rw [bind_assoc]
  refine h.await nofun fun a w' h' _ htimely => ?_
  rw [pure_bind, wp_look]
  split
  · exact h'.weaken
  · rename_i donor dnote hpick
    unfold startMaintenance
    rw [wp_look]
    split
    · exact h'.weaken
    · -- the donor was picked from the views that this segment started with
      have hns : n ∉ w.state.members.filter (· ≠ n) := by simp
      have hfit := fit_of_pickDonor (t := t) (w := w') hpick hns
        (left_out_of_timely hj hns htimely)
      refine ((Segment.weaken h').spawn fun d hd => ?_).edit fun _ _ => ⟨rfl, rfl, rfl⟩
      cases hd
      exact .inr ⟨rfl, hfit⟩

/-- A rejoin and its parts. -/
theorem wp_rejoins (hj : j.rejoined = some n) (hm : Rejoins (nodeVocabulary n) n m)
    (h : Segment true t j w₀ w) :
    m.wp (base.upon donation) t j (fun _ w₀ w => Segment true t j w₀ w) w₀ w := by
  refine Prog.wp_of_madeOf (fun γ m hp w₀ w hk => ?_) hm h
  cases hp with
  | part hp => exact (modest_kept (node_modest n)).part hp hk
  | tryRebuild phantom why branch => exact wp_tryRebuild phantom why branch hj hk

end

/-! ### A rebuild -/

/-- What a segment does that names no donor. -/
def calmVocabulary : Vocabulary where
  edits _ := True
  awaits r := r.donor = none
  creates j := j.donor = none
  nodeTasks _ j := j.donor = none
  joins _ := True

/-- What names no donor is modest where none is fresh. -/
theorem calm_modest : calmVocabulary.Modest false where
  edits := nofun
  awaits _ hr := hr
  creates _ hj := hj
  nodeTasks _ _ hj := hj
  maints _ _ hj := hj
  joins := nofun

/-- What a rebuild from `donor` does up to its /rebuild. -/
def prepareVocabulary (donor : Node) : Vocabulary where
  edits _ := True
  awaits
    | .status _ | .sleep | .provision _ => True
    | .unstick m => m = donor
    | _ => False
  creates j := j = .keepUnstuck donor

/-- Quieting the donor is part of the preparation of a rebuild. -/
theorem quiet_le_prepare (donor : Node) :
    (quietVocabulary donor).Le (prepareVocabulary donor) where
  edits _ _ := trivial
  awaits r h := by cases r <;> trivial
  creates _ h := h
  nodeTasks _ _ h := h.elim
  maints _ _ h := h.elim
  joins _ h := h.elim

/-- Joining the rebuilt node names no donor. -/
theorem join_le_calm (node : Node) (type : EventType) :
    (joinVocabulary node type).Le calmVocabulary where
  edits _ _ := trivial
  awaits r h := by cases r <;> first | rfl | exact h.elim
  creates _ h := h.elim
  nodeTasks _ _ h := h.elim
  maints _ _ h := h.elim
  joins _ h := h.elim

/-- A segment of a task that has donor `d` and may still name it. -/
structure Naming (t : Nat) (j : Job) (d : Node) (w₀ w : World sig) : Prop
    extends Segment false t j w₀ w where
  donor : j.donor = some d
  last : (own t w.log).any isLastPost = false

namespace Naming

/-- Its donor is out since the segment began, unless it is a keeper that was cancelled. -/
theorem mem (h : Naming t j d w₀ w) (hk : j.isKeeper = true → t ∉ w.state.cancelled) :
    d ∈ donors w₀ := by
  have hd := mem_donors.mpr ⟨t, j, h.job, isDone_eq_false.mpr ⟨h.last, hk⟩, h.donor⟩
  exact (h.known d hd).resolve_right fun hf => absurd hf.1 nofun

/-- The donor may still be named after a change. -/
theorem edit (h : Naming t j d w₀ w) : Naming t j d w₀ (w.edit u) :=
  ⟨h.toSegment.edit (by simp), h.donor, h.last⟩

variable {α : Type} {Q : α → World sig → World sig → Prop} {γ : Type} {m : M γ}

/-- The rule of a request before the last one. -/
theorem await {r : Req} {k : r.Resp → M α} (h : Naming t j d w₀ w)
    (hr : ∀ m, r.donor = some m → m ∈ donors w₀) (hlast : ∀ s, isLastPost (.issued t j r s) = false)
    (hk : ∀ a w', Naming t j d w' (w'.answer t r a) →
      (k a).wp (base.upon donation) t j Q w' (w'.answer t r a)) :
    (await r >>= k).wp (base.upon donation) t j Q w₀ w := by
  refine h.toSegment.await hr fun a w' h' hown _ => hk a w' ⟨h', h.donor, ?_⟩
  rw [hown, List.any_append, h.last, List.any_cons, hlast w.state]
  rfl

/-- The preparation keeps it so. -/
theorem kept (hkeeper : j.isKeeper = false) :
    (prepareVocabulary d).Kept (base.upon donation) t j (Naming t j d) :=
  -- A task that is no keeper has named its donor.
  have hmem : ∀ {w₀ w}, Naming t j d w₀ w → d ∈ donors w₀ :=
    fun h => h.mem fun hk => absurd hk (by simp [hkeeper])
  { edit := fun h _ => h.edit
    await := fun {w₀ w r} h hr => by
      refine h.await (k := fun a => pure a) (fun m hd => ?_) ?_ fun a w' h' => h'
      · cases r
        -- Its nudges go to the donor, and every other request names none.
        case unstick =>
          cases hd
          exact (show m = d from hr) ▸ hmem h
        case rebuild => exact hr.elim
        all_goals cases hd
      · intro s
        cases r
        case rebuild => exact hr.elim
        all_goals rfl
    -- The keeper that it creates is for the same donor.
    create := fun {w₀ w j'} h hj => by
      cases hj
      refine ⟨h.toSegment.spawn fun m hd => ?_, h.donor, ?_⟩
      · cases hd
        exact .inl (hmem h)
      · show (own t (w.log ++ [.created t (.keepUnstuck d) w.jobs.length])).any isLastPost = false
        rw [Coop.own_append, List.any_append, h.last]
        -- A spawn is no last post.
        simp [own, Coop.Event.isBy, isLastPost]
    nodeTask := fun _ hj => hj.elim
    maint := fun _ hj => hj.elim
    join := fun _ hn => hn.elim
    block := fun _ h ha => by
      refine ⟨⟨h.checked, h.fit_of_steady ha.2⟩, fun w' hi hr _ => ?_⟩
      exact ⟨h.toSegment.resume hi hr, h.donor, by rw [hr.1.1.own, h.last]⟩ }

/-- So a program of the preparation does. -/
theorem wp (hm : Speaks (prepareVocabulary d) m) (hkeeper : j.isKeeper = false)
    (h : Naming t j d w₀ w) :
    m.wp (base.upon donation) t j (fun _ w₀ w => Naming t j d w₀ w) w₀ w :=
  (kept hkeeper).wp hm h

end Naming

section
variable {cfg : Config}

/-- The rebuild names its donor in the /rebuild for the last time. -/
theorem wp_rebuildAndJoin_names (args : Rebuild) (hkeeper : j.isKeeper = false)
    (h : Naming t j args.donor w₀ w) :
    (rebuildAndJoin cfg args).wp (base.upon donation) t j
      (fun _ w₀ w => Segment false t j w₀ w) w₀ w := by
  have hjoin := join_le_calm args.node args.eventType
  unfold rebuildAndJoin
  rw [wp_edit, wp_look]
  refine Prog.wp_seq (Naming.wp ((quietDonor_speaks args _).mono (quiet_le_prepare _)) hkeeper
    h.edit) fun r w₀ w h => ?_
  obtain ⟨quiet, keeper⟩ := r
  dsimp only
  split
  · exact h.toSegment
  · refine h.toSegment.await (fun d hd => ?_) fun resp w' h' _ _ => wp_modest calm_modest ?_ h'
    · cases hd
      exact h.mem fun hk => absurd hk (by simp [hkeeper])
    · cases resp with
      | error e =>
          refine speaks_look fun s => speaks_bind (speaks_event trivial) fun _ => ?_
          exact speaks_bind ((stopKeeper_speaks args keeper).mono hjoin) fun _ => speaks_pure _
      | ok body =>
          refine speaks_bind ((stopKeeper_speaks args keeper).mono hjoin) fun _ => ?_
          exact speaks_bind ((joinRebuilt_speaks cfg args body).mono hjoin) fun _ => speaks_pure _

/-- A replacement names the donor of its job. -/
theorem wp_replace_names {spare : Node} (hj : j = .replace spare d)
    (h : Naming t j d w₀ w) :
    (replace cfg spare d).wp (base.upon donation) t j
      (fun _ w₀ w => Segment false t j w₀ w) w₀ w := by
  have hkeeper : j.isKeeper = false := by rw [hj]; rfl
  have hgive : ∀ note w₀ w, Naming t j d w₀ w →
      (giveUpReplacing note).wp (base.upon donation) t j
        (fun _ w₀ w => Segment false t j w₀ w) w₀ w := by
    intro note w₀ w h
    refine wp_modest calm_modest ?_ h.toSegment
    unfold giveUpReplacing
    exact speaks_look fun s => speaks_bind (speaks_event trivial) fun _ => speaks_edit trivial
  unfold replace
  rw [wp_edit]
  refine h.edit.await (of_no_donor rfl) (fun _ => rfl) fun a w' h' => ?_
  cases a with
  | error e => exact hgive _ _ _ h'
  | ok _ =>
      dsimp only
      rw [wp_look]
      refine Prog.wp_seq (Naming.wp (waitUsable_speaks _ _ trivial trivial _) hkeeper h')
        fun up w₀ w h => ?_
      split
      · exact hgive _ _ _ h
      · refine Prog.wp_seq (wp_rebuildAndJoin_names _ hkeeper h) fun ev w₀ w h => ?_
        cases ev with
        | none => exact h
        | some ev => exact h.edit (by simp)

/-- A keeper names its donor until it is cancelled. -/
theorem wp_keepUnstuck (rounds : Nat) :
    ∀ w₀ w, Naming t (.keepUnstuck d) d w₀ w →
      (keepUnstuck t d rounds).wp (base.upon donation) t (.keepUnstuck d)
        (fun _ w₀ w => Segment false t (.keepUnstuck d) w₀ w) w₀ w := by
  -- By induction on the rounds; the donor is named until the keeper is told to stop.
  induction rounds with
  | zero =>
      intro w₀ w h
      exact Prog.wp_hang fun ha => ⟨h.checked, h.fit_of_steady ha.2⟩
  | succ rounds ih =>
      intro w₀ w h
      unfold keepUnstuck
      refine h.await (of_no_donor rfl) (fun _ => rfl) fun _ w' h' => ?_
      rw [wp_look]
      split
      · exact h'.toSegment
      · rename_i hout
        -- The nudge goes to the donor while the keeper is not cancelled.
        unfold unstick
        rw [bind_assoc]
        refine h'.await (fun m hd => ?_) (fun _ => rfl) fun a w'' h'' => ?_
        · cases hd
          exact h'.mem fun _ => hout
        -- After it the keeper goes on or stops, whatever the answer was.
        · have hnext : ∀ w₀ w, Naming t (.keepUnstuck d) d w₀ w →
              (ctl >>= fun s => if t ∈ s.cancelled then pure () else keepUnstuck t d rounds).wp
                (base.upon donation) t (.keepUnstuck d)
                (fun _ w₀ w => Segment false t (.keepUnstuck d) w₀ w) w₀ w := by
            intro w₀ w h
            rw [wp_look]
            split
            · exact h.toSegment
            · exact ih w₀ w h
          cases a with
          | error e => exact hnext _ _ h''
          | ok body => exact hnext _ _ h''.edit

end

/-! ### The tick -/

/-- The poll of a tick is the last that the manager has seen of each node, and the set's primary
is `p`. The nodes `ns` are members. -/
structure Noticed (ob : Observation) (p : Node) (ns : List Node) (w : World sig) : Prop where
  primary : w.state.primary = some p
  views : ∀ n nv, ob.nodes.get? n = some nv → lastView n w.log = some nv
  members : ∀ n ∈ ns, n ∈ w.state.members

section
variable {cfg : Config} {ob : Observation} {p : Node} {ns : List Node} {α : Type} {m : M α}

/-- A change that leaves the primary. -/
theorem Noticed.edit (h : Noticed ob p ns w) (hu : (u.apply w.state).primary = w.state.primary) :
    Noticed ob p ns (w.edit u) :=
  ⟨hu.trans h.primary, h.views, fun n hn => mem_members_apply (h.members n hn)⟩

/-- A new task shows no node. -/
theorem Noticed.spawn (h : Noticed ob p ns w) : Noticed ob p ns (w.spawn t j) :=
  ⟨h.primary, fun n nv hn => (lastView_concat rfl).trans (h.views n nv hn), h.members⟩

/-- A member that the poll shows streaming. -/
theorem Noticed.fit (h : Noticed ob p ns w) (hd : d ∈ ns) (hne : d ≠ p)
    (hstreams : (ob.nodes.get? d).any (·.replicatingFrom (some p)) = true) :
    Fit w.log w.state d := by
  obtain ⟨nv, hnv, hrep⟩ := (Option.any_eq_true _ _).mp hstreams
  refine .replica (h.members d hd) (fun hp => ?_) ?_
  · exact hne (Option.some.inj (h.primary.symm.trans hp)).symm
  · rw [streaming, h.views d nv hnv, h.primary]
    exact hrep

/-- The rest of a tick leaves the primary. -/
theorem primary_tick (hu : (tickVocabulary cfg).edits u) (s : Ctl) :
    (u.apply s).primary = s.primary := by
  cases u with
  | goTo new note emit detect => exact (goTo_same s new note emit detect).primary
  | backoff | manualNoted | splitNoted | cooldownLogged | unhealthySince | stallSince | event => rfl
  | _ => exact hu.elim

/-- A tick that does not suspend goes on with what it has noticed. -/
theorem wp_noticed (hm : Still (tickVocabulary cfg) m)
    (h : Segment false t j w₀ w ∧ Noticed ob p ns w) :
    m.wp (base.upon donation) t j
      (fun _ w₀ w => Segment false t j w₀ w ∧ Noticed ob p ns w) w₀ w := by
  refine Prog.wp_of_madeOf (fun γ m hp w₀ w hk => ?_) hm h
  obtain ⟨hseg, hno⟩ := hk
  cases hp with
  | ctl => exact ⟨hseg, hno⟩
  | edit hu => exact ⟨hseg.edit (by simp), hno.edit (primary_tick hu _)⟩
  | nodeTask hj =>
      unfold spawnNodeTask
      rw [wp_look]
      split
      · exact ⟨hseg, hno⟩
      · refine ⟨(hseg.spawn fun d hd => ?_).edit (by simp), hno.spawn.edit rfl⟩
        obtain ⟨why, rfl⟩ | ⟨primary, rfl⟩ := hj <;> cases hd
  | join hn =>
      unfold joinMember
      rw [wp_look]
      split
      · exact ⟨hseg, hno⟩
      · exact ⟨hseg.edit (by simp), hno.edit rfl⟩

/-- The donor of a replacement. -/
theorem wp_maybeReplace {healthy : List Node}
    (h : Segment false t j w₀ w ∧ Noticed ob p healthy w)
    (hhealthy : ∀ d ∈ healthy, d ≠ p ∧
      (ob.nodes.get? d).any (·.replicatingFrom (some p)) = true) :
    (maybeReplace cfg ob healthy).wp (base.upon donation) t j
      (fun _ w₀ w => Segment true t j w₀ w) w₀ w := by
  obtain ⟨hseg, hno⟩ := h
  unfold maybeReplace
  rw [wp_look]
  split
  · rename_i spare since donor rest _ _
    split
    · exact hseg.weaken
    · unfold startMaintenance
      rw [bind_assoc, wp_look]
      split
      · exact hseg.weaken
      · refine ((Segment.weaken hseg).spawn fun d hd => ?_).edit fun _ _ => ⟨rfl, rfl, rfl⟩
        cases hd
        have hdonor : donor ∈ donor :: rest := List.mem_cons_self
        exact .inr ⟨rfl, hno.fit hdonor (hhealthy donor hdonor).1 (hhealthy donor hdonor).2⟩
  · exact hseg.weaken

/-- The reconciliation chooses a donor from the views of its poll. -/
theorem wp_reconcile (h : Segment false t j w₀ w ∧ Noticed ob p [] w) :
    (reconcile cfg ob p).wp (base.upon donation) t j
      (fun _ w₀ w => Segment true t j w₀ w) w₀ w := by
  unfold reconcile
  refine Prog.wp_seq
    (wp_noticed (Still.mono (repairVocabulary_le cfg) (adoptSpare_still cfg ob)) h)
    fun _ w₀ w h => ?_
  refine Prog.wp_seq
    (wp_noticed (Still.mono (repairVocabulary_le cfg) (rejoinActions_still cfg ob)) h)
    fun _ w₀ w h => ?_
  rw [wp_look]
  dsimp only
  split
  · rw [wp_edit]
    split
    · exact (h.1.edit (by simp)).weaken
    · exact ((h.1.edit (by simp)).edit (by simp)).weaken
  · -- the healthy replicas are members that the poll shows streaming
    unfold reconcileUnhealthy
    rw [wp_look, wp_edit]
    have hhealthy : Noticed ob p (w.state.members.filter fun n =>
        n ≠ p && (ob.nodes.get? n).any (·.replicatingFrom (some p))) w :=
      ⟨h.2.primary, h.2.views, fun n hn => (List.mem_filter.mp hn).1⟩
    refine Prog.wp_seq (wp_noticed (degrade_still cfg p ob _ _ _)
      ⟨h.1.edit (by simp), hhealthy.edit rfl⟩) fun _ w₀ w h => ?_
    rw [wp_look]
    split
    · refine wp_maybeReplace h fun d hd => ?_
      simpa using (List.mem_filter.mp hd).2
    · exact h.1.weaken

/-- A failover names no donor. -/
theorem failover_le_calm : failoverVocabulary.Le calmVocabulary where
  edits _ _ := trivial
  awaits r h := by cases r <;> first | rfl | exact h.elim
  creates _ h := by
    obtain ⟨n, rfl⟩ := h
    rfl
  nodeTasks _ _ h := h.elim
  maints _ _ h := h.elim
  joins _ h := h.elim

/-- Nor does a cold start. -/
theorem cold_le_calm : coldVocabulary.Le calmVocabulary where
  edits _ _ := trivial
  awaits r h := by cases r <;> first | rfl | exact h.elim
  creates _ h := h.elim
  nodeTasks _ _ h := h.elim
  maints _ _ h := h.elim
  joins _ h := h.elim

/-- A program that names none leaves every donor as fit as it was. -/
theorem wp_calm (hm : Speaks calmVocabulary m) (h : Segment false t j w₀ w) :
    m.wp (base.upon donation) t j (fun _ w₀ w => Segment true t j w₀ w) w₀ w :=
  Prog.wp_mono (fun _ _ _ h => h.weaken) _ _ _ (wp_modest calm_modest hm h)

/-- What a tick does upon a verdict. -/
theorem wp_act_names (v : Verdict) (h : Segment false t j w₀ w ∧ Noticed ob p [] w) :
    (act cfg ob p v).wp (base.upon donation) t j
      (fun _ w₀ w => Segment true t j w₀ w) w₀ w := by
  unfold act
  rw [wp_look]
  split
  · refine wp_calm ?_ h.1
    split
    · split
      · exact speaks_pure _
      · exact speaks_bind (speaks_edit trivial) fun _ => speaks_edit trivial
    · exact speaks_bind ((failover_speaks cfg p v).mono failover_le_calm) fun _ => speaks_pure _
  · have hedit : ∀ b, Segment false t j w₀ (w.edit (.cooldownLogged b)) ∧
        Noticed ob p [] (w.edit (.cooldownLogged b)) :=
      fun b => ⟨h.1.edit (by simp), h.2.edit rfl⟩
    rw [wp_edit]
    split
    · rw [wp_edit]
      split
      · refine Prog.wp_mono (Q := fun _ w₀ w => Segment false t j w₀ w ∧ Noticed ob p [] w)
          (fun _ _ _ h => h.1.weaken) _ _ _
          (wp_noticed (Still.mono (repairVocabulary_le cfg) (rejoinActions_still cfg ob)) ?_)
        exact ⟨(hedit false).1.edit (by simp), (hedit false).2.edit (goTo_same _ _ _ _ _).primary⟩
      · exact ((hedit false).1.edit (by simp)).weaken
    · exact wp_reconcile (hedit false)

/-- What a tick does under the lock with the last views. -/
theorem wp_tickLocked_names (h : Segment false t j w₀ w)
    (hviews : ∀ n nv, ob.nodes.get? n = some nv → lastView n w.log = some nv) :
    (tickLocked cfg ob).wp (base.upon donation) t j
      (fun _ w₀ w => Segment true t j w₀ w) w₀ w := by
  unfold tickLocked
  rw [wp_look]
  split
  · exact wp_calm ((discover_speaks cfg ob).mono cold_le_calm) h
  · rename_i p hp
    have hno : Noticed ob p [] w := ⟨hp, hviews, nofun⟩
    -- The check of a restart suspends only when it acts.
    have hrest : ∀ w₀ w, Segment false t j w₀ w ∧ Noticed ob p [] w →
        (ctl >>= fun s => checkStall cfg ob p >>= fun _ =>
          act cfg ob p (evaluate s.history s.members cfg.params none)).wp
            (base.upon donation) t j (fun _ w₀ w => Segment true t j w₀ w) w₀ w := by
      intro w₀ w h
      rw [wp_look]
      exact Prog.wp_seq
        (wp_noticed (Still.mono (repairVocabulary_le cfg) (checkStall_still cfg p ob)) h)
        fun _ w₀ w h => wp_act_names _ h
    unfold coldStartCheck
    rw [bind_assoc, wp_look]
    split
    · exact (h.edit (by simp)).weaken
    · exact hrest _ _ ⟨h.edit (by simp), hno.edit rfl⟩
    · split
      · exact hrest _ _ ⟨h.edit (by simp), hno.edit rfl⟩
      · rw [bind_assoc, wp_edit, bind_assoc]
        refine Prog.wp_seq (wp_calm ((coldStart_speaks _ _).mono cold_le_calm) (h.edit (by simp)))
          fun _ w₀ w h => ?_
        exact h

/-- A whole tick. -/
theorem wp_tick_names (h : Segment false t .tick w₀ w) :
    (tick cfg t).wp (base.upon donation) t .tick
      (fun _ w₀ w => Segment true t .tick w₀ w) w₀ w := by
  have hact : ∀ ob w₀ w, Segment false t .tick w₀ w →
      (∀ n nv, ob.nodes.get? n = some nv → lastView n w.log = some nv) →
      (w.state.lock.owner = none → w.state.lock.waiters = []) →
      (ctl >>= fun s => if s.halted || s.lock.owner.isSome then pure ()
        else withLock t (tickLocked cfg ob)).wp (base.upon donation) t .tick
          (fun _ w₀ w => Segment true t .tick w₀ w) w₀ w := by
    intro ob w₀ w h hviews hlock
    rw [wp_look]
    split
    · exact h.weaken
    · rename_i hfree
      have howner : w.state.lock.owner = none := by
        rw [Bool.or_eq_true, not_or] at hfree
        exact Option.not_isSome_iff_eq_none.mp hfree.2
      unfold withLock acquire
      rw [bind_assoc, wp_look, if_pos ⟨howner, hlock howner⟩, wp_edit]
      refine Prog.wp_seq (wp_tickLocked_names (h.edit (by simp)) hviews) fun _ w₀ w h => ?_
      exact h.edit fun _ _ => ⟨rfl, rfl, rfl⟩
  unfold tick poll
  rw [bind_assoc, wp_look, bind_assoc]
  refine h.await nofun fun a w' h' _ htimely => ?_
  refine hact _ _ _ (h'.edit (by simp)) (fun n nv hn => lastView_concat_some hn) fun howner => ?_
  -- A timely poll finds nobody waiting for a free lock.
  have hfree : w'.state.lock.owner = none := howner
  have hnobody : w'.state.lock.waiters = [] := by simpa [timely, hfree] using htimely
  exact hnobody

/-! ### The tasks -/

/-- A switchover names no donor. -/
theorem switchover_le_calm : switchoverVocabulary.Le calmVocabulary where
  edits _ _ := trivial
  awaits r h := by cases r <;> first | rfl | exact h.elim
  creates _ h := h.elim
  nodeTasks _ _ h := by
    obtain ⟨target, rfl⟩ := h
    rfl
  maints _ _ h := h.elim
  joins _ h := h.elim

/-- A rejoin request joins the node before its rejoin chooses a donor. -/
theorem wp_rejoinLocked_names {n : Node} (hj : j.rejoined = some n)
    (h : Segment false t j w₀ w) :
    (rejoinLocked cfg n).wp (base.upon donation) t j
      (fun _ w₀ w => Segment true t j w₀ w) w₀ w := by
  unfold rejoinLocked freshViews
  rw [wp_look, bind_assoc]
  refine h.await nofun fun a w' h' _ _ => ?_
  rw [pure_bind, wp_look]
  split
  · exact h'.weaken
  · dsimp only
    split
    · exact h'.weaken
    · refine Prog.wp_seq (wp_modest calm_modest (speaks_join trivial) h') fun _ w₀ w h => ?_
      refine Prog.wp_seq (wp_rejoins hj (rejoinNode_rejoins cfg n _ false) h.weaken)
        fun _ w₀ w h => ?_
      exact h

/-- Every task keeps the contract of the donors. -/
theorem body_names (h : Segment false t j w w) (hown : own t w.log = []) :
    (body cfg t j).wp (base.upon donation) t j
      (fun _ w₀ w => Segment true t j w₀ w) w w := by
  have hnames : ∀ d, j.donor = some d → Naming t j d w w := fun d hd => ⟨h, hd, by rw [hown]; rfl⟩
  -- Only a rejoin, a rebuild and a replacement name donors.
  cases j with
  | tick => exact wp_tick_names h
  -- A rejoin that is asked for waits for the lock before it looks.
  | rejoin n =>
      unfold body setRejoin
      rw [wp_look]
      split
      · exact wp_calm (speaks_await rfl) h
      · split
        · exact wp_calm (speaks_await rfl) h
        · unfold withLock
          rw [bind_assoc]
          refine Prog.wp_seq (wp_modest calm_modest (acquire_speaks t trivial trivial) h)
            fun _ w₀ w h => ?_
          rw [bind_assoc]
          refine Prog.wp_seq (wp_rejoinLocked_names rfl h) fun reply w₀ w h => ?_
          rw [bind_assoc, wp_edit, pure_bind]
          have hrelease : Segment true t (.rejoin n) w₀ (w.edit .release) :=
            h.edit fun _ _ => ⟨rfl, rfl, rfl⟩
          exact hrelease.await nofun fun _ w' h' _ _ => h'.weaken
  | rejoinNode n why =>
      refine Prog.wp_seq (wp_rejoins rfl (rejoinNode_rejoins cfg n why true) h.weaken)
        fun _ w₀ w h => ?_
      exact h
  | verifyAfterRepoint n primary =>
      exact wp_rejoins rfl ((verifyAfterRepoint_rejoins cfg n primary).mono (watch_le n)) h.weaken
  -- A rebuild has its donor from the tick that started it.
  | rebuildAndJoin args =>
      refine Prog.wp_seq (wp_rebuildAndJoin_names args rfl (hnames _ rfl)) fun _ w₀ w h => ?_
      exact (h.edit (by simp)).weaken
  | replace spare donor =>
      refine Prog.wp_seq (wp_replace_names rfl (hnames _ rfl)) fun _ w₀ w h => ?_
      exact (h.edit (by simp)).weaken
  | keepUnstuck donor =>
      exact Prog.wp_mono (fun _ _ _ h => h.weaken) _ _ _ (wp_keepUnstuck _ _ _ (hnames _ rfl))
  -- The rest name none.
  | switchover target =>
      refine wp_calm ?_ h
      unfold body setFailover switchover
      refine speaks_bind (withLock_speaks t trivial trivial trivial
        ((switchoverLocked_speaks cfg target).mono switchover_le_calm)) fun r => ?_
      split
      · exact speaks_await rfl
      · exact speaks_await rfl
      · exact speaks_await rfl
  | halt reason =>
      refine wp_calm ?_ h
      exact speaks_bind (speaks_edit trivial) fun _ => speaks_look fun s => speaks_await rfl
  | resume =>
      refine wp_calm ?_ h
      refine speaks_bind (speaks_edit trivial) fun _ => speaks_bind (speaks_edit trivial) fun _ => ?_
      exact speaks_bind (speaks_edit trivial) fun _ => speaks_look fun s => speaks_await rfl
  | getPrimary => exact wp_calm (speaks_look fun s => speaks_await rfl) h
  | fence n =>
      exact wp_calm (speaks_bind (speaks_fence rfl) fun r => speaks_edit trivial) h
  | fenceSecondWriter n primary =>
      exact wp_calm (speaks_bind (speaks_await rfl) fun a => speaks_event trivial) h
  | repointAfter old target =>
      exact wp_calm (repointAfter_speaks old target rfl fun _ _ => trivial) h

end

/-! ### The contract -/

/-- The end of a segment. -/
theorem Segment.finish (h : Segment fresh t j w₀ w) : Segment fresh t j w₀ (w.finish t) where
  fit := h.fit
  checked := h.checked.concat trivial
  grown := h.grown.trans (List.prefix_append _ _)
  members := h.members
  known d hd := by
    have hd' : d ∈ donors (w.record (.finished t w.state)) := hd
    refine (h.known d (donors_record hd')).imp id fun ⟨hfresh, hfit⟩ => ⟨hfresh, ?_⟩
    exact hfit.congr (fun n => lastView_concat rfl) rfl rfl rfl
  job := h.job

end

/-- A condition on a step: nothing in it speaks against the donors that are out, and an answer is
timely. -/
def steadyDonors (p : Pool sig) (m : Move sig) (p' : Pool sig) : Bool :=
  ((donors p.world).all fun d => Steady p.world p'.world d) &&
    match m with
    | .answer t _ =>
      match p.world.jobs[t]?, p.progs t with
      | some j, some (.await r _) => timely p.world j r
      | _, _ => true
    | _ => true

section
variable {cfg : Config} {p p' : Pool sig}

/-- The condition on a step is one on every donor that is out. -/
theorem steady_of_steadyDonors {m : Move sig} (h : steadyDonors p m p' = true) :
    ∀ d ∈ donors p.world, Steady p.world p'.world d := by
  intro d hd
  have hall := ((Bool.and_eq_true _ _).mp h).1
  exact of_decide_eq_true (List.all_eq_true.mp hall d hd)

/-- No request that arrives has a donor already. -/
theorem donor_of_environment {j : Job} (h : environment p (.arrive j) = true) :
    j.donor = none := by
  cases j with
  | rebuildAndJoin | replace | keepUnstuck => cases h
  | _ => rfl

/-- Over steady steps the donors stay fit. -/
theorem donation_sound (cfg : Config) :
    base.SoundOver donation (body cfg)
      (fun p m p' => environment p m = true ∧ steadyDonors p m p' = true) where
  rely_refl _ _ := trivial
  rely_trans _ _ _ _ _ _ := trivial
  rely_of_may _ _ _ _ _ _ _ _ _ := trivial
  rely_arrive _ _ _ _ _ _ := trivial
  rely_outside _ _ _ _ _ _ := trivial
  rely_land _ _ _ _ _ _ _ := trivial
  rely_resend _ _ _ _ _ _ _ := trivial
  inv_may _ _ _ _ _ _ h := h
  -- The requests that arrive bring no donor.
  inv_arrive p j p' ho hi := by
    refine ⟨hi.1, fun d hd => hi.2 d ?_⟩
    refine (donors_arrive hd).resolve_right fun h => ?_
    rw [donor_of_environment ho.1] at h
    cases h
  inv_outside p u p' ho hi := by
    -- The clock leaves the views.
    obtain ⟨time, mono, rfl⟩ := clock_of_environment ho.1
    exact ⟨hi.1, fun d hd => (hi.2 d (donors_edit hd)).congr (fun _ => rfl) rfl rfl rfl⟩
  inv_land p t r p' _ hi := by
    -- A landing and a repeated request show no view of a node.
    refine ⟨hi.1.concat trivial, fun d hd => (hi.2 d (donors_record hd)).congr (fun n => ?_)
      rfl rfl rfl⟩
    exact lastView_concat rfl
  inv_resend p t r p' _ hi := by
    refine ⟨hi.1.concat trivial, fun d hd => (hi.2 d (donors_record hd)).congr (fun n => ?_)
      rfl rfl rfl⟩
    exact lastView_concat rfl
  pre_rely _ _ _ _ _ _ _ := trivial
  pre_may _ _ _ _ _ _ _ _ _ _ _ := trivial
  pre_arrive _ _ _ _ _ := trivial
  allowed_start _ _ _ ho := steady_of_steadyDonors ho.2
  allowed_answer _ _ _ _ ho := steady_of_steadyDonors ho.2
  allowed_wake _ _ _ ho := steady_of_steadyDonors ho.2
  -- An answer comes in time by the condition on the step.
  answers_ok p t f p' r k ho hp j hj := by
    have htimely := ((Bool.and_eq_true _ _).mp ho.2).2
    simp only [hj, hp] at htimely
    exact htimely
  body_wp t j w _ hi hj hpre _ := by
    refine Prog.wp_mono (fun _ w₀ w h ha => ?_) _ _ _ (body_names (.refl hi hj) hpre.1.2)
    exact ⟨h.finish.checked, h.finish.fit_of_steady ha.2⟩

/-- In every run whose steps are steady for the donors that are out, and in which the answers
that a donor is chosen by are timely, each posted /rebuild and /unstick names a fit donor. -/
theorem donors_fit (h : Runs cfg (fun p m p' => steadyDonors p m p' = true) p)
    {l l' : List Step} {t : Nat} {j : Job} {r : Req} {s : Ctl} {d : Node}
    (hlog : p.world.log = l ++ .issued t j r s :: l') (hd : r.donor = some d) : Fit l s d := by
  have hinv := (holds_of_runs (donation_sound cfg) ⟨Coop.checked_nil, nofun⟩ h).inv.2
  exact hinv.1 l _ l' hlog d hd

end

/-! ### A replacement and a failover -/

/-- `c` is lost, and the agent of `d` answers. -/
def understaffed : Node → Except String StatusBody := fun n =>
  if n = "a" then primaryStatus 5
  else if n = "b" then replicaStatus "a" 5 5
  else if n = "d" then .ok { mysqldAlive := true, mysqldResponsive := true }
  else down

/-- `c` is lost for more than a minute, and task 3 starts to provision `d`, to be cloned
from `b`. -/
def provisioning : List (Move sig) :=
  discovery understaffed ++
  [.arrive .tick, .start 1, .answer 1 (succeed true understaffed),
   .outside (.clock 70000 70000), .arrive .tick, .start 2,
   .answer 2 (succeed true understaffed), .start 3]

/-- The replacement alone clones from a streaming replica. -/
theorem donors_fit_replacement : ∃ p l j s,
    Runs fleet (fun p m p' => steadyDonors p m p' = true) p ∧
      p.world.log = l ++ .issued 3 j (.rebuild "d" "b") s :: [] ∧ Fit l s "b" := by
  obtain ⟨p, l, e, hp, hlog, hshows⟩ := exists_last_of fleet steadyDonors
    (provisioning ++ [.answer 3 (succeed true understaffed), .answer 3 (succeed true understaffed)])
    (asked 3 (.rebuild "d" "b") fun _ _ _ => true) (by decide +kernel)
  obtain ⟨j, s, rfl, -⟩ := of_asked hshows
  exact ⟨p, l, j, s, hp, hlog, donors_fit hp hlog rfl⟩

/-- While `d` is provisioned `a` dies and `b` is promoted. Task 6 is the failover, and task 8
finds `b` healthy. Then `d` is up. -/
def promotedMeanwhile : List (Move sig) :=
  let orphan := fun n => if n = "b" then orphanStatus 5 5 else down
  let promoted := fun n => if n = "b" then primaryStatus 5 else understaffed "d"
  provisioning ++
  [.arrive .tick, .start 4, .answer 4 (succeed false orphan), .outside (.clock 73000 73000),
   .arrive .tick, .start 5, .answer 5 (succeed false orphan), .outside (.clock 76000 76000),
   .arrive .tick, .start 6, .answer 6 (succeed false orphan), .start 7] ++
  .answer 7 (succeed true orphan) :: List.replicate 5 (.answer 6 (succeed true orphan)) ++
  [.arrive .tick, .start 8, .answer 8 (succeed true promoted),
   .answer 3 (succeed true promoted), .answer 3 (succeed true promoted)]

/-- The replacement then posts /unstick to the new primary, which is not stalled. -/
theorem unstick_healthy : ¬ ∀ (p : Pool sig), Runs fleet (fun _ _ _ => True) p →
    ∀ (l l' : List Step) (t : Nat) (j : Job) (r : Req) (s : Ctl) (d : Node),
      p.world.log = l ++ .issued t j r s :: l' → r.donor = some d → Fit l s d := by
  intro hclaim
  obtain ⟨p, l, e, hp, hlog, hshows⟩ := exists_last fleet promotedMeanwhile
    (asked 3 (.unstick "b") fun _ _ s =>
      s.primary = some "b" && !s.stalledPrimaryAlive s.lastObs) (by decide +kernel)
  obtain ⟨j, s, rfl, hshown⟩ := of_asked hshows
  simp only [Bool.and_eq_true, decide_eq_true_eq, Bool.not_eq_true'] at hshown
  obtain ⟨hprimary, hhealthy⟩ := hshown
  cases hclaim p hp l [] 3 j (.unstick "b") s "b" hlog rfl with
  | replica _ other _ => exact other hprimary
  | lastResort _ stalled _ =>
      rw [hhealthy] at stalled
      cases stalled

end DbGuard
