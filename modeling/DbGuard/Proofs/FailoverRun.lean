import DbGuard.Proofs.Chronicle

/-!
# `DbGuard.Proofs.FailoverRun`: one failover, step by step

The rules of the steps of `failover` under the contract of the chronicle, one for each of
the source's functions, in their order. Each is stated for the rest of the program, with
what the step adds to the story. `wp_failover` puts them together.
-/

set_option autoImplicit false

namespace DbGuard

open Coop (Prog Pool Move World Contract Adds Grows frame own Checked)

/-- The program's own data agree with the story. -/
structure Run.Tells (run : Run) (st : Story) : Prop where
  old : run.old = st.old
  others : run.others = st.others
  fenceTask : run.fenceTask = some st.fenceTask
  fence : run.steps.fence = none

section
variable {cfg : Config} {t f : Nat} {old : Node} {past : List Event} {w₀ w w' : World sig}
  {L : List Step} {α : Type} {Q : α → World sig → World sig → Prop} {run : Run} {st : Story}

/-- The fence task is created. -/
theorem Leads.spawn (h : Leads cfg t w.jobs.length old past w)
    (hnone : ∀ j f, .created t j f ∉ own t w.log) :
    Leads cfg t w.jobs.length old past (w.spawn t (.fence old)) ∧
      own t (w.spawn t (.fence old)).log =
        own t w.log ++ [.created t (.fence old) w.jobs.length] := by
  have hby : Coop.Event.isBy t (.created t (.fence old) w.jobs.length : Step) = true := by
    simp [Coop.Event.isBy]
  have hown : own t (w.spawn t (.fence old)).log =
      own t w.log ++ [.created t (.fence old) w.jobs.length] := own_record (w := w) _ hby
  refine ⟨⟨h.now, h.checked.concat trivial, fun f r hr => ?_, fun _ => ?_, ?_, ?_⟩, hown⟩
  -- Appending an event leaves what was fenced before fenced.
  · exact FencedBy.mono (w := w) (List.prefix_append _ _) (List.prefix_append _ _)
      (h.fences f r hr)
  · simp
  · intro old' f' hc
    rw [hown] at hc
    rcases List.mem_append.mp hc with hc | hc
    -- Before the spawn the task had created no fence, so this is the first one.
    · exact absurd hc (hnone _ _)
    · cases List.mem_singleton.mp hc
      exact ⟨rfl, rfl⟩
  · intro r s₀ hs ho
    rw [hown] at hs
    -- A spawn is no issue, so the requests it has led are the old ones.
    rcases List.mem_append.mp hs with hs | hs
    · exact h.led r s₀ hs ho
    · cases List.mem_singleton.mp hs

/-- A poll creates no task. -/
theorem not_created_of_poll {opening : List Step} (h : ∀ e ∈ opening, Step.IsPoll t e)
    (j : Job) (f : Nat) : .created t j f ∉ opening := by
  intro hc
  rcases h _ hc with ⟨p, ns, s, heq, -⟩ | ⟨p, ns, a, heq⟩
  · cases heq
  · cases heq

/-- `fence_and_stop_io`. -/
theorem wp_fenceAndStopIo (hmode : cfg.mode = .dbguard) {opening : List Step}
    (h : Leads cfg t w.jobs.length old past w) (hown : own t w.log = opening)
    (hopening : ∀ e ∈ opening, Step.IsPoll t e) (hold : run.old = old)
    (hothers : run.others = w.state.members.filter (· ≠ old))
    (hfence : run.steps.fence = none)
    {k : Run × List (Node × Option ErrorText) → M α}
    (hk : ∀ (st : Story) r w', st.old = old → st.Starts cfg t past → st.atRead = w'.state →
      Leads cfg t st.fenceTask old past w' → own t w'.log = st.started cfg t →
        Run.Tells r.1 st → ∀ w₀, (k r).wp (base.upon (chronicle cfg)) t .tick Q w₀ w') :
    (run.fenceAndStopIo cfg >>= k).wp (base.upon (chronicle cfg)) t .tick Q w₀ w := by
  subst hold
  obtain ⟨h', hown'⟩ := h.spawn (hown ▸ not_created_of_poll hopening)
  rw [hown] at hown'
  -- The story as far as it goes, ending in `s`.
  let tell : (Node → Option ErrorText) → Ctl → Story := fun stop s =>
    { opening, old := run.old, fenceTask := w.jobs.length, atStop := w.state, stop
      atRead := s, fresh := fun _ => .error "", reads := [], atRepoint := s
      repointed := fun _ => .ok () }
  have hstarts : ∀ stop s, Leading t run.old past s →
      (cfg.canStopIo = true → ∀ n ∈ Run.toStop w.state run.others, stop n ≠ none →
        (s.fenced w.jobs.length).isSome = true) →
      (tell stop s).Starts cfg t past := by
    intro stop s hs hwait
    refine ⟨hopening, h.now, hs, fun hstop n hn => hwait hstop n ?_⟩
    simpa [tell, Story.stops, Story.others, hothers] using hn
  have htells : ∀ stop s steps notes, steps.fence = none →
      Run.Tells { run with fenceTask := some w.jobs.length, steps, notes } (tell stop s) :=
    fun _ _ _ _ hsteps => ⟨rfl, hothers, rfl, hsteps⟩
  unfold Run.fenceAndStopIo
  rw [hmode]
  dsimp only
  rw [bind_assoc, wp_create, bind_assoc, wp_look]
  unfold stopIoThreads
  split
  · rename_i hstop
    rw [bind_assoc, bind_assoc]
    refine h'.await hown' trivial fun a w' h' hown' w₀ => ?_
    have htold : ∀ s, own t w'.log = (tell a s).started cfg t := by
      intro s
      rw [hown']
      simp [Story.started, hstop, tell, Story.stops, Story.others, hothers]
    simp only [pure_bind]
    split
    · rename_i hfailed
      refine hk (tell a w'.state) _ w' rfl (hstarts a _ h'.now fun _ n hn hne => ?_) rfl h'
        (htold _) (htells _ _ _ _ hfence) w₀
      -- No IO stop failed.
      have hnone := List.filterMap_eq_nil_iff.mp hfailed (n, a n)
        (List.mem_map.mpr ⟨n, hn, rfl⟩)
      exact absurd (Option.map_eq_none_iff.mp hnone) hne
    · rw [bind_assoc]
      refine h'.fenceDone rfl fun r w' h' hown' hr w₀ => ?_
      refine hk (tell a w'.state) _ w' rfl (hstarts a _ h'.now fun _ _ _ _ => ?_) rfl h'
        (hown'.trans (htold _)) (htells _ _ _ _ hfence) w₀
      rw [hr]
      rfl
  · rename_i hstop
    simp only [pure_bind, List.filterMap_nil, if_true]
    refine hk (tell (fun _ => none) w.state) _ (w.spawn t (.fence run.old)) rfl ?_ rfl h' ?_
      (htells _ _ _ _ hfence) w₀
    · exact hstarts _ _ h'.now fun hs => absurd hs hstop
    · rw [hown']
      simp [Story.started, hstop, tell]

/-! ### How it ends -/

/-- A halted set is HALTED. -/
theorem halt_state (s : Ctl) (reason : String) : (s.halt reason).st.state = .halted := by
  unfold Ctl.halt Ctl.goTo
  dsimp only
  by_cases h : s.st.state = .halted
  · rw [if_pos h]
    exact h
  · rw [if_neg h, if_neg h, if_neg (fun hnew => by cases hnew.1)]
    rfl

/-- A failover event goes on the end of the others. -/
theorem failovers_append_failover (s : Ctl) (e : Event) (h : e.type = .failover) :
    (s.append e).failovers = s.failovers ++ [e] := by
  simp [Ctl.failovers, Ctl.append, List.filter_append, h]

/-- The last step can be recorded once the outcome is there, in every case in which the
fence's answer can be read. -/
theorem Leads.ended (h : Leads cfg t f old past w) {s : Ctl}
    (hout : (∀ a, .answered f (.fence old) a ∈ w.log → Readable a = true) →
      Outcome t old past (own t w.log) s) {w' : World sig} (hlog : w'.log = w.log)
    (hs : w'.state = s) : Over cfg t w' := by
  refine ⟨hlog ▸ h.checked, ?_⟩
  intro old' f' hc
  rw [hlog] at hc
  obtain ⟨rfl, rfl⟩ := h.only old' f' hc
  refine ⟨past, hlog ▸ h.led, ?_⟩
  rw [hlog, hs]
  exact hout

/-- The outcome of a failover that HALTs the set. -/
theorem Leading.halted {s : Ctl} {e : Event} (h : Leading t old past s)
    (htype : e.type = .failover) (hold : e.oldPrimary = some old)
    (hnew : e.newPrimary = none) (reason : String) :
    Outcome t old past L ((s.append e).halt reason) := by
  have hsame := goTo_same (s.append e) .halted (some reason) true none
  refine ⟨e, ?_, hold, .inr ⟨halt_state _ _, hsame.primary.trans h.primary, hnew⟩⟩
  have hfailovers := hsame.failovers.trans (failovers_append_failover s e htype)
  exact hfailovers.trans (congrArg (· ++ [e]) h.failovers)

/-- `finish` with a reason to HALT. -/
theorem Leads.finishHalted (h : Leads cfg t f old past w) (hold : run.old = old)
    (reason : String) {k : Unit → M α}
    (hk : ∀ w', Over cfg t w' → ∀ w₀, (k ()).wp (base.upon (chronicle cfg)) t .tick Q w₀ w') :
    (run.finish none none (some reason) >>= k).wp (base.upon (chronicle cfg)) t .tick Q
      w₀ w := by
  unfold Run.finish event
  dsimp only
  rw [bind_assoc, wp_edit, wp_edit]
  refine hk _ ?_ w₀
  refine h.ended (fun _ => ?_) rfl rfl
  exact h.now.halted rfl (congrArg some hold) rfl reason

/-- `await_fence`. -/
theorem wp_awaitFence (h : Leads cfg t st.fenceTask st.old past w) (hown : own t w.log = L)
    (htells : run.Tells st) {k : Run → M α}
    (hk : ∀ run' r w', Leads cfg t st.fenceTask st.old past w' → own t w'.log = L →
      w'.state.fenced st.fenceTask = some r → run'.old = run.old → run'.others = run.others →
        run'.views = run.views → run'.fenceResp = r.2 →
          ∀ w₀, (k run').wp (base.upon (chronicle cfg)) t .tick Q w₀ w') :
    (run.awaitFence >>= k).wp (base.upon (chronicle cfg)) t .tick Q w₀ w := by
  unfold Run.awaitFence
  rw [htells.fenceTask, htells.fence]
  dsimp only
  rw [bind_assoc]
  refine h.fenceDone hown fun r w' h' hown' hr w₀ => ?_
  obtain ⟨outcome, resp⟩ := r
  dsimp only
  rw [pure_bind]
  split
  · refine hk _ (outcome, resp) w' h' hown' hr ?_ ?_ ?_ ?_ w₀ <;> rfl
  · refine hk _ (outcome, resp) w' h' hown' hr ?_ ?_ ?_ ?_ w₀ <;> rfl

/-- `await_fence` on the way to a HALT. -/
theorem wp_awaitFence_halt (h : Leads cfg t st.fenceTask st.old past w)
    (htells : run.Tells st) (reason : String) {β : Type} {b : Run → β} {k : β → M α}
    (hk : ∀ r w', Over cfg t w' →
      ∀ w₀, (k (b r)).wp (base.upon (chronicle cfg)) t .tick Q w₀ w') :
    ((do
      let run ← run.awaitFence
      run.finish none none (some reason)
      pure (b run)) >>= k).wp (base.upon (chronicle cfg)) t .tick Q w₀ w := by
  rw [bind_assoc]
  refine wp_awaitFence h rfl htells fun run' r w' h' _ _ hold _ _ _ w₀ => ?_
  rw [bind_assoc]
  refine h'.finishHalted (hold.trans htells.old) reason fun w' hover w₀ => ?_
  exact hk run' w' hover w₀

/-! ### Choose -/

/-- `choose_winner`. -/
theorem wp_chooseWinner (hmode : cfg.mode = .dbguard) (hst : st.Starts cfg t past)
    (hread : st.atRead = w.state) (h : Leads cfg t st.fenceTask st.old past w)
    (hown : own t w.log = st.started cfg t) (htells : run.Tells st)
    (ioStop : List (Node × Option ErrorText)) {k : Run × Option Node → M α}
    (hover : ∀ run' w', Over cfg t w' →
      ∀ w₀, (k (run', none)).wp (base.upon (chronicle cfg)) t .tick Q w₀ w')
    (hk : ∀ a (st' : Story) run' W w', st' = { st with fresh := a } →
      st'.choice.winner = some W → Leads cfg t st'.fenceTask st'.old past w' →
        own t w'.log = st'.chosen cfg t → Run.Tells run' st' → run'.views = st'.views →
          ∀ w₀, (k (run', some W)).wp (base.upon (chronicle cfg)) t .tick Q w₀ w') :
    (run.chooseWinner cfg ioStop >>= k).wp (base.upon (chronicle cfg)) t .tick Q w₀ w := by
  unfold Run.chooseWinner freshViews
  rw [bind_assoc, bind_assoc, htells.others]
  refine h.await hown ⟨st, past, hst, hown, rfl, hread.symm⟩ fun a w' h' hown' w₀ => ?_
  simp only [pure_bind]
  obtain ⟨st', hst'⟩ : ∃ st' : Story, st' = { st with fresh := a } := ⟨_, rfl⟩
  have hchosen : own t w'.log = st'.chosen cfg t := by
    rw [hown', ← hread, hst']
    rfl
  -- The choice of the code is the choice that the story records.
  have hchoice : choose (st.others.map (Views.ofAnswers st.others a).view) cfg.mode
      (some run.old) = st'.choice := by
    rw [hmode, htells.old, hst']
    rfl
  have htells' : ∀ steps notes, steps.fence = none →
      Run.Tells { run with others := st.others, steps, notes, views := .ofAnswers st.others a }
        st' := fun _ _ hfence => hst' ▸ ⟨htells.old, rfl, htells.fenceTask, hfence⟩
  rw [hchoice]
  split
  -- No winner: the failover awaits its fence and halts.
  · rename_i reason _
    refine wp_awaitFence_halt h' ?_ reason fun r w' => hover r w'
    split <;> exact ⟨htells.old, rfl, htells.fenceTask, htells.fence⟩
  -- No reason to halt means that there is a winner.
  · rename_i hreason
    have hsome : st'.choice.haltReason.isSome = st'.choice.winner.isNone := haltReason_isSome
    obtain ⟨W, hW⟩ : ∃ W, st'.choice.winner = some W := by
      rw [hreason] at hsome
      exact Option.isSome_iff_exists.mp (by simpa using hsome.symm)
    rw [hW, pure_bind]
    have hstory : st'.fenceTask = st.fenceTask ∧ st'.old = st.old := by
      rw [hst']
      exact ⟨rfl, rfl⟩
    refine hk a st' _ W w' hst' hW ?_ hchosen ?_ ?_ w₀
    · rw [hstory.1, hstory.2]
      exact h'
    · split <;> exact htells' _ _ htells.fence
    · rw [hst']
      split <;> rfl

/-! ### Catch up and repoint -/

/-- `catch_up`. -/
theorem wp_catchUp (hmode : cfg.mode = .dbguard) (W : Node)
    (h : Leads cfg t st.fenceTask st.old past w) (hown : own t w.log = L)
    (htells : run.Tells st) {k : Run × Bool → M α}
    (hover : ∀ run' w', Over cfg t w' →
      ∀ w₀, (k (run', false)).wp (base.upon (chronicle cfg)) t .tick Q w₀ w')
    (hk : ∀ rs nv run' w', Reads t .tick W rs nv → CaughtUp cfg none nv →
      Leads cfg t st.fenceTask st.old past w' → own t w'.log = L ++ rs → Run.Tells run' st →
        run'.views = run.views →
          ∀ w₀, (k (run', true)).wp (base.upon (chronicle cfg)) t .tick Q w₀ w') :
    (run.catchUp cfg W >>= k).wp (base.upon (chronicle cfg)) t .tick Q w₀ w := by
  unfold Run.catchUp
  rw [hmode]
  dsimp only
  rw [bind_assoc]
  refine wp_waitCaughtUp (Leads.asks W) none h fun r rs w' h' hown' ⟨nv, hreads, hup⟩ w₀ => ?_
  rw [hown] at hown'
  obtain ⟨ok, why⟩ := r
  cases ok with
  -- Caught up: the reads go into the log and the run goes on.
  | true =>
      rw [if_pos rfl, pure_bind]
      refine hk rs nv _ w' hreads (hup rfl) h' hown' ?_ ?_ w₀
      · split <;> exact ⟨htells.old, htells.others, htells.fenceTask, htells.fence⟩
      · split <;> rfl
  -- Not caught up in time: the failover halts.
  | false =>
      rw [if_neg Bool.false_ne_true]
      refine wp_awaitFence_halt h' ?_ _ fun r w' => hover r w'
      exact ⟨htells.old, htells.others, htells.fenceTask, htells.fence⟩

/-- `repoint`. -/
theorem wp_repoint (W : Node) (h : Leads cfg t st.fenceTask st.old past w)
    (hown : own t w.log = L) (htells : run.Tells st) (hviews : run.views = st.views)
    {k : Run → M α}
    (hk : ∀ a run' w', Leads cfg t st.fenceTask st.old past w' →
      own t w'.log = L ++ [.issued t .tick (.repointAll (st.targets W) W) w.state,
        .answered t (.repointAll (st.targets W) W) a] → Run.Tells run' st →
          run'.views = st.views →
            ∀ w₀, (k run').wp (base.upon (chronicle cfg)) t .tick Q w₀ w') :
    (run.repointWhen W true >>= k).wp (base.upon (chronicle cfg)) t .tick Q w₀ w := by
  -- The replicas to repoint are those of the story's fresh views.
  have htargets : (run.others.filter fun n => n ≠ W && (run.views.view n).usable) =
      st.targets W := by
    rw [htells.others, hviews]
    rfl
  rw [Run.repointWhen, if_pos rfl]
  unfold Run.repoint repointAll
  dsimp only
  rw [bind_assoc, bind_assoc, htargets]
  refine h.await hown trivial fun a w' h' hown' w₀ => ?_
  rw [pure_bind, pure_bind]
  refine hk a _ w' h' hown' ?_ ?_ w₀
  · split <;> exact ⟨htells.old, htells.others, htells.fenceTask, htells.fence⟩
  · split <;> exact hviews

/-! ### Promote -/

/-- The result of the fence task is what it made of the answer to its /fence. -/
theorem Leads.fenced (h : Leads cfg t f old past w)
    (hcreated : .created t (.fence old) f ∈ own t w.log) {r : FenceResult}
    (hr : w.state.fenced f = some r) :
    ∃ a, .answered f (.fence old) a ∈ w.log ∧ r = fenceResult a := by
  obtain ⟨n, a, hjob, ha, hr⟩ := h.fences f r hr
  have hn : n = old := by
    have := hjob.symm.trans (h.job hcreated)
    cases this
    rfl
  subst hn
  exact ⟨a, ha, hr⟩

/-- `await_fence_before_promote`. -/
theorem wp_awaitFenceBeforePromote (W : Node)
    (h : Leads cfg t st.fenceTask st.old past w) (hown : own t w.log = L)
    (hcreated : .created t (.fence st.old) st.fenceTask ∈ L) (htells : run.Tells st)
    {k : Except String Run → M α}
    (hover : ∀ e w', Over cfg t w' →
      ∀ w₀, (k (.error e)).wp (base.upon (chronicle cfg)) t .tick Q w₀ w')
    (hk : ∀ a (run' : Run) w', Leads cfg t st.fenceTask st.old past w' → own t w'.log = L →
      .answered st.fenceTask (.fence st.old) a ∈ w'.log → run'.old = st.old →
        ∀ w₀, (k (.ok run')).wp (base.upon (chronicle cfg)) t .tick Q w₀ w') :
    (run.awaitFenceBeforePromote W >>= k).wp (base.upon (chronicle cfg)) t .tick Q w₀ w := by
  unfold Run.awaitFenceBeforePromote
  rw [bind_assoc]
  refine wp_awaitFence h hown htells fun run' r w' h' hown' hr hold _ _ hresp w₀ => ?_
  obtain ⟨a, ha, rfl⟩ := h'.fenced (hown' ▸ hcreated) hr
  have hold' := hold.trans htells.old
  split
  · rw [pure_bind]
    exact hk a run' w' h' hown' ha hold' w₀
  · rename_i text htext
    split
    · rename_i e herror
      rw [pure_bind]
      refine hover e w' (h'.ended (fun hreadable => ?_) rfl rfl) w₀
      -- The answer cannot be read.
      cases a with
      | error _ =>
          rw [hresp] at htext
          cases htext
      | ok body =>
          rw [hresp] at htext
          have hgtid : body.gtidExecuted = some text := htext
          have hparse := hreadable _ ha
          simp [Readable, hgtid, herror, Except.toBool] at hparse
    · rw [pure_bind]
      split
      · exact hk a run' w' h' hown' ha hold' w₀
      · exact hk a (run'.note _) w' h' hown' ha hold' w₀

/-- `promote`. -/
theorem wp_promote {W : Node} (h : Leads cfg t f old past w) (hold : run.old = old)
    (hP : Chronicled cfg w.log (.issued t .tick (.promote W) w.state))
    {k : Run × Option (Option String) → M α}
    (hover : ∀ run' w', Over cfg t w' →
      ∀ w₀, (k (run', none)).wp (base.upon (chronicle cfg)) t .tick Q w₀ w')
    (hk : ∀ (run' : Run) gtid w', Leads cfg t f old past w' →
      (∃ s, .issued t .tick (.promote W) s ∈ own t w'.log) → run'.old = old →
        ∀ w₀, (k (run', some gtid)).wp (base.upon (chronicle cfg)) t .tick Q w₀
          (w'.edit (.setPrimary W))) :
    (run.promote W >>= k).wp (base.upon (chronicle cfg)) t .tick Q w₀ w := by
  unfold Run.promote
  rw [bind_assoc]
  refine h.await rfl hP fun a w' h' hown' w₀ => ?_
  dsimp only
  cases a with
  -- An error of promote ends the failover in a halt.
  | error e =>
      dsimp only
      rw [bind_assoc]
      refine h'.finishHalted ?_ _ fun w' hw' w₀ => ?_
      · exact hold
      · exact hover _ w' hw' w₀
  -- The request is in the task's own log now, which is what the record will cite.
  | ok body =>
      refine hk _ body.gtidExecuted w' h' ⟨w.state, ?_⟩ ?_ w₀
      · rw [hown']
        simp
      · exact hold

/-- `record`, on the set whose primary is the winner. -/
theorem wp_record {W : Node} (h : Leads cfg t f old past w) (hold : run.old = old)
    (hpost : ∃ s, .issued t .tick (.promote W) s ∈ own t w.log) (gtid : Option String)
    {k : Unit → M α}
    (hk : ∀ w', Over cfg t w' → ∀ w₀, (k ()).wp (base.upon (chronicle cfg)) t .tick Q w₀ w') :
    (run.record cfg W gtid >>= k).wp (base.upon (chronicle cfg)) t .tick Q w₀
      (w.edit (.setPrimary W)) := by
  obtain ⟨s, hs⟩ := hpost
  unfold Run.record
  rw [bind_assoc, wp_edit, bind_assoc]
  unfold Run.finish event
  dsimp only
  rw [bind_assoc, wp_edit, pure_bind, wp_edit]
  refine hk _ ?_ w₀
  refine h.ended (fun _ => ?_) rfl rfl
  -- Changing the mode afterwards keeps the list of failovers.
  have hfailovers : ∀ (s : Ctl) (e : Event) new note emit detect, e.type = .failover →
      s.failovers = past → ((s.append e).goTo new note emit detect).failovers = past ++ [e] := by
    intro s e new note emit detect htype hpast
    rw [(goTo_same _ _ _ _ _).failovers, failovers_append_failover s e htype, hpast]
  -- The failover event appended is the one that the posted promote stands for.
  refine ⟨_, hfailovers _ _ _ _ _ _ rfl h.now.failovers, ?_, .inl ⟨W, s, hs, ?_, ?_⟩⟩
  · exact congrArg some hold
  · exact (goTo_same _ _ _ _ _).primary
  · rfl

/-! ### The whole failover -/

/-- `failover`. -/
theorem wp_failover (hmode : cfg.mode = .dbguard) (v : Verdict) {opening : List Step}
    (hw : Checked (Chronicled cfg) w.log)
    (hfences : ∀ f r, w.state.fenced f = some r → FencedBy w f r)
    (howner : w.state.lock.owner = some t) (hprimary : w.state.primary = some old)
    (hown : own t w.log = opening) (hopening : ∀ e ∈ opening, Step.IsPoll t e)
    {k : Except String Unit → M α}
    (hk : ∀ r w', Over cfg t w' →
      ∀ w₀, (k r).wp (base.upon (chronicle cfg)) t .tick Q w₀ w') :
    (failover cfg old v >>= k).wp (base.upon (chronicle cfg)) t .tick Q w₀ w := by
  -- `start`.
  have hsame := goTo_same { w.state with op := some .failover } .failingOver none false none
  have hlead : ∀ f, Leads cfg t f old w.state.failovers
      ((w.edit (.enter .failover)).edit (.goTo .failingOver none false none)) := by
    intro f
    refine ⟨⟨?_, hsame.op, ?_, hsame.failovers⟩, hw, fun f r hr => ?_, ?_, ?_, ?_⟩
    · exact hsame.owner.trans howner
    · exact hsame.primary.trans hprimary
    · exact hfences f r (by rw [← hr]; exact (congrFun hsame.fenced f).symm)
    · exact fun hc => absurd (hown ▸ hc) (not_created_of_poll hopening _ _)
    · exact fun _ _ hc => absurd (hown ▸ hc) (not_created_of_poll hopening _ _)
    · intro r s₀ hs ho
      rcases hopening _ (hown ▸ hs) with ⟨p, ns, s, heq, hne⟩ | ⟨p, ns, a, heq⟩
      · cases heq
        exact absurd ho hne
      · cases heq
  have hmembers := members_goTo { w.state with op := some .failover } .failingOver none false none
  unfold failover Run.start
  rw [bind_assoc, bind_assoc, wp_look, bind_assoc, wp_edit, bind_assoc, wp_edit, pure_bind,
    bind_assoc]
  refine wp_fenceAndStopIo hmode (hlead _) hown hopening rfl
    (congrArg (List.filter _) hmembers.symm) rfl
    fun st r w' hstold hst hread h' hown' htells w₀ => ?_
  subst hstold
  rw [bind_assoc]
  refine wp_chooseWinner hmode hst hread h' hown' htells r.2 (fun _ w' ho w₀ => hk _ w' ho w₀)
    fun a st' run W w' hst' hW h' hown' htells hviews w₀ => ?_
  have hst'' : st'.Starts cfg t w.state.failovers := by
    subst hst'
    exact ⟨hst.opening, hst.atStop, hst.atRead, hst.waited⟩
  dsimp only
  rw [bind_assoc]
  refine wp_catchUp hmode W h' hown' htells (fun _ w' ho w₀ => hk _ w' ho w₀)
    fun rs nv run' w' hreads hup h' hown' htells hviews' w₀ => ?_
  simp only [Bool.not_true, Bool.false_eq_true, if_false]
  have hguard : (cfg.mode == .dbguard) = true := by rw [hmode]; rfl
  have hnaive : (cfg.mode == .naive) = false := by rw [hmode]; rfl
  rw [hguard, hnaive, bind_assoc]
  refine wp_repoint W h' hown' htells (hviews'.trans hviews)
    fun ra run'' w'' h'' hown'' htells _ w₀ => ?_
  rw [bind_assoc]
  have hcreated : .created t (.fence st'.old) st'.fenceTask ∈ own t w''.log := by
    rw [hown'']
    simp [Story.chosen, Story.started]
  refine wp_awaitFenceBeforePromote W h'' rfl hcreated htells
    (fun _ w' ho w₀ => hk _ w' ho w₀) fun fa run3 w3 h3 hown3 hfa hold3 w₀ => ?_
  dsimp only
  rw [bind_assoc]
  refine wp_promote h3 hold3 (fun _ => ?_) (fun _ w' ho w₀ => hk _ w' ho w₀)
    fun run4 gtid w4 h4 hpost hold4 w₀ => ?_
  · refine ⟨{ st' with reads := rs, atRepoint := w'.state, repointed := ra }, _, nv, fa,
      ⟨⟨hst''.opening, hst''.atStop, hst''.atRead, hst''.waited⟩, hW, hreads, hup, h'.now⟩, ?_,
      h3.now, hfa⟩
    rw [hown3, hown'']
    rfl
  · dsimp only
    rw [Run.repointWhen, if_neg Bool.false_ne_true, bind_assoc, pure_bind, bind_assoc]
    refine wp_record h4 hold4 hpost gtid fun w5 h5 w₀ => ?_
    exact hk _ w5 h5 w₀

end

/-! ### The other tasks, and the rest of a tick -/

/-- Task `t` has not started a failover. -/
structure Plain (cfg : Config) (t : Nat) (w : World sig) : Prop where
  checked : Checked (Chronicled cfg) w.log
  none : ∀ old f, .created t (.fence old) f ∉ own t w.log

/-- The same of a tick that holds the lock and has not begun a failover. -/
structure Rest (cfg : Config) (t : Nat) (w : World sig) : Prop extends Plain cfg t w where
  owner : w.state.lock.owner = some t
  op : w.state.op ≠ some .failover

/-- What a tick does under the lock, but for a failover. -/
def restVocabulary : Vocabulary where
  edits
    | .enter op => op ≠ .failover
    | .enqueue _ | .acquire _ | .release => False
    | _ => True
  awaits
    | .repointAll _ _ | .promote _ => True
    | _ => False
  nodeTasks n j := j.node = some n
  maints j _ := ∃ spare donor, j = .replace spare donor
  joins _ := True

/-- What the tasks other than ticks do. -/
def plainVocabulary (cfg : Config) : Vocabulary :=
  { everyVocabulary cfg (fun _ => True) with edits := fun _ => True }

/-- What all tasks do is plain. -/
theorem every_le_plain (cfg : Config) :
    (everyVocabulary cfg fun _ => True).Le (plainVocabulary cfg) where
  edits _ _ := trivial
  awaits _ h := h
  creates _ h := h
  nodeTasks _ _ h := h
  maints _ _ h := h
  joins _ h := h

/-- A cold start is part of the rest of a tick. -/
theorem cold_le_rest : coldVocabulary.Le restVocabulary where
  edits u h := by
    cases u with
    | enter op => rcases h with rfl | rfl <;> exact nofun
    | _ => trivial
  awaits r h := by cases r <;> trivial
  creates _ h := h.elim
  nodeTasks _ _ h := h.elim
  maints _ _ h := h.elim
  joins _ h := h.elim

/-- So is everything that a tick does besides. -/
theorem tick_le_rest (cfg : Config) : (tickVocabulary cfg).Le restVocabulary where
  edits u h := by cases u <;> trivial
  awaits _ h := h.elim
  creates _ h := h.elim
  nodeTasks _ _ h := by obtain ⟨why, rfl⟩ | ⟨primary, rfl⟩ := h <;> rfl
  maints _ _ h := by obtain ⟨spare, donor, rfl, -⟩ := h; exact ⟨spare, donor, rfl⟩
  joins _ _ := trivial

section
variable {cfg : Config} {t : Nat} {j : Job} {w₀ w w' : World sig} {γ : Type} {m : M γ}

/-- A task without a failover is through. -/
theorem Plain.ended (h : Plain cfg t w) : Over cfg t w :=
  ⟨h.checked, fun _ _ hc => absurd hc (h.none _ _)⟩

/-- A record that starts no fence. -/
theorem Plain.record {e : Step} (h : Plain cfg t w) (hP : Chronicled cfg w.log e)
    (he : ∀ old f, e ≠ .created t (.fence old) f) : Plain cfg t (w.record e) where
  checked := h.checked.concat hP
  none old f hc := by
    have hc' : .created t (.fence old) f ∈ own t (w.log ++ [e]) := hc
    rw [Coop.own_append] at hc'
    rcases List.mem_append.mp hc' with hc' | hc'
    · exact h.none old f hc'
    · exact he old f (List.mem_singleton.mp (Coop.mem_of_mem_own hc')).symm

/-- A task that it creates, and no fence. -/
theorem Plain.spawn {j' : Job} (h : Plain cfg t w) (hj : ∀ n, j' ≠ .fence n) :
    Plain cfg t (w.spawn t j') := by
  have h' : Plain cfg t (w.record (.created t j' w.jobs.length)) :=
    h.record trivial fun old f heq => by cases heq; exact hj _ rfl
  exact ⟨h'.checked, h'.none⟩

/-- The task has still started none when it goes on. -/
theorem Plain.rely (h : Plain cfg t w) (hi : (base.upon (chronicle cfg)).inv w')
    (hr : (base.upon (chronicle cfg)).rely t w w') : Plain cfg t w' where
  checked := hi.2
  none old f hc := h.none old f (hr.1.1.own ▸ hc)

/-- No node task is a fence. -/
theorem fence_ne_node {j : Job} {n : Node} (h : j.node = some n) (m : Node) :
    j ≠ .fence m := by
  rintro rfl
  cases h

/-- The tasks other than ticks. -/
theorem plain_kept (hj : j ≠ .tick) :
    (plainVocabulary cfg).Kept (base.upon (chronicle cfg)) t j (fun _ w => Plain cfg t w) where
  edit h _ := ⟨h.checked, h.none⟩
  await {w₀ w r} h _ _ := by
    have hP : Chronicled cfg w.log (.issued t j r w.state) := by
      cases j with
      | tick => exact absurd rfl hj
      | _ => trivial
    have h' : Plain cfg t (w.issue t j r) := h.record hP (fun _ _ heq => by cases heq)
    refine ⟨h'.checked, fun w' a hi hr _ => ?_⟩
    exact (h'.rely hi hr).record trivial (fun _ _ heq => by cases heq)
  create h hj' := by
    obtain ⟨donor, rfl⟩ := hj'
    exact h.spawn nofun
  nodeTask h hj' _ := ⟨(h.spawn (fence_ne_node hj')).checked, (h.spawn (fence_ne_node hj')).none⟩
  maint {w₀ w j' ns} h hj' _ := by
    have hne : ∀ n, j' ≠ .fence n := by
      obtain ⟨args, rfl, -⟩ | ⟨spare, donor, rfl, -⟩ := hj' <;> exact nofun
    exact ⟨(h.spawn hne).checked, (h.spawn hne).none⟩
  join h _ _ := ⟨h.checked, h.none⟩
  block _ h _ := ⟨h.checked, fun w' hi hr _ => h.rely hi hr⟩

/-- A program of plain words starts no failover. -/
theorem wp_plain (hj : j ≠ .tick) (hm : Speaks (plainVocabulary cfg) m)
    (h : Plain cfg t w) :
    m.wp (base.upon (chronicle cfg)) t j (fun _ _ w => Plain cfg t w) w₀ w :=
  (plain_kept hj).wp hm h

/-- The lock and the operation after a change of the rest of a tick. -/
theorem rest_edit {u : Update} (hu : restVocabulary.edits u) (s : Ctl) :
    (u.apply s).lock.owner = s.lock.owner ∧
      (s.op ≠ some .failover → (u.apply s).op ≠ some .failover) := by
  cases u with
  | enter op => exact ⟨rfl, fun _ h => hu (Option.some.inj h)⟩
  | enqueue | acquire | release => exact hu.elim
  | goTo new note emit detect =>
      have h := goTo_same s new note emit detect
      exact ⟨h.owner, fun hne => h.op ▸ hne⟩
  | halt reason =>
      have h := goTo_same s .halted (some reason) true none
      exact ⟨h.owner, fun hne => h.op ▸ hne⟩
  | resume =>
      have h := resume_same s
      exact ⟨h.owner, fun hne => h.op ▸ hne⟩
  | _ => exact ⟨rfl, id⟩

/-- A change of the rest of a tick. -/
theorem Rest.edit {u : Update} (h : Rest cfg t w) (hu : restVocabulary.edits u) :
    Rest cfg t (w.edit u) :=
  ⟨⟨h.checked, h.none⟩, (rest_edit hu w.state).1.trans h.owner, (rest_edit hu w.state).2 h.op⟩

/-- A task that the rest creates. -/
theorem Rest.spawn {j' : Job} (h : Rest cfg t w) (hj : ∀ n, j' ≠ .fence n) :
    Rest cfg t (w.spawn t j') := ⟨h.toPlain.spawn hj, h.owner, h.op⟩

/-- The tick still holds the lock when it goes on. -/
theorem Rest.rely (h : Rest cfg t w) (hi : (base.upon (chronicle cfg)).inv w')
    (hr : (base.upon (chronicle cfg)).rely t w w') : Rest cfg t w' :=
  ⟨h.toPlain.rely hi hr, hr.1.2.owner.mpr h.owner, (hr.1.2.op h.owner).symm ▸ h.op⟩

/-- The rest of a tick. -/
theorem rest_kept :
    restVocabulary.Kept (base.upon (chronicle cfg)) t .tick (fun _ w => Rest cfg t w) where
  edit h hu := h.edit hu
  await {w₀ w r} h hr _ := by
    -- A /promote of another operation tells nothing.
    have hP : Chronicled cfg w.log (.issued t .tick r w.state) := by
      cases r with
      | promote n => exact fun hop => absurd hop h.op
      | repointAll ns source => trivial
      | _ => exact hr.elim
    have h' : Rest cfg t (w.issue t .tick r) :=
      ⟨h.toPlain.record hP (fun _ _ heq => by cases heq), h.owner, h.op⟩
    refine ⟨h'.checked, fun w' a hi hr _ => ?_⟩
    have h3 := h'.rely hi hr
    exact ⟨h3.toPlain.record trivial (fun _ _ heq => by cases heq), h3.owner, h3.op⟩
  create _ hj' := hj'.elim
  nodeTask h hj' _ := (h.spawn (fence_ne_node hj')).edit trivial
  maint h hj' _ := by
    obtain ⟨spare, donor, rfl⟩ := hj'
    exact (h.spawn fun n heq => by cases heq).edit trivial
  join h _ _ := h.edit trivial
  block _ h _ := ⟨h.checked, fun w' hi hr _ => h.rely hi hr⟩

/-- The rest of a tick starts no failover. -/
theorem wp_rest (hm : Speaks restVocabulary m) (h : Rest cfg t w) :
    m.wp (base.upon (chronicle cfg)) t .tick (fun _ _ w => Rest cfg t w) w₀ w :=
  rest_kept.wp hm h

end

/-! ### The tick -/

/-- A tick that has polled and nothing else. -/
structure Polled (cfg : Config) (t : Nat) (w : World sig) : Prop where
  checked : Checked (Chronicled cfg) w.log
  polls : ∀ e ∈ own t w.log, Step.IsPoll t e
  fences : ∀ f r, w.state.fenced f = some r → FencedBy w f r

section
variable {cfg : Config} {t : Nat} {j : Job} {w₀ w w' : World sig} {primary : Node}
  {ob : Observation}

/-- A tick that has only polled has started none. -/
theorem Polled.plain (h : Polled cfg t w) : Plain cfg t w :=
  ⟨h.checked, fun _ _ => not_created_of_poll h.polls _ _⟩

/-- A change of the tick before it acts. -/
theorem Polled.edit {u : Update} (h : Polled cfg t w)
    (hf : (u.apply w.state).fenced = w.state.fenced) : Polled cfg t (w.edit u) :=
  ⟨h.checked, h.polls, fun f r hr => h.fences f r (by rw [← hf]; exact hr)⟩

/-- The record of its poll. -/
theorem Polled.record {e : Step} (h : Polled cfg t w) (hP : Chronicled cfg w.log e)
    (he : Step.IsPoll t e) : Polled cfg t (w.record e) where
  checked := h.checked.concat hP
  polls e' he' := by
    have he'' : e' ∈ own t (w.log ++ [e]) := he'
    rw [Coop.own_append] at he''
    rcases List.mem_append.mp he'' with he'' | he''
    · exact h.polls e' he''
    · rw [List.mem_singleton.mp (Coop.mem_of_mem_own he'')]
      exact he
  fences f r hr :=
    FencedBy.mono (w := w) (List.prefix_refl _) (List.prefix_append _ _) (h.fences f r hr)

/-- It has still only polled when it goes on. -/
theorem Polled.rely (h : Polled cfg t w) (hi : (base.upon (chronicle cfg)).inv w')
    (hr : (base.upon (chronicle cfg)).rely t w w') : Polled cfg t w' where
  checked := hi.2
  polls e he := h.polls e (hr.1.1.own ▸ he)
  fences := hi.1.2.fenced

/-- A tick that has polled and holds the lock. -/
structure Ready (cfg : Config) (t : Nat) (w : World sig) : Prop extends Polled cfg t w where
  owner : w.state.lock.owner = some t
  op : w.state.op ≠ some .failover

/-- A change of a tick that is ready. -/
theorem Ready.edit {u : Update} (h : Ready cfg t w) (hu : openVocabulary.edits u) :
    Ready cfg t (w.edit u) :=
  have hsame := open_same hu w.state
  ⟨h.toPolled.edit hsame.fenced, hsame.owner.trans h.owner, hsame.op.symm ▸ h.op⟩

/-- A tick that is ready may do the rest. -/
theorem Ready.rest (h : Ready cfg t w) : Rest cfg t w := ⟨h.plain, h.owner, h.op⟩

/-- A part of a tick that is no failover. -/
theorem Ready.wp_rest {m : M Unit} (hm : Speaks restVocabulary m) (h : Ready cfg t w) :
    m.wp (base.upon (chronicle cfg)) t .tick (fun _ _ w => Over cfg t w) w₀ w :=
  Prog.wp_mono (fun _ _ _ h => h.toPlain.ended) _ _ _ (DbGuard.wp_rest hm h.rest)

/-- What a tick does upon a verdict: the failover that it starts is told step by step. -/
theorem wp_act (hmode : cfg.mode = .dbguard) (v : Verdict) (h : Ready cfg t w)
    (hprimary : w.state.primary = some primary) :
    (act cfg ob primary v).wp (base.upon (chronicle cfg)) t .tick
      (fun _ _ w => Over cfg t w) w₀ w := by
  have htick := tick_le_rest cfg
  unfold act
  rw [wp_look]
  split
  · split
    · split
      · exact h.plain.ended
      · refine h.wp_rest ?_
        exact speaks_bind (speaks_edit trivial) fun _ => speaks_edit trivial
    · exact wp_failover hmode v h.checked h.fences h.owner hprimary rfl h.polls
        fun _ _ hover _ => hover
  · refine h.wp_rest (speaks_bind (speaks_edit trivial) fun _ => ?_)
    split
    · refine speaks_bind (speaks_edit trivial) fun _ => ?_
      split
      · exact Speaks.mono (.trans (repairVocabulary_le cfg) htick) (rejoinActions_still cfg ob).speaks
      · exact speaks_pure _
    · exact (reconcile_speaks cfg primary ob).mono htick

/-- What a tick does under the lock. -/
theorem wp_tickLocked (hmode : cfg.mode = .dbguard) (h : Ready cfg t w) :
    (tickLocked cfg ob).wp (base.upon (chronicle cfg)) t .tick
      (fun _ _ w => Over cfg t w) w₀ w := by
  unfold tickLocked
  rw [wp_look]
  split
  · exact h.wp_rest ((discover_speaks cfg ob).mono cold_le_rest)
  · rename_i primary hprimary
    -- The check of a restart suspends only when it acts.
    have hrest : ∀ w₀ w, Ready cfg t w → w.state.primary = some primary →
        (ctl >>= fun s => checkStall cfg ob primary >>= fun _ =>
          act cfg ob primary (evaluate s.history s.members cfg.params none)).wp
            (base.upon (chronicle cfg)) t .tick (fun _ _ w => Over cfg t w) w₀ w := by
      intro w₀ w h hprimary
      rw [wp_look]
      unfold checkStall
      rw [bind_assoc, wp_look]
      split
      · rw [bind_assoc, wp_edit]
        unfold event
        rw [wp_edit]
        exact wp_act hmode _ ((h.edit (u := .stallSince _) trivial).edit (u := .event _) nofun)
          hprimary
      · rw [bind_assoc, wp_edit]
        unfold event
        rw [wp_edit]
        exact wp_act hmode _ ((h.edit (u := .stallSince _) trivial).edit (u := .event _) nofun)
          hprimary
      · rw [pure_bind]
        exact wp_act hmode _ h hprimary
    unfold coldStartCheck
    rw [bind_assoc, wp_look]
    split
    · exact (h.edit (u := .halt _) trivial).plain.ended
    · exact hrest _ _ (h.edit (u := .coldStartSeen 0) trivial) hprimary
    · split
      · exact hrest _ _ (h.edit (u := .coldStartSeen _) trivial) hprimary
      · rw [bind_assoc, wp_edit, bind_assoc]
        refine Prog.wp_seq (DbGuard.wp_rest ((coldStart_speaks _ _).mono cold_le_rest)
          (h.edit (u := .coldStartSeen 0) trivial).rest) fun _ w₀ w h => ?_
        exact h.toPlain.ended

/-- The lock is given back. -/
theorem Over.release (h : Over cfg t w) : Over cfg t (w.edit .release) := by
  refine ⟨h.1, fun old f hc => ?_⟩
  obtain ⟨past, hled, hout⟩ := h.2 old f hc
  exact ⟨past, hled, hout⟩

/-- A whole tick. -/
theorem wp_tick (hmode : cfg.mode = .dbguard) (hw : Checked (Chronicled cfg) w.log)
    (hdisc : Disciplined w) (howner : w.state.lock.owner ≠ some t)
    (hown : own t w.log = []) :
    (tick cfg t).wp (base.upon (chronicle cfg)) t .tick (fun _ _ w => Over cfg t w) w w := by
  -- The tick starts with no event of its own and without the lock.
  have hstart : Polled cfg t w :=
    ⟨hw, fun _ he => absurd (hown ▸ he) List.not_mem_nil, hdisc.fenced⟩
  -- What runs under the lock gives it back whatever happened.
  have hlocked : ∀ ob w₀ w, Ready cfg t w →
      (tickLocked cfg ob >>= fun a => edit .release >>= fun _ => pure a).wp
        (base.upon (chronicle cfg)) t .tick (fun _ _ w => Over cfg t w) w₀ w := by
    intro ob w₀ w h
    exact Prog.wp_seq (wp_tickLocked hmode h) fun _ _ _ h => h.release
  -- After the poll the tick either has nothing to do or takes the lock, at once or later.
  have hact : ∀ ob w₀ w, Polled cfg t w → (w.state.lock.owner = none → w.state.op = none) →
      (ctl >>= fun s => if s.halted || s.lock.owner.isSome then pure ()
        else withLock t (tickLocked cfg ob)).wp
          (base.upon (chronicle cfg)) t .tick (fun _ _ w => Over cfg t w) w₀ w := by
    intro ob w₀ w h hop
    rw [wp_look]
    split
    · exact h.plain.ended
    · unfold withLock
      refine wp_acquire (fun hfree => hlocked ob _ _ ?_) fun _ => ?_
      · refine ⟨h.edit (u := .acquire t) rfl, rfl, ?_⟩
        show w.state.op ≠ _
        rw [hop hfree]
        exact nofun
      -- It has to wait: others run meanwhile, and the lock is free when it wakes.
      · have hwait := h.edit (u := .enqueue t) rfl
        refine ⟨hwait.checked, fun w' hi hr hfree => hlocked ob _ _ ?_⟩
        refine ⟨(hwait.rely hi hr).edit (u := .acquire t) rfl, rfl, ?_⟩
        show w'.state.op ≠ _
        rw [hi.1.2.op hfree]
        exact nofun
  unfold tick poll
  rw [bind_assoc, wp_look, bind_assoc, wp_await]
  intro _
  have hissue : Polled cfg t
      (w.issue t .tick (.observe w.state.primary (w.state.allNodes cfg))) :=
    hstart.record trivial (.inl ⟨_, _, _, rfl, howner⟩)
  -- The poll's request and its answer, and then the observation is noted.
  refine ⟨hissue.checked, fun w' a hi hr _ => ?_⟩
  have hanswer : Polled cfg t
      (w'.answer t (.observe w.state.primary (w.state.allNodes cfg)) a) :=
    (hissue.rely hi hr).record trivial (.inr ⟨_, _, _, rfl⟩)
  exact hact _ _ _ (hanswer.edit (u := .observed _ _) rfl) hi.1.2.op

/-! ### The contract -/

/-- Every task keeps the chronicle. -/
theorem body_chronicle (hmode : cfg.mode = .dbguard) (hw : Checked (Chronicled cfg) w.log)
    (hdisc : Disciplined w) (howner : w.state.lock.owner ≠ some t)
    (hown : own t w.log = []) :
    (body cfg t j).wp (base.upon (chronicle cfg)) t j (fun _ _ w => Over cfg t w) w w := by
  have hplain : Plain cfg t w := ⟨hw, fun _ _ hc => absurd (hown ▸ hc) List.not_mem_nil⟩
  have hover : ∀ m : M Unit, j ≠ .tick → Speaks (plainVocabulary cfg) m →
      m.wp (base.upon (chronicle cfg)) t j (fun _ _ w => Over cfg t w) w w :=
    fun m hj hm => Prog.wp_mono (fun _ _ _ h => h.ended) _ _ _ (wp_plain hj hm hplain)
  have hevery := every_le_plain cfg
  cases j with
  | tick => exact wp_tick hmode hw hdisc howner hown
  | rejoin node =>
      refine hover _ nofun ?_
      unfold body setRejoin
      refine speaks_look fun s => ?_
      split
      · exact speaks_await trivial
      · split
        · exact speaks_await trivial
        · refine speaks_bind ?_ fun _ => speaks_await trivial
          exact (setRejoin_speaks cfg t node trivial).mono hevery
  | replace spare donor =>
      refine hover _ (fun h => by cases h) (maintenance_speaks trivial ?_)
      exact replace_speaks cfg spare donor ((rebuild_le_every cfg _ _ _).trans hevery)
        (fun _ => trivial) (fun _ _ => trivial) (fun _ => trivial) trivial trivial
  | switchover | halt | resume | getPrimary | fence | rejoinNode | fenceSecondWriter
  | verifyAfterRepoint | repointAfter | rebuildAndJoin | keepUnstuck =>
      refine hover _ (fun h => by cases h) ?_
      exact (body_speaks_every cfg (fun _ => True) t _ trivial).mono hevery

/-- The chronicle is sound in every dbguard-mode run. -/
theorem chronicle_sound (hmode : cfg.mode = .dbguard)
    {ok : Pool sig → Move sig → Pool sig → Prop} :
    base.SoundOver (chronicle cfg) (body cfg) ok where
  rely_refl _ _ := trivial
  rely_trans _ _ _ _ _ _ := trivial
  rely_of_may _ _ _ _ _ _ _ _ _ := trivial
  rely_arrive _ _ _ _ _ _ := trivial
  rely_outside _ _ _ _ _ _ := trivial
  rely_land _ _ _ _ _ _ _ := trivial
  rely_resend _ _ _ _ _ _ _ := trivial
  inv_may _ _ _ _ _ _ h := h
  inv_arrive _ _ _ _ hi := hi
  inv_outside _ _ _ _ hi := hi
  inv_land _ _ _ _ _ hi := hi.concat trivial
  inv_resend _ _ _ _ _ hi := hi.concat trivial
  pre_rely _ _ _ _ _ _ _ := trivial
  pre_may _ _ _ _ _ _ _ _ _ _ _ := trivial
  pre_arrive _ _ _ _ _ := trivial
  allowed_start _ _ _ _ := trivial
  allowed_answer _ _ _ _ _ := trivial
  allowed_wake _ _ _ _ := trivial
  answers_ok _ _ _ _ _ _ _ _ := trivial
  body_wp _ _ _ hb hw _ hpre _ :=
    Prog.wp_mono (fun _ _ _ h _ => h.1.concat h.2) _ _ _
      (body_chronicle hmode hw hb.2 hpre.2.1 hpre.1.2)

/-- Every step of every task of a dbguard-mode run meets the chronicle. -/
theorem chronicle_checked (hmode : cfg.mode = .dbguard)
    {cond : Pool sig → Move sig → Pool sig → Prop} {p : Pool sig} (h : Runs cfg cond p) :
    Checked (Chronicled cfg) p.world.log :=
  (holds_of_runs (chronicle_sound hmode) Coop.checked_nil h).inv.2

end

end DbGuard
