import DbGuard.Proofs.CatchUp

/-!
# `DbGuard.Proofs.Chronicle`: what a failover has done

A `Story` is the data of one dbguard-mode failover: the answers it got and the states in
which it asked. `Story.started`, `Story.chosen` and `Story.ready` are the steps of its task
up to the fresh read, up to the choice, and up to /promote. `chronicle` is a contract that
says of every step of every task what the log before it has to be: when a failover asks for
the fresh views or posts /promote, its steps are those of a story, and when it ends, the
state is one of the two outcomes. `chronicle_checked` proves it of every run.

The four theorems about failover are read off the story of a run.
-/

set_option autoImplicit false

namespace DbGuard

open Coop (Prog Pool Move World Contract Adds Grows frame own Checked)

/-! ### The story of a failover -/

/-- The answers of one failover, and the states in which it asked. -/
structure Story where
  opening : List Step
  old : Node
  fenceTask : Nat
  atStop : Ctl
  stop : Node → Option ErrorText
  atRead : Ctl
  fresh : Node → Except String StatusBody
  reads : List Step
  atRepoint : Ctl
  repointed : Node → Except AgentError Unit

namespace Story

variable (st : Story) (cfg : Config) (t : Nat)

/-- The other members. -/
def others : List Node := st.atStop.members.filter (· ≠ st.old)

/-- The nodes whose IO threads it stops. -/
def stops : List Node := Run.toStop st.atStop st.others

/-- Its steps until it asks for the fresh views. -/
def started : List Step :=
  st.opening ++ .created t (.fence st.old) st.fenceTask ::
    (if cfg.canStopIo then
      [.issued t .tick (.stopIo st.stops) st.atStop, .answered t (.stopIo st.stops) st.stop]
    else [])

/-- The fresh views. -/
def views : Views := .ofAnswers st.others st.fresh

/-- What `choose` made of them. -/
def choice : Choice := choose (st.others.map st.views.view) .dbguard (some st.old)

/-- Its steps until the choice. -/
def chosen : List Step :=
  st.started cfg t ++
    [.issued t .tick (.freshViews st.others) st.atRead,
     .answered t (.freshViews st.others) st.fresh]

/-- The nodes that are repointed to the winner. -/
def targets (W : Node) : List Node :=
  st.others.filter fun n => n ≠ W && (st.views.view n).usable

/-- Its steps until /promote. -/
def ready (W : Node) : List Step :=
  st.chosen cfg t ++ st.reads ++
    [.issued t .tick (.repointAll (st.targets W) W) st.atRepoint,
     .answered t (.repointAll (st.targets W) W) st.repointed]

end Story

/-- A step of the tick before the failover: the poll. -/
def Step.IsPoll (t : Nat) (e : Step) : Prop :=
  (∃ p ns s, e = .issued t .tick (.observe p ns) s ∧ s.lock.owner ≠ some t) ∨
    ∃ p ns a, e = .answered t (.observe p ns) a

/-- The failover of task `t` on a set whose failover events were `past`, while it runs. -/
structure Leading (t : Nat) (old : Node) (past : List Event) (s : Ctl) : Prop where
  owner : s.lock.owner = some t
  op : s.op = some .failover
  primary : s.primary = some old
  failovers : s.failovers = past

/-- The start of a story. -/
structure Story.Starts (st : Story) (cfg : Config) (t : Nat) (past : List Event) : Prop where
  opening : ∀ e ∈ st.opening, Step.IsPoll t e
  atStop : Leading t st.old past st.atStop
  atRead : Leading t st.old past st.atRead
  -- A failed IO stop waits for the fence.
  waited : cfg.canStopIo = true → ∀ n ∈ st.stops, st.stop n ≠ none →
    (st.atRead.fenced st.fenceTask).isSome = true

/-- The middle of a story: `W` was chosen and has caught up, the last view of it being
`nv`. -/
structure Story.Chooses (st : Story) (cfg : Config) (t : Nat) (past : List Event) (W : Node)
    (nv : NodeView) : Prop extends Story.Starts st cfg t past where
  winner : st.choice.winner = some W
  reads : Reads t .tick W st.reads nv
  caughtUp : CaughtUp cfg none nv
  atRepoint : Leading t st.old past st.atRepoint

/-- The fence's answer of a failover can be read: it failed, or its gtid_executed is null or
a GTID set. -/
def Readable : Except AgentError FenceBody → Bool
  | .ok body => body.gtidExecuted.all fun text => text.parse.toBool
  | .error _ => true

/-- The two outcomes of a failover of task `t`, with the steps `l` of its task. -/
def Outcome (t : Nat) (old : Node) (past : List Event) (l : List Step) (s : Ctl) : Prop :=
  ∃ e, s.failovers = past ++ [e] ∧ e.oldPrimary = some old ∧
    ((∃ W s', .issued t .tick (.promote W) s' ∈ l ∧ s.primary = some W ∧
        e.newPrimary = some W) ∨
      (s.st.state = .halted ∧ s.primary = some old ∧ e.newPrimary = none))

/-- What the log before a step has to be. -/
def Chronicled (cfg : Config) (log : List Step) : Step → Prop
  | .issued t .tick (.freshViews ns) s =>
    ∃ (st : Story) (past : List Event), st.Starts cfg t past ∧
      own t log = st.started cfg t ∧ ns = st.others ∧ s = st.atRead
  | .issued t .tick (.promote W) s =>
    s.op = some .failover → ∃ (st : Story) (past : List Event) (nv : NodeView)
      (a : Except AgentError FenceBody), st.Chooses cfg t past W nv ∧
      own t log = st.ready cfg t W ∧ Leading t st.old past s ∧
      .answered st.fenceTask (.fence st.old) a ∈ log
  | .finished t s =>
    ∀ old f, .created t (.fence old) f ∈ own t log → ∃ past : List Event,
      (∀ r s₀, .issued t .tick r s₀ ∈ own t log → s₀.lock.owner = some t →
        s₀.failovers = past ∧ s₀.primary = some old) ∧
      ((∀ a, .answered f (.fence old) a ∈ log → Readable a = true) → Outcome t old past (own t log) s)
  | _ => True

/-- The contract of the chronicle. -/
def chronicle (cfg : Config) : Contract sig where
  inv w := Checked (Chronicled cfg) w.log
  rely _ _ _ := True
  allowed _ _ _ := True
  answers _ _ _ _ := True
  may _ _ w := Checked (Chronicled cfg) w.log
  pre _ _ _ := True

/-! ### While a failover runs -/

/-- What is known of the world while task `t` leads a failover whose fence is task `f`. -/
structure Leads (cfg : Config) (t f : Nat) (old : Node) (past : List Event)
    (w : World sig) : Prop where
  now : Leading t old past w.state
  checked : Checked (Chronicled cfg) w.log
  fences : ∀ f r, w.state.fenced f = some r → FencedBy w f r
  job : .created t (.fence old) f ∈ own t w.log → w.jobs[f]? = some (.fence old)
  only : ∀ old' f', .created t (.fence old') f' ∈ own t w.log → old' = old ∧ f' = f
  led : ∀ r s₀, .issued t .tick r s₀ ∈ own t w.log → s₀.lock.owner = some t →
    s₀.failovers = past ∧ s₀.primary = some old

/-- What is known once it is over: the last step of the task can be recorded. -/
def Over (cfg : Config) (t : Nat) (w : World sig) : Prop :=
  Checked (Chronicled cfg) w.log ∧ Chronicled cfg w.log (.finished t w.state)

section
variable {cfg : Config} {t f : Nat} {old : Node} {past : List Event} {w₀ w w' : World sig}
  {L : List Step} {α : Type} {Q : α → World sig → World sig → Prop}

/-- A step of the task goes on the end of its part. -/
theorem own_record (e : Step) (h : e.isBy t = true) :
    own t (w.record e).log = own t w.log ++ [e] := by
  show own t (w.log ++ [e]) = _
  rw [Coop.own_append]
  simp [own, h]

/-- A change that a failover's task may make while it goes on. -/
theorem Leads.edit {u : Update} (h : Leads cfg t f old past w)
    (hnow : Leading t old past (u.apply w.state))
    (hf : (u.apply w.state).fenced = w.state.fenced) :
    Leads cfg t f old past (w.edit u) where
  now := hnow
  checked := h.checked
  fences f r hr := h.fences f r (by rw [← hf]; exact hr)
  job := h.job
  only := h.only
  led := h.led

/-- A step of the task that creates nothing. -/
theorem Leads.record {e : Step} (h : Leads cfg t f old past w) (he : e.isBy t = true)
    (hP : Chronicled cfg w.log e) (hnew : ∀ j f', e ≠ .created t j f')
    (hissue : ∀ r s, e = .issued t .tick r s → s = w.state) :
    Leads cfg t f old past (w.record e) where
  now := h.now
  checked := h.checked.concat hP
  fences f r hr :=
    FencedBy.mono (w := w) (List.prefix_refl _) (List.prefix_append _ _) (h.fences f r hr)
  job hc := by
    rw [own_record e he] at hc
    rcases List.mem_append.mp hc with hc | hc
    · exact h.job hc
    · exact absurd (List.mem_singleton.mp hc).symm (hnew _ _)
  only old' f' hc := by
    rw [own_record e he] at hc
    rcases List.mem_append.mp hc with hc | hc
    · exact h.only old' f' hc
    · exact absurd (List.mem_singleton.mp hc).symm (hnew _ _)
  led r s₀ hs ho := by
    rw [own_record e he] at hs
    rcases List.mem_append.mp hs with hs | hs
    · exact h.led r s₀ hs ho
    · rw [hissue r s₀ (List.mem_singleton.mp hs).symm]
      exact ⟨h.now.failovers, h.now.primary⟩

/-- While the task is suspended. -/
theorem Leads.rely (h : Leads cfg t f old past w)
    (hi : (base.upon (chronicle cfg)).inv w') (hr : (base.upon (chronicle cfg)).rely t w w') :
    Leads cfg t f old past w' ∧ own t w'.log = own t w.log := by
  obtain ⟨⟨-, hdisc⟩, hchecked⟩ := hi
  obtain ⟨⟨hgrow, hsees⟩, -⟩ := hr
  have hown := hgrow.own
  refine ⟨⟨?_, hchecked, hdisc.fenced, ?_, ?_, ?_⟩, hown⟩
  · exact
      { owner := hsees.owner.mpr h.now.owner
        op := (hsees.op h.now.owner).trans h.now.op
        primary := (hsees.primary h.now.owner).trans h.now.primary
        failovers := (hsees.failovers h.now.owner).trans h.now.failovers }
  · intro hc
    exact hgrow.job (h.job (hown ▸ hc))
  · intro old' f' hc
    exact h.only old' f' (hown ▸ hc)
  · intro r s₀ hs
    exact h.led r s₀ (hown ▸ hs)

/-- The rule of a request. -/
theorem Leads.await {r : Req} {k : r.Resp → M α} (h : Leads cfg t f old past w)
    (hown : own t w.log = L) (hP : Chronicled cfg w.log (.issued t .tick r w.state))
    (hk : ∀ a w', Leads cfg t f old past w' →
      own t w'.log = L ++ [.issued t .tick r w.state, .answered t r a] →
        ∀ w₀, (k a).wp (base.upon (chronicle cfg)) t .tick Q w₀ w') :
    (await r >>= k).wp (base.upon (chronicle cfg)) t .tick Q w₀ w := by
  rw [wp_await]
  intro _
  have hby : Coop.Event.isBy t (.issued t .tick r w.state : Step) = true := by
    simp [Coop.Event.isBy]
  have hissue : Leads cfg t f old past (w.issue t .tick r) :=
    h.record hby hP (fun _ _ heq => by cases heq)
      (fun r' s heq => by injection heq with _ _ _ hs; exact hs.symm)
  refine ⟨hissue.checked, fun w' a hi hr _ => ?_⟩
  obtain ⟨h', hown'⟩ := hissue.rely hi hr
  have hby' : Coop.Event.isBy t (.answered t r a : Step) = true := by simp [Coop.Event.isBy]
  refine hk a _ (h'.record hby' trivial (fun _ _ heq => by cases heq)
    (fun _ _ heq => by cases heq)) ?_ _
  show own t (w'.record (.answered t r a)).log = _
  rw [own_record _ hby', hown']
  show own t (w.record (.issued t .tick r w.state)).log ++ _ = _
  rw [own_record _ hby, hown, List.append_assoc]
  rfl

/-- `wait_caught_up` keeps to it. -/
theorem Leads.asks (W : Node) : Asks (base.upon (chronicle cfg)) t .tick (Leads cfg t f old past)
    (·.IsRead W) := by
  rintro r hr α Q k w₀ w h hk
  refine h.await rfl ?_ hk
  rcases hr with rfl | rfl | rfl
  · trivial
  · trivial
  · trivial

/-- The rule of the wait for the fence. -/
theorem Leads.fenceDone {k : Option FenceResult → M α} (h : Leads cfg t f old past w)
    (hown : own t w.log = L)
    (hk : ∀ r w', Leads cfg t f old past w' → own t w'.log = L →
      w'.state.fenced f = some r →
        ∀ w₀, (k (some r)).wp (base.upon (chronicle cfg)) t .tick Q w₀ w') :
    (Run.fenceDone f >>= k).wp (base.upon (chronicle cfg)) t .tick Q w₀ w := by
  have hnow : ∀ w₀ w, Leads cfg t f old past w → own t w.log = L →
      (w.state.fenced f).isSome = true →
        (k (w.state.fenced f)).wp (base.upon (chronicle cfg)) t .tick Q w₀ w := by
    intro w₀ w h hown hsome
    obtain ⟨r, hr⟩ := Option.isSome_iff_exists.mp hsome
    rw [hr]
    exact hk r w h hown hr w₀
  unfold Run.fenceDone
  rw [bind_assoc, wp_look]
  split
  · rename_i hsome
    exact hnow w₀ w h hown hsome
  · rw [bind_assoc, wp_block]
    intro _
    refine ⟨h.checked, fun w' hi hr hc => ?_⟩
    obtain ⟨h', hown'⟩ := h.rely hi hr
    exact hnow w' w' h' (hown'.trans hown) hc

end

end DbGuard
