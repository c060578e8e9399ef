import DbGuard.Machine
import DbGuard.Proofs.Osc.Server

/-!
# `DbGuard.Proofs.Osc.Runner`: a failed schema change and the live table

`Unbroken` says that the live table can be written and read: if it has a trigger of the tool,
the shadow that the trigger writes to is there, no statement drops it, and from the RENAME on
it is the altered table.

The runner knows only what it asked for. `Stage.owed` is what follows from its book in each
stage: the triggers that the live table can still have, or that a statement in doubt can
still create. From the first `DROP TRIGGER` of the cleanup on these are the triggers that are
left to drop, so when the shadow is dropped there are none.

This needs that a CREATE TRIGGER in doubt is settled when its trigger is dropped (`Settled`).
The KILL of the old connection settles it, but the runner ignores an error of the KILL.
`unbroken_of_settled` is the result for every run, and `orphan_trigger` is a run in which a
trigger appears after its shadow was dropped.
-/

set_option autoImplicit false

namespace DbGuard.Osc

open Machine (Reach Free)

variable {p : Plan} {s s' : Runner} {q : Sql} {l : List Dml} {e : Dml}

/-- What a schema change must not do to the live table. -/
structure Unbroken (p : Plan) (s : Runner) : Prop where
  shadowed : Shadowed p s.server
  spared : ∀ q, s.stage.sql p.table = some q ∨ s.doubt = some q ∨ s.freshDoubt = some q →
    q ≠ .dropTable p.table ∧ q ≠ .dropTableIfExists p.table
  live : (s.server.names p.table).isSome = true
  altered : ∀ o, s.server.renamed = some o → s.server.names p.table = some o

/-- The server at the start of a run: names stand for tables of their own, and the live table
has no trigger without its shadow. -/
structure Initial (p : Plan) where
  server : Server
  good : Good p server
  shadowed : Shadowed p server
  unswapped : server.renamed = none

/-- The run at its start. -/
def Initial.start (i : Initial p) : Runner := { server := i.server }

/-- The trigger that a statement creates. -/
def Sql.creates : Sql → Option Dml
  | .createTrigger e _ => some e
  | _ => none

/-- The trigger that the cleanup drops next. -/
def Stage.dropped : Stage → Option Dml
  | .cleanTrigger e _ => some e
  | _ => none

/-- When the cleanup drops a trigger, the statement that creates it is not in doubt. -/
def Settled (s : Runner) : Runner.Move → Prop
  | .ok _ => ∀ e ∈ s.stage.dropped, s.doubt.bind Sql.creates ≠ some e
  | _ => True

instance decidableSettled : ∀ (s : Runner) (m : Runner.Move), Decidable (Settled s m)
  | s, .ok _ =>
    inferInstanceAs (Decidable (∀ e ∈ s.stage.dropped, s.doubt.bind Sql.creates ≠ some e))
  | _, .refuse _ | _, .lose _ _ | _, .raise | _, .landOwn | _, .landFresh | _, .lapseOwn =>
    .isTrue trivial

/-- The triggers that the live table can have, as far as the runner relies on it. -/
def Stage.owed (b : Book) : Stage → Option (List Dml)
  | .setup | .finished | .failed => none
  | .reconnect | .kill | .setLock => if b.createdShadow then some b.createdTriggers else none
  | .cleanTrigger e todo => some (e :: todo)
  | .cleanShadow => some []
  | _ => some b.createdTriggers

/-- The stages before the first CREATE TRIGGER. -/
def Stage.early : Stage → Bool
  | .setup | .dryCreate | .dryAlter | .dryInspect | .dryDrop | .instant | .create | .alter
  | .inspect => true
  | _ => false

/-- No CREATE TRIGGER is in doubt. -/
def NoCreate (s : Runner) : Prop := ∀ e on, s.doubt ≠ some (.createTrigger e on)

/-- The triggers that the live table has or can get are among those of a list. -/
def Owes (p : Plan) (l : List Dml) (s : Runner) : Prop :=
  OnTable p l s.server ∧ ∀ e on, s.doubt = some (.createTrigger e on) → e ∈ l

/-- What holds of the server and of the statements in doubt, whatever comes next. -/
structure Core (p : Plan) (s : Runner) : Prop where
  good : Good p s.server
  shadowed : Shadowed p s.server
  ours : ∀ q, s.doubt = some q → Ours p q
  creates : ¬ NoCreate s → (s.server.names (shadowName p.table)).isSome = true
  drops : s.doubt = some (dropShadow p) ∨ s.freshDoubt = some (dropShadow p) → Owes p [] s
  fresh : ∀ q, s.freshDoubt = some q → q = .plain ∨ (∃ e, q = .dropTrigger e) ∨ q = dropShadow p

/-- What the book and the stage have to do with each other. -/
structure Booked (p : Plan) (stage : Stage) (b : Book) (srv : Server) : Prop where
  early : stage.early = true → b.createdTriggers = []
  setup : stage = .setup → b.createdShadow = false
  booked : b.createdTriggers ≠ [] → b.createdShadow = true
  there : ∀ e todo n, stage = .alter ∨ stage = .inspect ∨ stage = .trigger e todo n →
    (srv.names (shadowName p.table)).isSome = true ∧ b.createdShadow = true
  recorded : ∀ e todo n, stage = .trigger e todo n → e ∈ b.createdTriggers

/-- The invariant of a run. -/
structure Tracked (p : Plan) (s : Runner) : Prop where
  core : Core p s
  owes : ∀ l, s.stage.owed s.book = some l → Owes p l s
  running : s.stage.inCleanup = false → s.doubt = none
  ended : s.stage ≠ .failed → s.freshDoubt = none
  booked : Booked p s.stage s.book s.server

/-- Where no create is owed there is none. -/
theorem Owes.noCreate (h : Owes p [] s) : NoCreate s :=
  fun e on he => List.not_mem_nil (h.2 e on he)

/-! ### One statement -/

/-- What a statement that takes effect changes. -/
theorem take_eq (h : s.take q = some s') :
    ∃ server, s.server.exec q = some server ∧
      s' = { s with server, doubt := if q = .kill then none else s.doubt } := by
  obtain ⟨server, hserver, rfl⟩ := Option.map_eq_some_iff.mp h
  exact ⟨server, hserver, rfl⟩

/-- After a statement there is no more in doubt on the old connection than before. -/
theorem doubt_take (h : s.take q = some s') {q' : Sql} (hd : s'.doubt = some q') :
    s.doubt = some q' := by
  obtain ⟨server, _, rfl⟩ := take_eq h
  dsimp only at hd
  split at hd
  · cases hd
  · exact hd

/-- The server makes none of what is no create. -/
theorem NoCreate.take (h : NoCreate s) (hq : s.take q = some s') : NoCreate s' :=
  fun e on hd => h e on (doubt_take hq hd)

/-- What the server takes of the runner's own statements owes no new trigger. -/
theorem Owes.take (hgood : Good p s.server) (h : Owes p l s) (hours : Ours p q)
    (hnew : ∀ e, q = .createTrigger e p.table → e ∈ l) (hq : s.take q = some s') :
    Owes p l s' := by
  refine ⟨?_, fun e on hd => h.2 e on (doubt_take hq hd)⟩
  obtain ⟨server, hserver, rfl⟩ := take_eq hq
  exact h.1.exec hgood hours hnew hserver

/-- A statement keeps the core, if a trigger is only created over a shadow, and the shadow is
only dropped when nothing writes to it. -/
theorem Core.take (h : Core p s) (hours : Ours p q)
    (hnew : ∀ e, q = .createTrigger e p.table →
      (s.server.names (shadowName p.table)).isSome = true ∧
        s.doubt ≠ some (dropShadow p) ∧ s.freshDoubt ≠ some (dropShadow p))
    (hdrop : q = dropShadow p → Owes p [] s)
    (hren : q = .renameTable p.table (oldName p.table) (shadowName p.table) → NoCreate s)
    (hq : s.take q = some s') : Core p s' := by
  -- Taking a statement settles no doubt but its own.
  have hdoubt : ∀ q', s'.doubt = some q' → s.doubt = some q' := fun q' hd => doubt_take hq hd
  obtain ⟨server, hserver, heq⟩ := take_eq hq
  have hfresh : s'.freshDoubt = s.freshDoubt := by rw [heq]
  have hsrv : s'.server = server := by rw [heq]
  refine ⟨?_, ?_, fun q' hd => h.ours q' (hdoubt q' hd), ?_, ?_, ?_⟩
  · rw [hsrv]
    exact h.good.exec hours hserver
  · rw [hsrv]
    exact h.shadowed.exec h.good hours (fun e he => (hnew e he).1) (fun he => (hdrop he).1) hserver
  -- A CREATE in doubt still finds its shadow, unless this statement drops or renames it.
  · intro hcreate
    have hbefore : ¬ NoCreate s := fun hno => hcreate (hno.take hq)
    rw [hsrv]
    refine shadow_exec hours (h.creates hbefore) (fun he => ?_) (fun he => ?_) hserver
    · exact hbefore (hdrop he).noCreate
    · exact hbefore (hren he)
  -- A drop in doubt leaves nothing that a new trigger could stand on.
  · intro hd
    have hd' : s.doubt = some (dropShadow p) ∨ s.freshDoubt = some (dropShadow p) := by
      rw [hfresh] at hd
      exact hd.imp_left (hdoubt _)
    refine (h.drops hd').take h.good hours (fun e he => ?_) hq
    rcases hd' with hd' | hd'
    · exact absurd hd' (hnew e he).2.1
    · exact absurd hd' (hnew e he).2.2
  · rw [hfresh]
    exact h.fresh

/-! ### The stages -/

/-- The stage of a CREATE TRIGGER. -/
theorem stage_of_createTrigger {stage : Stage} {table on : String}
    (h : stage.sql table = some (.createTrigger e on)) :
    on = table ∧ ∃ todo n, stage = .trigger e todo n := by
  cases stage <;> simp_all [Stage.sql]

/-- The stages that drop the shadow. -/
theorem stage_of_dropShadow {stage : Stage} (h : stage.sql p.table = some (dropShadow p)) :
    stage = .dryDrop ∨ stage = .cleanShadow := by
  cases stage <;> simp_all [Stage.sql, dropShadow]

/-- The stage of the RENAME. -/
theorem stage_of_rename {stage : Stage} {table old shadow : String}
    (h : stage.sql p.table = some (.renameTable table old shadow)) : ∃ n, stage = .rename n := by
  cases stage <;> simp_all [Stage.sql]

/-- The statement of the stage keeps the core, and gives the live table no trigger that is not
owed. -/
theorem Tracked.take (h : Tracked p s) (hsql : s.stage.sql p.table = some q)
    (hq : s.take q = some s') :
    Core p s' ∧ ∀ l, s.stage.owed s.book = some l → Owes p l s' := by
  have hours : Ours p q := ⟨s.stage, hsql⟩
  -- A CREATE TRIGGER comes from the trigger stage only.
  have hcreate : ∀ e, q = .createTrigger e p.table → ∃ todo n, s.stage = .trigger e todo n := by
    rintro e rfl
    exact (stage_of_createTrigger hsql).2
  refine ⟨h.core.take hours ?_ ?_ ?_ hq, fun l hl => ?_⟩
  -- While the stage runs, nothing is in doubt.
  · intro e he
    obtain ⟨todo, n, hstage⟩ := hcreate e he
    have hdoubt := h.running (by rw [hstage]; rfl)
    have hfresh := h.ended (by rw [hstage]; simp)
    refine ⟨(h.booked.there e todo n (.inr (.inr hstage))).1, ?_, ?_⟩
    · simp [hdoubt]
    · simp [hfresh]
  -- The shadow is dropped with no trigger left to drop.
  · rintro rfl
    rcases stage_of_dropShadow hsql with hstage | hstage
    · have hnone := h.booked.early (by rw [hstage]; rfl)
      exact h.owes [] (by rw [hstage]; exact congrArg some hnone)
    · exact h.owes [] (by rw [hstage]; rfl)
  -- The rename runs with no CREATE in doubt.
  · rintro rfl
    obtain ⟨n, hstage⟩ := stage_of_rename hsql
    intro e on hd
    rw [h.running (by rw [hstage]; rfl)] at hd
    cases hd
  -- What is owed stays owed, and the trigger just made was recorded before.
  · refine (h.owes l hl).take h.core.good hours (fun e he => ?_) hq
    obtain ⟨todo, n, hstage⟩ := hcreate e he
    rw [hstage] at hl
    have hl' : s.book.createdTriggers = l := Option.some.inj hl
    exact hl' ▸ h.booked.recorded e todo n hstage

/-- The core does not read the stage or the book. -/
theorem Core.of_eq (h : Core p s) (hserver : s'.server = s.server) (hdoubt : s'.doubt = s.doubt)
    (hfresh : s'.freshDoubt = s.freshDoubt) : Core p s' := by
  have hno : NoCreate s' ↔ NoCreate s := by
    unfold NoCreate
    rw [hdoubt]
  have howes : Owes p [] s' ↔ Owes p [] s := by
    unfold Owes
    rw [hserver, hdoubt]
  refine ⟨?_, ?_, ?_, ?_, ?_, ?_⟩
  · exact hserver ▸ h.good
  · exact hserver ▸ h.shadowed
  · exact hdoubt ▸ h.ours
  · rw [hno, hserver]
    exact h.creates
  · rw [howes, hdoubt, hfresh]
    exact h.drops
  · exact hfresh ▸ h.fresh

/-- A stage of the run itself, or the first one of the cleanup, with nothing in doubt. -/
theorem Tracked.enter {stage : Stage} {book : Book} (hcore : Core p s) (hdoubt : s.doubt = none)
    (hfresh : s.freshDoubt = none)
    (howes : ∀ l, stage.owed book = some l → OnTable p l s.server)
    (hbooked : Booked p stage book s.server) : Tracked p { s with stage, book } where
  core := hcore.of_eq rfl rfl rfl
  owes := by
    intro l hl
    refine ⟨howes l hl, fun e on hd => ?_⟩
    simp [hdoubt] at hd
  running := fun _ => hdoubt
  ended := fun _ => hfresh
  booked := hbooked

/-- Outside the dropping of the cleanup, what is owed are the triggers of the book. -/
theorem owed_eq {stage : Stage} {b : Book} (h : stage.owed b = some l)
    (hclean : ∀ e todo, stage ≠ .cleanTrigger e todo) (hshadow : stage ≠ .cleanShadow) :
    l = b.createdTriggers := by
  cases stage <;> simp_all [Stage.owed]

/-- A stage of the run itself that is entered with the same triggers in the book. -/
theorem Tracked.proceed {stage : Stage} {book : Book} (hcore : Core p s)
    (hdoubt : s.doubt = none) (hfresh : s.freshDoubt = none)
    (hon : OnTable p book.createdTriggers s.server)
    (hclean : ∀ e todo, stage ≠ .cleanTrigger e todo) (hshadow : stage ≠ .cleanShadow)
    (hbooked : Booked p stage book s.server) : Tracked p { s with stage, book } :=
  .enter hcore hdoubt hfresh (fun _ hl => owed_eq hl hclean hshadow ▸ hon) hbooked

/-- A stage in which the book has nothing to say. -/
theorem Booked.late {stage : Stage} {b : Book} {srv : Server}
    (hb : b.createdTriggers ≠ [] → b.createdShadow = true) (hearly : stage.early = false)
    (htrigger : ∀ e todo n, stage ≠ .trigger e todo n) : Booked p stage b srv where
  early := fun h => by rw [hearly] at h; cases h
  setup := fun h => by rw [h] at hearly; cases hearly
  booked := hb
  there := by
    rintro e todo n (h | h | h)
    · rw [h] at hearly
      cases hearly
    · rw [h] at hearly
      cases hearly
    · exact absurd h (htrigger e todo n)
  recorded := fun e todo n h => absurd h (htrigger e todo n)

/-- A stage before the first CREATE TRIGGER. -/
theorem Booked.soon {stage : Stage} {b : Book} {srv : Server} (hb : b.createdTriggers = [])
    (hstage : stage ≠ .setup) (htrigger : ∀ e todo n, stage ≠ .trigger e todo n)
    (hthere : stage = .alter ∨ stage = .inspect →
      (srv.names (shadowName p.table)).isSome = true ∧ b.createdShadow = true) :
    Booked p stage b srv where
  early := fun _ => hb
  setup := fun h => absurd h hstage
  booked := fun h => absurd hb h
  there := by
    rintro e todo n (h | h | h)
    · exact hthere (.inl h)
    · exact hthere (.inr h)
    · exact absurd h (htrigger e todo n)
  recorded := fun e todo n h => absurd h (htrigger e todo n)

/-- The stage of a CREATE TRIGGER, entered when the trigger is recorded. -/
theorem Booked.record {b : Book} {srv : Server} (e : Dml) (todo : List Dml)
    (hthere : (srv.names (shadowName p.table)).isSome = true) (hshadow : b.createdShadow = true) :
    Booked p (.trigger e todo 0) { b with createdTriggers := b.createdTriggers ++ [e] } srv where
  early := fun h => by cases h
  setup := fun h => by cases h
  booked := fun _ => hshadow
  there := fun _ _ _ _ => ⟨hthere, hshadow⟩
  recorded := by
    intro e' todo' n h
    cases h
    exact List.mem_append_right _ (List.mem_singleton_self _)

/-- No trigger of the live table, as `triggersOn` reads it. -/
theorem onTable_of_isEmpty {srv : Server} (h : (srv.triggersOn p.table).isEmpty = true) :
    OnTable p [] srv := by
  intro x hx ht
  have hmem : x.1 ∈ srv.triggersOn p.table :=
    List.mem_map.mpr ⟨x, List.mem_filter.mpr ⟨hx, by simpa using ht⟩, rfl⟩
  rw [List.isEmpty_iff.mp h] at hmem
  exact hmem

/-- The way on after a statement of the run itself, from what is known of the state in which
the statement has taken effect. -/
theorem tracked_onOk {stage : Stage} (hst : s.stage = stage) (hrun : stage.inCleanup = false)
    (hcore : Core p s) (hdoubt : s.doubt = none) (hfresh : s.freshDoubt = none)
    (howes : ∀ l, stage.owed s.book = some l → OnTable p l s.server)
    (hb : Booked p stage s.book s.server)
    (hcreated : stage = .create → (s.server.names (shadowName p.table)).isSome = true)
    (hfin : stage ≠ .finished) (go : Bool) : Tracked p (s.onOk p go) := by
  unfold Runner.onOk
  rw [hst]
  -- One case for each stage: the next one, and what the book owes the server there.
  cases stage with
  | setup =>
    have hbook := hb.early rfl
    dsimp only
    split
    · rename_i hclean
      simp only [Runner.clean, Bool.and_eq_true] at hclean
      have hon : OnTable p s.book.createdTriggers s.server :=
        hbook ▸ onTable_of_isEmpty hclean.2
      -- A dry run, an INSTANT ALTER or a copy comes next.
      split
      · exact .proceed hcore hdoubt hfresh hon (by simp) (by simp)
          (.soon hbook (by simp) (by simp) (by simp))
      · split
        · exact .proceed hcore hdoubt hfresh hon (by simp) (by simp)
            (.soon hbook (by simp) (by simp) (by simp))
        · exact .proceed hcore hdoubt hfresh hon (by simp) (by simp)
            (.soon hbook (by simp) (by simp) (by simp))
    · -- Preflight has refused, and the book is empty.
      refine .enter hcore hdoubt hfresh (fun l hl => ?_) (.late hb.booked rfl (by simp))
      simp [Stage.owed, hb.setup rfl] at hl
  | dryCreate | dryAlter | dryInspect =>
    exact .proceed hcore hdoubt hfresh (howes _ rfl) (by simp) (by simp)
      (.soon (hb.early rfl) (by simp) (by simp) (by simp))
  -- A dry run drops its shadow, and a failed INSTANT goes on to a copy.
  | dryDrop =>
    have hnone := hb.early rfl
    refine .proceed hcore hdoubt hfresh (howes _ rfl) ?_ ?_ (.late (fun h => absurd hnone h) ?_ ?_)
    all_goals cases go <;> simp [Stage.early]
  | create =>
    exact .proceed hcore hdoubt hfresh (howes _ rfl) (by simp) (by simp)
      -- The shadow is there from now on, and `created_shadow` with it.
      (.soon (hb.early rfl) (by simp) (by simp) (fun _ => ⟨hcreated rfl, rfl⟩))
  | alter =>
    exact .proceed hcore hdoubt hfresh (howes _ rfl) (by simp) (by simp)
      (.soon (hb.early rfl) (by simp) (by simp) (fun _ => hb.there .insert [] 0 (.inl rfl)))
  -- The first trigger is written into the book before it is created.
  | inspect =>
    obtain ⟨hthere, hshadow⟩ := hb.there .insert [] 0 (.inr (.inl rfl))
    exact .proceed hcore hdoubt hfresh
      ((howes _ rfl).mono fun _ he => List.mem_append_left _ he) (by simp) (by simp)
      (.record _ _ hthere hshadow)
  | trigger e todo n =>
    obtain ⟨hthere, hshadow⟩ := hb.there e todo n (.inr (.inr rfl))
    -- The last trigger is there, and the copy begins.
    cases todo with
    | nil =>
      exact .proceed hcore hdoubt hfresh (howes _ rfl) (by simp) (by simp)
        (.late hb.booked rfl (by simp))
    | cons e' todo =>
      exact .proceed hcore hdoubt hfresh
        ((howes _ rfl).mono fun _ he => List.mem_append_left _ he) (by simp) (by simp)
        (.record _ _ hthere hshadow)
  | copy =>
    dsimp only
    split
    -- The copy is through, and the swap comes next unless the checksums disagree.
    · refine .proceed hcore hdoubt hfresh (howes _ rfl) ?_ ?_ (.late hb.booked ?_ ?_)
      all_goals split <;> simp [Runner.untriggerAll, Stage.early]
    · -- The copy goes on.
      have hsame : s = { s with stage := .copy, book := s.book } := by
        rw [← hst]
      rw [hsame]
      exact .proceed hcore hdoubt hfresh (howes _ rfl) (by simp) (by simp)
        (.late hb.booked rfl (by simp))
  | rename n =>
    exact .proceed hcore hdoubt hfresh (howes _ rfl) (by simp [Runner.untriggerAll])
      (by simp [Runner.untriggerAll]) (.late hb.booked rfl (by simp [Runner.untriggerAll]))
  | untrigger e todo n =>
    cases todo <;> exact .proceed hcore hdoubt hfresh (howes _ rfl) (by simp) (by simp)
      (.late hb.booked rfl (by simp))
  -- The old table has no trigger any more, or the drops are tried again.
  | verify =>
    dsimp only
    split
    · rename_i hgone
      simp only [Bool.and_eq_true] at hgone
      refine .proceed hcore hdoubt hfresh (onTable_of_isEmpty hgone.1) ?_ ?_
        (.late (fun h => absurd rfl h) ?_ ?_)
      all_goals split <;> simp [Stage.early]
    · exact .proceed hcore hdoubt hfresh (howes _ rfl) (by simp) (by simp)
        (.late hb.booked rfl (by simp))
  -- These stages owe nothing.
  | instant | dropOld =>
    exact .proceed hcore hdoubt hfresh (howes _ rfl) (by simp) (by simp)
      (.late hb.booked rfl (by simp))
  | finished => exact absurd rfl hfin
  | reconnect | kill | setLock | cleanTrigger | cleanShadow | failed => cases hrun

/-! ### The cleanup -/

/-- A stage of the cleanup. -/
theorem Tracked.clean (hcore : Core p s) (hclean : s.stage.inCleanup = true)
    (howes : ∀ l, s.stage.owed s.book = some l → Owes p l s)
    (hfresh : s.stage ≠ .failed → s.freshDoubt = none)
    (hb : s.book.createdTriggers ≠ [] → s.book.createdShadow = true) : Tracked p s where
  core := hcore
  owes := howes
  running := fun h => by rw [hclean] at h; cases h
  ended := hfresh
  booked := .late hb (by cases hst : s.stage <;> simp_all [Stage.inCleanup, Stage.early])
    (by rintro e todo n hst; rw [hst] at hclean; cases hclean)

/-- What is owed when triggers are left to drop. -/
theorem owed_cleanNext {b b' : Book} {todo : List Dml}
    (h : (Runner.cleanNext b todo).owed b' = some l) : l = todo := by
  cases todo with
  | cons e todo => exact (Option.some.inj h).symm
  | nil =>
    by_cases hb : (b.createdShadow && !b.swapped) = true
    · simp only [Runner.cleanNext, hb, if_true] at h
      exact (Option.some.inj h).symm
    · simp only [Runner.cleanNext, hb, Bool.false_eq_true, if_false] at h
      cases h

/-- The next step of the cleanup is one of it. -/
theorem inCleanup_cleanNext (b : Book) (todo : List Dml) :
    (Runner.cleanNext b todo).inCleanup = true := by
  unfold Runner.cleanNext
  split
  · rfl
  · split <;> rfl

/-- The way on after a statement of the cleanup. -/
theorem Tracked.onOk_clean (h : Tracked p s) (hclean : s.stage.inCleanup = true)
    (hok : Settled s (.ok true)) (hsql : s.stage.sql p.table = some q)
    (hq : s.take q = some s') (go : Bool) : Tracked p (s'.onOk p go) := by
  obtain ⟨hcore, howes⟩ := h.take hsql hq
  have hdoubt : ∀ q', s'.doubt = some q' → s.doubt = some q' := fun q' hd => doubt_take hq hd
  -- Once its drop was answered, a trigger is not on the table any more.
  have htrigger : ∀ e todo, s.stage = .cleanTrigger e todo → OnTable p todo s'.server := by
    intro e todo hst
    obtain ⟨server, hserver, rfl⟩ := take_eq hq
    rw [hst] at hsql
    cases hsql
    exact (h.owes _ (by rw [hst]; rfl)).1.dropTrigger hserver
  obtain ⟨server, hserver, heq⟩ := take_eq hq
  have hst : s'.stage = s.stage := by rw [heq]
  have hbook : s'.book = s.book := by rw [heq]
  have hfresh : s'.freshDoubt = none := by
    have hne : s.stage ≠ .failed := fun hf => by rw [hf] at hsql; cases hsql
    rw [heq]
    exact h.ended hne
  have hb := h.booked.booked
  rw [← hbook] at hb howes
  unfold Runner.onOk
  rw [hst]
  -- One case for each stage of the cleanup.
  cases hstage : s.stage with
  -- There is a new connection, or the cleanup ends without one.
  | reconnect =>
    rw [hstage] at howes
    refine .clean (hcore.of_eq rfl rfl rfl) ?_ ?_ (fun _ => hfresh) hb
    · cases go <;> rfl
    · intro l hl
      cases go <;> exact howes l hl
  | kill =>
    rw [hstage] at howes
    exact .clean (hcore.of_eq rfl rfl rfl) rfl howes (fun _ => hfresh) hb
  | setLock =>
    rw [hstage] at howes
    refine .clean (hcore.of_eq rfl rfl rfl) (inCleanup_cleanNext _ _) ?_ (fun _ => hfresh) hb
    intro l hl
    obtain rfl := owed_cleanNext hl
    by_cases hshadow : s'.book.createdShadow = true
    · exact howes _ (by simp [Stage.owed, hshadow])
    · -- Nothing was created, so there is nothing to drop.
      have hnone : s'.book.createdTriggers = [] := by
        by_contra hne
        exact hshadow (hb hne)
      simp [Runner.cleanNext, hnone, hshadow, Stage.owed] at hl
  | cleanTrigger e todo =>
    rw [hstage] at howes
    refine .clean (hcore.of_eq rfl rfl rfl) (inCleanup_cleanNext _ _) ?_ (fun _ => hfresh) hb
    intro l hl
    obtain rfl := owed_cleanNext hl
    refine ⟨htrigger e l hstage, fun e' on hd => ?_⟩
    -- A trigger in doubt is not the one that was just dropped: its CREATE would land after the
    -- drop.
    have hmem := (howes _ rfl).2 e' on hd
    refine (List.mem_cons.mp hmem).resolve_left ?_
    rintro rfl
    refine hok e' (by rw [hstage]; rfl) ?_
    rw [hdoubt _ hd]
    rfl
  -- With the shadow dropped nothing is owed.
  | cleanShadow =>
    refine .clean (hcore.of_eq rfl rfl rfl) rfl (fun l hl => ?_) (fun hne => absurd rfl hne) hb
    cases hl
  | failed =>
    rw [hstage] at hsql
    cases hsql
  | _ => simp [hstage, Stage.inCleanup] at hclean

/-! ### Failures -/

/-- The triggers of the book, once the shadow is in it. -/
theorem Tracked.onTable (h : Tracked p s) (hrun : s.stage.inCleanup = false)
    (hfin : s.stage ≠ .finished) (hshadow : s.book.createdShadow = true) :
    OnTable p s.book.createdTriggers s.server := by
  refine (h.owes s.book.createdTriggers ?_).1
  have hsetup : s.stage ≠ .setup := fun hs => by
    rw [h.booked.setup hs] at hshadow
    cases hshadow
  cases hst : s.stage <;> simp_all [Stage.owed, Stage.inCleanup]

/-- The statement of a stage of the run itself fails and can still take effect. -/
theorem Tracked.doubtful (h : Tracked p s) (hrun : s.stage.inCleanup = false)
    (hsql : s.stage.sql p.table = some q) (alive : Bool) :
    Tracked p { s with stage := .reconnect, doubt := some q, alive } := by
  have hfin : s.stage ≠ .finished := fun hf => by rw [hf] at hsql; cases hsql
  have hfresh : s.freshDoubt = none := h.ended fun hf => by rw [hf] at hsql; cases hsql
  have hcreate : ∀ e on, q = .createTrigger e on → ∃ todo n, s.stage = .trigger e todo n := by
    rintro e on rfl
    exact (stage_of_createTrigger hsql).2
  refine .clean ⟨h.core.good, h.core.shadowed, ?_, ?_, ?_, h.core.fresh⟩ rfl ?_ (fun _ => hfresh)
    -- The statement in doubt is the one that the stage sends.
    h.booked.booked
  · intro q' hq'
    exact ⟨s.stage, by rw [hsql]; exact hq'⟩
  -- Only a CREATE TRIGGER can bring one back, and it was sent where the shadow stood.
  · intro hno
    unfold NoCreate at hno
    simp only [not_forall, not_not] at hno
    obtain ⟨e, on, he⟩ := hno
    obtain ⟨todo, n, hst⟩ := hcreate e on (Option.some.inj he)
    exact (h.booked.there e todo n (.inr (.inr hst))).1
  -- The drop of the shadow in doubt is that of a dry run, before any trigger.
  · rintro (hd | hd)
    · have hq : q = dropShadow p := Option.some.inj hd
      subst hq
      have hst : s.stage = .dryDrop := by
        rcases stage_of_dropShadow hsql with hst | hst
        · exact hst
        · rw [hst] at hrun
          cases hrun
      have hnone := h.booked.early (by rw [hst]; rfl)
      refine ⟨(h.owes [] (by rw [hst]; exact congrArg some hnone)).1, fun e on he => ?_⟩
      cases he
    · rw [show ({ s with stage := .reconnect, doubt := some q, alive } : Runner).freshDoubt = none
        from hfresh] at hd
      cases hd
  -- What the cleanup owes is what the book says, and the trigger in doubt is in the book already.
  · intro l hl
    have hshadow : s.book.createdShadow = true := by
      by_contra hne
      simp [Stage.owed, hne] at hl
    have hl' : s.book.createdTriggers = l := by simpa [Stage.owed, hshadow] using hl
    subst hl'
    refine ⟨h.onTable hrun hfin hshadow, fun e on he => ?_⟩
    obtain ⟨todo, n, hst⟩ := hcreate e on (Option.some.inj he)
    exact h.booked.recorded e todo n hst

/-- A stage of the run itself ends with an exception and nothing in doubt. -/
theorem Tracked.abort (h : Tracked p s) (hrun : s.stage.inCleanup = false)
    (hfin : s.stage ≠ .finished) (alive : Bool) :
    Tracked p { s with stage := .reconnect, doubt := none, alive } := by
  have hdoubt := h.running hrun
  have hfresh : s.freshDoubt = none := h.ended fun hf => by rw [hf] at hrun; cases hrun
  refine .clean (h.core.of_eq rfl hdoubt.symm rfl) rfl ?_ (fun _ => hfresh) h.booked.booked
  intro l hl
  have hshadow : s.book.createdShadow = true := by
    by_contra hne
    simp [Stage.owed, hne] at hl
  have hl' : s.book.createdTriggers = l := by simpa [Stage.owed, hshadow] using hl
  subst hl'
  exact ⟨h.onTable hrun hfin hshadow, fun e on he => by cases he⟩

/-- The statement of the stage takes effect, whatever the client sees of it. -/
theorem Tracked.took (h : Tracked p s) (hsql : s.stage.sql p.table = some q)
    (hq : s.take q = some s') : Tracked p s' := by
  obtain ⟨hcore, howes⟩ := h.take hsql hq
  have hdoubt : ∀ q', s'.doubt = some q' → s.doubt = some q' := fun q' hd => doubt_take hq hd
  obtain ⟨server, hserver, heq⟩ := take_eq hq
  have hst : s'.stage = s.stage := by rw [heq]
  have hbook : s'.book = s.book := by rw [heq]
  have hsrv : s'.server = server := by rw [heq]
  refine ⟨hcore, ?_, ?_, ?_, ?_⟩
  · rw [hst, hbook]
    exact howes
  · intro hrun
    rw [hst] at hrun
    have hnone := h.running hrun
    cases hd : s'.doubt with
    | none => rfl
    | some q' => simpa [hnone] using hdoubt q' hd
  · intro hne
    rw [hst] at hne
    rw [heq]
    exact h.ended hne
  · rw [hst, hbook, hsrv]
    refine { h.booked with there := fun e todo n hstage => ?_ }
    obtain ⟨hthere, hshadow⟩ := h.booked.there e todo n hstage
    refine ⟨shadow_exec ⟨s.stage, hsql⟩ hthere ?_ ?_ hserver, hshadow⟩
    · rintro rfl
      rcases hstage with hs | hs | hs <;> rw [hs] at hsql <;> cases hsql
    · rintro rfl
      rcases hstage with hs | hs | hs <;> rw [hs] at hsql <;> cases hsql

/-- The way on after a statement of the run itself that succeeded. -/
theorem Tracked.onOk_run (h : Tracked p s) (hrun : s.stage.inCleanup = false)
    (hsql : s.stage.sql p.table = some q) (hq : s.take q = some s') (go : Bool) :
    Tracked p (s'.onOk p go) := by
  have ht := h.took hsql hq
  obtain ⟨server, hserver, heq⟩ := take_eq hq
  have hst : s'.stage = s.stage := by rw [heq]
  have hrun' : s'.stage.inCleanup = false := by rw [hst]; exact hrun
  have hfailed : s'.stage ≠ .failed := fun hf => by rw [hf] at hrun'; cases hrun'
  refine tracked_onOk rfl hrun' ht.core (ht.running hrun') (ht.ended hfailed)
    (fun l hl => (ht.owes l hl).1) ht.booked (fun hcreate => ?_) ?_ go
  · rw [hst] at hcreate
    rw [hcreate] at hsql
    cases hsql
    rw [heq]
    simp only [Server.exec, Option.ite_none_right_eq_some, Option.some.injEq] at hserver
    obtain ⟨_, rfl⟩ := hserver
    simp
  · intro hfin
    rw [← hst, hfin] at hsql
    cases hsql

/-- A failed statement of the cleanup ends it, or it goes on without the KILL. -/
theorem Tracked.next_clean {stage : Stage} (h : Tracked p s) (usable : Bool)
    (hclean : stage.inCleanup = true)
    (howed : ∀ l, stage.owed s.book = some l → s.stage.owed s.book = some l)
    (hfresh : s.freshDoubt = none) : Tracked p { s with stage, usable } :=
  .clean (h.core.of_eq rfl rfl rfl) hclean (fun l hl => h.owes l (howed l hl))
    (fun _ => hfresh) h.booked.booked

/-- Another try of a statement, or the end of the run itself. -/
theorem Tracked.retry {stage : Stage} (h : Tracked p s) (hrun : s.stage.inCleanup = false)
    (howed : stage.owed s.book = s.stage.owed s.book)
    (hbooked : Booked p stage s.book s.server) : Tracked p { s with stage } := by
  have hfresh : s.freshDoubt = none := h.ended fun hf => by rw [hf] at hrun; cases hrun
  exact .enter h.core (h.running hrun) hfresh (fun l hl => (h.owes l (howed ▸ hl)).1) hbooked

/-- A lost connection leads to a new one. -/
theorem Tracked.toReconnect (h : Tracked p s) (hrun : s.stage.inCleanup = false)
    (hfin : s.stage ≠ .finished) : Tracked p { s with stage := .reconnect } := by
  have hsame : { s with stage := .reconnect } =
      { s with stage := .reconnect, doubt := none, alive := s.alive } := by
    rw [← h.running hrun]
  rw [hsame]
  exact h.abort hrun hfin s.alive

/-- The way on after a statement that the server refused. -/
theorem Tracked.onRefuse (h : Tracked p s) (hsql : s.stage.sql p.table = some q) (code : Nat) :
    Tracked p (s.onRefuse p code) := by
  have hfresh : s.freshDoubt = none := h.ended fun hf => by rw [hf] at hsql; cases hsql
  unfold Runner.onRefuse
  cases hst : s.stage with
  -- Most refusals end the run, and the cleanup begins with a new connection.
  | setup | dryCreate | dryAlter | dryInspect | dryDrop | create | alter | inspect | copy | verify
    | dropOld =>
    exact h.toReconnect (by rw [hst]; rfl) (by simp [hst])
  -- A refused INSTANT goes on to a copy.
  | instant =>
    dsimp only
    split
    · have hnone := h.booked.early (by rw [hst]; rfl)
      exact h.retry (by rw [hst]; rfl) (by rw [hst]; rfl) (.soon hnone (by simp) (by simp) (by simp))
    · exact h.toReconnect (by rw [hst]; rfl) (by simp [hst])
  -- A refused trigger is tried again while attempts are left.
  | trigger e todo n =>
    dsimp only
    split
    · refine h.retry (by rw [hst]; rfl) (by rw [hst]; rfl) ?_
      have hb := h.booked
      rw [hst] at hb
      have hthere := hb.there e todo n (.inr (.inr rfl))
      refine ⟨fun hs => (by cases hs), fun hs => (by cases hs), hb.booked,
        fun _ _ _ _ => hthere, ?_⟩
      intro e' todo' n' hs
      cases hs
      exact hb.recorded e todo n rfl
    · exact h.toReconnect (by rw [hst]; rfl) (by simp [hst])
  | untrigger e todo n | rename n =>
    dsimp only
    split
    · exact h.retry (by rw [hst]; rfl) (by rw [hst]; rfl) (.late h.booked.booked rfl (by simp))
    · exact h.toReconnect (by rw [hst]; rfl) (by simp [hst])
  | reconnect =>
    exact h.next_clean _ rfl (fun l hl => by rw [hst]; exact hl) hfresh
  | kill =>
    exact h.next_clean s.usable rfl (fun l hl => by rw [hst]; exact hl) hfresh
  -- In the cleanup a refusal ends it: what is left is reported.
  | setLock | cleanTrigger e todo | cleanShadow =>
    exact h.next_clean s.usable rfl (fun l hl => by cases hl) hfresh
  | finished | failed =>
    rw [hst] at hsql
    cases hsql

/-- A statement in doubt no longer is. -/
theorem Core.settle (h : Core p s) : Core p { s with doubt := none } where
  good := h.good
  shadowed := h.shadowed
  ours := fun q hq => by cases hq
  creates := fun hno => absurd (fun e on he => by cases he) hno
  drops := by
    rintro (hd | hd)
    · cases hd
    · exact ⟨(h.drops (.inr hd)).1, fun e on he => by cases he⟩
  fresh := h.fresh

/-- What was in doubt is settled, and nothing more is owed. -/
theorem Owes.settle (h : Owes p l s) : Owes p l { s with doubt := none } :=
  ⟨h.1, fun e on he => by cases he⟩

/-- The run stays tracked. -/
theorem Tracked.settle (h : Tracked p s) : Tracked p { s with doubt := none } where
  core := h.core.settle
  owes := fun l hl => (h.owes l hl).settle
  running := fun _ => rfl
  ended := h.ended
  booked := h.booked

/-- The statements of the cleanup proper. -/
theorem cleaning_sql (hst : s.stage = .setLock ∨ (∃ e todo, s.stage = .cleanTrigger e todo) ∨
      s.stage = .cleanShadow) (hsql : s.stage.sql p.table = some q) :
    q = .plain ∨ (∃ e, q = .dropTrigger e) ∨ q = dropShadow p := by
  rcases hst with hst | ⟨e, todo, hst⟩ | hst <;> rw [hst] at hsql <;> cases hsql
  · exact .inl rfl
  · exact .inr (.inl ⟨e, rfl⟩)
  · exact .inr (.inr rfl)

/-- A statement of the cleanup proper fails on the fresh connection and can still take effect. -/
theorem Tracked.doubtful_fresh (h : Tracked p s)
    (hst : s.stage = .setLock ∨ (∃ e todo, s.stage = .cleanTrigger e todo) ∨
      s.stage = .cleanShadow) (hsql : s.stage.sql p.table = some q) :
    Tracked p { s with stage := .failed, freshDoubt := some q } := by
  refine .clean ⟨h.core.good, h.core.shadowed, h.core.ours, h.core.creates, ?_, ?_⟩ rfl
    (fun l hl => by cases hl) (fun hne => absurd rfl hne) h.booked.booked
  · rintro (hd | hd)
    · exact h.core.drops (.inl hd)
    · cases Option.some.inj hd
      have hlast : s.stage = .cleanShadow := by
        rcases stage_of_dropShadow hsql with hs | hs
        · rcases hst with hst | ⟨e, todo, hst⟩ | hst <;> rw [hst] at hs <;> cases hs
        · exact hs
      exact h.owes [] (by rw [hlast]; rfl)
  · intro q' hq'
    cases Option.some.inj hq'
    exact cleaning_sql hst hsql

/-- The same on the old connection, on which nothing else is in doubt. -/
theorem Tracked.doubtful_own (h : Tracked p s)
    (hst : s.stage = .setLock ∨ (∃ e todo, s.stage = .cleanTrigger e todo) ∨
      s.stage = .cleanShadow) (hsql : s.stage.sql p.table = some q) :
    Tracked p { s with stage := .failed, doubt := some q } := by
  have hcases := cleaning_sql hst hsql
  have hno : ∀ e on, q ≠ .createTrigger e on := by
    rintro e on rfl
    rcases hcases with hq | ⟨e', hq⟩ | hq <;> cases hq
  refine .clean ⟨h.core.good, h.core.shadowed, ?_, ?_, ?_, h.core.fresh⟩ rfl
    (fun l hl => by cases hl) (fun hne => absurd rfl hne) h.booked.booked
  · intro q' hq'
    exact ⟨s.stage, by rw [hsql]; exact hq'⟩
  · intro hcreate
    exact absurd (fun e on he => hno e on (Option.some.inj he)) hcreate
  · rintro (hd | hd)
    · cases Option.some.inj hd
      have hlast : s.stage = .cleanShadow := by
        rcases stage_of_dropShadow hsql with hs | hs
        · rcases hst with hst | ⟨e, todo, hst⟩ | hst <;> rw [hst] at hs <;> cases hs
        · exact hs
      exact ⟨(h.owes [] (by rw [hlast]; rfl)).1, fun e on he => absurd (Option.some.inj he) (hno e on)⟩
    · exact ⟨(h.core.drops (.inr hd)).1, fun e on he => absurd (Option.some.inj he) (hno e on)⟩

/-- The way on after a statement that was lost. In the first case it has taken effect. -/
theorem Tracked.onLose (h : Tracked p s) (hsql : s.stage.sql p.table = some q) (dead : Bool)
    {d : Option Sql} (hd : d = none ∨ d = some q) : Tracked p (s.onLose d dead) := by
  have hfresh : s.freshDoubt = none := h.ended fun hf => by rw [hf] at hsql; cases hsql
  unfold Runner.onLose
  cases hst : s.stage with
  | reconnect =>
    exact h.next_clean _ rfl (fun l hl => by rw [hst]; exact hl) hfresh
  | kill =>
    exact h.next_clean _ rfl (fun l hl => by rw [hst]; exact hl) hfresh
  -- In the cleanup a lost connection ends it, too; the statement may take effect later.
  | setLock | cleanTrigger | cleanShadow =>
    have hclean : s.stage = .setLock ∨ (∃ e todo, s.stage = .cleanTrigger e todo) ∨
        s.stage = .cleanShadow := by simp [hst]
    dsimp only
    split
    · rcases hd with rfl | rfl
      · have hnext : Tracked p { s with stage := .failed, usable := s.usable } :=
          h.next_clean s.usable rfl (fun l hl => by cases hl) hfresh
        rw [← hfresh]
        exact hnext
      · exact h.doubtful_fresh hclean hsql
    · rcases hd with rfl | rfl
      · have hnext : Tracked p { s with stage := .failed, usable := s.usable } :=
          h.next_clean s.usable rfl (fun l hl => by cases hl) hfresh
        exact hnext.settle
      · exact h.doubtful_own hclean hsql
  | finished | failed =>
    rw [hst] at hsql
    cases hsql
  -- Before the cleanup it leads there, with the statement in doubt if it has not taken effect.
  | _ =>
    have hrun : s.stage.inCleanup = false := by rw [hst]; rfl
    have hfin : s.stage ≠ .finished := by simp [hst]
    rcases hd with rfl | rfl
    · exact h.abort hrun hfin _
    · exact h.doubtful hrun hsql _

/-- A statement in doubt on the old connection takes effect. This happens in the cleanup. -/
theorem Tracked.land_own (h : Tracked p s) (hd : s.doubt = some q)
    (hq : { s with doubt := none }.take q = some s') : Tracked p s' := by
  have hclean : s.stage.inCleanup = true := by
    by_contra hne
    have hnone := h.running (by simpa using hne)
    rw [hnone] at hd
    cases hd
  have hours := h.core.ours q hd
  have hnew : ∀ e, q = .createTrigger e p.table →
      ¬ NoCreate s ∧ s.freshDoubt ≠ some (dropShadow p) := by
    rintro e rfl
    refine ⟨fun hno => hno e p.table hd, fun hfresh => ?_⟩
    exact (h.core.drops (.inr hfresh)).noCreate e p.table hd
  have hcore : Core p s' := by
    refine h.core.settle.take hours (fun e he => ?_) (fun he => ?_) (fun _ e on he => ?_) hq
    · exact ⟨h.core.creates (hnew e he).1, (fun hn => by cases hn), (hnew e he).2⟩
    · exact (h.core.drops (.inl (he ▸ hd))).settle
    · cases he
  have howes : ∀ l, s.stage.owed s.book = some l → Owes p l s' := by
    intro l hl
    refine (h.owes l hl).settle.take h.core.settle.good hours (fun e he => ?_) hq
    exact (h.owes l hl).2 e p.table (he ▸ hd)
  obtain ⟨server, _, rfl⟩ := take_eq hq
  exact .clean hcore hclean howes h.ended h.booked.booked

/-- A statement in doubt on a new connection is the runner's own. -/
theorem Core.ours_fresh (h : Core p s) (hd : s.freshDoubt = some q) : Ours p q := by
  rcases h.fresh q hd with rfl | ⟨e, rfl⟩ | rfl
  · exact ⟨.setup, rfl⟩
  · exact ⟨.cleanTrigger e [], rfl⟩
  · exact ⟨.cleanShadow, rfl⟩

/-- The same on the fresh connection. -/
theorem Tracked.land_fresh (h : Tracked p s) (hd : s.freshDoubt = some q)
    (hq : { s with freshDoubt := none }.take q = some s') : Tracked p s' := by
  have hlast : s.stage = .failed := by
    by_contra hne
    rw [h.ended hne] at hd
    cases hd
  have hcore : Core p { s with freshDoubt := none } :=
    ⟨h.core.good, h.core.shadowed, h.core.ours, h.core.creates,
      fun hdrop => h.core.drops (hdrop.imp_right fun hn => by cases hn), fun q' hq' => by cases hq'⟩
  have hkind := h.core.fresh q hd
  have hcore' : Core p s' := by
    refine hcore.take (h.core.ours_fresh hd) (fun e he => ?_) (fun he => h.core.drops (.inr (he ▸ hd)))
      (fun he => ?_) hq
    · rcases hkind with hk | ⟨e', hk⟩ | hk <;> rw [he] at hk <;> cases hk
    · rcases hkind with hk | ⟨e', hk⟩ | hk <;> rw [he] at hk <;> cases hk
  obtain ⟨server, _, rfl⟩ := take_eq hq
  refine .clean hcore' (by show s.stage.inCleanup = true; rw [hlast]; rfl) (fun l hl => ?_)
    (fun hne => absurd hlast hne) h.booked.booked
  rw [hlast] at hl
  cases hl

/-! ### Runs -/

/-- Each move that meets the condition keeps the invariant. -/
theorem Tracked.step {m : Runner.Move} (h : Tracked p s) (hok : Settled s m)
    (hstep : s.step p m = some s') : Tracked p s' := by
  unfold Runner.step at hstep
  cases m with
  -- A statement is answered.
  | ok go =>
    dsimp only at hstep
    split at hstep
    · rename_i q hsql
      split at hstep
      · obtain ⟨s₁, hq, rfl⟩ := Option.map_eq_some_iff.mp hstep
        by_cases hclean : s.stage.inCleanup = true
        · exact h.onOk_clean hclean hok hsql hq go
        · exact h.onOk_run (by simpa using hclean) hsql hq go
      · cases hstep
    · cases hstep
  | refuse code =>
    dsimp only at hstep
    split at hstep
    · rename_i q hsql
      cases hstep
      exact h.onRefuse hsql code
    · cases hstep
  -- It is lost, and took effect or may still do so.
  | lose landed dead =>
    dsimp only at hstep
    split at hstep
    · rename_i q hsql
      split at hstep
      · split at hstep
        · obtain ⟨s₁, hq, rfl⟩ := Option.map_eq_some_iff.mp hstep
          have hst : s₁.stage = s.stage := by
            obtain ⟨server, _, rfl⟩ := take_eq hq
            rfl
          exact (h.took hsql hq).onLose (by rw [hst]; exact hsql) dead (.inl rfl)
        · cases hstep
          exact h.onLose hsql dead (.inr rfl)
      · cases hstep
    · cases hstep
  -- Any other exception.
  | raise =>
    dsimp only at hstep
    split at hstep
    · cases hstep
    · cases hstep
    · rename_i hfin hfail
      cases hstep
      have hfresh := h.ended hfail
      split
      · exact h.next_clean s.usable rfl (fun l hl => by cases hl) hfresh
      · exact h.toReconnect (by simpa using ‹¬ s.stage.inCleanup = true›) hfin
  -- A lost statement takes effect later, if its connection has not been killed.
  | landOwn =>
    dsimp only at hstep
    split at hstep
    · exact h.land_own ‹_› hstep
    · cases hstep
  | landFresh =>
    dsimp only at hstep
    split at hstep
    · exact h.land_fresh ‹_› hstep
    · cases hstep
  | lapseOwn =>
    cases hstep
    exact h.settle

/-- The invariant at the start. -/
theorem Initial.tracked (i : Initial p) : Tracked p i.start where
  core := {
    good := i.good
    shadowed := i.shadowed
    ours := fun q hq => by cases hq
    creates := fun hno => absurd (fun e on he => by cases he) hno
    drops := by rintro (hd | hd) <;> cases hd
    fresh := fun q hq => by cases hq }
  owes := fun l hl => by cases hl
  running := fun _ => rfl
  ended := fun _ => rfl
  booked := {
    early := fun _ => rfl
    setup := fun _ => rfl
    booked := fun hne => absurd rfl hne
    there := by rintro e todo n (hs | hs | hs) <;> cases hs
    recorded := fun e todo n hs => by cases hs }

/-- No statement of the runner drops the live table. -/
theorem Ours.spares (h : Ours p q) :
    q ≠ .dropTable p.table ∧ q ≠ .dropTableIfExists p.table := by
  have hst := shadowName_ne p.table
  have hot := oldName_ne p.table
  rcases h.cases with rfl | rfl | rfl | ⟨n, rfl⟩ | ⟨e, rfl⟩ | ⟨e, rfl⟩ | rfl | rfl | rfl <;>
    simp [dropShadow, hst, hot]

/-- A tracked server is unbroken. -/
theorem Tracked.unbroken (h : Tracked p s) : Unbroken p s where
  shadowed := h.core.shadowed
  spared := by
    rintro q (hq | hq | hq)
    · exact Ours.spares ⟨s.stage, hq⟩
    · exact (h.core.ours q hq).spares
    · exact (h.core.ours_fresh hq).spares
  live := h.core.good.live
  altered := h.core.good.altered

/-! ### The RENAME takes effect once -/

/-- The stages from the RENAME on, and those of the cleanup. -/
def Stage.late : Stage → Bool
  | .rename _ | .untrigger _ _ _ | .verify | .dropOld | .finished => true
  | stage => stage.inCleanup

/-- After the RENAME there is no shadow, and nothing that would create one. -/
def Once (p : Plan) (s : Runner) : Prop :=
  s.server.renamed.isSome = true → s.server.names (shadowName p.table) = none ∧
    s.stage.late = true ∧ ∀ name like, s.doubt ≠ some (.createTableLike name like)

/-- Without a shadow there is no RENAME, and only CREATE TABLE makes one. -/
theorem exec_of_noShadow {srv srv' : Server} (hours : Ours p q)
    (hnone : srv.names (shadowName p.table) = none)
    (hcreate : ∀ name like, q ≠ .createTableLike name like) (hq : srv.exec q = some srv') :
    srv'.names (shadowName p.table) = none ∧ srv'.renamed = srv.renamed := by
  rcases hours.cases with rfl | rfl | rfl | ⟨n, rfl⟩ | ⟨e, rfl⟩ | ⟨e, rfl⟩ | rfl | rfl | rfl
  · cases hq
    exact ⟨hnone, rfl⟩
  · cases hq
    exact ⟨hnone, rfl⟩
  · exact absurd rfl (hcreate _ _)
  · simp only [Server.exec, Option.ite_none_right_eq_some, Option.some.injEq] at hq
    obtain ⟨_, rfl⟩ := hq
    exact ⟨hnone, rfl⟩
  · simp only [Server.exec] at hq
    split at hq
    · split at hq
      · cases hq
      · cases hq
        exact ⟨hnone, rfl⟩
    · cases hq
  · cases hq
    exact ⟨hnone, rfl⟩
  · simp [Server.exec, hnone] at hq
  · cases hq
    exact ⟨by simp [Server.drop], rfl⟩
  · simp only [Server.exec, Option.ite_none_right_eq_some, Option.some.injEq] at hq
    obtain ⟨_, rfl⟩ := hq
    refine ⟨?_, rfl⟩
    simpa only [Server.drop, Function.update_of_ne (oldName_ne_shadowName p.table).symm] using hnone

/-- Only the RENAME puts a table in the place of another one. -/
theorem renamed_exec {srv srv' : Server} (hq : srv.exec q = some srv')
    (hren : ∀ table old shadow, q ≠ .renameTable table old shadow) :
    srv'.renamed = srv.renamed := by
  cases q with
  | plain | kill | dropTrigger | dropTableIfExists =>
    cases hq
    rfl
  | createTableLike | alterTable | dropTable =>
    simp only [Server.exec, Option.ite_none_right_eq_some, Option.some.injEq] at hq
    obtain ⟨_, rfl⟩ := hq
    rfl
  | createTrigger =>
    simp only [Server.exec] at hq
    split at hq
    · split at hq
      · cases hq
      · cases hq
        rfl
    · cases hq
  | renameTable => exact absurd rfl (hren _ _ _)

/-- A statement that takes effect, of a stage or in doubt. -/
theorem Once.take (h : Once p s) (hours : Ours p q)
    (hcreate : s.server.renamed.isSome = true → ∀ name like, q ≠ .createTableLike name like)
    (hren : q = .renameTable p.table (oldName p.table) (shadowName p.table) →
      s.stage.late = true ∧ ∀ name like, s.doubt ≠ some (.createTableLike name like))
    (hq : s.take q = some s') :
    Once p s' ∧ ∀ o, s.server.renamed = some o → s'.server.renamed = some o := by
  have hdoubt : ∀ q', s'.doubt = some q' → s.doubt = some q' := fun q' hd => doubt_take hq hd
  obtain ⟨server, hserver, heq⟩ := take_eq hq
  have hsrv : s'.server = server := by rw [heq]
  have hst : s'.stage = s.stage := by rw [heq]
  unfold Once
  rw [hsrv, hst]
  -- After the swap there is no shadow, and no statement of the runner brings one back.
  by_cases hdone : s.server.renamed.isSome = true
  · obtain ⟨hnone, hlate, hno⟩ := h hdone
    obtain ⟨hnone', hsame⟩ := exec_of_noShadow hours hnone (hcreate hdone) hserver
    rw [hsame]
    exact ⟨fun _ => ⟨hnone', hlate, fun n k hd => hno n k (hdoubt _ hd)⟩, fun o ho => ho⟩
  · have hstart : s.server.renamed = none := by simpa using hdone
    refine ⟨fun hsome => ?_, fun o ho => by rw [hstart] at ho; cases ho⟩
    -- Before it, only the rename can swap.
    by_cases hr : q = .renameTable p.table (oldName p.table) (shadowName p.table)
    · obtain ⟨hlate, hno⟩ := hren hr
      subst hr
      obtain ⟨_, _, _, _, _, _, _, _, _, hnone, _⟩ := rename_eq hserver
      exact ⟨hnone, hlate, fun n k hd => hno n k (hdoubt _ hd)⟩
    -- Every other statement leaves the mark of the swap as it is.
    · have hsame := renamed_exec hserver (fun table old shadow heq' => hr ?_)
      · rw [hsame, hstart] at hsome
        cases hsome
      · rcases hours.cases with rfl | rfl | rfl | ⟨n, rfl⟩ | ⟨e, rfl⟩ | ⟨e, rfl⟩ | rfl | rfl | rfl <;>
          cases heq'
        rfl

/-- A step that changes neither the server nor a late stage, and puts no CREATE TABLE in doubt. -/
theorem Once.keep (h : Once p s) (hserver : s'.server = s.server)
    (hlate : s.stage.late = true → s'.stage.late = true)
    (hdoubt : s.stage.late = true → ∀ name like, s'.doubt = some (.createTableLike name like) →
      s.doubt = some (.createTableLike name like)) : Once p s' := by
  intro hdone
  rw [hserver] at hdone ⊢
  obtain ⟨hnone, hl, hno⟩ := h hdone
  exact ⟨hnone, hlate hl, fun n k hd => hno n k (hdoubt hl n k hd)⟩

/-- The cleanup comes late. -/
theorem late_of_inCleanup {stage : Stage} (h : stage.inCleanup = true) : stage.late = true := by
  cases stage <;> simp_all [Stage.late, Stage.inCleanup]

/-- An answer leaves the server. -/
@[simp] theorem onOk_server (go : Bool) : (s.onOk p go).server = s.server := by
  unfold Runner.onOk
  split <;> (try split) <;> rfl

/-- It leaves what is in doubt. -/
@[simp] theorem onOk_doubt (go : Bool) : (s.onOk p go).doubt = s.doubt := by
  unfold Runner.onOk
  split <;> (try split) <;> rfl

/-- After a late answer the run is late. -/
theorem late_onOk (h : s.stage.late = true) (go : Bool) : (s.onOk p go).stage.late = true := by
  unfold Runner.onOk
  cases hst : s.stage with
  | setup | dryCreate | dryAlter | dryInspect | dryDrop | instant | create | alter | inspect
    | trigger | copy =>
    rw [hst] at h
    cases h
  | untrigger e todo n => cases todo <;> rfl
  | verify =>
    dsimp only
    split
    · cases p.dropOld <;> rfl
    · rfl
  | reconnect => cases go <;> rfl
  | setLock | cleanTrigger => exact late_of_inCleanup (inCleanup_cleanNext _ _)
  | finished | failed => exact h
  | rename | dropOld | kill | cleanShadow => rfl

/-- A refusal leaves the server. -/
@[simp] theorem onRefuse_server (code : Nat) : (s.onRefuse p code).server = s.server := by
  unfold Runner.onRefuse
  split <;> rfl

/-- It leaves what is in doubt. -/
@[simp] theorem onRefuse_doubt (code : Nat) : (s.onRefuse p code).doubt = s.doubt := by
  unfold Runner.onRefuse
  split <;> rfl

/-- After a late refusal the run is late. -/
theorem late_onRefuse (h : s.stage.late = true) (code : Nat) :
    (s.onRefuse p code).stage.late = true := by
  unfold Runner.onRefuse
  cases hst : s.stage with
  | setup | dryCreate | dryAlter | dryInspect | dryDrop | instant | create | alter | inspect
    | trigger | copy =>
    rw [hst] at h
    cases h
  | untrigger | rename =>
    dsimp only
    split <;> rfl
  | finished | failed => exact h
  | verify | dropOld | reconnect | kill | setLock | cleanTrigger | cleanShadow => rfl

/-- A lost connection leaves the server. -/
@[simp] theorem onLose_server (d : Option Sql) (dead : Bool) :
    (s.onLose d dead).server = s.server := by
  unfold Runner.onLose
  split <;> (try split) <;> rfl

/-- After a late loss the run is late. -/
theorem late_onLose (h : s.stage.late = true) (d : Option Sql) (dead : Bool) :
    (s.onLose d dead).stage.late = true := by
  unfold Runner.onLose
  cases hst : s.stage with
  | finished | failed => exact h
  | setLock | cleanTrigger | cleanShadow =>
    dsimp only
    split <;> rfl
  | _ => rfl

/-- What is in doubt after a lost statement was so before, or it is this statement. -/
theorem doubt_onLose {d : Option Sql} {dead : Bool} (h : (s.onLose d dead).doubt = some q) :
    s.doubt = some q ∨ d = some q := by
  unfold Runner.onLose at h
  cases hst : s.stage <;> rw [hst] at h <;> dsimp only at h
  all_goals first
    | exact .inl h
    | exact .inr h
    | split at h
      · exact .inl h
      · exact .inr h

/-- The stages of a CREATE TABLE come before the RENAME. -/
theorem not_late_of_create {stage : Stage} {table name like : String}
    (h : stage.sql table = some (.createTableLike name like)) : stage.late = false := by
  cases stage <;> simp_all [Stage.sql, Stage.late, Stage.inCleanup]

/-- The statement of the stage takes effect. -/
theorem Once.took (h : Once p s) (ht : Tracked p s) (hsql : s.stage.sql p.table = some q)
    (hq : s.take q = some s') :
    Once p s' ∧ ∀ o, s.server.renamed = some o → s'.server.renamed = some o := by
  refine h.take ⟨s.stage, hsql⟩ (fun hdone name like hcreate => ?_) (fun hr => ?_) hq
  · have hnot := not_late_of_create (hcreate ▸ hsql)
    rw [(h hdone).2.1] at hnot
    cases hnot
  · obtain ⟨n, hst⟩ := stage_of_rename (hr ▸ hsql)
    have hnone := ht.running (by rw [hst]; rfl)
    rw [hst, hnone]
    exact ⟨rfl, fun name like hd => by cases hd⟩

/-- Each move keeps it, and keeps the altered table. -/
theorem Once.step {m : Runner.Move} (h : Once p s) (ht : Tracked p s)
    (hstep : s.step p m = some s') :
    Once p s' ∧ ∀ o, s.server.renamed = some o → s'.server.renamed = some o := by
  unfold Runner.step at hstep
  cases m with
  -- The server's effect may be the RENAME itself; after it no CREATE TABLE is sent.
  | ok go =>
    dsimp only at hstep
    split at hstep
    · rename_i q hsql
      split at hstep
      · obtain ⟨s₁, hq, rfl⟩ := Option.map_eq_some_iff.mp hstep
        obtain ⟨h₁, hren⟩ := h.took ht hsql hq
        exact ⟨h₁.keep (onOk_server go) (fun hl => late_onOk hl go) (fun _ _ _ hd => by simpa using hd),
          fun o ho => by rw [onOk_server]; exact hren o ho⟩
      · cases hstep
    · cases hstep
  | refuse code =>
    dsimp only at hstep
    split at hstep
    · cases hstep
      exact ⟨h.keep (onRefuse_server code) (fun hl => late_onRefuse hl code)
        (fun _ _ _ hd => by simpa using hd), fun o ho => by rw [onRefuse_server]; exact ho⟩
    · cases hstep
  -- A lost statement that took effect is like an answered one; else it is in doubt.
  | lose landed dead =>
    dsimp only at hstep
    split at hstep
    · rename_i q hsql
      split at hstep
      · split at hstep
        · obtain ⟨s₁, hq, rfl⟩ := Option.map_eq_some_iff.mp hstep
          obtain ⟨h₁, hren⟩ := h.took ht hsql hq
          refine ⟨h₁.keep (onLose_server _ dead) (fun hl => late_onLose hl _ dead)
            (fun _ name like hd => ?_), fun o ho => by rw [onLose_server]; exact hren o ho⟩
          exact (doubt_onLose hd).resolve_right (by simp)
        · cases hstep
          refine ⟨h.keep (onLose_server _ dead) (fun hl => late_onLose hl _ dead)
            (fun hl name like hd => ?_), fun o ho => by rw [onLose_server]; exact ho⟩
          refine (doubt_onLose hd).resolve_right fun hsome => ?_
          -- After the RENAME a CREATE TABLE cannot be what is in doubt.
          have hnot := not_late_of_create ((Option.some.inj hsome) ▸ hsql)
          rw [hl] at hnot
          cases hnot
      · cases hstep
    · cases hstep
  | raise =>
    dsimp only at hstep
    split at hstep
    · cases hstep
    · cases hstep
    · cases hstep
      refine ⟨h.keep rfl (fun _ => ?_) (fun _ _ _ hd => hd), fun o ho => ho⟩
      show (if s.stage.inCleanup then Stage.failed else Stage.reconnect).late = true
      split <;> rfl
  | landOwn =>
    dsimp only at hstep
    split at hstep
    · rename_i q hd
      -- The runner's own connection has something in doubt only in the cleanup.
      have hclean : s.stage.inCleanup = true := by
        by_contra hne
        rw [ht.running (by simpa using hne)] at hd
        cases hd
      have hsettled : Once p { s with doubt := none } :=
        h.keep rfl (fun hl => hl) (fun _ _ _ hd => by cases hd)
      refine hsettled.take (ht.core.ours q hd) (fun hdone name like hq => ?_)
        (fun _ => ⟨late_of_inCleanup hclean, fun name like hd => by cases hd⟩) hstep
      exact (h hdone).2.2 name like (hq ▸ hd)
    · cases hstep
  | landFresh =>
    dsimp only at hstep
    split at hstep
    · rename_i q hd
      -- So has the cleanup's only at its end.
      have hlast : s.stage = .failed := by
        by_contra hne
        rw [ht.ended hne] at hd
        cases hd
      have hkind := ht.core.fresh q hd
      have hsettled : Once p { s with freshDoubt := none } :=
        h.keep rfl (fun hl => hl) (fun _ _ _ hd => hd)
      refine hsettled.take (ht.core.ours_fresh hd) (fun _ name like hq => ?_) (fun hq => ?_) hstep
      -- What is in doubt there are drops, and no CREATE TABLE.
      · rcases hkind with hk | ⟨e, hk⟩ | hk <;> rw [hq] at hk <;> cases hk
      · rcases hkind with hk | ⟨e, hk⟩ | hk <;> rw [hq] at hk <;> cases hk
    · cases hstep
  | lapseOwn =>
    cases hstep
    exact ⟨h.keep rfl (fun hl => hl) (fun _ _ _ hd => by cases hd), fun o ho => ho⟩

/-- At the start the tables stand once. -/
theorem Initial.once (i : Initial p) : Once p i.start := by
  intro hsome
  rw [show i.start.server.renamed = none from i.unswapped] at hsome
  cases hsome

/-- Both invariants, at every moment of a run that meets the condition. -/
theorem tracked_of_settled {i : Initial p} (hrun : Reach (Runner.step p) Settled i.start s) :
    Tracked p s ∧ Once p s := by
  refine hrun.invariant (I := fun s => Tracked p s ∧ Once p s) ⟨i.tracked, i.once⟩ ?_
  rintro t m u _ ⟨htracked, honce⟩ hok hstep
  exact ⟨htracked.step hok hstep, (honce.step htracked hstep).1⟩

/-- A schema change never breaks the live table, if no CREATE TRIGGER is in doubt when the
cleanup drops its trigger. The last part is the altered table once it is the live one. -/
theorem unbroken_of_settled (p : Plan) (i : Initial p)
    (hrun : Reach (Runner.step p) Settled i.start s) :
    Unbroken p s ∧ ∀ o s', s.server.renamed = some o → Reach (Runner.step p) Settled s s' →
      s'.server.names p.table = some o := by
  have hs := tracked_of_settled hrun
  refine ⟨hs.1.unbroken, fun o s' ho hafter => ?_⟩
  have hkept : (Tracked p s' ∧ Once p s') ∧ s'.server.renamed = some o := by
    refine hafter.invariant (I := fun t => (Tracked p t ∧ Once p t) ∧ t.server.renamed = some o)
      ⟨hs, ho⟩ ?_
    rintro t m u _ ⟨⟨htracked, honce⟩, hren⟩ hok hstep
    obtain ⟨honce', hsame⟩ := honce.step htracked hstep
    exact ⟨⟨htracked.step hok hstep, honce'⟩, hsame o hren⟩
  exact hkept.1.1.core.good.altered o hkept.2

/-- A server with one table. -/
def oneTable : Initial { table := "t" } where
  server := { names := fun n => if n = "t" then some 0 else none, created := 1 }
  good := {
    inj := by
      intro n n' o hn hn'
      simp only [Option.ite_none_right_eq_some, Option.some.injEq] at hn hn'
      rw [hn.1, hn'.1]
    names_lt := by
      intro n o hn
      simp only [Option.ite_none_right_eq_some, Option.some.injEq] at hn
      show o < 1
      omega
    triggers_lt := fun x hx => by cases hx
    bare := fun x hx => by cases hx
    live := rfl
    altered := fun o ho => by cases ho }
  shadowed := fun x hx => by cases hx
  unswapped := rfl

/-- The connection fails at the first CREATE TRIGGER, which the server has not executed. The
cleanup connects again, and the KILL goes as given. It drops the trigger, which is not there,
and the shadow. -/
def lostTrigger (kill : Runner.Move) : List Runner.Move :=
  [.ok true, .ok true, .ok true, .ok true, .lose false true, .ok true, kill, .ok true, .ok true,
   .ok true]

/-- With the KILL the lost CREATE TRIGGER has no effect any more. -/
theorem lost_trigger_settled_by_kill :
    Unbroken { table := "t" } (Machine.run (Runner.step { table := "t" }) oneTable.start
      (lostTrigger (.ok true))) :=
  (unbroken_of_settled { table := "t" } oneTable
    (Machine.reach_run_of_obeys (by decide +kernel) (by decide +kernel))).1

/-- The KILL fails, which the cleanup ignores. The CREATE TRIGGER takes effect when the shadow
is gone. -/
theorem orphan_trigger :
    ¬ ∀ (p : Plan) (i : Initial p) (s : Runner), Reach (Runner.step p) Free i.start s →
      Unbroken p s := by
  intro h
  let p : Plan := { table := "t" }
  let s := Machine.run (Runner.step p) oneTable.start (lostTrigger (.refuse 1317) ++ [.landOwn])
  have hrun : Reach (Runner.step p) Free oneTable.start s := Machine.reach_run (by decide +kernel)
  have htrigger : (Dml.insert, 0) ∈ s.server.triggers := by decide +kernel
  have hlive : s.server.names p.table = some 0 := by decide +kernel
  have hgone : s.server.names (shadowName p.table) = none := by decide +kernel
  have hthere := (h p oneTable s hrun).shadowed _ htrigger hlive
  rw [hgone] at hthere
  cases hthere

end DbGuard.Osc
