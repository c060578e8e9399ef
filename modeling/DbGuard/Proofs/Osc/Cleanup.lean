import DbGuard.Proofs.Osc.Runner

/-!
# `DbGuard.Proofs.Osc.Cleanup`: what a cleanup without an error leaves behind

A run that raises cleans up what is in its book. The triggers are in the book before their CREATE
is sent, the shadow only after. So a CREATE TABLE that took effect and was lost leaves a shadow
that nobody drops.

`Traces` says what the server has beside what was there before the run: the triggers of a list,
on the table or on the old one, and the shadow until the RENAME. The list is what the cleanup has
still to drop (`Stage.pending`), so in the end it is empty. `tidied_of_timely` is the result for
every run in which no CREATE takes effect too late (`Timely`), and `shadow_left` is a run in which
the CREATE TABLE does.

A table is its number here, and an ALTER keeps it. The shadow and the triggers are the only things
that the copy and the dry run create.
-/

set_option autoImplicit false

namespace DbGuard.Osc

open Machine (Reach Free)

variable {p : Plan} {s s' : Runner} {srv₀ srv srv' : Server} {q : Sql} {l l' : List Dml} {e : Dml}

/-! ### What is promised, and when it holds -/

/-- The server after a run. No trigger of the run and no shadow is left. The table is the one from
before, or after the RENAME the altered one. Only the old table of a swap can refuse the next
run. -/
structure Tidied (p : Plan) (srv₀ srv : Server) : Prop where
  triggers : ∀ x ∈ srv.triggers, x ∈ srv₀.triggers
  shadow : srv.names (shadowName p.table) = none
  table : srv.renamed = none ∧ srv.names p.table = srv₀.names p.table ∨
    srv.renamed.isSome = true ∧ srv.names p.table = srv.renamed
  next : srv.renamed = none ∧ Runner.clean p srv = true ∨
    srv.renamed.isSome = true ∧ Runner.clean p (srv.drop (oldName p.table)) = true

/-- The cleanup has still to drop this trigger. -/
def Stage.drops (e : Dml) : Stage → Bool
  | .cleanTrigger e' todo => decide (e ∈ e' :: todo)
  | .cleanShadow | .failed => false
  | _ => true

/-- A statement that takes effect in this stage does no harm. -/
def Sql.inTime (stage : Stage) : Sql → Bool
  | .createTableLike _ _ => false
  | .createTrigger e _ => stage.drops e
  | _ => true

/-- The CREATE TABLE of the shadow does not take effect if it fails, and a CREATE TRIGGER that
failed not once the cleanup has dropped its trigger. -/
def Timely (s : Runner) : Runner.Move → Prop
  | .lose true _ => s.stage ≠ .create ∧ s.stage ≠ .dryCreate
  | .landOwn => ∀ q ∈ s.doubt, q.inTime s.stage = true
  | _ => True

instance decidableTimely : ∀ (s : Runner) (m : Runner.Move), Decidable (Timely s m)
  | s, .lose true _ => inferInstanceAs (Decidable (s.stage ≠ .create ∧ s.stage ≠ .dryCreate))
  | s, .landOwn => inferInstanceAs (Decidable (∀ q ∈ s.doubt, q.inTime s.stage = true))
  | _, .ok _ | _, .refuse _ | _, .lose false _ | _, .raise | _, .landFresh | _, .lapseOwn =>
    .isTrue trivial

/-! ### One statement -/

/-- The server beside what it was before the run. -/
structure Traces (p : Plan) (srv₀ : Server) (l : List Dml) (srv : Server) : Prop where
  good : Good p srv
  onTable : OnTable p l srv
  table : srv.renamed = none →
    srv.names p.table = srv₀.names p.table ∧ srv.names (oldName p.table) = none
  shadow : srv.renamed.isSome = true → srv.names (shadowName p.table) = none
  triggers : ∀ x ∈ srv.triggers, x ∈ srv₀.triggers ∨
    x.1 ∈ l ∧ (srv.names p.table = some x.2 ∨ srv.names (oldName p.table) = some x.2)

/-- More triggers may be there. -/
theorem Traces.mono (h : Traces p srv₀ l srv) (hle : ∀ e ∈ l, e ∈ l') : Traces p srv₀ l' srv :=
  { h with
    onTable := h.onTable.mono hle
    triggers := fun x hx => (h.triggers x hx).imp_right fun hk => ⟨hle _ hk.1, hk.2⟩ }

/-- The shadow is created. -/
theorem Traces.createShadow (h : Traces p srv₀ l srv) (hren : srv.renamed = none)
    (hq : srv.exec (.createTableLike (shadowName p.table) p.table) = some srv') :
    Traces p srv₀ l srv' := by
  have hgood := h.good.createShadow hq
  have hon := h.onTable.exec h.good ⟨.create, rfl⟩ (fun e he => by cases he) hq
  simp only [Server.exec, Option.ite_none_right_eq_some, Option.some.injEq] at hq
  obtain ⟨-, rfl⟩ := hq
  have ht : p.table ≠ shadowName p.table := (shadowName_ne p.table).symm
  have ho : oldName p.table ≠ shadowName p.table := oldName_ne_shadowName p.table
  refine ⟨hgood, hon, fun _ => ?_, fun hsome => ?_, fun x hx => ?_⟩
  · simp only [Function.update_of_ne ht, Function.update_of_ne ho]
    exact h.table hren
  · rw [show srv.renamed = none from hren] at hsome
    cases hsome
  · simp only [Function.update_of_ne ht, Function.update_of_ne ho]
    exact h.triggers x hx

/-- A trigger is created that may be there. -/
theorem Traces.createTrigger (h : Traces p srv₀ l srv) (he : e ∈ l)
    (hq : srv.exec (.createTrigger e p.table) = some srv') : Traces p srv₀ l srv' := by
  have hgood := h.good.createTrigger hq
  have hon : OnTable p l srv' := by
    refine h.onTable.exec h.good ⟨.trigger e [] 0, rfl⟩ (fun e' he' => ?_) hq
    cases he'
    exact he
  simp only [Server.exec] at hq
  split at hq
  · rename_i o ho
    split at hq
    · cases hq
    · cases hq
      refine ⟨hgood, hon, h.table, h.shadow, fun x hx => ?_⟩
      rcases List.mem_append.mp hx with hx | hx
      · exact h.triggers x hx
      · rw [List.mem_singleton.mp hx]
        exact .inr ⟨he, .inl ho⟩
  · cases hq

/-- The RENAME moves the triggers with their table. -/
theorem Traces.rename (h : Traces p srv₀ l srv)
    (hq : srv.exec (.renameTable p.table (oldName p.table) (shadowName p.table)) = some srv') :
    Traces p srv₀ l srv' := by
  have hgood := h.good.rename hq
  have hnew := h.onTable.exec h.good ⟨.rename 0, rfl⟩ (fun e he => by cases he) hq
  have hold : srv.names (oldName p.table) = none := by
    simp only [Server.exec, Option.ite_none_right_eq_some] at hq
    simpa using hq.1.2.1
  obtain ⟨a, b, ha, hb, htrig, -, hren, ht, ho, hs, -⟩ := rename_eq hq
  refine ⟨hgood, hnew, fun hnone => ?_, fun _ => hs, fun x hx => ?_⟩
  · rw [hren] at hnone
    cases hnone
  · rw [htrig] at hx
    refine (h.triggers x hx).imp_right fun hk => ⟨hk.1, .inr ?_⟩
    rcases hk.2 with hon | hon
    · rw [ho, ← ha, hon]
    · rw [hold] at hon
      cases hon

/-- Dropping the shadow or the old table. -/
theorem Traces.drop {name : String} (h : Traces p srv₀ l srv) (hname : name ≠ p.table) :
    Traces p srv₀ l (srv.drop name) := by
  have ht : (srv.drop name).names p.table = srv.names p.table := by
    simp only [Server.drop, Function.update_of_ne hname.symm]
  have hnone : ∀ n, srv.names n = none → (srv.drop name).names n = none := by
    intro n hn
    simp only [Server.drop, Function.update_apply]
    split
    · rfl
    · exact hn
  refine ⟨h.good.drop hname, fun x hx hon => ?_, fun hren => ?_,
    fun hren => hnone _ (h.shadow hren), fun x hx => ?_⟩
  · exact h.onTable x (List.mem_filter.mp hx).1 (ht ▸ hon)
  · obtain ⟨hsame, hold⟩ := h.table hren
    exact ⟨ht.trans hsame, hnone _ hold⟩
  · obtain ⟨hmem, hkeep⟩ := List.mem_filter.mp hx
    refine (h.triggers x hmem).imp_right fun hk => ⟨hk.1, hk.2.imp ht.trans fun hon => ?_⟩
    -- A trigger of the dropped table is gone with it.
    have hne : oldName p.table ≠ name := by
      rintro rfl
      exact of_decide_eq_true hkeep hon
    simp only [Server.drop, Function.update_of_ne hne]
    exact hon

/-- A trigger is dropped, and is not there any more. -/
theorem Traces.dropTrigger (h : Traces p srv₀ (e :: l) srv)
    (hq : srv.exec (.dropTrigger e) = some srv') : Traces p srv₀ l srv' := by
  have hgood := h.good.exec ⟨.cleanTrigger e [], rfl⟩ hq
  have hon := h.onTable.dropTrigger hq
  cases hq
  refine ⟨hgood, hon, h.table, h.shadow, fun x hx => ?_⟩
  obtain ⟨hmem, hne⟩ := List.mem_filter.mp hx
  refine (h.triggers x hmem).imp_right fun hk => ⟨?_, hk.2⟩
  exact (List.mem_cons.mp hk.1).resolve_left (of_decide_eq_true hne)

/-- A statement of the runner, wherever it is run. -/
theorem Traces.exec (h : Traces p srv₀ l srv) (hours : Ours p q)
    (hcreate : (∃ name like, q = .createTableLike name like) → srv.renamed = none)
    (hnew : ∀ e, q = .createTrigger e p.table → e ∈ l) (hq : srv.exec q = some srv') :
    Traces p srv₀ l srv' := by
  rcases hours.cases with rfl | rfl | rfl | ⟨n, rfl⟩ | ⟨e, rfl⟩ | ⟨e, rfl⟩ | rfl | rfl | rfl
  · cases hq
    exact h
  · cases hq
    exact h
  · exact h.createShadow (hcreate ⟨_, _, rfl⟩) hq
  · simp only [Server.exec, Option.ite_none_right_eq_some, Option.some.injEq] at hq
    exact hq.2 ▸ h
  · exact h.createTrigger (hnew e rfl) hq
  · exact (h.mono fun _ he => List.mem_cons_of_mem _ he).dropTrigger hq
  · exact h.rename hq
  · cases hq
    exact h.drop (shadowName_ne p.table)
  · simp only [Server.exec, Option.ite_none_right_eq_some, Option.some.injEq] at hq
    exact hq.2 ▸ h.drop (oldName_ne p.table)

/-- Only CREATE TABLE makes a shadow. -/
theorem shadow_of_exec (hours : Ours p q) (hcreate : ∀ name like, q ≠ .createTableLike name like)
    (hq : srv.exec q = some srv') (h : (srv'.names (shadowName p.table)).isSome = true) :
    (srv.names (shadowName p.table)).isSome = true := by
  by_contra hnone
  have hbefore : srv.names (shadowName p.table) = none := by simpa using hnone
  rw [(exec_of_noShadow hours hbefore hcreate hq).1] at h
  cases h

/-! ### The invariant -/

/-- The triggers that the cleanup has still to drop, or will have. -/
def Stage.pending (b : Book) : Stage → List Dml
  | .cleanTrigger e todo => e :: todo
  | .cleanShadow | .failed => []
  | _ => b.createdTriggers

/-- The invariant of a run, but for the shadow. -/
structure Booking (p : Plan) (srv₀ : Server) (s : Runner) : Prop where
  kept : Traces p srv₀ (s.stage.pending s.book) s.server
  ours : ∀ q, s.doubt = some q → Ours p q
  running : s.stage.inCleanup = false → s.doubt = none
  fresh : s.freshDoubt = none
  late : s.server.renamed.isSome = true → s.stage.late = true
  swapped : s.book.swapped = true → s.server.renamed.isSome = true
  recorded : ∀ e todo n, s.stage = .trigger e todo n → e ∈ s.book.createdTriggers
  doubted : ∀ e on, s.doubt = some (.createTrigger e on) → e ∈ s.book.createdTriggers

/-- The invariant of a run. If there is a shadow, it is in the book. -/
structure Tidying (p : Plan) (srv₀ : Server) (s : Runner) : Prop extends Booking p srv₀ s where
  shadow : (s.server.names (shadowName p.table)).isSome = true → s.book.createdShadow = true

/-- No trigger on the table and on the old one means that all are from before. -/
theorem Traces.of_isEmpty (h : Traces p srv₀ l srv) (ht : (srv.triggersOn p.table).isEmpty = true)
    (ho : (srv.triggersOn (oldName p.table)).isEmpty = true) : Traces p srv₀ [] srv := by
  have hnone : ∀ name, (srv.triggersOn name).isEmpty = true → ∀ x ∈ srv.triggers,
      srv.names name ≠ some x.2 := by
    intro name hempty x hx hon
    have hmem : x.1 ∈ srv.triggersOn name :=
      List.mem_map.mpr ⟨x, List.mem_filter.mpr ⟨hx, by simpa using hon⟩, rfl⟩
    rw [List.isEmpty_iff.mp hempty] at hmem
    cases hmem
  refine { h with
    onTable := onTable_of_isEmpty ht
    triggers := fun x hx => .inl ((h.triggers x hx).resolve_right fun hk => ?_) }
  rcases hk.2 with hon | hon
  · exact hnone _ ht x hx hon
  · exact hnone _ ho x hx hon

/-- What is left to drop after the first triggers of a list. -/
theorem pending_cleanNext (b b' : Book) (todo : List Dml) :
    (Runner.cleanNext b todo).pending b' = todo := by
  cases todo with
  | cons e todo => rfl
  | nil =>
      show (if b.createdShadow && !b.swapped then Stage.cleanShadow else Stage.failed).pending b' = []
      split <;> rfl

/-- The way on after a statement that succeeded keeps what is left to drop. -/
theorem traces_onOk (h : Traces p srv₀ (s.stage.pending s.book) s.server)
    (hdrop : ∀ e todo, s.stage = .cleanTrigger e todo → Traces p srv₀ todo s.server) (go : Bool) :
    Traces p srv₀ ((s.onOk p go).stage.pending (s.onOk p go).book) s.server := by
  unfold Runner.onOk
  -- The server stays as it is; only what the run may still bring to it changes with the stage.
  cases hst : s.stage with
  | setup =>
      rw [hst] at h
      dsimp only
      split
      · cases p.dryRun <;> cases p.instant <;> exact h
      · exact h
  | dryDrop =>
      rw [hst] at h
      cases go <;> exact h
  -- The first trigger is written into the book, and the next one at each answer.
  | inspect =>
      rw [hst] at h
      exact h.mono fun _ he => List.mem_append_left _ he
  | trigger e todo n =>
      rw [hst] at h
      cases todo with
      | nil => exact h
      | cons e' todo => exact h.mono fun _ he => List.mem_append_left _ he
  | copy =>
      rw [hst] at h
      dsimp only
      split
      · split <;> exact h
      · rw [hst]
        exact h
  | untrigger e todo n =>
      rw [hst] at h
      cases todo <;> exact h
  | verify =>
      rw [hst] at h
      dsimp only
      split
      -- Verification has found neither the shadow nor a trigger.
      · rename_i hgone
        simp only [Bool.and_eq_true] at hgone
        have hnone := h.of_isEmpty hgone.1 hgone.2
        cases p.dropOld <;> exact hnone
      · exact h
  | reconnect =>
      rw [hst] at h
      cases go <;> exact h
  | setLock =>
      rw [hst] at h
      -- The cleanup owes the triggers of the book.
      show Traces p srv₀ ((Runner.cleanNext s.book s.book.createdTriggers).pending s.book) s.server
      rw [pending_cleanNext]
      exact h
  | cleanTrigger e todo =>
      -- What was dropped is not owed any more.
      show Traces p srv₀ ((Runner.cleanNext s.book todo).pending s.book) s.server
      rw [pending_cleanNext]
      exact hdrop e todo hst
  | finished | failed =>
      rw [hst] at h
      dsimp only
      rw [hst]
      exact h
  | dryCreate | dryAlter | dryInspect | instant | create | alter | rename n | dropOld | kill
  | cleanShadow =>
      rw [hst] at h
      exact h

/-- A trigger is recorded before its CREATE is sent. -/
theorem recorded_onOk {go : Bool} {todo : List Dml} {n : Nat}
    (hto : (s.onOk p go).stage = .trigger e todo n) :
    e ∈ (s.onOk p go).book.createdTriggers := by
  unfold Runner.onOk at hto ⊢
  -- Only these two stages lead to that of a trigger, and both write it down first.
  cases hst : s.stage with
  | inspect =>
      rw [hst] at hto
      cases hto
      exact List.mem_append_right _ (List.mem_singleton_self _)
  | trigger e' todo' n' =>
      rw [hst] at hto
      cases todo' with
      | nil => cases hto
      | cons e'' todo'' =>
          cases hto
          exact List.mem_append_right _ (List.mem_singleton_self _)
  -- The others lead elsewhere.
  | setup =>
      rw [hst] at hto
      dsimp only at hto
      split at hto
      · cases hd : p.dryRun <;> cases hi : p.instant <;> simp [hd, hi] at hto
      · cases hto
  | copy =>
      rw [hst] at hto
      dsimp only at hto
      split at hto
      · split at hto <;> cases hto
      · rw [hst] at hto
        cases hto
  | dryDrop | reconnect =>
      rw [hst] at hto
      cases go <;> cases hto
  | untrigger e' todo' n' =>
      rw [hst] at hto
      cases todo' <;> cases hto
  | verify =>
      rw [hst] at hto
      dsimp only at hto
      split at hto
      · cases hd : p.dropOld <;> simp [hd] at hto
      · cases hto
  | setLock =>
      rw [hst] at hto
      have hclean := inCleanup_cleanNext s.book s.book.createdTriggers
      rw [show Runner.cleanNext s.book s.book.createdTriggers = .trigger e todo n from hto] at hclean
      cases hclean
  | cleanTrigger e' todo' =>
      rw [hst] at hto
      have hclean := inCleanup_cleanNext s.book todo'
      rw [show Runner.cleanNext s.book todo' = .trigger e todo n from hto] at hclean
      cases hclean
  | finished | failed =>
      rw [hst] at hto
      dsimp only at hto
      rw [hst] at hto
      cases hto
  | dryCreate | dryAlter | dryInspect | instant | create | alter | rename n | dropOld | kill
  | cleanShadow =>
      rw [hst] at hto
      cases hto

/-- Only what the RENAME did is in the book. -/
theorem swapped_onOk (h : s.book.swapped = true → s.server.renamed.isSome = true)
    (hren : ∀ n, s.stage = .rename n → s.server.renamed.isSome = true) (go : Bool)
    (hs : (s.onOk p go).book.swapped = true) : s.server.renamed.isSome = true := by
  unfold Runner.onOk at hs
  cases hst : s.stage with
  | rename n => exact hren n hst
  | setup | copy | verify =>
      rw [hst] at hs
      dsimp only at hs
      split at hs <;> exact h hs
  | trigger e todo n | untrigger e todo n =>
      rw [hst] at hs
      cases todo <;> exact h hs
  | _ =>
      rw [hst] at hs
      exact h hs

/-- The shadow is in the book, after the CREATE TABLE too. -/
theorem shadow_onOk (h : s.book.createdShadow = true ∨ s.stage = .create ∨ s.stage = .dryCreate)
    (hdrop : s.stage ≠ .dryDrop) (go : Bool) : (s.onOk p go).book.createdShadow = true := by
  unfold Runner.onOk
  split
  case h_2 | h_7 => rfl
  case h_5 hst => exact absurd hst hdrop
  all_goals
    rename_i hst
    have hbook : s.book.createdShadow = true := by simpa [hst] using h
    first
      | exact hbook
      | split <;> exact hbook

/-- The book of a cleanup is left alone. -/
theorem book_onOk (h : s.stage.inCleanup = true) (go : Bool) : (s.onOk p go).book = s.book := by
  unfold Runner.onOk
  cases hst : s.stage <;> rw [hst] at h <;> first | rfl | cases h

/-! ### The moves -/

/-- A statement that is no RENAME changes nothing about it. -/
theorem renamed_or (hq : srv.exec q = some srv') :
    srv'.renamed = srv.renamed ∨ srv'.renamed.isSome = true ∧ ∃ t o sh, q = .renameTable t o sh := by
  by_cases hren : ∃ t o sh, q = .renameTable t o sh
  · obtain ⟨t, o, sh, rfl⟩ := hren
    simp only [Server.exec, Option.ite_none_right_eq_some, Option.some.injEq] at hq
    obtain ⟨⟨-, -, hsome⟩, rfl⟩ := hq
    exact .inr ⟨hsome, t, o, sh, rfl⟩
  · exact .inl (renamed_exec hq fun t o sh heq => hren ⟨t, o, sh, heq⟩)

/-- What is known of a state in which the statement of its stage has just taken effect. -/
structure Took (p : Plan) (srv₀ : Server) (s : Runner) : Prop extends Booking p srv₀ s where
  shown : (s.server.names (shadowName p.table)).isSome = true →
    s.book.createdShadow = true ∨ s.stage = .create ∨ s.stage = .dryCreate
  renamed : ∀ n, s.stage = .rename n → s.server.renamed.isSome = true
  dropped : ∀ e todo, s.stage = .cleanTrigger e todo → Traces p srv₀ todo s.server
  gone : s.stage = .dryDrop ∨ s.stage = .cleanShadow →
    s.server.names (shadowName p.table) = none

/-- A statement takes effect, of the stage or in doubt. -/
theorem Booking.take (h : Booking p srv₀ s) (hours : Ours p q)
    (hcreate : (∃ name like, q = .createTableLike name like) → s.server.renamed = none)
    (hnew : ∀ e, q = .createTrigger e p.table → e ∈ s.stage.pending s.book)
    (hlate : (∃ t o sh, q = .renameTable t o sh) → s.stage.late = true)
    (hq : s.take q = some s') : Booking p srv₀ s' := by
  have hdoubt : ∀ q', s'.doubt = some q' → s.doubt = some q' := fun q' hd => doubt_take hq hd
  obtain ⟨server, hserver, heq⟩ := take_eq hq
  have hst : s'.stage = s.stage := by rw [heq]
  have hbook : s'.book = s.book := by rw [heq]
  have hsrv : s'.server = server := by rw [heq]
  -- One field after the other: the statement is the runner's own, and the stage and the book stay.
  refine ⟨?_, fun q' hd => h.ours q' (hdoubt q' hd), fun hrun => ?_, ?_, fun hren => ?_,
    fun hs => ?_, ?_, ?_⟩
  · rw [hst, hbook, hsrv]
    exact h.kept.exec hours hcreate hnew hserver
  · rw [hst] at hrun
    have hnone := h.running hrun
    cases hd : s'.doubt with
    | none => rfl
    | some q' => simpa [hnone] using hdoubt q' hd
  · rw [heq]
    exact h.fresh
  · rw [hsrv] at hren
    rw [hst]
    -- A rename was done before, or it is this one.
    rcases renamed_or hserver with hsame | ⟨-, hrename⟩
    · exact h.late (hsame ▸ hren)
    · exact hlate hrename
  · rw [hbook] at hs
    rw [hsrv]
    rcases renamed_or hserver with hsame | ⟨hsome, -⟩
    · rw [hsame]
      exact h.swapped hs
    · exact hsome
  · rw [hst, hbook]
    exact h.recorded
  · rw [hbook]
    exact fun e on hd => h.doubted e on (hdoubt _ hd)

/-- What was in doubt will not take effect any more. -/
theorem Booking.settle (h : Booking p srv₀ s) : Booking p srv₀ { s with doubt := none } :=
  { h with
    ours := fun q hd => by cases hd
    running := fun _ => rfl
    doubted := fun e on hd => by cases hd }

/-- A statement of the cleanup takes the server nearer to its end. -/
theorem Tidying.took (h : Tidying p srv₀ s) (hsql : s.stage.sql p.table = some q)
    (hq : s.take q = some s') : Took p srv₀ s' := by
  have hours : Ours p q := ⟨s.stage, hsql⟩
  have hbooking : Booking p srv₀ s' := by
    -- What has to be checked of the statement by its kind.
    refine h.toBooking.take hours ?_ ?_ ?_ hq
    -- No CREATE TABLE is sent after the swap.
    · rintro ⟨name, like, rfl⟩
      by_contra hsome
      have hnot := not_late_of_create hsql
      rw [h.late (Option.isSome_iff_ne_none.mpr hsome)] at hnot
      cases hnot
    · rintro e rfl
      obtain ⟨-, todo, n, hstage⟩ := stage_of_createTrigger hsql
      rw [hstage]
      exact h.recorded e todo n hstage
    · rintro ⟨t, o, sh, rfl⟩
      obtain ⟨n, hstage⟩ := stage_of_rename hsql
      rw [hstage]
      rfl
  obtain ⟨server, hserver, heq⟩ := take_eq hq
  have hst : s'.stage = s.stage := by rw [heq]
  have hbook : s'.book = s.book := by rw [heq]
  have hsrv : s'.server = server := by rw [heq]
  refine ⟨hbooking, fun hsome => ?_, fun n hstage => ?_, fun e todo hstage => ?_, fun hstage => ?_⟩
  -- A shadow that is there was there before, or this statement has created it.
  · rw [hsrv] at hsome
    rw [hst, hbook]
    by_cases hnew : ∃ name like, q = .createTableLike name like
    · obtain ⟨name, like, rfl⟩ := hnew
      refine .inr ?_
      cases hs : s.stage <;> rw [hs] at hsql <;> cases hsql
      · exact .inr rfl
      · exact .inl rfl
    · refine .inl (h.shadow (shadow_of_exec hours (fun name like he => hnew ⟨name, like, he⟩)
        hserver hsome))
  -- The swap itself.
  · rw [hst] at hstage
    rw [hstage] at hsql
    cases hsql
    rw [hsrv]
    obtain ⟨a, b, -, -, -, -, hren, -⟩ := rename_eq hserver
    rw [hren]
    rfl
  -- The drop of a trigger in the cleanup.
  · rw [hst] at hstage
    rw [hstage] at hsql
    cases hsql
    rw [hsrv]
    have hk := h.kept
    rw [hstage] at hk
    exact Traces.dropTrigger hk hserver
  -- The drop of the shadow leaves none.
  · rw [hst] at hstage
    rw [hsrv]
    have hq' : q = dropShadow p := by
      rcases hstage with hs | hs <;> rw [hs] at hsql <;> exact (Option.some.inj hsql).symm
    rw [hq'] at hserver
    cases hserver
    simp [Server.drop]

/-- An answer leaves what a new connection has in doubt. -/
@[simp] theorem onOk_freshDoubt (go : Bool) : (s.onOk p go).freshDoubt = s.freshDoubt := by
  unfold Runner.onOk
  split <;> (try split) <;> rfl

/-- The cleanup does not go back to the run. -/
theorem inCleanup_onOk (h : s.stage.inCleanup = true) (go : Bool) :
    (s.onOk p go).stage.inCleanup = true := by
  unfold Runner.onOk
  cases hst : s.stage with
  | reconnect => cases go <;> rfl
  | setLock | cleanTrigger => exact inCleanup_cleanNext _ _
  | failed => exact h
  | kill | cleanShadow => rfl
  | _ =>
    rw [hst] at h
    cases h

/-- The way on after a statement that succeeded. -/
theorem Took.onOk (h : Took p srv₀ s) (go : Bool) : Tidying p srv₀ (s.onOk p go) := by
  have hrunning : (s.onOk p go).stage.inCleanup = false → s.stage.inCleanup = false := by
    intro hrun
    by_contra hclean
    rw [inCleanup_onOk (by simpa using hclean) go] at hrun
    cases hrun
  refine ⟨⟨?_, ?_, fun hrun => ?_, ?_, ?_, ?_, ?_, fun e on hd => ?_⟩, fun hsome => ?_⟩
  · rw [onOk_server]
    exact traces_onOk h.kept h.dropped go
  · rw [onOk_doubt]
    exact h.ours
  · rw [onOk_doubt]
    exact h.running (hrunning hrun)
  · rw [onOk_freshDoubt]
    exact h.fresh
  · rw [onOk_server]
    exact fun hren => late_onOk (h.late hren) go
  · rw [onOk_server]
    exact swapped_onOk h.swapped h.renamed go
  · exact fun e todo n => recorded_onOk
  · rw [onOk_doubt] at hd
    -- A statement is in doubt only in the cleanup, which leaves the book alone.
    have hclean : s.stage.inCleanup = true := by
      by_contra hrun
      rw [h.running (by simpa using hrun)] at hd
      cases hd
    rw [book_onOk hclean]
    exact h.doubted e on hd
  · rw [onOk_server] at hsome
    refine shadow_onOk (h.shown hsome) (fun hst => ?_) go
    rw [h.gone (.inl hst)] at hsome
    cases hsome

/-- The cleanup ends when there is no more in the book. -/
theorem cleanNext_failed {b : Book} {todo : List Dml} (h : Runner.cleanNext b todo = .failed) :
    b.createdShadow = false ∨ b.swapped = true := by
  unfold Runner.cleanNext at h
  split at h
  · cases h
  · split at h
    · cases h
    · rename_i hno
      simpa [or_iff_not_imp_left] using hno

/-- The way on after a statement leads to the end from here. -/
theorem failed_onOk {go : Bool} (hend : (s.onOk p go).stage = .failed) : s.stage = .failed ∨
    s.stage = .cleanShadow ∨ s.book.createdShadow = false ∨ s.book.swapped = true := by
  unfold Runner.onOk at hend
  -- A run that fails here has dropped its shadow, or had none to drop.
  cases hst : s.stage with
  | failed => exact .inl rfl
  | cleanShadow => exact .inr (.inl rfl)
  -- The cleanup ends without a shadow to drop.
  | setLock | cleanTrigger e todo =>
    rw [hst] at hend
    exact .inr (.inr (cleanNext_failed hend))
  -- No other stage fails on an answer.
  | setup =>
    rw [hst] at hend
    dsimp only at hend
    split at hend
    · cases hd : p.dryRun <;> cases hi : p.instant <;> simp [hd, hi] at hend
    · cases hend
  | copy =>
    rw [hst] at hend
    dsimp only at hend
    split at hend
    · split at hend <;> cases hend
    · rw [hst] at hend
      cases hend
  | verify =>
    rw [hst] at hend
    dsimp only at hend
    split at hend
    · cases hd : p.dropOld <;> simp [hd] at hend
    · cases hend
  | trigger e todo n | untrigger e todo n =>
    rw [hst] at hend
    cases todo <;> cases hend
  | dryDrop | reconnect =>
    rw [hst] at hend
    cases go <;> cases hend
  | finished =>
    rw [hst] at hend
    dsimp only at hend
    rw [hst] at hend
    cases hend
  | _ =>
    rw [hst] at hend
    cases hend

/-- When the cleanup ends, there is no shadow. -/
theorem Took.gone_of_failed (h : Took p srv₀ s) (hst : s.stage ≠ .failed) {go : Bool}
    (hend : (s.onOk p go).stage = .failed) :
    s.server.names (shadowName p.table) = none := by
  rcases failed_onOk hend with hfailed | hclean | hbook | hswap
  · exact absurd hfailed hst
  · exact h.gone (.inr hclean)
  · by_contra hsome
    -- A shadow would be in the book, and then it would be dropped.
    rcases h.shown (Option.isSome_iff_ne_none.mpr hsome) with hthere | hcreate | hcreate
    · rw [hbook] at hthere
      cases hthere
    · unfold Runner.onOk at hend
      rw [hcreate] at hend
      cases hend
    · unfold Runner.onOk at hend
      rw [hcreate] at hend
      cases hend
  · exact h.kept.shadow (h.swapped hswap)

/-! ### Statements that do not succeed -/

/-- A stage that is entered without success, and not the end. There is as much left to drop. -/
structure Stage.Onto (stage stage' : Stage) : Prop where
  pending : ∀ b, stage'.pending b = stage.pending b
  late : stage.late = true → stage'.late = true
  running : stage'.inCleanup = false → stage.inCleanup = false
  recorded : ∀ e todo n, stage' = .trigger e todo n → ∃ n', stage = .trigger e todo n'

namespace Stage.Onto

/-- A stage goes on to itself. -/
theorem refl {stage : Stage} : Onto stage stage :=
  ⟨fun _ => rfl, fun h => h, fun h => h, fun _ _ n h => ⟨n, h⟩⟩

/-- The run gives up. -/
theorem reconnect {stage : Stage} (h : stage.inCleanup = false) : Onto stage .reconnect := by
  refine ⟨fun b => ?_, fun _ => rfl, fun _ => h, fun e todo n heq => by cases heq⟩
  cases stage <;> first | rfl | cases h

/-- A drop is tried again. -/
theorem again {e : Dml} {todo : List Dml} {n n' : Nat} :
    Onto (.trigger e todo n) (.trigger e todo n') := by
  refine ⟨fun _ => rfl, fun h => h, fun h => h, fun e' todo' k heq => ?_⟩
  cases heq
  exact ⟨n, rfl⟩

end Stage.Onto

/-- A refusal goes on, or fails the run. -/
theorem onto_onRefuse (code : Nat) :
    s.stage.Onto (s.onRefuse p code).stage ∨ (s.onRefuse p code).stage = .failed := by
  unfold Runner.onRefuse
  cases hst : s.stage with
  -- An INSTANT that is refused goes on to the copy.
  | instant =>
    left
    dsimp only
    split
    · exact ⟨fun _ => rfl, fun h => h, fun h => h, fun _ _ _ heq => by cases heq⟩
    · exact .reconnect rfl
  -- A trigger that is refused is tried again while tries are left.
  | trigger e todo n =>
    left
    dsimp only
    split
    · exact .again
    · exact .reconnect rfl
  -- A drop of triggers or the rename goes on in the same way.
  | untrigger e todo n | rename n =>
    left
    dsimp only
    split
    · exact ⟨fun _ => rfl, fun h => h, fun h => h, fun _ _ _ heq => by cases heq⟩
    · exact .reconnect rfl
  | reconnect | kill =>
    exact .inl ⟨fun _ => rfl, fun h => h, fun h => h, fun _ _ _ heq => by cases heq⟩
  | finished =>
    left
    dsimp only
    rw [hst]
    exact .refl
  -- A refused cleanup ends the runner.
  | setLock | cleanTrigger | cleanShadow => exact .inr rfl
  | failed => exact .inr hst
  | _ => exact .inl (.reconnect rfl)

/-- So does a lost connection. -/
theorem onto_onLose (d : Option Sql) (dead : Bool) :
    s.stage.Onto (s.onLose d dead).stage ∨ (s.onLose d dead).stage = .failed := by
  unfold Runner.onLose
  cases hst : s.stage with
  | reconnect | kill =>
    exact .inl ⟨fun _ => rfl, fun h => h, fun h => h, fun _ _ _ heq => by cases heq⟩
  | finished =>
    left
    dsimp only
    rw [hst]
    exact .refl
  | setLock | cleanTrigger | cleanShadow =>
    right
    dsimp only
    split <;> rfl
  | failed => exact .inr hst
  | _ => exact .inl (.reconnect rfl)

/-- A stage entered with the same server and the same book. -/
theorem Tidying.enter (h : Tidying p srv₀ s) (hserver : s'.server = s.server)
    (hbook : s'.book = s.book) (hfresh : s'.freshDoubt = s.freshDoubt)
    (honto : s.stage.Onto s'.stage) (hrunning : s'.stage.inCleanup = false → s'.doubt = none)
    (hdoubt : ∀ q, s'.doubt = some q → s.doubt = some q ∨ s.stage.sql p.table = some q) :
    Tidying p srv₀ s' := by
  refine ⟨⟨?_, fun q hd => ?_, hrunning, ?_, fun hren => ?_, ?_, fun e todo n hst => ?_,
    fun e on hd => ?_⟩, ?_⟩
  · rw [hserver, hbook, honto.pending]
    exact h.kept
  · rcases hdoubt q hd with hd | hsql
    · exact h.ours q hd
    · exact ⟨s.stage, hsql⟩
  · exact hfresh.trans h.fresh
  · rw [hserver] at hren
    exact honto.late (h.late hren)
  · rw [hserver, hbook]
    exact h.swapped
  · rw [hbook]
    obtain ⟨n', hbefore⟩ := honto.recorded e todo n hst
    exact h.recorded e todo n' hbefore
  · rw [hbook]
    rcases hdoubt _ hd with hd | hsql
    · exact h.doubted e on hd
    · obtain ⟨-, todo, n, hst⟩ := stage_of_createTrigger hsql
      exact h.recorded e todo n hst
  · rw [hserver, hbook]
    exact h.shadow

/-- The book, and the doubt of the cleanup, after a statement that was refused. -/
theorem onRefuse_book (code : Nat) : (s.onRefuse p code).book = s.book ∧
    (s.onRefuse p code).freshDoubt = s.freshDoubt := by
  unfold Runner.onRefuse
  split <;> exact ⟨rfl, rfl⟩

/-- After a refusal the server is still being tidied, or the run has failed. -/
theorem Tidying.onRefuse (h : Tidying p srv₀ s) (code : Nat) :
    Tidying p srv₀ (s.onRefuse p code) ∨ (s.onRefuse p code).stage = .failed := by
  rcases onto_onRefuse (p := p) (s := s) code with honto | hend
  · left
    refine h.enter (onRefuse_server code) (onRefuse_book code).1 (onRefuse_book code).2 honto
      (fun hrun => ?_) (fun q hd => .inl ?_)
    · rw [onRefuse_doubt]
      exact h.running (honto.running hrun)
    · rwa [onRefuse_doubt] at hd
  · exact .inr hend

/-- The same after a connection that failed, but for the end. -/
theorem onLose_book (hsql : s.stage.sql p.table = some q) {d : Option Sql} {dead : Bool}
    (hgo : (s.onLose d dead).stage ≠ .failed) : (s.onLose d dead).book = s.book ∧
      (s.onLose d dead).freshDoubt = s.freshDoubt ∧
        (s.onLose d dead).stage.inCleanup = true := by
  unfold Runner.onLose at hgo ⊢
  cases hst : s.stage with
  | finished | failed =>
    rw [hst] at hsql
    cases hsql
  | setLock | cleanTrigger | cleanShadow =>
    rw [hst] at hgo
    dsimp only at hgo
    split at hgo <;> exact absurd rfl hgo
  | _ => exact ⟨rfl, rfl, rfl⟩

/-- So it is after a lost connection. -/
theorem Tidying.onLose (h : Tidying p srv₀ s) (hsql : s.stage.sql p.table = some q)
    {d : Option Sql} (hd : ∀ q', d = some q' → q' = q) (dead : Bool) :
    Tidying p srv₀ (s.onLose d dead) ∨ (s.onLose d dead).stage = .failed := by
  rcases onto_onLose (s := s) d dead with honto | hend
  · by_cases hgo : (s.onLose d dead).stage = .failed
    · exact .inr hgo
    obtain ⟨hbook, hfresh, hclean⟩ := onLose_book hsql hgo
    left
    refine h.enter (onLose_server d dead) hbook hfresh honto (fun hrun => ?_) (fun q' hq' => ?_)
    · rw [hclean] at hrun
      cases hrun
    · refine (doubt_onLose hq').imp_right fun hlost => ?_
      rw [hd q' hlost]
      exact hsql
  · exact .inr hend

/-! ### A run -/

/-- What the cleanup has still to drop, from the book. -/
theorem mem_pending {stage : Stage} {b : Book} (hdrops : stage.drops e = true)
    (he : e ∈ b.createdTriggers) : e ∈ stage.pending b := by
  cases stage with
  | cleanTrigger e' todo => exact of_decide_eq_true hdrops
  | cleanShadow | failed => cases hdrops
  | _ => exact he

/-- A statement in doubt takes effect, in time. -/
theorem Booking.land (h : Booking p srv₀ s) (hq : s.doubt = some q)
    (htime : q.inTime s.stage = true) (hland : { s with doubt := none }.take q = some s') :
    Booking p srv₀ s' ∧ ((s'.server.names (shadowName p.table)).isSome = true →
      (s.server.names (shadowName p.table)).isSome = true) := by
  have hours : Ours p q := h.ours q hq
  have hcreate : ∀ name like, q ≠ .createTableLike name like := by
    rintro name like rfl
    cases htime
  refine ⟨h.settle.take hours ?_ ?_ ?_ hland, ?_⟩
  · rintro ⟨name, like, heq⟩
    exact absurd heq (hcreate name like)
  · rintro e rfl
    exact mem_pending htime (h.doubted e p.table hq)
  · intro _
    refine late_of_inCleanup ?_
    by_contra hrun
    rw [h.running (by simpa using hrun)] at hq
    cases hq
  · obtain ⟨server, hserver, rfl⟩ := take_eq hland
    exact shadow_of_exec hours hcreate hserver

/-- The server's part of a step leaves the stage and the book. -/
theorem stage_take (hq : s.take q = some s') : s'.stage = s.stage ∧ s'.book = s.book := by
  obtain ⟨server, -, rfl⟩ := take_eq hq
  exact ⟨rfl, rfl⟩

/-- One move, until the run has failed. -/
theorem Tidying.step {m : Runner.Move} (h : Tidying p srv₀ s) (hok : Timely s m)
    (hstep : s.step p m = some s') : Tidying p srv₀ s' ∨ s'.stage = .failed := by
  unfold Runner.step at hstep
  cases m with
  | ok go =>
    dsimp only at hstep
    split at hstep
    · rename_i q hsql
      split at hstep
      · obtain ⟨s₁, hq, rfl⟩ := Option.map_eq_some_iff.mp hstep
        exact .inl ((h.took hsql hq).onOk go)
      · cases hstep
    · cases hstep
  | refuse code =>
    dsimp only at hstep
    split at hstep
    · cases hstep
      exact h.onRefuse code
    · cases hstep
  | lose landed dead =>
    dsimp only at hstep
    split at hstep
    · rename_i q hsql
      split at hstep
      · split at hstep
        · rename_i hlanded
          subst hlanded
          obtain ⟨s₁, hq, rfl⟩ := Option.map_eq_some_iff.mp hstep
          have htook := h.took hsql hq
          obtain ⟨hst, -⟩ := stage_take hq
          -- It was no CREATE TABLE, so the shadow is in the book.
          have htidy : Tidying p srv₀ s₁ := by
            refine ⟨htook.toBooking, fun hsome => (htook.shown hsome).resolve_right ?_⟩
            rw [hst]
            exact not_or.mpr hok
          exact htidy.onLose (hst ▸ hsql) (fun q' hd => by cases hd) dead
        · cases hstep
          exact h.onLose hsql (fun q' hd => (Option.some.inj hd).symm) dead
      · cases hstep
    · cases hstep
  | raise =>
    dsimp only at hstep
    split at hstep
    · cases hstep
    · cases hstep
    · cases hstep
      by_cases hclean : s.stage.inCleanup = true
      · exact .inr (if_pos hclean)
      · have hrun : s.stage.inCleanup = false := by simpa using hclean
        left
        refine h.enter rfl rfl rfl ?_ (fun _ => h.running hrun) (fun q hd => .inl hd)
        simp only [hrun, Bool.false_eq_true, if_false]
        exact .reconnect hrun
  | landOwn =>
    dsimp only at hstep
    split at hstep
    · rename_i q hd
      obtain ⟨hbooking, hshadow⟩ := h.toBooking.land hd (hok q hd) hstep
      refine .inl ⟨hbooking, fun hsome => ?_⟩
      rw [(stage_take hstep).2]
      exact h.shadow (hshadow hsome)
    · cases hstep
  | landFresh =>
    dsimp only at hstep
    rw [h.fresh] at hstep
    cases hstep
  | lapseOwn =>
    cases hstep
    exact .inl ⟨h.settle, h.shadow⟩

/-- Nothing leaves the end. -/
theorem failed_step {m : Runner.Move} (h : s.stage = .failed) (hstep : s.step p m = some s') :
    s'.stage = .failed ∧ ∀ go, m ≠ .ok go := by
  unfold Runner.step at hstep
  cases m with
  | ok | refuse | lose =>
    rw [h] at hstep
    cases hstep
  | raise =>
    dsimp only at hstep
    rw [h] at hstep
    cases hstep
  | landOwn | landFresh =>
    dsimp only at hstep
    split at hstep
    · exact ⟨(stage_take hstep).1.trans h, fun go heq => by cases heq⟩
    · cases hstep
  | lapseOwn =>
    cases hstep
    exact ⟨h, fun go heq => by cases heq⟩

/-- The start of a run that preflight will pass. -/
theorem Initial.tidying (i : Initial p) (hclean : Runner.clean p i.server = true) :
    Tidying p i.server i.start := by
  simp only [Runner.clean, Bool.and_eq_true, Option.isNone_iff_eq_none] at hclean
  obtain ⟨⟨⟨-, hshadow⟩, hold⟩, hbare⟩ := hclean
  have hkept : Traces p i.server [] i.server :=
    ⟨i.good, onTable_of_isEmpty hbare, fun _ => ⟨rfl, hold⟩, fun _ => hshadow, fun x hx => .inl hx⟩
  refine ⟨⟨hkept, fun q hd => ?_, fun _ => rfl, rfl, fun hsome => ?_, fun hs => ?_,
    fun e todo n hst => ?_, fun e on hd => ?_⟩, fun hsome => ?_⟩
  · cases hd
  · rw [show i.start.server.renamed = none from i.unswapped] at hsome
    cases hsome
  · cases hs
  · cases hst
  · cases hd
  · rw [show i.start.server.names (shadowName p.table) = none from hshadow] at hsome
    cases hsome

/-- Every run on a clean server is being tidied, or has failed. -/
theorem tidying_of_reach {i : Initial p} (hclean : Runner.clean p i.server = true)
    (hrun : Reach (Runner.step p) Timely i.start s) :
    Tidying p i.server s ∨ s.stage = .failed := by
  refine hrun.invariant (I := fun s => Tidying p i.server s ∨ s.stage = .failed)
    (.inl (i.tidying hclean)) ?_
  rintro t m u _ (htidy | hend) hok hstep
  · exact htidy.step hok hstep
  · exact .inr (failed_step hend hstep).1

/-- A cleanup has ended, and it left no shadow. -/
structure Ended (p : Plan) (srv₀ : Server) (s : Runner) : Prop extends Booking p srv₀ s where
  failed : s.stage = .failed
  gone : s.server.names (shadowName p.table) = none

/-- The last statement of a cleanup that succeeds. -/
theorem Tidying.ended {go : Bool} (h : Tidying p srv₀ s)
    (hstep : s.step p (.ok go) = some s') (hend : s'.stage = .failed) : Ended p srv₀ s' := by
  have hgo : s.stage ≠ .failed := fun hfailed => (failed_step hfailed hstep).2 go rfl
  unfold Runner.step at hstep
  dsimp only at hstep
  split at hstep
  · rename_i q hsql
    split at hstep
    · obtain ⟨s₁, hq, rfl⟩ := Option.map_eq_some_iff.mp hstep
      have htook := h.took hsql hq
      have hgone : s₁.server.names (shadowName p.table) = none := by
        refine htook.gone_of_failed ?_ hend
        rw [(stage_take hq).1]
        exact hgo
      refine ⟨(htook.onOk go).toBooking, hend, ?_⟩
      rw [onOk_server]
      exact hgone
    · cases hstep
  · cases hstep

/-- Later moves keep it. -/
theorem Ended.step {m : Runner.Move} (h : Ended p srv₀ s) (hok : Timely s m)
    (hstep : s.step p m = some s') : Ended p srv₀ s' := by
  have hend := (failed_step h.failed hstep).1
  unfold Runner.step at hstep
  cases m with
  -- The runner has ended, so no statement of its own is answered.
  | ok | refuse | lose =>
    rw [h.failed] at hstep
    cases hstep
  | raise =>
    dsimp only at hstep
    rw [h.failed] at hstep
    cases hstep
  -- What lands late is what was in doubt, and it was in time.
  | landOwn =>
    dsimp only at hstep
    split at hstep
    · rename_i q hd
      obtain ⟨hbooking, hshadow⟩ := h.toBooking.land hd (hok q hd) hstep
      refine ⟨hbooking, hend, ?_⟩
      -- So it has brought no shadow back.
      by_contra hsome
      have hthere := hshadow (Option.isSome_iff_ne_none.mpr hsome)
      rw [h.gone] at hthere
      cases hthere
    · cases hstep
  -- There is no fresh doubt after the end.
  | landFresh =>
    dsimp only at hstep
    rw [h.fresh] at hstep
    cases hstep
  | lapseOwn =>
    cases hstep
    exact ⟨h.settle, hend, h.gone⟩

/-- Without a trigger of the run the table has none. -/
theorem isEmpty_of_onTable (h : OnTable p [] srv) :
    (srv.triggersOn p.table).isEmpty = true := by
  rw [List.isEmpty_iff, Server.triggersOn, List.map_eq_nil_iff, List.filter_eq_nil_iff]
  intro x hx hon
  exact List.not_mem_nil (h x hx (of_decide_eq_true hon))

/-- At the end of the cleanup the server is tidied. -/
theorem Ended.tidied (h : Ended p srv₀ s) : Tidied p srv₀ s.server := by
  have hkept : Traces p srv₀ [] s.server := by
    have hk := h.kept
    rwa [h.failed] at hk
  have hold : ∀ name, name ≠ p.table → (s.server.drop name).names p.table =
      s.server.names p.table := by
    intro name hname
    simp only [Server.drop, Function.update_of_ne hname.symm]
  refine ⟨fun x hx => ?_, h.gone, ?_, ?_⟩
  · exact (hkept.triggers x hx).resolve_right fun hk => List.not_mem_nil hk.1
  · cases hren : s.server.renamed with
    | none => exact .inl ⟨rfl, (hkept.table hren).1⟩
    | some o => exact .inr ⟨rfl, hkept.good.altered o hren⟩
  · cases hren : s.server.renamed with
    | none =>
      refine .inl ⟨rfl, ?_⟩
      simp only [Runner.clean, hkept.good.live, h.gone, (hkept.table hren).2,
        isEmpty_of_onTable hkept.onTable, Option.isNone_none, Bool.and_self]
    | some o =>
      have hclear := hkept.drop (oldName_ne p.table)
      refine .inr ⟨rfl, ?_⟩
      have hnone : (s.server.drop (oldName p.table)).names (shadowName p.table) = none := by
        simp only [Server.drop, Function.update_of_ne (oldName_ne_shadowName p.table).symm]
        exact h.gone
      have hgone : (s.server.drop (oldName p.table)).names (oldName p.table) = none := by
        simp only [Server.drop, Function.update_self]
      simp only [Runner.clean, hclear.good.live, hnone, hgone,
        isEmpty_of_onTable hclear.onTable, Option.isNone_none, Bool.and_self]

/-- A run that raised after preflight, and whose cleanup had no error: nothing of it is left,
whatever else happens later. -/
theorem tidied_of_timely (p : Plan) (i : Initial p) (hclean : Runner.clean p i.server = true)
    {go : Bool} {last : Runner} (hrun : Reach (Runner.step p) Timely i.start s)
    (hlast : s.step p (.ok go) = some s') (hend : s'.stage = .failed)
    (hafter : Reach (Runner.step p) Timely s' last) : Tidied p i.server last.server := by
  have hended : Ended p i.server s' := by
    rcases tidying_of_reach hclean hrun with htidy | hfailed
    · exact htidy.ended hlast hend
    · exact absurd rfl ((failed_step hfailed hlast).2 go)
  have hall : Ended p i.server last :=
    hafter.invariant (I := Ended p i.server) hended fun _ _ _ _ h hok hstep => h.step hok hstep
  exact hall.tidied

/-- The first CREATE TRIGGER takes effect, and the connection fails. The cleanup connects
again, kills the old connection and drops the trigger. -/
def landedTrigger : List Runner.Move :=
  [.ok true, .ok true, .ok true, .ok true, .lose true true, .ok true, .ok true, .ok true, .ok true]

/-- The last statement of its cleanup drops the shadow. -/
theorem landed_trigger_tidied :
    Tidied { table := "t" } oneTable.server
      (Machine.run (Runner.step { table := "t" })
        (Machine.run (Runner.step { table := "t" }) oneTable.start landedTrigger)
        [.ok true]).server :=
  tidied_of_timely { table := "t" } oneTable (by decide +kernel)
    (Machine.reach_run_of_obeys (by decide +kernel) (by decide +kernel))
    (Machine.step_eq_run (by decide +kernel)) (by decide +kernel) .refl

/-- CREATE TABLE takes effect, and the connection fails. The shadow is not in the book, so the
cleanup has nothing to drop and ends without an error. -/
theorem shadow_left :
    ¬ ∀ (p : Plan) (i : Initial p) (go : Bool) (s s' last : Runner),
      Runner.clean p i.server = true → Reach (Runner.step p) Free i.start s →
      s.step p (.ok go) = some s' → s'.stage = .failed → Reach (Runner.step p) Free s' last →
      Tidied p i.server last.server := by
  intro h
  let p : Plan := { table := "t" }
  let s := Machine.run (Runner.step p) oneTable.start
    [.ok true, .lose true true, .ok true, .ok true]
  let s' := Machine.run (Runner.step p) s [.ok true]
  have hrun : Reach (Runner.step p) Free oneTable.start s := Machine.reach_run (by decide +kernel)
  have hlast : s.step p (.ok true) = some s' := Machine.step_eq_run (by decide +kernel)
  have hthere : s'.server.names (shadowName p.table) = some 1 := by decide +kernel
  have htidied := h p oneTable true s s' s' (by decide +kernel) hrun hlast (by decide +kernel) .refl
  rw [htidied.shadow] at hthere
  cases hthere

end DbGuard.Osc
