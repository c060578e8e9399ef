import DbGuard.Osc.Runner

/-!
# `DbGuard.Proofs.Osc.Server`: what the tool's statements leave on the server

Facts about one statement of the runner (`Ours`), wherever it is run and however often. `Good`
is the part of the server's state that no statement of the runner can spoil: a name stands
for a table of its own, the live table has one, and its table is the altered one from the
RENAME on. What depends on the order of the statements is which triggers the live table has
(`OnTable`) and whether the shadow is there for them (`Shadowed`).
-/

set_option autoImplicit false

namespace DbGuard.Osc

variable {p : Plan} {srv srv' : Server} {q : Sql} {l : List Dml} {e : Dml}

/-! ### The names -/

/-- The shadow has a name of its own. -/
theorem shadowName_ne (table : String) : shadowName table ≠ table := by
  intro h
  have hlen := congrArg String.length h
  rw [shadowName, String.length_append] at hlen
  have hpre : shadowPrefix.length = 10 := by decide
  omega

/-- So has the old table. -/
theorem oldName_ne (table : String) : oldName table ≠ table := by
  intro h
  have hlen := congrArg String.length h
  rw [oldName, String.length_append] at hlen
  have hpre : oldPrefix.length = 10 := by decide
  omega

/-- These two names differ. -/
theorem oldName_ne_shadowName (table : String) : oldName table ≠ shadowName table := by
  intro h
  have hlist := congrArg String.toList h
  simp [oldName, shadowName, oldPrefix, shadowPrefix] at hlist

/-- A statement of some stage of the runner. -/
def Ours (p : Plan) (q : Sql) : Prop := ∃ stage : Stage, stage.sql p.table = some q

/-- The statement that drops the shadow. -/
def dropShadow (p : Plan) : Sql := .dropTableIfExists (shadowName p.table)

/-- The statements of the runner, one by one. -/
theorem Ours.cases (h : Ours p q) :
    q = .plain ∨ q = .kill ∨ q = .createTableLike (shadowName p.table) p.table ∨
      (∃ n, q = .alterTable n) ∨ (∃ e, q = .createTrigger e p.table) ∨
      (∃ e, q = .dropTrigger e) ∨
      q = .renameTable p.table (oldName p.table) (shadowName p.table) ∨
      q = dropShadow p ∨ q = .dropTable (oldName p.table) := by
  obtain ⟨stage, hstage⟩ := h
  cases stage <;> simp only [Stage.sql, Option.some.injEq, reduceCtorEq] at hstage <;>
    subst hstage <;> simp [dropShadow]

/-! ### What holds whatever is run -/

/-- What no statement of the runner can spoil. -/
structure Good (p : Plan) (srv : Server) : Prop where
  inj : ∀ n n' o, srv.names n = some o → srv.names n' = some o → n = n'
  names_lt : ∀ n o, srv.names n = some o → o < srv.created
  triggers_lt : ∀ x ∈ srv.triggers, x.2 < srv.created
  bare : ∀ x ∈ srv.triggers, srv.names (shadowName p.table) ≠ some x.2
  live : (srv.names p.table).isSome = true
  altered : ∀ o, srv.renamed = some o → srv.names p.table = some o

/-- The triggers of the live table are among those of a list. -/
def OnTable (p : Plan) (l : List Dml) (srv : Server) : Prop :=
  ∀ x ∈ srv.triggers, srv.names p.table = some x.2 → x.1 ∈ l

/-- If the live table has a trigger, the shadow is there. -/
def Shadowed (p : Plan) (srv : Server) : Prop :=
  ∀ x ∈ srv.triggers, srv.names p.table = some x.2 →
    (srv.names (shadowName p.table)).isSome = true

/-- More triggers may be on the table. -/
theorem OnTable.mono {l' : List Dml} (h : OnTable p l srv) (hle : ∀ e ∈ l, e ∈ l') :
    OnTable p l' srv :=
  fun x hx ht => hle x.1 (h x hx ht)

/-- A table without triggers needs no shadow. -/
theorem Shadowed.of_none (h : OnTable p [] srv) : Shadowed p srv :=
  fun x hx ht => absurd (h x hx ht) List.not_mem_nil

/-- A shadow that is there is shadowed. -/
theorem Shadowed.of_isSome (h : (srv.names (shadowName p.table)).isSome = true) :
    Shadowed p srv :=
  fun _ _ _ => h

/-- Dropping a table other than the live one. -/
theorem Good.drop {name : String} (h : Good p srv) (hname : name ≠ p.table) :
    Good p (srv.drop name) where
  inj := by
    -- A name that is left stood for the same object before.
    intro n n' o hn hn'
    simp only [Server.drop, Function.update_apply] at hn hn'
    split at hn
    · cases hn
    · split at hn'
      · cases hn'
      · exact h.inj n n' o hn hn'
  names_lt := by
    intro n o hn
    simp only [Server.drop, Function.update_apply] at hn
    split at hn
    · cases hn
    · exact h.names_lt n o hn
  triggers_lt := fun x hx => h.triggers_lt x (List.mem_filter.mp hx).1
  -- The shadow's triggers go with it.
  bare := by
    intro x hx hn
    simp only [Server.drop, Function.update_apply] at hn
    split at hn
    · cases hn
    · exact h.bare x (List.mem_filter.mp hx).1 hn
  live := by
    simp only [Server.drop, Function.update_of_ne hname.symm]
    exact h.live
  altered := by
    intro o ho
    simp only [Server.drop, Function.update_of_ne hname.symm]
    exact h.altered o ho

/-- The shadow is created on a good server. -/
theorem Good.createShadow (h : Good p srv)
    (hq : srv.exec (.createTableLike (shadowName p.table) p.table) = some srv') :
    Good p srv' := by
  simp only [Server.exec, Option.ite_none_right_eq_some, Option.some.injEq] at hq
  obtain ⟨_, rfl⟩ := hq
  have hne := shadowName_ne p.table
  -- Names, injectivity and bounds as before, with the shadow's name for the object just made.
  refine ⟨?_, ?_, ?_, ?_, ?_, ?_⟩
  · intro n n' o hn hn'
    simp only [Function.update_apply] at hn hn'
    split at hn <;> split at hn'
    -- The new object differs from every old one, because it is numbered behind them.
    · simp_all
    · have hlt := h.names_lt n' o hn'
      simp only [Option.some.injEq] at hn
      omega
    · have hlt := h.names_lt n o hn
      simp only [Option.some.injEq] at hn'
      omega
    · exact h.inj n n' o hn hn'
  · intro n o hn
    simp only [Function.update_apply] at hn
    split at hn
    · simp only [Option.some.injEq] at hn
      show o < srv.created + 1
      omega
    · exact Nat.lt_succ_of_lt (h.names_lt n o hn)
  · exact fun x hx => Nat.lt_succ_of_lt (h.triggers_lt x hx)
  -- No trigger can be on an object that did not exist.
  · intro x hx hn
    simp only [Function.update_self, Option.some.injEq] at hn
    have hlt := h.triggers_lt x hx
    omega
  · simp only [Function.update_of_ne hne.symm]
    exact h.live
  · intro o ho
    simp only [Function.update_of_ne hne.symm]
    exact h.altered o ho

/-- A trigger is created on a good server. -/
theorem Good.createTrigger (h : Good p srv) (hq : srv.exec (.createTrigger e p.table) = some srv') :
    Good p srv' := by
  simp only [Server.exec] at hq
  split at hq
  · rename_i o ho
    split at hq
    · cases hq
    · cases hq
      refine ⟨h.inj, h.names_lt, ?_, ?_, h.live, h.altered⟩
      · intro x hx
        rcases List.mem_append.mp hx with hx | hx
        · exact h.triggers_lt x hx
        · rw [List.mem_singleton.mp hx]
          exact h.names_lt p.table o ho
      · intro x hx hn
        rcases List.mem_append.mp hx with hx | hx
        · exact h.bare x hx hn
        · rw [List.mem_singleton.mp hx] at hn
          exact shadowName_ne p.table (h.inj _ _ o hn ho)
  · cases hq

/-- Where the RENAME is run, the three names stand for no table, the live one and the shadow.
After it they stand for the live table, the shadow and none. -/
theorem rename_eq (hq : srv.exec (.renameTable p.table (oldName p.table) (shadowName p.table)) =
      some srv') :
    ∃ a b, srv.names p.table = some a ∧ srv.names (shadowName p.table) = some b ∧
      srv'.triggers = srv.triggers ∧ srv'.created = srv.created ∧ srv'.renamed = some b ∧
      srv'.names p.table = some b ∧ srv'.names (oldName p.table) = some a ∧
      srv'.names (shadowName p.table) = none ∧
      ∀ n, n ≠ p.table → n ≠ oldName p.table → n ≠ shadowName p.table →
        srv'.names n = srv.names n := by
  simp only [Server.exec, Option.ite_none_right_eq_some, Option.some.injEq] at hq
  obtain ⟨⟨hlive, _, hshadow⟩, rfl⟩ := hq
  obtain ⟨a, ha⟩ := Option.isSome_iff_exists.mp hlive
  obtain ⟨b, hb⟩ := Option.isSome_iff_exists.mp hshadow
  have hst := shadowName_ne p.table
  have hot := oldName_ne p.table
  have hos := oldName_ne_shadowName p.table
  refine ⟨a, b, ha, hb, rfl, rfl, hb, ?_, ?_, ?_, ?_⟩
  · simp [Function.update_of_ne hst.symm, hb]
  · simp [Function.update_of_ne hos, Function.update_of_ne hot, ha]
  · simp
  · intro n ht ho hs
    simp [Function.update_of_ne hs, Function.update_of_ne ht, Function.update_of_ne ho]

/-- The name that stood for a table before the RENAME. -/
def nameBefore (table name : String) : String :=
  if name = table then shadowName table else if name = oldName table then table else name

/-- Two tables that stand now have had different names. -/
theorem nameBefore_inj {table n n' : String} (hn : n ≠ shadowName table)
    (hn' : n' ≠ shadowName table) (h : nameBefore table n = nameBefore table n') : n = n' := by
  have hst := shadowName_ne table
  unfold nameBefore at h
  split_ifs at h with hnt hnt' hno' hno hnt' hno' hnt' hno'
  · rw [hnt, hnt']
  · exact absurd h hst
  · exact absurd h.symm hn'
  · exact absurd h.symm hst
  · rw [hno, hno']
  · exact absurd h.symm hnt'
  · exact absurd h hn
  · exact absurd h hnt
  · exact h

/-- The two renames in one statement keep the server good. -/
theorem Good.rename (h : Good p srv)
    (hq : srv.exec (.renameTable p.table (oldName p.table) (shadowName p.table)) = some srv') :
    Good p srv' := by
  obtain ⟨a, b, ha, hb, htrig, hcreated, hren, ht, ho, hs, hrest⟩ := rename_eq hq
  -- After the rename a name stands for what its name before stood for; the shadow's is free.
  have hfrom : ∀ n o, srv'.names n = some o →
      n ≠ shadowName p.table ∧ srv.names (nameBefore p.table n) = some o := by
    intro n o hn
    have hns : n ≠ shadowName p.table := by
      rintro rfl
      rw [hs] at hn
      cases hn
    refine ⟨hns, ?_⟩
    unfold nameBefore
    split_ifs with hnt hno
    · rw [hb, ← ht, ← hnt, hn]
    · rw [ha, ← ho, ← hno, hn]
    · rw [← hrest n hnt hno hns, hn]
  refine ⟨?_, ?_, ?_, ?_, ?_, ?_⟩
  -- Two names of one object were two names of one object before.
  · intro n n' o hn hn'
    obtain ⟨hns, hbefore⟩ := hfrom n o hn
    obtain ⟨hns', hbefore'⟩ := hfrom n' o hn'
    exact nameBefore_inj hns hns' (h.inj _ _ o hbefore hbefore')
  · intro n o hn
    rw [hcreated]
    exact h.names_lt _ o (hfrom n o hn).2
  · rw [htrig, hcreated]
    exact h.triggers_lt
  -- The name of the shadow is free, so nothing is on it.
  · intro x _ hn
    rw [hs] at hn
    cases hn
  -- The altered table is renamed, and so it is live and no longer pending.
  · rw [ht]
    rfl
  · intro o ho'
    rw [ht, ← hren, ho']

/-- A statement of the runner keeps the server good. -/
theorem Good.exec (h : Good p srv) (hours : Ours p q) (hq : srv.exec q = some srv') :
    Good p srv' := by
  rcases hours.cases with rfl | rfl | rfl | ⟨n, rfl⟩ | ⟨e, rfl⟩ | ⟨e, rfl⟩ | rfl | rfl | rfl
  · cases hq
    exact h
  · cases hq
    exact h
  · exact h.createShadow hq
  · simp only [Server.exec, Option.ite_none_right_eq_some, Option.some.injEq] at hq
    exact hq.2 ▸ h
  · exact h.createTrigger hq
  · cases hq
    exact ⟨h.inj, h.names_lt, fun x hx => h.triggers_lt x (List.mem_filter.mp hx).1,
      fun x hx => h.bare x (List.mem_filter.mp hx).1, h.live, h.altered⟩
  · exact h.rename hq
  · cases hq
    exact h.drop (shadowName_ne p.table)
  · simp only [Server.exec, Option.ite_none_right_eq_some, Option.some.injEq] at hq
    exact hq.2 ▸ h.drop (oldName_ne p.table)

/-! ### Triggers and shadow -/

/-- A statement gives the live table a trigger only if it creates it there. -/
theorem OnTable.exec (hgood : Good p srv) (h : OnTable p l srv) (hours : Ours p q)
    (hnew : ∀ e, q = .createTrigger e p.table → e ∈ l) (hq : srv.exec q = some srv') :
    OnTable p l srv' := by
  rcases hours.cases with rfl | rfl | rfl | ⟨n, rfl⟩ | ⟨e, rfl⟩ | ⟨e, rfl⟩ | rfl | rfl | rfl
  · cases hq
    exact h
  · cases hq
    exact h
  -- Creating the shadow does not touch the table's name.
  · simp only [Server.exec, Option.ite_none_right_eq_some, Option.some.injEq] at hq
    obtain ⟨_, rfl⟩ := hq
    intro x hx ht
    simp only [Function.update_of_ne (shadowName_ne p.table).symm] at ht
    exact h x hx ht
  -- Altering the shadow changes its columns only.
  · simp only [Server.exec, Option.ite_none_right_eq_some, Option.some.injEq] at hq
    exact hq.2 ▸ h
  -- The trigger created last is one of those asked for.
  · simp only [Server.exec] at hq
    split at hq
    · split at hq
      · cases hq
      · cases hq
        intro x hx ht
        rcases List.mem_append.mp hx with hx | hx
        · exact h x hx ht
        · rw [List.mem_singleton.mp hx]
          exact hnew e rfl
    · cases hq
  -- Dropping a trigger leaves fewer.
  · cases hq
    exact fun x hx ht => h x (List.mem_filter.mp hx).1 ht
  · -- The altered table has no triggers.
    obtain ⟨a, b, _, hb, htrig, _, _, ht', _⟩ := rename_eq hq
    intro x hx ht
    rw [htrig] at hx
    exact absurd (hb.trans (ht'.symm.trans ht)) (hgood.bare x hx)
  -- Dropping the shadow takes its triggers along and leaves the table's name.
  · cases hq
    intro x hx ht
    simp only [Server.drop, Function.update_of_ne (shadowName_ne p.table).symm] at ht
    exact h x (List.mem_filter.mp hx).1 ht
  · simp only [Server.exec, Option.ite_none_right_eq_some, Option.some.injEq] at hq
    obtain ⟨_, rfl⟩ := hq
    intro x hx ht
    simp only [Server.drop, Function.update_of_ne (oldName_ne p.table).symm] at ht
    exact h x (List.mem_filter.mp hx).1 ht

/-- Dropping a trigger. -/
theorem OnTable.dropTrigger (h : OnTable p (e :: l) srv)
    (hq : srv.exec (.dropTrigger e) = some srv') : OnTable p l srv' := by
  cases hq
  intro x hx ht
  obtain ⟨hmem, hne⟩ := List.mem_filter.mp hx
  exact (List.mem_cons.mp (h x hmem ht)).resolve_left (by simpa using hne)

/-- The shadow is gone after a statement only if it was dropped or renamed. -/
theorem shadow_exec (hours : Ours p q) (h : (srv.names (shadowName p.table)).isSome = true)
    (hdrop : q ≠ dropShadow p)
    (hren : q ≠ .renameTable p.table (oldName p.table) (shadowName p.table))
    (hq : srv.exec q = some srv') : (srv'.names (shadowName p.table)).isSome = true := by
  rcases hours.cases with rfl | rfl | rfl | ⟨n, rfl⟩ | ⟨e, rfl⟩ | ⟨e, rfl⟩ | rfl | rfl | rfl
  · cases hq
    exact h
  · cases hq
    exact h
  · simp only [Server.exec, Option.ite_none_right_eq_some, Option.some.injEq] at hq
    obtain ⟨_, rfl⟩ := hq
    simp
  · simp only [Server.exec, Option.ite_none_right_eq_some, Option.some.injEq] at hq
    exact hq.2 ▸ h
  · simp only [Server.exec] at hq
    split at hq
    · split at hq
      · cases hq
      · cases hq
        exact h
    · cases hq
  · cases hq
    exact h
  · exact absurd rfl hren
  · exact absurd rfl hdrop
  · simp only [Server.exec, Option.ite_none_right_eq_some, Option.some.injEq] at hq
    obtain ⟨_, rfl⟩ := hq
    simp only [Server.drop, Function.update_of_ne (oldName_ne_shadowName p.table).symm]
    exact h

/-- The triggers of the live table keep their shadow, if none is created without it and it is
not dropped under one. -/
theorem Shadowed.exec (hgood : Good p srv) (h : Shadowed p srv) (hours : Ours p q)
    (hnew : ∀ e, q = .createTrigger e p.table → (srv.names (shadowName p.table)).isSome = true)
    (hdrop : q = dropShadow p → OnTable p [] srv) (hq : srv.exec q = some srv') :
    Shadowed p srv' := by
  by_cases hd : q = dropShadow p
  · subst hd
    exact .of_none ((hdrop rfl).exec hgood hours (by simp [dropShadow]) hq)
  · by_cases hr : q = .renameTable p.table (oldName p.table) (shadowName p.table)
    · subst hr
      obtain ⟨a, b, _, hb, htrig, _, _, ht', _⟩ := rename_eq hq
      refine .of_none fun x hx ht => ?_
      rw [htrig] at hx
      exact absurd (hb.trans (ht'.symm.trans ht)) (hgood.bare x hx)
    · by_cases hs : (srv.names (shadowName p.table)).isSome = true
      · exact .of_isSome (shadow_exec hours hs hd hr hq)
      · -- Without the shadow the live table has no triggers, and gets none.
        have hnone : OnTable p [] srv := fun x hx ht => absurd (h x hx ht) hs
        refine .of_none (hnone.exec hgood hours (fun e he => ?_) hq)
        exact absurd (hnew e he) hs

end DbGuard.Osc
