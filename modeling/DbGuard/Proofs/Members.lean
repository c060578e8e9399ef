import DbGuard.Proofs.Discipline
import DbGuard.Proofs.Script

/-!
# `DbGuard.Proofs.Members`: the member list

Three paths append to `ctl.members`: a tick that adopts the spare, a rejoin request, and the
replacement task. The first two look and append in one segment (`joinMember`). The
replacement appends after its last await without a look, so it doubles the spare when one of
the others was faster. `members_ok` proves that nothing else breaks the list, and
`spare_twice` runs the race.
-/

set_option autoImplicit false

namespace DbGuard

open Coop (Prog Pool Move World Contract frame)

/-- What the detector, `choose` and the HEALTHY count rely on. -/
structure Ctl.MembersOk (cfg : Config) (s : Ctl) : Prop where
  nodup : s.members.Nodup
  nodes : ∀ n ∈ cfg.nodes, n ∈ s.members
  known : ∀ n ∈ s.members, n ∈ cfg.nodes ∨ cfg.spare = some n

/-- A replacement task is about the set's spare. -/
def Job.Known (cfg : Config) : Job → Prop
  | .replace spare _ => cfg.spare = some spare
  | _ => True

/-- Everything but an append without a look. -/
def memberVocabulary (cfg : Config) : Vocabulary where
  edits
    | .addMember _ => False
    | _ => True
  awaits _ := True
  creates := Job.Known cfg
  nodeTasks _ := Job.Known cfg
  maints j _ := j.Known cfg
  joins n := n ∈ cfg.nodes ∨ cfg.spare = some n

section
variable (cfg : Config)

/-- A failover adds no member. -/
theorem failover_le_member : failoverVocabulary.Le (memberVocabulary cfg) where
  edits u h := by cases u <;> trivial
  awaits _ _ := trivial
  creates _ h := by obtain ⟨n, rfl⟩ := h; trivial
  nodeTasks _ _ h := h.elim
  maints _ _ h := h.elim
  joins _ h := h.elim

/-- No task does, beside those that the configuration knows. -/
theorem every_le_member {joins : Node → Prop}
    (hjoins : ∀ n, joins n → n ∈ cfg.nodes ∨ cfg.spare = some n) :
    (everyVocabulary cfg joins).Le (memberVocabulary cfg) where
  edits u h := by cases u <;> trivial
  awaits _ _ := trivial
  creates _ h := by obtain ⟨donor, rfl⟩ := h; trivial
  nodeTasks n j h := by
    cases j with
    | replace spare donor => cases h
    | _ => trivial
  maints j ns h := by
    obtain ⟨args, rfl, -⟩ | ⟨spare, donor, rfl, -, hspare⟩ := h
    · trivial
    · exact hspare
  joins := hjoins

end

/-! ### The contract -/

/-- The member list is right, and new replacement tasks are about the spare. -/
structure Joined (cfg : Config) (w₀ w : World sig) : Prop where
  members : w.state.MembersOk cfg
  created : ∀ i, w₀.jobs.length ≤ i → ∀ j, w.jobs[i]? = some j → j.Known cfg

/-- The replacement task finds the spare out of the list when its /repoint is answered. -/
def Req.lone (s : Ctl) (j : Job) (r : Req) : Bool :=
  match j, r with
  | .replace spare _, .repoint _ _ => spare ∉ s.members
  | _, _ => true

/-- The contract of the member list. -/
def membership (cfg : Config) : Contract sig where
  inv w := w.state.MembersOk cfg
  rely _ _ _ := True
  allowed _ _ _ := True
  answers t w r _ := ∀ j, w.jobs[t]? = some j → r.lone w.state j = true
  may _ := Joined cfg
  pre _ j _ := j.Known cfg

section
variable {cfg : Config} {t : Nat} {j : Job} {w₀ w w' : World sig} {γ : Type} {m : M γ}

/-- The changes of such a task leave the members. -/
theorem members_apply {u : Update} (hu : (memberVocabulary cfg).edits u) (s : Ctl) :
    (u.apply s).members = s.members := by
  cases u with
  | addMember n => exact hu.elim
  | goTo new note emit detect => exact members_goTo s new note emit detect
  | halt reason => exact members_goTo s .halted (some reason) true none
  | resume => exact resume_keeps (f := Ctl.members) (fun _ _ _ => rfl) s
  | _ => rfl

/-- With the same members it is as good. -/
theorem Ctl.MembersOk.of_eq {s s' : Ctl} (h : s.MembersOk cfg) (hm : s'.members = s.members) :
    s'.MembersOk cfg := ⟨hm ▸ h.nodup, hm ▸ h.nodes, hm ▸ h.known⟩

/-- A guarded append. -/
theorem Ctl.MembersOk.add {s : Ctl} {n : Node} (h : s.MembersOk cfg) (hn : n ∉ s.members)
    (hk : n ∈ cfg.nodes ∨ cfg.spare = some n) :
    (Update.apply (.addMember n) s).MembersOk cfg where
  nodup := by
    show (s.members ++ [n]).Nodup
    rw [List.nodup_append]
    refine ⟨h.nodup, List.nodup_singleton n, fun a ha b hb => ?_⟩
    rw [List.mem_singleton.mp hb]
    rintro rfl
    exact hn ha
  nodes m hm := List.mem_append_left _ (h.nodes m hm)
  known m hm := by
    rcases List.mem_append.mp hm with hm | hm
    · exact h.known m hm
    · rw [List.mem_singleton.mp hm]
      exact hk

/-- A segment so far, of a task with job `j`. -/
structure Joins (cfg : Config) (t : Nat) (j : Job) (w₀ w : World sig) : Prop
    extends Joined cfg w₀ w where
  job : w.jobs[t]? = some j

/-- A segment that has just begun. -/
theorem Joins.refl (h : w.state.MembersOk cfg) (hj : w.jobs[t]? = some j) :
    Joins cfg t j w w where
  members := h
  created _ hle _ hj' := absurd (List.getElem?_eq_some_iff.mp hj').1 (Nat.not_lt.mpr hle)
  job := hj

/-- A change that leaves the members. -/
theorem Joins.edit {u : Update} (h : Joins cfg t j w₀ w)
    (hu : (memberVocabulary cfg).edits u) : Joins cfg t j w₀ (w.edit u) :=
  ⟨⟨h.members.of_eq (members_apply hu w.state), h.created⟩, h.job⟩

/-- The append of a node that is known and not a member yet. -/
theorem Joins.add {n : Node} (h : Joins cfg t j w₀ w) (hn : n ∉ w.state.members)
    (hk : n ∈ cfg.nodes ∨ cfg.spare = some n) : Joins cfg t j w₀ (w.edit (.addMember n)) :=
  ⟨⟨h.members.add hn hk, h.created⟩, h.job⟩

/-- A record. -/
theorem Joins.record (h : Joins cfg t j w₀ w) (e : Coop.Event sig) :
    Joins cfg t j w₀ (w.record e) := ⟨⟨h.members, h.created⟩, h.job⟩

/-- A task that it creates, with a known node. -/
theorem Joins.spawn {j' : Job} (h : Joins cfg t j w₀ w) (hj : j'.Known cfg) :
    Joins cfg t j w₀ (w.spawn t j') where
  members := h.members
  created i hle j'' hj'' := by
    by_cases hlt : i < w.jobs.length
    · rw [World.spawn_jobs, List.getElem?_append_left hlt] at hj''
      exact h.created i hle j'' hj''
    · have hlt' := (List.getElem?_eq_some_iff.mp hj'').1
      have hi : i = w.jobs.length := by
        simp only [World.spawn_jobs, List.length_append, List.length_singleton] at hlt'
        omega
      subst hi
      have heq : j' = j'' := by simpa using hj''
      exact heq ▸ hj
  job := by
    rw [World.spawn_jobs, List.getElem?_append_left (List.getElem?_eq_some_iff.mp h.job).1]
    exact h.job

/-- The tasks, but for the append of a replacement. -/
theorem member_kept : (memberVocabulary cfg).Kept (base.upon (membership cfg)) t j (Joins cfg t j) :=
  have hresume : ∀ {w₀ w w' : World sig}, Joins cfg t j w₀ w →
      (base.upon (membership cfg)).inv w' → (base.upon (membership cfg)).rely t w w' →
      Joins cfg t j w' w' := fun h hi hr => Joins.refl hi.2 (hr.1.1.job h.job)
  { edit := fun h hu => h.edit hu
    await := fun {w₀ w r} h _ _ => by
      have h' := h.record (.issued t j r w.state)
      exact ⟨h'.toJoined, fun w' a hi hr' _ => (hresume h' hi hr').record _⟩
    create := fun h hj => h.spawn hj
    nodeTask := fun h hj _ => (h.spawn hj).edit trivial
    maint := fun h hj _ => (h.spawn hj).edit trivial
    join := fun h hn hout => h.add hout hn
    block := fun _ h _ => ⟨h.toJoined, fun w' hi hr _ => hresume h hi hr⟩ }

/-- A program that adds no member by itself. -/
theorem wp_member (hm : Speaks (memberVocabulary cfg) m) (h : Joins cfg t j w₀ w) :
    m.wp (base.upon (membership cfg)) t j (fun _ w₀ w => Joins cfg t j w₀ w) w₀ w :=
  member_kept.wp hm h

end

/-! ### The replacement -/

section
variable {cfg : Config} {t : Nat} {spare donor : Node} {w₀ w : World sig}

/-- After the clone, the spare is not in the list. -/
theorem wp_joinRebuilt (args : Rebuild) (body : RebuildBody) (hargs : args.node = spare)
    (h : Joins cfg t (.replace spare donor) w₀ w) :
    (joinRebuilt cfg args body).wp (base.upon (membership cfg)) t (.replace spare donor)
      (fun _ w₀ w => Joins cfg t (.replace spare donor) w₀ w ∧ spare ∉ w.state.members)
      w₀ w := by
  subst hargs
  unfold joinRebuilt
  rw [wp_look]
  refine Prog.wp_seq (wp_member (waitUsable_speaks _ _ trivial trivial _) h) fun _ w₀ w h => ?_
  rw [wp_look, wp_await]
  intro _
  have hissue := h.record (.issued t (.replace args.node donor) (.repoint args.node w.state.primary)
    w.state)
  refine ⟨hissue.toJoined, fun w' a hi hr hans => ?_⟩
  have hjob : w'.jobs[t]? = some (.replace args.node donor) := hr.1.1.job hissue.job
  -- The answer comes while the spare is out, and the rest is one segment.
  have hout : args.node ∉ w'.state.members := of_decide_eq_true (hans.2 _ hjob)
  refine ⟨?_, hout⟩
  exact ((Joins.refl hi.2 hjob).record _).edit trivial

/-- A rebuild joins its node once. -/
theorem wp_rebuildAndJoin (args : Rebuild) (hargs : args.node = spare)
    (h : Joins cfg t (.replace spare donor) w₀ w) :
    (rebuildAndJoin cfg args).wp (base.upon (membership cfg)) t (.replace spare donor)
      (fun r w₀ w => Joins cfg t (.replace spare donor) w₀ w ∧
        (r.isSome = true → spare ∉ w.state.members)) w₀ w := by
  -- Whatever is asked on the way, the members are touched only where the node joins.
  have hle := (rebuild_le_every cfg (fun _ => False) args.node args.eventType).trans
    (every_le_member cfg fun _ h => h.elim)
  unfold rebuildAndJoin
  rw [wp_edit, wp_look]
  have hquiet := (quiet_le_rebuild args.donor args.node args.eventType).trans hle
  have hjoin := (join_le_rebuild args.node args.eventType).trans hle
  refine Prog.wp_seq (wp_member ((quietDonor_speaks args _).mono hquiet) (h.edit trivial))
    fun r w₀ w h => ?_
  obtain ⟨quiet, keeper⟩ := r
  dsimp only
  -- The donor was never quiet, or the rebuild is posted.
  split
  · exact ⟨h, nofun⟩
  · refine Prog.wp_seq (wp_member (speaks_await trivial) h) fun resp w₀ w h => ?_
    cases resp with
    | error e =>
        -- The rebuild has failed: an event, the keeper is stopped, and there is no result.
        refine Prog.wp_mono (Q := fun r w₀ w =>
          r = none ∧ Joins cfg t (.replace spare donor) w₀ w) ?_ _ _ _ ?_
        · rintro r w₀ w ⟨rfl, h⟩
          exact ⟨h, nofun⟩
        · rw [wp_look]
          refine Prog.wp_seq (wp_member (speaks_event trivial) h) fun _ w₀ w h => ?_
          refine Prog.wp_seq (wp_member ((stopKeeper_speaks args keeper).mono hjoin) h)
            fun _ w₀ w h => ?_
          exact ⟨rfl, h⟩
    -- The rebuild has worked: the node joins, unless it is in already.
    | ok body =>
        refine Prog.wp_seq (wp_member ((stopKeeper_speaks args keeper).mono hjoin) h)
          fun _ w₀ w h => ?_
        refine Prog.wp_seq (wp_joinRebuilt args body hargs h) fun ev w₀ w h => ?_
        exact ⟨h.1, fun _ => h.2⟩

/-- So does a replacement. -/
theorem wp_replace (hspare : cfg.spare = some spare)
    (h : Joins cfg t (.replace spare donor) w₀ w) :
    (replace cfg spare donor).wp (base.upon (membership cfg)) t (.replace spare donor)
      (fun _ w₀ w => Joins cfg t (.replace spare donor) w₀ w) w₀ w := by
  have hgive : ∀ note w₀ w, Joins cfg t (.replace spare donor) w₀ w →
      (giveUpReplacing note).wp (base.upon (membership cfg)) t (.replace spare donor)
        (fun _ w₀ w => Joins cfg t (.replace spare donor) w₀ w) w₀ w := by
    intro note w₀ w h
    refine wp_member ?_ h
    unfold giveUpReplacing
    exact speaks_look fun s => speaks_bind (speaks_event trivial) fun _ => speaks_edit trivial
  unfold replace
  rw [wp_edit]
  refine Prog.wp_seq (wp_member (speaks_await trivial) (h.edit trivial)) fun a w₀ w h => ?_
  cases a with
  | error e => exact hgive _ _ _ h
  | ok _ =>
      dsimp only
      rw [wp_look]
      refine Prog.wp_seq (wp_member (waitUsable_speaks _ _ trivial trivial _) h)
        fun up w₀ w h => ?_
      split
      · exact hgive _ _ _ h
      · refine Prog.wp_seq (wp_rebuildAndJoin _ rfl h) fun ev w₀ w h => ?_
        cases ev with
        | none => exact h.1
        | some ev => exact h.1.add (h.2 rfl) (.inr hspare)

end

/-! ### The tasks -/

section
variable {cfg : Config} {t : Nat}

/-- A node that passes the check of `set_rejoin` is one of the nodes or the spare. -/
theorem known_of_allNodes {s : Ctl} {n : Node} (h : s.MembersOk cfg)
    (hn : n ∈ s.allNodes cfg) : n ∈ cfg.nodes ∨ cfg.spare = some n := by
  unfold Ctl.allNodes at hn
  cases hspare : cfg.spare with
  | none =>
      rw [hspare] at hn
      exact hspare ▸ h.known n hn
  | some sp =>
      rw [hspare] at hn
      dsimp only at hn
      split at hn
      · exact hspare ▸ h.known n hn
      · rcases List.mem_append.mp hn with hn | hn
        · exact hspare ▸ h.known n hn
        · exact .inr (by rw [List.mem_singleton.mp hn])

/-- So does every task. -/
theorem body_member {j : Job} {w : World sig} (hi : w.state.MembersOk cfg)
    (hjob : w.jobs[t]? = some j) (hj : j.Known cfg) :
    (body cfg t j).wp (base.upon (membership cfg)) t j
      (fun _ w₀ w => Joins cfg t j w₀ w) w w := by
  have h : Joins cfg t j w w := Joins.refl hi hjob
  cases j with
  -- A replacement ends by giving its maintenance window back.
  | replace spare donor =>
      refine Prog.wp_seq (wp_replace hj h) fun _ w₀ w h => ?_
      exact h.edit trivial
  | rejoin node =>
      unfold body setRejoin
      rw [wp_look]
      split
      · exact wp_member (speaks_await trivial) h
      -- A rejoin knows the node, and so it can only take back a node that is known.
      · rename_i hall
        have hknown := known_of_allNodes hi (not_not.mp hall)
        split
        · exact wp_member (speaks_await trivial) h
        · refine wp_member (speaks_bind ?_ fun _ => speaks_await trivial) h
          have hspeaks : Speaks (everyVocabulary cfg (· = node))
              (withLock t (rejoinLocked cfg node)) := setRejoin_speaks cfg t node rfl
          exact hspeaks.mono (every_le_member cfg fun n hn => by rw [hn]; exact hknown)
  | tick =>
      -- A tick adopts the configured spare and nobody else.
      have hle := @every_le_member cfg (fun n => cfg.spare = some n) fun _ hn => .inr hn
      refine wp_member (tick_speaks cfg t (failover_le_member cfg) ?_ ?_ ?_ ?_ ?_ ?_ ?_) h
      · exact (cold_le_every cfg _).trans hle
      · exact (tick_le_every cfg _ fun _ hn => hn).trans hle
      · exact fun p ns => hle.awaits _ trivial
      · exact fun ob keep => hle.edits _ trivial
      · exact hle.edits _ trivial
      · exact hle.edits _ trivial
      · exact hle.edits _ trivial
  | switchover | halt | resume | getPrimary | fence | rejoinNode | fenceSecondWriter
  -- The other tasks have no member to add.
  | verifyAfterRepoint | repointAfter | rebuildAndJoin | keepUnstuck =>
      refine wp_member ?_ h
      exact (body_speaks_every cfg (fun _ => False) t _ trivial).mono
        (every_le_member cfg fun _ h => h.elim)

end

/-- A condition on a step: the answer of its /repoint finds a replacement task's spare out of
the list. -/
def loneReplacement (p : Pool sig) (m : Move sig) (_ : Pool sig) : Bool :=
  match m with
  | .answer t _ =>
    match p.world.jobs[t]?, p.progs t with
    | some j, some (.await r _) => r.lone p.world.state j
    | _, _ => true
  | _ => true

/-- What arrives names known nodes only. -/
theorem known_of_environment {cfg : Config} {p : Pool sig} {j : Job}
    (h : environment p (.arrive j) = true) : j.Known cfg := by
  cases j with
  | replace spare donor => cases h
  | _ => trivial

/-- Over every run with lone replacements the members stay as they should. -/
theorem membership_sound (cfg : Config) :
    base.SoundOver (membership cfg) (body cfg)
      (fun p m p' => environment p m = true ∧ loneReplacement p m p' = true) where
  rely_refl _ _ := trivial
  rely_trans _ _ _ _ _ _ := trivial
  rely_of_may _ _ _ _ _ _ _ _ _ := trivial
  rely_arrive _ _ _ _ _ _ := trivial
  rely_outside _ _ _ _ _ _ := trivial
  rely_land _ _ _ _ _ _ _ := trivial
  rely_resend _ _ _ _ _ _ _ := trivial
  inv_may _ _ _ _ _ _ h := h.members
  inv_arrive _ _ _ _ hi := hi
  inv_outside p u p' ho hi := by
    obtain ⟨time, mono, rfl⟩ := clock_of_environment ho.1
    exact hi.of_eq rfl
  inv_land _ _ _ _ _ hi := hi
  inv_resend _ _ _ _ _ hi := hi
  pre_rely _ _ _ _ hp _ _ := hp
  pre_may t w₀ w t' j _ _ _ h hle hj := h.created t' hle j hj
  pre_arrive _ _ _ ho _ := known_of_environment ho.1
  allowed_start _ _ _ _ := trivial
  allowed_answer _ _ _ _ _ := trivial
  allowed_wake _ _ _ _ := trivial
  answers_ok p t f p' r k ho hp j hj := by
    have h := ho.2
    simp only [loneReplacement, hj, hp] at h
    exact h
  body_wp t j w _ hi hj _ hp :=
    Prog.wp_mono (fun _ _ _ h _ => ⟨h.members.of_eq rfl, h.created⟩) _ _ _
      (body_member hi hj hp)

/-- At the start they are. -/
theorem membersOk_init (cfg : Config) : (Ctl.init cfg).MembersOk cfg :=
  ⟨cfg.nodes_nodup, fun _ h => h, fun _ h => .inl h⟩

/-- In every run in which each replacement task finds the spare out of the list when its
/repoint is answered, the member list is right in every state reached. -/
theorem members_ok (cfg : Config) (p : Pool sig)
    (h : Runs cfg (fun p m p' => loneReplacement p m p' = true) p) :
    p.world.state.MembersOk cfg :=
  (holds_of_runs (membership_sound cfg) (membersOk_init cfg) h).inv.2

/-- `c` is lost and `d` runs as a replica of `a`. -/
def replaced : Node → Except String StatusBody := fun n =>
  if n = "a" then primaryStatus 5
  else if n = "b" ∨ n = "d" then replicaStatus "a" 5 5
  else down

/-- `c` is lost for more than a minute, and the replacement task provisions `d`, clones it
and posts its /repoint. -/
def replacing : List (Move sig) :=
  let lost := fun n => if n = "d" then down else replaced n
  discovery lost ++
  [.arrive .tick, .start 1, .answer 1 (succeed true lost), .outside (.clock 70000 70000),
   .arrive .tick, .start 2, .answer 2 (succeed true lost), .start 3,
   .answer 3 (succeed true replaced), .answer 3 (succeed true replaced),
   .answer 3 (succeed true replaced), .answer 3 (succeed true replaced)]

/-- The replacement alone keeps the list right. -/
theorem members_ok_replaced : ∃ p,
    Runs fleet (fun p m p' => loneReplacement p m p' = true) p ∧
      p.world.state.members = ["a", "b", "c", "d"] ∧ p.world.state.MembersOk fleet := by
  have h : (play fleet loneReplacement
      (replacing ++ [.answer 3 (succeed true replaced)])).map (·.world.state.members) =
        some ["a", "b", "c", "d"] := by decide +kernel
  obtain ⟨p, hp, hm⟩ := Option.map_eq_some_iff.mp h
  have hr := runs_of_play (fun _ _ _ h => h) hp
  exact ⟨p, hr, hm, members_ok fleet p hr⟩

/-- A tick adopts the spare while the /repoint of the replacement task is out. -/
theorem spare_twice : ∃ p, Runs fleet (fun _ _ _ => True) p ∧
    ¬p.world.state.MembersOk fleet := by
  have h : (play fleet (fun _ _ _ => true)
      (replacing ++ [.land 3 (.repoint "d" (some "a")), .arrive .tick, .start 4,
        .answer 4 (succeed true replaced), .answer 3 (succeed true replaced)])).map
          (·.world.state.members) = some ["a", "b", "c", "d", "d"] := by decide +kernel
  obtain ⟨p, hp, hm⟩ := Option.map_eq_some_iff.mp h
  refine ⟨p, runs_of_script hp, fun hok => ?_⟩
  have hnd := hok.nodup
  rw [hm] at hnd
  exact absurd hnd (by decide)

end DbGuard
