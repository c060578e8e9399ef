import DbGuard.Machine
import DbGuard.Agent.SelfFence

/-!
# `DbGuard.Proofs.Agent.SelfFence`: when the lease has run out

The lease keeps one time, since when it counts. `countedSince` reads the same time off the log
of all ticks: the answer of the first tick of the last row of ticks that count. `Faithful` says
that the two agree in every state, and `fences_iff` puts the decision of a tick in terms of the
log.

A tick counts if it was enabled, neither fenced nor rebuilding, and without a manager, and
mysqld did not tell it that it is read-only or has semi-sync clients. Beside the other ticks, a
toggle of the lease ends a row, and so does a self-fence that has been carried out.
-/

set_option autoImplicit false

namespace DbGuard

open Machine (Reach Free)

namespace Lease

/-- A tick in the lease's favour. -/
def Seen.counts (t : Seen) : Bool :=
  t.enabled && !t.fenced && !t.rebuilding && t.reachable == some false && t.sro != some true &&
    !(t.sro.isSome && t.clients.any (0 < ·))

/-- The entry is a tick that counts. -/
def Entry.counts (e : Entry) : Bool :=
  match e.event with
  | .tick seen => seen.counts
  | .toggle | .fenced => false

/-- When the first of the last row of entries that count was made. -/
def countedSince : List Entry → Option Time
  | [] => none
  | e :: log => if e.counts then some ((countedSince log).getD e.at_) else none

/-- The entries at the head of the log are ticks that count, and the first of them is at least
`after` ago. -/
def Lasted (after now : Time) (log : List Entry) : Prop :=
  ∃ row first, row <+: log ∧ row.getLast? = some first ∧ (∀ e ∈ row, e.counts = true) ∧
    first.at_ + after ≤ now

/-- The step ends a tick's questions. This tick read super_read_only=0 and no semi-sync client,
and the row of ticks that count ends with it and has lasted. -/
def Due (c : LeaseSettings) (s s' : Lease) : Prop :=
  (∃ at_ seen, s'.log = ⟨at_, .tick seen⟩ :: s.log ∧ seen.sro = some false ∧
    seen.clients = some 0) ∧ Lasted c.selfFenceAfterS s'.now s'.log

/-- The step calls fence() for the lease. -/
def Calls (s s' : Lease) : Prop := s.phase.fences = false ∧ s'.phase.fences = true

instance (s s' : Lease) : Decidable (Calls s s') := instDecidableAnd

/-! ### The row in the log -/

/-- The count goes back over a row of entries that count, to its first one. -/
theorem counted_row {log : List Entry} {t : Time} (h : countedSince log = some t) :
    ∃ row first, row <+: log ∧ row.getLast? = some first ∧ (∀ e ∈ row, e.counts = true) ∧
      first.at_ = t := by
  induction log with
  | nil => cases h
  | cons e log ih =>
      rw [countedSince] at h
      split at h
      · rename_i hcounts
        cases hlog : countedSince log with
        | none =>
            rw [hlog] at h
            refine ⟨[e], e, ⟨log, rfl⟩, rfl, ?_, Option.some.inj h⟩
            simpa using hcounts
        | some t' =>
            rw [hlog] at h
            obtain rfl : t' = t := Option.some.inj h
            obtain ⟨row, first, hpre, hlast, hrow, hfirst⟩ := ih hlog
            refine ⟨e :: row, first, List.prefix_cons_inj e |>.mpr hpre, ?_, ?_, hfirst⟩
            · rw [List.getLast?_cons, hlast]
              rfl
            · intro a ha
              rcases List.mem_cons.mp ha with rfl | ha
              · exact hcounts
              · exact hrow a ha
      · cases h

/-- No row of ticks that count starts before the one that the lease counts from. -/
theorem counted_of_row {log row : List Entry} {first : Entry}
    (hsorted : log.Pairwise fun a b => b.at_ ≤ a.at_) (hpre : row <+: log)
    (hlast : row.getLast? = some first) (hrow : ∀ e ∈ row, e.counts = true) :
    ∃ t, countedSince log = some t ∧ t ≤ first.at_ := by
  -- By induction on the row, which is a prefix of the log, newest first.
  induction row generalizing log with
  | nil => cases hlast
  | cons e row ih =>
      obtain ⟨rest, rfl⟩ := hpre
      rw [List.cons_append] at hsorted ⊢
      have hcounts : e.counts = true := hrow e List.mem_cons_self
      -- The newest entry counts, so the time since which they count is that of the rest.
      have hsince : countedSince (e :: (row ++ rest)) =
          some ((countedSince (row ++ rest)).getD e.at_) := by
        rw [countedSince, if_pos hcounts]
      cases hrest : row.getLast? with
      -- The row has one entry, and what the log holds behind it is older.
      | none =>
          obtain rfl := List.getLast?_eq_none_iff.mp hrest
          obtain rfl : e = first := Option.some.inj hlast
          refine ⟨_, hsince, ?_⟩
          cases hlog : countedSince ([] ++ rest) with
          | none => exact le_refl _
          | some t =>
              obtain ⟨older, oldest, hpre, hold, -, hat⟩ := counted_row hlog
              have hmem : oldest ∈ [] ++ rest := hpre.mem (List.mem_of_getLast? hold)
              have hle : oldest.at_ ≤ e.at_ := (List.pairwise_cons.mp hsorted).1 oldest hmem
              exact hat ▸ hle
      -- The oldest entry of the row is in the rest of it.
      | some last =>
          have heq : last = first := by
            rw [List.getLast?_cons, hrest] at hlast
            exact Option.some.inj hlast
          obtain ⟨t, ht, hle⟩ := ih (List.pairwise_cons.mp hsorted).2 ⟨rest, rfl⟩
            (hrest.trans (congrArg some heq)) fun a ha => hrow a (List.mem_cons_of_mem e ha)
          exact ⟨t, by rw [hsince, ht]; rfl, hle⟩

/-- What the lease compares is what the log says. -/
theorem lasted_iff {log : List Entry} (hsorted : log.Pairwise fun a b => b.at_ ≤ a.at_)
    (after now : Time) :
    Lasted after now log ↔ ∃ t, countedSince log = some t ∧ t + after ≤ now := by
  constructor
  · rintro ⟨row, first, hpre, hlast, hrow, hafter⟩
    obtain ⟨t, ht, hle⟩ := counted_of_row hsorted hpre hlast hrow
    exact ⟨t, ht, le_trans (Int.add_le_add_right hle after) hafter⟩
  · rintro ⟨t, ht, hafter⟩
    obtain ⟨row, first, hpre, hlast, hrow, rfl⟩ := counted_row ht
    exact ⟨row, first, hpre, hlast, hrow, hafter⟩

/-! ### The lease keeps it -/

/-- What a tick has read when it asks: the count can go on. -/
def Seen.Fit (t : Seen) : Prop :=
  t.enabled = true ∧ t.fenced = false ∧ t.rebuilding = false ∧ t.sro ≠ some true

/-- The time that the lease keeps is the one in the log. -/
structure Faithful (s : Lease) : Prop where
  since : s.mgrUnreachableSince = countedSince s.log
  sorted : s.log.Pairwise fun a b => b.at_ ≤ a.at_
  past : ∀ e ∈ s.log, e.at_ ≤ s.now
  reading : ∀ seen, s.phase = .reading seen → seen.Fit
  asking : ∀ seen, s.phase = .asking seen → seen.Fit

section
variable {c : LeaseSettings} {s s' : Lease} {seen : Seen}

/-- The lease at its start. -/
theorem faithful_start (semisync fenced : Bool) (t : Time) :
    (start semisync fenced t).Faithful where
  since := rfl
  sorted := List.Pairwise.nil
  past := by simp [start]
  reading := by simp [start]
  asking := by simp [start]

/-- Time passes. -/
theorem Faithful.enter (h : s.Faithful) {t : Time} (ht : s.now ≤ t) :
    ({ s with now := t } : Lease).Faithful :=
  { h with past := fun e he => le_trans (h.past e he) ht }

/-- A step that leaves the count and the log alone. -/
theorem Faithful.keep (h : s.Faithful) (hsince : s'.mgrUnreachableSince = s.mgrUnreachableSince)
    (hlog : s'.log = s.log) (hnow : s'.now = s.now)
    (hreading : ∀ seen, s'.phase = .reading seen → seen.Fit)
    (hasking : ∀ seen, s'.phase = .asking seen → seen.Fit) : s'.Faithful where
  since := by rw [hsince, hlog]; exact h.since
  sorted := by rw [hlog]; exact h.sorted
  past := by rw [hlog, hnow]; exact h.past
  reading := hreading
  asking := hasking

/-- A step that notes something, with the count as the log then has it. -/
theorem Faithful.noted (h : s.Faithful) {event : Event}
    (hlog : s'.log = ⟨s.now, event⟩ :: s.log)
    (hsince : s'.mgrUnreachableSince = countedSince (⟨s.now, event⟩ :: s.log))
    (hnow : s.now ≤ s'.now) (hreading : ∀ seen, s'.phase = .reading seen → seen.Fit)
    (hasking : ∀ seen, s'.phase = .asking seen → seen.Fit) : s'.Faithful where
  since := by rw [hsince, hlog]
  sorted := by
    rw [hlog]
    exact List.pairwise_cons.mpr ⟨fun e he => h.past e he, h.sorted⟩
  past := by
    rw [hlog]
    intro e he
    rcases List.mem_cons.mp he with rfl | he
    · exact hnow
    · exact le_trans (h.past e he) hnow
  reading := hreading
  asking := hasking

/-- An entry that does not count ends the count. -/
theorem countedSince_reset {at_ : Time} {event : Event} (log : List Entry)
    (h : Entry.counts ⟨at_, event⟩ = false) : countedSince (⟨at_, event⟩ :: log) = none := by
  rw [countedSince, h]
  rfl

/-- One that counts goes on with it, or begins it. -/
theorem countedSince_count {at_ : Time} {event : Event} (log : List Entry)
    (h : Entry.counts ⟨at_, event⟩ = true) :
    countedSince (⟨at_, event⟩ :: log) = some ((countedSince log).getD at_) := by
  rw [countedSince, h]
  rfl

/-- A tick that does not count resets. -/
theorem Faithful.endReset (h : s.Faithful) (hcounts : seen.counts = false) :
    (s.endReset seen).Faithful := by
  refine h.noted rfl ?_ (le_refl _) (fun _ hphase => ?_) fun _ hphase => ?_
  · rw [countedSince_reset s.log (by exact hcounts)]
    rfl
  · cases hphase
  · cases hphase

/-- A tick that counts keeps the count, or starts it. -/
theorem Faithful.endTick (h : s.Faithful) (hcounts : seen.counts = true) :
    (s.count.endTick seen).Faithful := by
  refine h.noted rfl ?_ (le_refl _) (fun _ hphase => ?_) fun _ hphase => ?_
  · rw [countedSince_count s.log (by exact hcounts), ← h.since]
    rfl
  · cases hphase
  · cases hphase

/-- The call of fence() leaves the count. -/
theorem Faithful.callFence (h : s.Faithful) (stored : Bool) : (s.callFence stored).Faithful := by
  rw [Lease.callFence]
  split
  · exact h.keep rfl rfl rfl (fun _ hphase => by cases hphase) fun _ hphase => by cases hphase
  · exact h.keep rfl rfl rfl (fun _ hphase => by cases hphase) fun _ hphase => by cases hphase

/-- The first step of a tick ends it with a reset, or it goes on with what fits. -/
theorem tickStart_cases (c : LeaseSettings) (s : Lease) :
    (∃ seen : Seen, seen.counts = false ∧ s.tickStart c = s.endReset seen) ∨
      ∃ seen : Seen, seen.Fit ∧ s.tickStart c = { s with phase := .reading seen } := by
  rw [tickStart]
  dsimp only
  split
  · rename_i henabled
    rw [Bool.not_eq_true'] at henabled
    exact .inl ⟨_, by simp [Seen.counts, henabled], rfl⟩
  · split
    · rename_i hbusy
      refine .inl ⟨_, ?_, rfl⟩
      rcases (Bool.or_eq_true _ _).mp hbusy with hfenced | hrebuilding
      · simp [Seen.counts, hfenced]
      · simp [Seen.counts, hrebuilding]
    · rename_i henabled hbusy
      rw [Bool.not_eq_true, Bool.or_eq_false_iff] at hbusy
      exact .inr ⟨_, ⟨by simpa using henabled, hbusy.1, hbusy.2, by simp⟩, rfl⟩

/-- super_read_only=1 ends a tick with a reset. -/
theorem tickRead_cases (hseen : seen.Fit) (answer : Option (Option Bool × Option Nat)) :
    let s₁ := { s with sfClients := answer.bind Prod.snd }
    (∃ seen' : Seen, seen'.counts = false ∧ s.tickRead seen answer = s₁.endReset seen') ∨
      ∃ seen' : Seen, seen'.Fit ∧ s.tickRead seen answer = { s₁ with phase := .asking seen' } := by
  rw [tickRead]
  dsimp only
  split
  · rename_i hro
    exact .inl ⟨_, by simp [Seen.counts, hro], rfl⟩
  · rename_i hro
    have hfit : Seen.Fit { seen with
        sro := answer.bind Prod.fst, clients := answer.bind Prod.snd } :=
      ⟨hseen.1, hseen.2.1, hseen.2.2.1, hro⟩
    exact .inr ⟨_, hfit, rfl⟩

/-- So does the start of a tick. -/
theorem Faithful.tickStart (h : s.Faithful) : (s.tickStart c).Faithful := by
  rcases tickStart_cases c s with ⟨seen, hcounts, heq⟩ | ⟨seen, hfit, heq⟩
  · rw [heq]
    exact h.endReset hcounts
  · rw [heq]
    refine h.keep rfl rfl rfl (fun _ hphase => ?_) fun _ hphase => ?_
    · obtain rfl := Phase.reading.inj hphase
      exact hfit
    · cases hphase

/-- A tick that reads what fits may count later. -/
theorem Faithful.tickRead (h : s.Faithful) (hseen : seen.Fit)
    (answer : Option (Option Bool × Option Nat)) : (s.tickRead seen answer).Faithful := by
  have hsame : ({ s with sfClients := answer.bind Prod.snd } : Lease).Faithful :=
    h.keep rfl rfl rfl h.reading h.asking
  rcases tickRead_cases (s := s) hseen answer with ⟨seen', hcounts, heq⟩ | ⟨seen', hfit, heq⟩
  · rw [heq]
    exact hsame.endReset hcounts
  · rw [heq]
    refine hsame.keep rfl rfl rfl (fun _ hphase => ?_) fun _ hphase => ?_
    · cases hphase
    · obtain rfl := Phase.asking.inj hphase
      exact hfit

/-- Without a manager a tick counts unless mysqld has told it of semi-sync clients. -/
theorem counts_of_fit (hseen : seen.Fit) :
    ({ seen with reachable := some false } : Seen).counts =
      !(seen.sro.isSome && seen.clients.any (0 < ·)) := by
  obtain ⟨henabled, hfenced, hrebuilding, hsro⟩ := hseen
  have hne : (seen.sro != some true) = true := by simpa using hsro
  simp [Seen.counts, henabled, hfenced, hrebuilding, hne]

/-- A tick that has counted itself, when it decides. -/
def atDecision (s : Lease) (seen : Seen) (decided : Time) : Lease :=
  { s.count.endTick { seen with reachable := some false } with now := decided }

/-- What a tick does without a manager. -/
theorem tickAnswer_cases (hseen : seen.Fit) (decided : Time) (stored : Bool) :
    let t : Seen := { seen with reachable := some false }
    (t.counts = false ∧ s.tickAnswer c seen .failed decided stored = s.endReset t) ∨
    (t.counts = true ∧ ¬ (seen.sro = some false ∧ seen.clients = some 0) ∧
      s.tickAnswer c seen .failed decided stored = s.count.endTick t) ∨
    (t.counts = true ∧ (seen.sro = some false ∧ seen.clients = some 0) ∧
      s.tickAnswer c seen .failed decided stored =
        if (s.atDecision seen decided).managerUnreachableS < c.selfFenceAfterS then
          s.atDecision seen decided
        else (s.atDecision seen decided).callFence stored) := by
  have hcounts := counts_of_fit hseen
  -- The cases are those of what was read: nothing, no count of clients, or both.
  obtain ⟨enabled, fenced, rebuilding, sro, clients, reachable⟩ := seen
  cases sro with
  | none =>
      refine .inr (.inl ⟨hcounts, ?_, rfl⟩)
      simp
  | some ro =>
      cases clients with
      | none =>
          refine .inr (.inl ⟨?_, ?_, rfl⟩)
          · rw [hcounts]
            simp
          · simp
      | some k =>
          obtain rfl : ro = false := by
            have hro := hseen.2.2.2
            simpa using hro
          -- A client is there: the count is reset.
          by_cases hk : 0 < k
          · refine .inl ⟨?_, ?_⟩
            · rw [hcounts]
              simpa using hk
            · exact if_pos hk
          -- Nobody is there: the tick decides.
          · refine .inr (.inr ⟨?_, ⟨rfl, ?_⟩, ?_⟩)
            · rw [hcounts]
              simpa using hk
            · rw [Nat.eq_zero_of_not_pos hk]
            · exact if_neg hk

/-- The manager's answer resets. -/
theorem tickAnswer_of_answers {reply : ManagerReply} (h : answers reply = true) (decided : Time)
    (stored : Bool) : s.tickAnswer c seen reply decided stored =
      s.endReset { seen with reachable := some true } := by
  simp [tickAnswer, h]

/-- Every answer but a failure answers. -/
theorem eq_failed {reply : ManagerReply} (h : answers reply = false) : reply = .failed := by
  cases reply with
  | failed => rfl
  | managerUnknown => cases h
  | body primary => cases h

/-- The end of a tick counts it, or resets the count. -/
theorem Faithful.tickAnswer (h : s.Faithful) (hseen : seen.Fit) (reply : ManagerReply)
    {decided : Time} (hdecided : s.now ≤ decided) (stored : Bool) :
    (s.tickAnswer c seen reply decided stored).Faithful := by
  cases hreply : answers reply with
  | true =>
      rw [tickAnswer_of_answers hreply]
      refine h.endReset ?_
      simp [Seen.counts]
  | false =>
      rw [eq_failed hreply]
      rcases tickAnswer_cases (c := c) (s := s) hseen decided stored with
        ⟨hcounts, heq⟩ | ⟨hcounts, -, heq⟩ | ⟨hcounts, -, heq⟩
      · rw [heq]
        exact h.endReset hcounts
      · rw [heq]
        exact h.endTick hcounts
      · have htick : (s.atDecision seen decided).Faithful := (h.endTick hcounts).enter hdecided
        rw [heq]
        split
        · exact htick
        · exact htick.callFence stored

/-- A configure keeps the count, or resets it. -/
theorem Faithful.configure (h : s.Faithful) (semisync selfFence : Option Bool) :
    (s.configure semisync selfFence).Faithful := by
  cases selfFence with
  | none => exact h.keep rfl rfl rfl h.reading h.asking
  | some b =>
      refine h.noted rfl ?_ (le_refl _) h.reading h.asking
      rw [countedSince_reset s.log rfl]
      rfl

/-- So the kept time is the one in the log after every step. -/
theorem Faithful.act (h : s.Faithful) {a : Act} (hact : s.act c a = some s') : s'.Faithful := by
  cases a with
  -- Each act notes at most one entry, and the lease keeps the time of the first that counts.
  | tick =>
      obtain ⟨-, ⟨⟩⟩ := Option.ite_none_right_eq_some.mp hact
      exact h.tickStart
  | read answer =>
      simp only [Lease.act] at hact
      split at hact
      · rename_i seen hphase
        obtain rfl := Option.some.inj hact
        exact h.tickRead (h.reading seen hphase) answer
      · cases hact
  | answer reply decided stored =>
      simp only [Lease.act] at hact
      split at hact
      · rename_i seen hphase
        obtain ⟨hdecided, ⟨⟩⟩ := Option.ite_none_right_eq_some.mp hact
        exact h.tickAnswer (h.asking seen hphase) reply hdecided stored
      · cases hact
  | lock stored =>
      obtain ⟨-, ⟨⟩⟩ := Option.ite_none_right_eq_some.mp hact
      exact h.callFence stored
  -- The fence's entry does not count, so the count ends with it.
  | fenceReturned =>
      obtain ⟨-, ⟨⟩⟩ := Option.ite_none_right_eq_some.mp hact
      refine h.noted rfl ?_ (le_refl _) (fun _ hphase => ?_) fun _ hphase => ?_
      · rw [countedSince_reset s.log rfl]
        rfl
      · cases hphase
      · cases hphase
  | fenceRaised =>
      simp only [Lease.act] at hact
      split at hact
      · obtain rfl := Option.some.inj hact
        exact h.keep rfl rfl rfl (fun _ hphase => by cases hphase) fun _ hphase => by cases hphase
      · cases hact
  -- The configuration may reset the count.
  | configure semisync selfFence =>
      obtain rfl := Option.some.inj hact
      exact h.configure semisync selfFence
  | rebuilding b =>
      obtain rfl := Option.some.inj hact
      exact h.keep rfl rfl rfl h.reading h.asking
  -- The lock and the flag are not the lease's.
  | fenceLock held =>
      obtain ⟨-, ⟨⟩⟩ := Option.ite_none_left_eq_some.mp hact
      exact h.keep rfl rfl rfl h.reading h.asking
  | flag fenced =>
      obtain ⟨-, ⟨⟩⟩ := Option.ite_none_left_eq_some.mp hact
      exact h.keep rfl rfl rfl h.reading h.asking

/-- The time that the lease keeps is the one in the log, in every state. -/
theorem faithful_of_reach {semisync fenced : Bool} {t : Time}
    (h : Reach (step c) Free (start semisync fenced t) s) : s.Faithful := by
  refine h.invariant (faithful_start semisync fenced t) fun s m s' _ hs _ hm => ?_
  rw [step] at hm
  obtain ⟨hclock, hact⟩ := Option.ite_none_left_eq_some.mp hm
  exact (hs.enter (not_lt.mp hclock)).act hact

/-! ### The decision -/

/-- A step that does not decide: it notes nothing, or something that does not count. -/
structure Quiet (s s' : Lease) : Prop where
  phase : s'.phase.fences = true → s.phase.fences = true
  log : s'.log = s.log ∨ ∃ e : Entry, s'.log = e :: s.log ∧ e.counts = false

/-- Such a step does not fence, and its log does not say that it is due. -/
theorem Quiet.calls_iff (h : Quiet s s') : Calls s s' ↔ Due c s s' := by
  constructor
  · intro hcalls
    have hfences := h.phase hcalls.2
    rw [hcalls.1] at hfences
    cases hfences
  · rintro ⟨⟨at_, seen, hlog, -⟩, row, first, hpre, hlast, hrow, -⟩
    exfalso
    rcases h.log with hsame | ⟨e, hnoted, hcounts⟩
    · rw [hsame] at hlog
      have hlen := congrArg List.length hlog
      simp at hlen
    · rw [hnoted] at hpre
      cases row with
      | nil => cases hlast
      | cons a row =>
          obtain ⟨rfl, -⟩ := List.cons_prefix_cons.mp hpre
          have hcount := hrow a List.mem_cons_self
          rw [hcounts] at hcount
          cases hcount

/-- A reset counts nothing. -/
theorem quiet_endReset (hcounts : seen.counts = false) : Quiet s (s.endReset seen) where
  phase h := by cases h
  log := .inr ⟨_, rfl, hcounts⟩

/-- The start of a tick decides nothing. -/
theorem quiet_tickStart : Quiet s (s.tickStart c) := by
  rcases tickStart_cases c s with ⟨seen, hcounts, heq⟩ | ⟨seen, -, heq⟩
  · rw [heq]
    exact quiet_endReset hcounts
  · rw [heq]
    exact ⟨(fun h => by cases h), .inl rfl⟩

/-- Nor does what it reads. -/
theorem quiet_tickRead (hseen : seen.Fit) (answer : Option (Option Bool × Option Nat)) :
    Quiet s (s.tickRead seen answer) := by
  rcases tickRead_cases (s := s) hseen answer with ⟨seen', hcounts, heq⟩ | ⟨seen', -, heq⟩
  · rw [heq]
    exact ⟨(fun h => by cases h), .inr ⟨_, rfl, hcounts⟩⟩
  · rw [heq]
    exact ⟨(fun h => by cases h), .inl rfl⟩

/-- Nor does a configure. -/
theorem quiet_configure (semisync selfFence : Option Bool) :
    Quiet s (s.configure semisync selfFence) := by
  cases selfFence with
  | none => exact ⟨id, .inl rfl⟩
  | some b => exact ⟨id, .inr ⟨_, rfl, rfl⟩⟩

/-- After the call the lease is at the fence. -/
theorem fences_callFence (stored : Bool) : (s.callFence stored).phase.fences = true := by
  rw [callFence]
  split
  · rfl
  · rfl

/-- The call leaves the log. -/
theorem log_callFence (stored : Bool) : (s.callFence stored).log = s.log := by
  rw [callFence]
  split
  · rfl
  · rfl

/-- It takes no time. -/
theorem now_callFence (stored : Bool) : (s.callFence stored).now = s.now := by
  rw [callFence]
  split
  · rfl
  · rfl

/-- The tick that asked in vain fences exactly if it is due. -/
theorem calls_tickAnswer_iff (h : s.Faithful) (hphase : s.phase = .asking seen)
    (reply : ManagerReply) {decided : Time} (stored : Bool) :
    Calls s (s.tickAnswer c seen reply decided stored) ↔
      Due c s (s.tickAnswer c seen reply decided stored) := by
  have hseen := h.asking seen hphase
  cases hreply : answers reply with
  -- The manager has answered, so the count is reset and nothing is due.
  | true =>
      rw [tickAnswer_of_answers hreply]
      exact (quiet_endReset (by simp [Seen.counts])).calls_iff
  | false =>
      rw [eq_failed hreply]
      rcases tickAnswer_cases (c := c) (s := s) hseen decided stored with
        ⟨hcounts, heq⟩ | ⟨hcounts, hunknown, heq⟩ | ⟨hcounts, hread, heq⟩
      · rw [heq]
        exact (quiet_endReset hcounts).calls_iff
      · -- without facts the count goes on and nothing is decided
        rw [heq]
        constructor
        · rintro ⟨-, hfences⟩
          cases hfences
        · rintro ⟨⟨at_, seen', hlog, hread⟩, -⟩
          obtain ⟨hhead, -⟩ := List.cons.inj hlog
          obtain rfl := Event.tick.inj (congrArg Entry.event hhead)
          exact absurd hread hunknown
      · have htick := h.endTick hcounts
        have hnot : s.phase.fences = false := by rw [hphase]; rfl
        -- The time that the lease has waited is that since the first tick of the row.
        have hdue : ∀ t : Lease, t.log = (s.atDecision seen decided).log → t.now = decided →
            (Due c s t ↔ c.selfFenceAfterS ≤ decided - s.mgrUnreachableSince.getD s.now) := by
          intro t hlog hnow
          have hsince : countedSince (s.atDecision seen decided).log =
              some (s.mgrUnreachableSince.getD s.now) := htick.since.symm
          have hsorted : (s.atDecision seen decided).log.Pairwise fun a b => b.at_ ≤ a.at_ :=
            htick.sorted
          rw [Due, hnow, hlog, lasted_iff hsorted, hsince]
          constructor
          · rintro ⟨-, since, hsome, hle⟩
            obtain rfl := Option.some.inj hsome
            exact le_sub_iff_add_le'.mpr hle
          · intro hle
            exact ⟨⟨s.now, _, rfl, hread⟩, _, rfl, le_sub_iff_add_le'.mp hle⟩
        have hage : (s.atDecision seen decided).managerUnreachableS =
            decided - s.mgrUnreachableSince.getD s.now := rfl
        rw [heq, hage]
        split
        · rename_i hearly
          rw [hdue _ rfl rfl]
          constructor
          · rintro ⟨-, hfences⟩
            cases hfences
          · intro hle
            exact absurd hearly (not_lt.mpr hle)
        · rename_i hlate
          rw [hdue _ (log_callFence stored) (now_callFence stored)]
          exact ⟨fun _ => not_lt.mp hlate, fun _ => ⟨hnot, fences_callFence stored⟩⟩

/-- Nobody else is in fence(): the flag is set in the step of the call. -/
theorem fenced_of_calls_tickAnswer (h : s.Faithful) (hphase : s.phase = .asking seen)
    (reply : ManagerReply) (decided : Time) (hfree : s.fenceHeld = false)
    (hcalls : Calls s (s.tickAnswer c seen reply decided true)) :
    (s.tickAnswer c seen reply decided true).fenced = true := by
  have hfences := hcalls.2
  cases hreply : answers reply with
  | true =>
      rw [tickAnswer_of_answers hreply] at hfences
      cases hfences
  | false =>
      rw [eq_failed hreply] at hfences ⊢
      rcases tickAnswer_cases (c := c) (s := s) (h.asking seen hphase) decided true with
        ⟨-, heq⟩ | ⟨-, -, heq⟩ | ⟨-, -, heq⟩
      · rw [heq] at hfences
        cases hfences
      · rw [heq] at hfences
        cases hfences
      · rw [heq] at hfences ⊢
        split at hfences
        · cases hfences
        · rename_i hlate
          have hheld : (s.atDecision seen decided).fenceHeld = false := hfree
          rw [if_neg hlate, callFence, hheld]
          exact Bool.or_true _

/-- Only the step after the question to the manager can decide. -/
theorem Faithful.quiet_or_answer (h : s.Faithful) {a : Act} (hact : s.act c a = some s') :
    Quiet s s' ∨ ∃ seen reply decided stored, a = .answer reply decided stored ∧
      s.phase = .asking seen ∧ s' = s.tickAnswer c seen reply decided stored := by
  -- Only the answer of the witness can decide; every other act leaves the decision open.
  cases a with
  | tick =>
      obtain ⟨-, ⟨⟩⟩ := Option.ite_none_right_eq_some.mp hact
      exact .inl quiet_tickStart
  | read answer =>
      simp only [Lease.act] at hact
      split at hact
      -- Reading the status under a live lease starts no fence.
      · rename_i seen hphase
        obtain rfl := Option.some.inj hact
        exact .inl (quiet_tickRead (h.reading seen hphase) answer)
      · cases hact
  | answer reply decided stored =>
      simp only [Lease.act] at hact
      split at hact
      · rename_i seen hphase
        obtain ⟨-, ⟨⟩⟩ := Option.ite_none_right_eq_some.mp hact
        exact .inr ⟨seen, reply, decided, stored, rfl, hphase, rfl⟩
      · cases hact
  -- The fence was decided before this act, which waits for its lock.
  | lock stored =>
      obtain ⟨⟨hphase, -⟩, ⟨⟩⟩ := Option.ite_none_right_eq_some.mp hact
      exact .inl ⟨fun _ => by rw [hphase]; rfl, .inl (log_callFence stored)⟩
  | fenceReturned =>
      obtain ⟨-, ⟨⟩⟩ := Option.ite_none_right_eq_some.mp hact
      exact .inl ⟨(fun hfences => by cases hfences), .inr ⟨_, rfl, rfl⟩⟩
  | fenceRaised =>
      simp only [Lease.act] at hact
      split at hact
      · obtain rfl := Option.some.inj hact
        exact .inl ⟨(fun hfences => by cases hfences), .inl rfl⟩
      · cases hact
  -- A configuration from the manager resets the clock and decides nothing.
  | configure semisync selfFence =>
      obtain rfl := Option.some.inj hact
      exact .inl (quiet_configure semisync selfFence)
  | rebuilding b =>
      obtain rfl := Option.some.inj hact
      exact .inl ⟨id, .inl rfl⟩
  | fenceLock held =>
      obtain ⟨-, ⟨⟩⟩ := Option.ite_none_left_eq_some.mp hact
      exact .inl ⟨id, .inl rfl⟩
  | flag fenced =>
      obtain ⟨-, ⟨⟩⟩ := Option.ite_none_left_eq_some.mp hact
      exact .inl ⟨id, .inl rfl⟩

end

/-- The fence file can be written when the tick wants to. -/
def Act.stores : Act → Bool
  | .answer _ _ stored => stored
  | _ => true

/-- A step calls fence() for the lease if and only if it ends a tick whose row of ticks has
lasted. If nobody else is in fence(), and the fence file can be written, the node is then
fenced. -/
theorem fences_iff {c : LeaseSettings} {semisync fenced : Bool} {t : Time} {s s' : Lease}
    {m : Move} (h : Reach (step c) Free (start semisync fenced t) s)
    (hstep : step c s m = some s') :
    (Calls s s' ↔ Due c s s') ∧
      (Calls s s' → s.fenceHeld = false → m.act.stores = true → s'.fenced = true) := by
  have hfaithful := faithful_of_reach h
  rw [step] at hstep
  obtain ⟨hclock, hact⟩ := Option.ite_none_left_eq_some.mp hstep
  have hs : ({ s with now := m.at_ } : Lease).Faithful := hfaithful.enter (not_lt.mp hclock)
  rcases hs.quiet_or_answer hact with hquiet | ⟨seen, reply, decided, stored, ha, hphase, rfl⟩
  · refine ⟨hquiet.calls_iff (c := c), fun hcalls => ?_⟩
    have hfences := hquiet.phase hcalls.2
    have hnot : s.phase.fences = false := hcalls.1
    rw [show s.phase.fences = true from hfences] at hnot
    cases hnot
  · refine ⟨calls_tickAnswer_iff hs hphase reply stored, fun hcalls hfree hstores => ?_⟩
    rw [ha] at hstores
    obtain rfl : stored = true := hstores
    exact fenced_of_calls_tickAnswer hs hphase reply decided hfree hcalls

/-- A tick of a primary that reads `answer` and has lost its manager, up to its last step. -/
def lostTick (t : Time) (answer : Option Bool × Option Nat) : List Move :=
  [⟨t, .tick⟩, ⟨t, .read (some answer)⟩]

/-- The last step of this tick. -/
def lost (t : Time) : Move := ⟨t, .answer .failed t true⟩

/-- Two ticks ten seconds apart, but for the last step of the second. -/
def twoTicks : List Move :=
  lostTick 0 (some false, some 0) ++ [lost 0] ++ lostTick 10000 (some false, some 0)

/-- The second one fences. -/
theorem fences_after_ten_seconds :
    (Calls (Machine.run (step {}) (start true false 0) twoTicks)
        (Machine.run (step {}) (start true false 0) (twoTicks ++ [lost 10000])) ↔
      Due {} (Machine.run (step {}) (start true false 0) twoTicks)
        (Machine.run (step {}) (start true false 0) (twoTicks ++ [lost 10000]))) ∧
    (Machine.run (step {}) (start true false 0) (twoTicks ++ [lost 10000])).fenced = true :=
  have h := @fences_iff {} true false 0 (Machine.run (step {}) (start true false 0) twoTicks)
    (Machine.run (step {}) (start true false 0) (twoTicks ++ [lost 10000])) (lost 10000)
    (Machine.reach_run (by decide +kernel)) (by decide +kernel)
  ⟨h.1, h.2 (by decide +kernel) (by decide +kernel) (by decide +kernel)⟩

/-- The node is unfenced at once, and a third tick follows a second later. -/
def afterUnfence : List Move :=
  twoTicks ++ [lost 10000, ⟨10000, .fenceReturned⟩, ⟨10500, .flag false⟩] ++
    lostTick 11000 (some false, some 0)

/-- The first of the two ticks reads NULL for super_read_only, and two semi-sync clients. -/
def afterNull : List Move :=
  lostTick 0 (none, some 2) ++ [lost 0] ++ lostTick 10000 (some false, some 0)

/-- A tick that read these facts in favour of the lease. -/
def inFavour (sro : Option Bool) (clients : Option Nat) : Event :=
  .tick { enabled := true, fenced := false, rebuilding := false, sro, clients,
          reachable := some false }

/-- After a self-fence that has been carried out the count starts again, though the row of ticks
without a manager goes on. And a client count beside a NULL does not stop it. -/
theorem count_restarts :
    (let s := Machine.run (step {}) (start true false 0) afterUnfence
     let s' := Machine.run (step {}) (start true false 0) (afterUnfence ++ [lost 11000])
     Reach (step {}) Free (start true false 0) s ∧ step {} s (lost 11000) = some s' ∧
       s.fenceHeld = false ∧
       s'.log = [⟨11000, inFavour (some false) (some 0)⟩, ⟨10000, .fenced⟩,
         ⟨10000, inFavour (some false) (some 0)⟩, ⟨0, inFavour (some false) (some 0)⟩] ∧
       ¬ Calls s s') ∧
    (let s := Machine.run (step {}) (start true false 0) afterNull
     let s' := Machine.run (step {}) (start true false 0) (afterNull ++ [lost 10000])
     Reach (step {}) Free (start true false 0) s ∧ step {} s (lost 10000) = some s' ∧
       s.fenceHeld = false ∧
       s'.log = [⟨10000, inFavour (some false) (some 0)⟩, ⟨0, inFavour none (some 2)⟩] ∧
       Calls s s') :=
  ⟨⟨Machine.reach_run (by decide +kernel), by decide +kernel⟩,
    ⟨Machine.reach_run (by decide +kernel), by decide +kernel⟩⟩

end Lease

end DbGuard
