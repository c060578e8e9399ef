import DbGuard.Harness.Workload

/-!
# `DbGuard.Proofs.Harness.Workload`: every write is in the ack log

`run` reads `in_flight_seq` of each client once, after the joins. An INSERT that began before
has left a row or is what `run` reads, so a row of it is in the closed log. An INSERT that
begins later leaves none: its client was between its look at the stop event and
`in_flight_seq = seq` when `run` read it, for example in `_connect`, and the log may be
closed before it is done. `InTime` excludes this, and nothing else.

`Complete` is the invariant. It says for each phase of a client what is in flight, and for
each write that was sent that it has a row or is in flight.
-/

set_option autoImplicit false

namespace DbGuard.Harness

open Machine (Reach Free)

namespace Workload

/-! ### The property -/

/-- The log has a row of the write. -/
def Recorded (w : Workload) (x : Nat × Nat) : Prop := ∃ r ∈ w.log, r.write = x

/-- The log accounts for every write. -/
structure Accounted (w : Workload) : Prop where
  recorded : ∀ x ∈ w.sent, w.Recorded x
  ok : ∀ r ∈ w.log, r.kind = .ok → r.write ∈ w.returned
  phantom : ∀ rows : Finset (Nat × Nat), (∀ x ∈ rows, x ∈ w.sent) →
    (losslessAndPhantom (loadAcks w.log) rows).phantom = ∅
  lost : ∀ rows : Finset (Nat × Nat), ∀ x ∈ (losslessAndPhantom (loadAcks w.log) rows).lost,
    x ∈ w.returned

/-- `run` has read `in_flight_seq` of the client. -/
def hasRead (w : Workload) (i : Nat) : Prop :=
  match w.main with
  | .reading j => i < j
  | .recording j _ => i ≤ j
  | .closing | .returned => True
  | _ => False

/-- Whether `run` has read it can be computed. -/
instance decidableHasRead (w : Workload) (i : Nat) : Decidable (w.hasRead i) := by
  unfold hasRead
  split <;> infer_instance

/-- No client begins an INSERT after `run` has read what it has in flight. -/
def InTime (w : Workload) : Turn → Prop
  | .client i _ => (w.clients i).phase = .announcing → ¬ w.hasRead i
  | _ => True

/-- Whether a turn is in time can be computed. -/
instance decidableInTime (w : Workload) (m : Turn) : Decidable (w.InTime m) := by
  unfold InTime
  split <;> infer_instance

/-! ### The invariant -/

/-- What a client has in flight in each phase. -/
def Fits (w : Workload) (i : Nat) (c : Client) : Prop :=
  match c.phase with
  | .sending | .inserting | .crashed => c.inFlightSeq = some c.seq
  | .logging kind | .writing kind =>
    c.inFlightSeq = some c.seq ∧ (kind = .ok → (i, c.seq) ∈ w.returned)
  | .clearing _ => c.inFlightSeq = some c.seq ∧ w.Recorded (i, c.seq)
  | _ => c.inFlightSeq = none

/-- Every write has a row or is in flight, and what `run` has read has a row. -/
structure Complete (n : Nat) (w : Workload) : Prop where
  fits : ∀ i, w.Fits i (w.clients i)
  sent : ∀ i q, (i, q) ∈ w.sent → w.Recorded (i, q) ∨ (w.clients i).inFlightSeq = some q
  read : ∀ i q, w.hasRead i → (w.clients i).inFlightSeq = some q →
    w.Recorded (i, q) ∨ w.main = .recording i q
  ok : ∀ r ∈ w.log, r.kind = .ok → r.write ∈ w.returned
  closed : w.logOpen = false → w.main = .returned
  first : ∀ j, w.main = .starting j → 1 ≤ j
  unstarted : ∀ j i, w.main = .starting j → j ≤ i → (w.clients i).phase = .created
  idle : ∀ i, i = 0 ∨ n < i → (w.clients i).phase = .created

/-- A turn of a client: it takes the client to the state `c`. -/
structure ClientTurn (w w' : Workload) (i : Nat) (c : Client) : Prop where
  main : w'.main = w.main
  logOpen : w'.logOpen = w.logOpen
  clients : w'.clients = Function.update w.clients i c
  log : ∀ r ∈ w.log, r ∈ w'.log
  returned : ∀ x ∈ w.returned, x ∈ w'.returned
  newRow : ∀ r ∈ w'.log, r ∈ w.log ∨ (r.kind = .ok → r.write ∈ w'.returned)
  begun : (w.clients i).phase ≠ .created
  fits : w'.Fits i c
  sent : ∀ x ∈ w'.sent, x ∈ w.sent ∨ c.inFlightSeq = some x.2 ∧ x.1 = i
  settled : ∀ q, (w.clients i).inFlightSeq = some q → c.inFlightSeq = some q ∨ w'.Recorded (i, q)
  announced : ∀ q, c.inFlightSeq = some q → (w.clients i).inFlightSeq = some q ∨ ¬ w.hasRead i

section
variable {n i q : Nat} {w w' : Workload} {c : Client} {a : Answer} {x : Nat × Nat} {m : Turn}

/-- What is recorded stays recorded. -/
theorem Recorded.mono (hlog : ∀ r ∈ w.log, r ∈ w'.log) (h : w.Recorded x) : w'.Recorded x := by
  obtain ⟨r, hr, hx⟩ := h
  exact ⟨r, hlog r hr, hx⟩

/-- A client fits a longer log. -/
theorem Fits.mono (hlog : ∀ r ∈ w.log, r ∈ w'.log)
    (hreturned : ∀ x ∈ w.returned, x ∈ w'.returned) (h : w.Fits i c) : w'.Fits i c := by
  unfold Fits at h ⊢
  split at h
  · exact h
  · exact h
  · exact h
  · exact ⟨h.1, fun hk => hreturned _ (h.2 hk)⟩
  · exact ⟨h.1, fun hk => hreturned _ (h.2 hk)⟩
  · exact ⟨h.1, h.2.mono hlog⟩
  · exact h

/-- A client's turn keeps the log complete. -/
theorem Complete.clientTurn (h : Complete n w) (hturn : ClientTurn w w' i c) :
    Complete n w' := by
  have hsame : ∀ j, j ≠ i → w'.clients j = w.clients j := fun j hj => by
    rw [hturn.clients, Function.update_of_ne hj]
  have hself : w'.clients i = c := by rw [hturn.clients, Function.update_self]
  have hread : ∀ j, w'.hasRead j ↔ w.hasRead j := fun j => by
    unfold hasRead
    rw [hturn.main]
  -- One field of the invariant after the other; only client `i` differs from before.
  constructor
  · intro j
    by_cases hj : j = i
    · subst hj
      rw [hself]
      exact hturn.fits
    · rw [hsame j hj]
      exact (h.fits j).mono hturn.log hturn.returned
  · intro j q hq
    rcases hturn.sent _ hq with hq | ⟨hq, rfl⟩
    -- What was sent is recorded, or is still in flight at its client.
    · rcases h.sent j q hq with hrow | hflight
      · exact .inl (hrow.mono hturn.log)
      · by_cases hj : j = i
        · subst hj
          rw [hself]
          exact (hturn.settled q hflight).symm
        · rw [hsame j hj]
          exact .inr hflight
    · rw [hself]
      exact .inr hq
  -- The main task has not moved, so it has read the same clients as before.
  · intro j q hj hflight
    rw [hread] at hj
    rw [hturn.main]
    have hold : (w.clients j).inFlightSeq = some q := by
      by_cases hji : j = i
      · subst hji
        rw [hself] at hflight
        exact (hturn.announced q hflight).resolve_right (not_not.mpr hj)
      · rwa [hsame j hji] at hflight
    exact (h.read j q hj hold).imp_left fun hrow => hrow.mono hturn.log
  -- A new row with an ok is one of a commit that had returned.
  · intro r hr hk
    rcases hturn.newRow r hr with hr | hnew
    · exact hturn.returned _ (h.ok r hr hk)
    · exact hnew hk
  · rw [hturn.logOpen, hturn.main]
    exact h.closed
  · rw [hturn.main]
    exact h.first
  -- Client `i` has begun, so it is not among those that have not.
  · intro k j hk hj
    rw [hturn.main] at hk
    by_cases hji : j = i
    · subst hji
      exact absurd (h.unstarted k j hk hj) hturn.begun
    · rw [hsame j hji]
      exact h.unstarted k j hk hj
  · intro j hj
    by_cases hji : j = i
    · subst hji
      exact absurd (h.idle j hj) hturn.begun
    · rw [hsame j hji]
      exact h.idle j hj

/-! ### The clients -/

/-- A turn in which a client changes only itself, and not what it has in flight. -/
theorem clientTurn_self (hbegun : (w.clients i).phase ≠ .created) (hfits : w.Fits i c)
    (hflight : c.inFlightSeq = (w.clients i).inFlightSeq) :
    ClientTurn w (w.setClient i c) i c where
  main := rfl
  logOpen := rfl
  clients := rfl
  log _ hr := hr
  returned _ hx := hx
  newRow _ hr := .inl hr
  begun := hbegun
  fits := hfits
  sent _ hx := .inl hx
  settled _ hq := .inl (hflight.trans hq)
  announced _ hq := .inl (hflight.symm.trans hq)

/-- A step of a client is a turn of it. -/
theorem clientTurn_of_step (h : Complete n w) (hok : w.InTime (.client i a))
    (hstep : w.clientStep i a = some w') : ∃ c, ClientTurn w w' i c := by
  have hfits := h.fits i
  unfold clientStep at hstep
  simp only at hstep
  -- The cases are the phases of the client's loop.
  unfold Fits at hfits
  split at hstep
  · next hphase =>
    -- The head of the loop.
    rw [hphase] at hfits
    cases hstep
    refine ⟨_, clientTurn_self (by simp [hphase]) ?_ ?_⟩
    · split_ifs <;> exact hfits
    · split_ifs <;> rfl
  · next hphase =>
    -- A connection, or an error that the client backs off from.
    rw [hphase] at hfits
    cases hstep
    refine ⟨_, clientTurn_self (by simp [hphase]) ?_ ?_⟩
    · cases a <;> exact hfits
    · cases a <;> rfl
  · next hphase =>
    -- `in_flight_seq = seq`.
    rw [hphase] at hfits
    cases hstep
    refine ⟨_, rfl, rfl, rfl, fun _ hr => hr, fun _ hx => hx, fun _ hr => .inl hr,
      by simp [hphase], rfl, fun _ hx => .inl hx, fun q hq => ?_, fun q _ => .inr (hok hphase)⟩
    rw [hfits] at hq
    cases hq
  · next hphase =>
    -- The INSERT is sent, or the connection is lost before.
    rw [hphase] at hfits
    split at hstep
    · cases hstep
      refine ⟨_, rfl, rfl, rfl, fun _ hr => hr, fun _ hx => hx, fun _ hr => .inl hr,
        by simp [hphase], hfits, fun x hx => ?_, fun q hq => .inl hq, fun q hq => .inl hq⟩
      rcases List.mem_append.mp hx with hx | hx
      · exact .inl hx
      · rw [List.mem_singleton.mp hx]
        exact .inr ⟨hfits, rfl⟩
    · cases hstep
      exact ⟨_, clientTurn_self (by simp [hphase]) ⟨hfits, fun hk => by cases hk⟩ rfl⟩
  · next hphase =>
    -- The answer: only an `ok` counts as returned.
    rw [hphase] at hfits
    split at hstep
    · cases hstep
      exact ⟨_, rfl, rfl, rfl, fun _ hr => hr, fun _ hx => List.mem_append_left _ hx,
        fun _ hr => .inl hr, by simp [hphase], ⟨hfits, fun _ => by simp⟩, fun _ hx => .inl hx,
        fun q hq => .inl hq, fun q hq => .inl hq⟩
    · cases hstep
      exact ⟨_, clientTurn_self (by simp [hphase]) ⟨hfits, fun hk => by cases hk⟩ rfl⟩
  · next kind hphase =>
    -- The row is skipped where the log is closed already.
    rw [hphase] at hfits
    cases hstep
    refine ⟨_, clientTurn_self (by simp [hphase]) ?_ rfl⟩
    by_cases hopen : w.logOpen = true
    · rw [if_pos hopen]
      exact hfits
    · -- `run` has returned, so it has read what this client has in flight.
      have hmain := h.closed (by simpa using hopen)
      have hread : w.hasRead i := by
        unfold hasRead
        rw [hmain]
        trivial
      rw [if_neg hopen]
      refine ⟨hfits.1, (h.read i _ hread hfits.1).resolve_right ?_⟩
      rw [hmain]
      simp
  · next kind hphase =>
    -- The row goes into the log; after a close the write raises.
    rw [hphase] at hfits
    split_ifs at hstep with hopen
    · cases hstep
      have hrow : ((w.setClient i { w.clients i with phase := .clearing kind }).put
          ⟨i, (w.clients i).seq, kind⟩).Recorded (i, (w.clients i).seq) :=
        ⟨_, List.mem_append_right _ (List.mem_singleton_self _), rfl⟩
      refine ⟨_, rfl, rfl, rfl, fun _ hr => List.mem_append_left _ hr, fun _ hx => hx,
        fun r hr => ?_, by simp [hphase], ⟨hfits.1, hrow⟩, fun _ hx => .inl hx,
        fun q hq => .inl hq, fun q hq => .inl hq⟩
      rcases List.mem_append.mp hr with hr | hr
      · exact .inl hr
      · rw [List.mem_singleton.mp hr]
        exact .inr hfits.2
    · cases hstep
      exact ⟨_, clientTurn_self (by simp [hphase]) hfits.1 rfl⟩
  · next kind hphase =>
    -- `in_flight_seq = None`, with the row in the log.
    rw [hphase] at hfits
    cases hstep
    have hnone : ∀ c' : Client, c'.inFlightSeq = none → (c'.phase = .head ∨ c'.phase = .backoff) →
        ClientTurn w (w.setClient i c') i c' := by
      intro c' hc' hp
      refine ⟨rfl, rfl, rfl, fun _ hr => hr, fun _ hx => hx, fun _ hr => .inl hr,
        by simp [hphase], ?_, fun _ hx => .inl hx, fun q hq => .inr ?_, fun q hq => ?_⟩
      · unfold Fits
        rcases hp with hp | hp
        · rw [hp]
          exact hc'
        · rw [hp]
          exact hc'
      · obtain rfl : (w.clients i).seq = q := Option.some.inj (hfits.1.symm.trans hq)
        exact hfits.2
      · rw [hc'] at hq
        cases hq
    cases kind with
    | ok => exact ⟨_, hnone _ rfl (.inl rfl)⟩
    | error text => exact ⟨_, hnone _ rfl (.inr rfl)⟩
  · next hphase =>
    -- Back at the head of the loop.
    rw [hphase] at hfits
    cases hstep
    exact ⟨_, clientTurn_self (by simp [hphase]) hfits rfl⟩
  · cases hstep
  · cases hstep
  · cases hstep

/-! ### The main thread -/

/-- A client that was just created has nothing in flight. -/
theorem Fits.created (h : w.Fits i c) (hphase : c.phase = .created) : c.inFlightSeq = none := by
  simpa only [Fits, hphase] using h

/-- A client that was not started has nothing in flight. -/
theorem Complete.inFlight_of_idle (h : Complete n w) (hi : i = 0 ∨ n < i) :
    (w.clients i).inFlightSeq = none :=
  (h.fits i).created (h.idle i hi)

/-- The main thread goes on, and has read no client that has a write in flight. -/
theorem Complete.goes (h : Complete n w) {main : MainPhase} {stop : Bool}
    (hread : ∀ i q, ({ w with main := main, stop := stop } : Workload).hasRead i →
      (w.clients i).inFlightSeq = some q → w.Recorded (i, q) ∨ main = .recording i q)
    (hopen : w.logOpen = true) (hstart : ∀ j, main ≠ .starting j) :
    Complete n { w with main := main, stop := stop } where
  fits := h.fits
  sent := h.sent
  read := hread
  ok := h.ok
  closed hclosed := by
    have hclosed : w.logOpen = false := hclosed
    rw [hopen] at hclosed
    cases hclosed
  first j hj := absurd hj (hstart j)
  unstarted j _ hj := absurd hj (hstart j)
  idle := h.idle

/-- What a client had in flight when it was read has a row, unless the row comes next. -/
theorem Complete.recorded (h : Complete n w) (hi : w.hasRead i)
    (hq : (w.clients i).inFlightSeq = some q) (hmain : ∀ seq, w.main ≠ .recording i seq) :
    w.Recorded (i, q) :=
  (h.read i q hi hq).resolve_right (hmain q)

/-- The main thread starts a client. -/
theorem Complete.starts (h : Complete n w) {j : Nat} (hmain : w.main = .starting j) (hj : j ≤ n)
    (hopen : w.logOpen = true) :
    Complete n { w.setClient j { w.clients j with phase := .head } with
      main := .starting (j + 1) } := by
  -- Client `j` is created now, the others are as before.
  constructor
  · intro i
    by_cases hi : i = j
    · subst hi
      simp only [setClient, Function.update_self]
      exact (h.fits i).created (h.unstarted i i hmain le_rfl)
    -- It has nothing in flight at its start.
    · simp only [setClient, Function.update_of_ne hi]
      exact h.fits i
  · intro i q hq
    by_cases hi : i = j
    · subst hi
      simp only [setClient, Function.update_self]
      exact h.sent i q hq
    · simp only [setClient, Function.update_of_ne hi]
      exact h.sent i q hq
  · intro i q hi
    -- The main task has read no client yet.
    exact absurd hi (by simp [hasRead])
  · exact h.ok
  · intro hclosed
    have hclosed : w.logOpen = false := hclosed
    rw [hopen] at hclosed
    cases hclosed
  · intro k hk
    cases hk
    exact Nat.le_add_left 1 j
  · intro k i hk hi
    cases hk
    have hij : i ≠ j := by omega
    simp only [setClient, Function.update_of_ne hij]
    exact h.unstarted j i hmain (by omega)
  · intro i hi
    have hfirst := h.first j hmain
    have hij : i ≠ j := by omega
    simp only [setClient, Function.update_of_ne hij]
    exact h.idle i hi

/-- A step of the main task keeps the log complete. -/
theorem Complete.mainStep (h : Complete n w) (hstep : w.mainStep n = some w') :
    Complete n w' := by
  have hopen : w.main ≠ .returned → w.logOpen = true := fun hmain => by
    by_contra hclosed
    exact hmain (h.closed (by simpa using hclosed))
  unfold Workload.mainStep at hstep
  -- The cases are the steps of `run`.
  split at hstep
  · next j hmain =>
    -- The clients are created one by one.
    split_ifs at hstep with hj
    · cases hstep
      exact h.starts hmain hj (hopen (by simp [hmain]))
    · cases hstep
      exact h.goes (fun i q hi => absurd hi (by simp [hasRead]))
        (hopen (by simp [hmain])) (by simp)
  · next hmain =>
    -- The stop event is set.
    cases hstep
    exact h.goes (fun i q hi => absurd hi (by simp [hasRead])) (hopen (by simp [hmain])) (by simp)
  · next j hmain =>
    -- The clients are joined, and after the last one `run` reads what they have in flight.
    cases hstep
    refine h.goes (fun i q hi hq => ?_) (hopen (by simp [hmain]))
      (by split_ifs <;> simp)
    split_ifs at hi with hj
    · exact absurd hi (by simp [hasRead])
    -- The clients count from 1.
    · have hzero : i = 0 := Nat.lt_one_iff.mp hi
      rw [h.inFlight_of_idle (.inl hzero)] at hq
      cases hq
  · next j hmain =>
    -- The clients below `j` have been read already.
    have hother : ∀ i q, i < j → (w.clients i).inFlightSeq = some q → w.Recorded (i, q) := by
      intro i q hi hq
      exact h.recorded (by simpa [hasRead, hmain] using hi) hq (by simp [hmain])
    split_ifs at hstep with hj
    · split at hstep
      · next seq hseq =>
        -- Something is in flight: the next step writes its row.
        cases hstep
        refine h.goes (fun i q hi hq => ?_) (hopen (by simp [hmain])) (by simp)
        rcases Nat.lt_or_eq_of_le hi with hlt | rfl
        · exact .inl (hother i q hlt hq)
        · rw [hseq] at hq
          cases hq
          exact .inr rfl
      · next hseq =>
        -- Nothing is in flight, and the next client is read.
        cases hstep
        refine h.goes (fun i q hi hq => ?_) (hopen (by simp [hmain])) (by simp)
        rcases Nat.lt_or_eq_of_le (Nat.le_of_lt_succ hi) with hlt | rfl
        · exact .inl (hother i q hlt hq)
        · rw [hseq] at hq
          cases hq
    · cases hstep
      refine h.goes (fun i q hi hq => ?_) (hopen (by simp [hmain])) (by simp)
      by_cases hlt : i < j
      · exact .inl (hother i q hlt hq)
      · rw [h.inFlight_of_idle (.inr (by omega))] at hq
        cases hq
  · next j seq hmain =>
    -- The row of what was in flight at the end, as an error.
    cases hstep
    have hlog : ∀ r ∈ w.log, r ∈ (w.put ⟨j, seq, .error inFlightAtShutdown⟩).log :=
      fun r hr => List.mem_append_left _ hr
    constructor
    · exact fun i => (h.fits i).mono hlog fun _ hx => hx
    · exact fun i q hq => (h.sent i q hq).imp_left fun hrow => hrow.mono hlog
    · intro i q hi hq
      refine .inl ?_
      have hread : w.hasRead i := by
        unfold hasRead
        rw [hmain]
        exact Nat.le_of_lt_succ hi
      -- This client is the one whose row is written now.
      rcases h.read i q hread hq with hrow | hnext
      · exact hrow.mono hlog
      · rw [hmain] at hnext
        cases hnext
        exact ⟨_, List.mem_append_right _ (List.mem_singleton_self _), rfl⟩
    · intro r hr hk
      rcases List.mem_append.mp hr with hr | hr
      · exact h.ok r hr hk
      · rw [List.mem_singleton.mp hr] at hk
        cases hk
    · intro hclosed
      have hclosed : w.logOpen = false := hclosed
      rw [hopen (by simp [hmain])] at hclosed
      cases hclosed
    · exact fun k hk => by cases hk
    · exact fun k i hk => by cases hk
    · exact h.idle
  · next hmain =>
    -- `run` returns, and the log is closed.
    cases hstep
    refine ⟨h.fits, h.sent, fun i q _ hq => .inl ?_, h.ok, fun _ => rfl, fun k hk => ?_,
      fun k i hk => ?_, h.idle⟩
    rotate_left
    · cases hk
    · cases hk
    exact h.recorded (by simp [hasRead, hmain]) hq (by simp [hmain])
  · cases hstep

/-- So does every step. -/
theorem Complete.step (h : Complete n w) (hok : w.InTime m) (hstep : w.step n m = some w') :
    Complete n w' := by
  cases m with
  | main => exact h.mainStep hstep
  | signal =>
    cases hstep
    exact ⟨h.fits, h.sent, h.read, h.ok, h.closed, h.first, h.unstarted, h.idle⟩
  | client i a =>
    obtain ⟨c, hturn⟩ := clientTurn_of_step h hok hstep
    exact h.clientTurn hturn

/-- At the start it is complete. -/
theorem complete_start : Complete n {} where
  fits _ := rfl
  sent _ _ hx := by cases hx
  read _ _ _ hq := by cases hq
  ok _ hr := by cases hr
  closed hclosed := by cases hclosed
  first j hj := by
    cases hj
    exact le_rfl
  unstarted _ _ _ _ := rfl
  idle _ _ := rfl

/-- The checker finds no phantom and no lost row that the log does not give it. -/
theorem accounted_of (hrecorded : ∀ x ∈ w.sent, w.Recorded x)
    (hok : ∀ r ∈ w.log, r.kind = .ok → r.write ∈ w.returned) : w.Accounted where
  recorded := hrecorded
  ok := hok
  phantom rows hrows := by
    refine Finset.eq_empty_of_forall_notMem fun x hx => ?_
    obtain ⟨hx, herrored⟩ := Finset.mem_sdiff.mp hx
    obtain ⟨hrow, hacked⟩ := Finset.mem_sdiff.mp hx
    obtain ⟨r, hr, rfl⟩ := hrecorded x (hrows x hrow)
    simp only [loadAcks, List.mem_toFinset, List.mem_map, List.mem_filter, decide_eq_true_eq,
      not_exists, not_and, and_imp] at hacked herrored
    by_cases hk : r.kind = .ok
    · exact hacked r hr hk rfl
    · exact herrored r hr hk rfl
  lost rows x hx := by
    have hacked := (Finset.mem_sdiff.mp hx).1
    simp only [loadAcks, List.mem_toFinset, List.mem_map, List.mem_filter,
      decide_eq_true_eq] at hacked
    obtain ⟨r, ⟨hr, hk⟩, rfl⟩ := hacked
    exact hok r hr hk

end

/-- When `run` has returned, and ever after, the log accounts for every write, in the runs in
which no client begins an INSERT after `run` has read what it has in flight. -/
theorem accounted_of_inTime (n : Nat) (w : Workload) (hrun : Reach (step n) InTime {} w)
    (hreturned : w.main = .returned) : w.Accounted := by
  have hcomplete : Complete n w :=
    hrun.invariant complete_start fun _ _ _ _ h hok hstep => h.step hok hstep
  refine accounted_of (fun x hx => ?_) hcomplete.ok
  rcases hcomplete.sent x.1 x.2 hx with hrow | hflight
  · exact hrow
  · refine hcomplete.recorded ?_ hflight (by simp [hreturned])
    unfold hasRead
    rw [hreturned]
    trivial

/-- What is left of `run` when the only client has nothing in flight. -/
def endTurns : List Turn := [.main, .main, .main, .main, .main, .main]

/-- A run of one client whose INSERT stalls until the end. -/
def stalledRun : List Turn :=
  [.main, .main, .client 1 .ok, .client 1 .ok, .client 1 .ok, .client 1 .ok, .main] ++ endTurns

/-- The INSERT that is out gets its row. -/
theorem accounted_of_inTime_stalled : (Machine.run (step 1) {} stalledRun).Accounted :=
  accounted_of_inTime 1 _
    (Machine.reach_run_of_obeys (by decide +kernel) (by decide +kernel)) (by decide +kernel)

/-- A run of one client that waits in `_connect` until the log is closed. -/
def lateRun : List Turn :=
  [.main, .main, .client 1 .ok] ++ endTurns ++ [.client 1 .ok, .client 1 .ok, .client 1 .ok]

/-- The client then connects and sends its INSERT, and the log has no row of it. -/
theorem late_insert_unlogged :
    ¬ ∀ n w, Reach (step n) Free {} w → w.main = .returned → w.Accounted := by
  intro hall
  have hrun : Reach (step 1) Free {} (Machine.run (step 1) {} lateRun) :=
    Machine.reach_run (by decide +kernel)
  have hlate := hall 1 _ hrun (by decide +kernel)
  obtain ⟨r, hr, -⟩ := hlate.recorded (1, 1) (by decide +kernel)
  have hempty : (Machine.run (step 1) {} lateRun).log = [] := by decide +kernel
  rw [hempty] at hr
  cases hr

end Workload

end DbGuard.Harness
