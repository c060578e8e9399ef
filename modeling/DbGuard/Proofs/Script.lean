import DbGuard.Manager

/-!
# `DbGuard.Proofs.Script`: runs given by their moves

`play` makes a list of moves from the start of a controller and checks each against the
environment's rules and a condition. `runs_of_play` says that what it reaches is a run.

The rest is a small fleet for such lists: three nodes `a`, `b` and `c` with the spare `d`,
the status of a primary and of its replicas, and answers in which every request succeeds.
-/

set_option autoImplicit false

namespace DbGuard

open Coop (Pool Move Reach)

/-- Make the moves from the start of a controller, each by the rules and the condition. -/
def play (cfg : Config) (cond : Pool sig → Move sig → Pool sig → Bool)
    (ms : List (Move sig)) : Option (Pool sig) :=
  (Pool.init (Ctl.init cfg) []).exec (body cfg)
    (fun p m => environment p m && (p.fire (body cfg) m).all (cond p m)) ms

/-- What a list of moves reaches is reached by a run. -/
theorem runs_of_play {cfg : Config} {check : Pool sig → Move sig → Pool sig → Bool}
    {cond : Pool sig → Move sig → Pool sig → Prop}
    (hcond : ∀ p m p', check p m p' = true → cond p m p') {ms : List (Move sig)}
    {p : Pool sig} (h : play cfg check ms = some p) : Runs cfg cond p := by
  refine Reach.of_exec (fun p m p' hc hf => ?_) ms _ p .refl h
  rw [Bool.and_eq_true, hf] at hc
  exact ⟨hc.1, hcond p m p' hc.2⟩

/-- A run without a condition. -/
theorem runs_of_script {cfg : Config} {ms : List (Move sig)} {p : Pool sig}
    (h : play cfg (fun _ _ _ => true) ms = some p) : Runs cfg (fun _ _ _ => True) p :=
  runs_of_play (fun _ _ _ _ => trivial) h

/-! ### A small fleet -/

/-- A set of three nodes with a spare. -/
def fleet : Config where
  nodes := ["a", "b", "c"]
  spare := some "d"
  nodes_ne := by decide
  nodes_nodup := by decide
  spare_notMem := by decide
  rounds := 2

/-- The GTIDs `u:1-n`. -/
def upTo (n : Int) : Option GtidText := some (.set (GtidSet.ofInterval "u" 1 n))

/-- A primary that has executed `u:1-n`. -/
def primaryStatus (n : Int) : Except String StatusBody :=
  .ok { mysqldAlive := true, mysqldResponsive := true, superReadOnly := some false
        gtidExecuted := upTo n
        semisync := some { sourceEnabled := some true, sourceClients := some 2 } }

/-- A replica of `src` that has executed `u:1-n` and received `u:1-m`. -/
def replicaStatus (src : Node) (n m : Int) : Except String StatusBody :=
  .ok { mysqldAlive := true, mysqldResponsive := true, superReadOnly := some true
        gtidExecuted := upTo n
        replica := some
          { configured := true, sourceHost := some src, ioRunning := some .yes
            sqlRunning := some .yes, retrievedGtidSet := upTo m }
        semisync := some { replicaEnabled := some true } }

/-- A replica of `a` that has lost it, with `u:1-n` executed and `u:1-m` received. -/
def orphanStatus (n m : Int) : Except String StatusBody :=
  .ok { mysqldAlive := true, mysqldResponsive := true, superReadOnly := some true
        gtidExecuted := upTo n
        replica := some
          { configured := true, sourceHost := some "a", ioRunning := some .connecting
            sqlRunning := some .yes, retrievedGtidSet := upTo m }
        semisync := some { replicaEnabled := some true } }

/-- A node whose agent does not answer. -/
def down : Except String StatusBody := .error "timeout"

/-- Every request succeeds, and the nodes look like `view`. -/
def succeed (probeOk : Bool) (view : Node → Except String StatusBody) :
    (r : Req) → r.Resp
  | .observe _ _ => { probe := { ok := probeOk, selectOk := probeOk }, view }
  | .status n => view n
  | .freshViews _ => view
  | .fence _ => .ok { method := some "sql", gtidExecuted := upTo 5 }
  | .promote _ => .ok {}
  | .repoint _ _ => .ok ()
  | .repointAll _ _ => fun _ => .ok ()
  | .rebuild _ _ => .ok {}
  | .unstick _ => .ok {}
  | .stopIo _ => fun _ => none
  | .replicaState _ => none
  | .committingThreads _ => none
  | .gtidWaiter _ => true
  | .waiterWait _ set => .ok (true, some (.set set))
  | .waiterClose _ => ()
  | .provision _ => .ok ()
  | .sleep => ()
  | .reply _ => ()

/-- `a` is the primary, `b` and `c` are its replicas. -/
def settled : Node → Except String StatusBody := fun n =>
  if n = "a" then primaryStatus 5
  else if n = "b" ∨ n = "c" then replicaStatus "a" 5 5
  else down

/-- The first tick, which finds the primary. -/
def discovery (view : Node → Except String StatusBody) : List (Move sig) :=
  [.arrive .tick, .start 0, .answer 0 (succeed true view)]

/-- `a` is dead, `b` and `c` have lost it. -/
def orphaned : Node → Except String StatusBody := fun n =>
  if n = "b" ∨ n = "c" then orphanStatus 5 5 else down

/-- Three polls in seven seconds find `a` dead, the last of them with `view`. Task 3 starts
the failover, and task 4 is its fence. -/
def untilFailover (view : Node → Except String StatusBody) : List (Move sig) :=
  discovery settled ++
  [.outside (.clock 1000 1000), .arrive .tick, .start 1, .answer 1 (succeed false orphaned),
   .outside (.clock 4000 4000), .arrive .tick, .start 2, .answer 2 (succeed false orphaned),
   .outside (.clock 7000 7000), .arrive .tick, .start 3, .answer 3 (succeed false view)]

/-- The last step that a list of moves records. -/
theorem exists_last_of (cfg : Config) (check : Pool sig → Move sig → Pool sig → Bool)
    (ms : List (Move sig)) (shows : List (Coop.Event sig) → Coop.Event sig → Bool)
    (h : (play cfg check ms).any (fun p =>
      p.world.log.getLast?.any (shows p.world.log.dropLast)) = true) :
    ∃ p l e, Runs cfg (fun p m p' => check p m p' = true) p ∧
      p.world.log = l ++ e :: [] ∧ shows l e = true := by
  obtain ⟨p, hp, hlast⟩ := (Option.any_eq_true _ _).mp h
  obtain ⟨e, he, hshows⟩ := (Option.any_eq_true _ _).mp hlast
  refine ⟨p, p.world.log.dropLast, e, runs_of_play (fun _ _ _ h => h) hp, ?_, hshows⟩
  obtain ⟨l, hl⟩ := List.getLast?_eq_some_iff.mp he
  rw [hl]
  simp

/-- The same without a condition on the steps. -/
theorem exists_last (cfg : Config) (ms : List (Move sig))
    (shows : List (Coop.Event sig) → Coop.Event sig → Bool)
    (h : (play cfg (fun _ _ _ => true) ms).any (fun p =>
      p.world.log.getLast?.any (shows p.world.log.dropLast)) = true) :
    ∃ p l e, Runs cfg (fun _ _ _ => True) p ∧ p.world.log = l ++ e :: [] ∧
      shows l e = true := by
  obtain ⟨p, l, e, hp, hlog, hshows⟩ := exists_last_of cfg _ ms shows h
  exact ⟨p, l, e, hp.mono fun _ _ _ ho => ⟨ho.1, trivial⟩, hlog, hshows⟩

/-- One more move after a list of moves. -/
theorem exists_fired (cfg : Config) (check : Pool sig → Move sig → Pool sig → Bool)
    (ms : List (Move sig)) (m : Move sig) (shows : Pool sig → Pool sig → Bool)
    (h : (play cfg check ms).any (fun p => environment p m &&
      (p.fire (body cfg) m).any fun p' => check p m p' && shows p p') = true) :
    ∃ p p', Runs cfg (fun p m p' => check p m p' = true) p ∧ environment p m = true ∧
      p.fire (body cfg) m = some p' ∧ check p m p' = true ∧ shows p p' = true := by
  obtain ⟨p, hp, h⟩ := (Option.any_eq_true _ _).mp h
  obtain ⟨henv, h⟩ := Bool.and_eq_true_iff.mp h
  obtain ⟨p', hf, h⟩ := (Option.any_eq_true _ _).mp h
  obtain ⟨hcheck, hshows⟩ := Bool.and_eq_true_iff.mp h
  exact ⟨p, p', runs_of_play (fun _ _ _ h => h) hp, henv, hf, hcheck, hshows⟩

/-! ### What the last step is -/

/-- Task `t` issues `r`, and `shows` holds of the steps before, the job and the state. -/
def asked (t : Nat) (r : Req) (shows : List (Coop.Event sig) → Job → Ctl → Bool)
    (l : List (Coop.Event sig)) : Coop.Event sig → Bool
  | .issued t' j r' s => t' = t && r' = r && shows l j s
  | _ => false

/-- Task `t` ends, and `shows` holds of the steps before and the state. -/
def ended (t : Nat) (shows : List (Coop.Event sig) → Ctl → Bool) (l : List (Coop.Event sig)) :
    Coop.Event sig → Bool
  | .finished t' s => t' = t && shows l s
  | _ => false

/-- Task `t` creates task `t'` for the job `j`. -/
def creates (t : Nat) (j : Job) (t' : Nat) : Coop.Event sig → Bool
  | .created s i s' => s = t && i = j && s' = t'
  | _ => false

section
variable {t t' : Nat} {r : Req} {j : Job} {l : List (Coop.Event sig)} {e : Coop.Event sig}

/-- What is asked is a request of that task. -/
theorem of_asked {shows : List (Coop.Event sig) → Job → Ctl → Bool}
    (h : asked t r shows l e = true) :
    ∃ j s, e = .issued t j r s ∧ shows l j s = true := by
  cases e with
  | issued t' j r' s =>
      simp only [asked, Bool.and_eq_true, decide_eq_true_eq] at h
      obtain ⟨⟨rfl, rfl⟩, h⟩ := h
      exact ⟨j, s, rfl, h⟩
  | created | answered | landed | resent | finished => cases h

/-- What has ended is the end of that task. -/
theorem of_ended {shows : List (Coop.Event sig) → Ctl → Bool} (h : ended t shows l e = true) :
    ∃ s, e = .finished t s ∧ shows l s = true := by
  cases e with
  | finished t' s =>
      simp only [ended, Bool.and_eq_true, decide_eq_true_eq] at h
      obtain ⟨rfl, h⟩ := h
      exact ⟨s, rfl, h⟩
  | created | issued | answered | landed | resent => cases h

/-- What creates is the creation of that task. -/
theorem of_creates (h : creates t j t' e = true) : e = .created t j t' := by
  cases e with
  | created s i s' =>
      simp only [creates, Bool.and_eq_true, decide_eq_true_eq] at h
      obtain ⟨⟨rfl, rfl⟩, rfl⟩ := h
      rfl
  | issued | answered | landed | resent | finished => cases h

end

end DbGuard
