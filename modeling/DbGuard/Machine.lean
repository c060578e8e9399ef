import Mathlib.Data.List.Basic

/-!
# `DbGuard.Machine`: machines whose moves can be refused

A machine is a function `step : σ → μ → Option σ`. It says which state a move leads to, and
`none` says that the move is not possible in this state. Nothing here says who chooses the
moves. A scheduler, a clock, a client and a failing connection are all moves.

`Reach step ok s t` says that some moves lead from `s` to `t`. The relation `ok` is a
condition on each move in the state in which it is made. A theorem about all runs takes
`Free`, and a theorem about the runs that meet a condition takes the condition.

`Reach.invariant` is the induction over a run. It gives the proof of a step the run so far, so
an invariant can rest on another one. `run` makes a list of moves, and `reach_run` says that
this is a run. A run on concrete states is then one evaluation.
-/

set_option autoImplicit false

namespace Machine

variable {σ μ : Type*} {step : σ → μ → Option σ} {ok ok' : σ → μ → Prop}

/-- No condition on the moves. -/
def Free (_ : σ) (_ : μ) : Prop := True

/-- Some moves, each of which meets `ok` where it is made, lead from `s` to this state. -/
inductive Reach (step : σ → μ → Option σ) (ok : σ → μ → Prop) (s : σ) : σ → Prop
  | refl : Reach step ok s s
  | tail {t u : σ} {m : μ} :
      Reach step ok s t → ok t m → step t m = some u → Reach step ok s u

namespace Reach

variable {s t u : σ} {m : μ}

/-- A run of one move. -/
theorem single (hok : ok s m) (h : step s m = some t) : Reach step ok s t :=
  .tail .refl hok h

/-- One run after another. -/
theorem trans (h : Reach step ok s t) (h' : Reach step ok t u) : Reach step ok s u := by
  induction h' with
  | refl => exact h
  | tail _ hok hstep ih => exact ih.tail hok hstep

/-- A run under a stronger condition is a run under a weaker one. -/
theorem mono (hle : ∀ s m, ok s m → ok' s m) (h : Reach step ok s t) :
    Reach step ok' s t := by
  induction h with
  | refl => exact .refl
  | tail _ hok hstep ih => exact ih.tail (hle _ _ hok) hstep

/-- A run under a condition is a run. -/
theorem free (h : Reach step ok s t) : Reach step Free s t :=
  h.mono fun _ _ _ => trivial

/-- What holds at the start, and what each move keeps, holds at the end. -/
theorem invariant {I : σ → Prop} (h : Reach step ok s t) (hs : I s)
    (hstep : ∀ t m u, Reach step ok s t → I t → ok t m → step t m = some u → I u) : I t := by
  induction h with
  | refl => exact hs
  | tail hrun hok hm ih => exact hstep _ _ _ hrun ih hok hm

end Reach

/-! ### Runs on concrete states -/

/-- Make the moves of a list one after the other. -/
def exec (step : σ → μ → Option σ) : σ → List μ → Option σ
  | s, [] => some s
  | s, m :: ms => (step s m).bind fun t => exec step t ms

/-- Every move of the list that is made meets `ok` where it is made. -/
def Obeys (step : σ → μ → Option σ) (ok : σ → μ → Prop) : σ → List μ → Prop
  | _, [] => True
  | s, m :: ms => ∀ t ∈ step s m, ok s m ∧ Obeys step ok t ms

/-- Every state that the list of moves goes through meets `P`. -/
def Always (step : σ → μ → Option σ) (P : σ → Prop) : σ → List μ → Prop
  | s, [] => P s
  | s, m :: ms => P s ∧ ∀ t ∈ step s m, Always step P t ms

/-- Whether a list of moves obeys can be computed. -/
instance decidableObeys [∀ s m, Decidable (ok s m)] :
    ∀ (s : σ) (ms : List μ), Decidable (Obeys step ok s ms)
  | _, [] => .isTrue trivial
  | s, m :: ms =>
    match h : step s m with
    | none => .isTrue (by simp [Obeys, h])
    | some t =>
      have := decidableObeys t ms
      decidable_of_iff (ok s m ∧ Obeys step ok t ms) (by simp [Obeys, h])

/-- Every list of moves obeys the condition that says nothing. -/
theorem obeys_free (s : σ) (ms : List μ) : Obeys step Free s ms := by
  induction ms generalizing s with
  | nil => trivial
  | cons m ms ih => exact fun t _ => ⟨trivial, ih t⟩

/-- What a list of moves that obeys the condition reaches. -/
theorem reach_of_exec {s t : σ} {ms : List μ} (hok : Obeys step ok s ms)
    (h : exec step s ms = some t) : Reach step ok s t := by
  induction ms generalizing s with
  | nil =>
    cases h
    exact .refl
  | cons m ms ih =>
    obtain ⟨u, hu, hrest⟩ := Option.bind_eq_some_iff.mp h
    obtain ⟨hm, hms⟩ := hok u hu
    exact (Reach.single hm hu).trans (ih hms hrest)

/-- When a condition on the moves is what an invariant needs, and all that it needs, the
property holds in every state of a run if and only if every move meets the condition. -/
theorem always_iff_obeys {I P : σ → Prop} (hP : ∀ s, I s → P s)
    (hkeep : ∀ s m t, I s → ok s m → step s m = some t → I t)
    (hneed : ∀ s m t, I s → step s m = some t → P t → ok s m) {s : σ} (hs : I s)
    (ms : List μ) : Always step P s ms ↔ Obeys step ok s ms := by
  induction ms generalizing s with
  | nil => exact iff_of_true (hP s hs) trivial
  | cons m ms ih =>
    constructor
    · intro h t ht
      have hPt : P t := by
        cases ms with
        | nil => exact h.2 t ht
        | cons m' ms => exact (h.2 t ht).1
      have hm := hneed s m t hs ht hPt
      exact ⟨hm, (ih (hkeep s m t hs hm ht)).mp (h.2 t ht)⟩
    · intro h
      refine ⟨hP s hs, fun t ht => ?_⟩
      obtain ⟨hm, hms⟩ := h t ht
      exact (ih (hkeep s m t hs hm ht)).mpr hms

/-- The state after a list of moves, or the first one if the machine refuses them. -/
def run (step : σ → μ → Option σ) (s : σ) (ms : List μ) : σ := (exec step s ms).getD s

/-- A list of moves that can be made leads to where `run` says. -/
theorem exec_eq_run {s : σ} {ms : List μ} (h : (exec step s ms).isSome) :
    exec step s ms = some (run step s ms) := by
  obtain ⟨t, ht⟩ := Option.isSome_iff_exists.mp h
  simp [run, ht]

/-- The same for one move. -/
theorem step_eq_run {s : σ} {m : μ} (h : (step s m).isSome) :
    step s m = some (run step s [m]) := by
  obtain ⟨t, ht⟩ := Option.isSome_iff_exists.mp h
  simp [run, Machine.exec, ht]

/-- A condition that holds after every move holds at the end. -/
theorem Always.exec {P : σ → Prop} {s t : σ} {ms : List μ} (h : Always step P s ms)
    (ht : exec step s ms = some t) : P t := by
  induction ms generalizing s with
  | nil =>
    cases ht
    exact h
  | cons m ms ih =>
    obtain ⟨u, hu, hrest⟩ := Option.bind_eq_some_iff.mp ht
    exact ih (h.2 u hu) hrest

/-- A list of moves that the machine does not refuse is a run. -/
theorem reach_run {s : σ} {ms : List μ} (h : (exec step s ms).isSome) :
    Reach step Free s (run step s ms) :=
  reach_of_exec (obeys_free s ms) (exec_eq_run h)

/-- The same for a list that obeys a condition. -/
theorem reach_run_of_obeys {s : σ} {ms : List μ} (hok : Obeys step ok s ms)
    (h : (exec step s ms).isSome) : Reach step ok s (run step s ms) :=
  reach_of_exec hok (exec_eq_run h)

end Machine
