import Mathlib.Logic.Basic

/-!
# `DbGuard.Watch`: programs that read a changing world

A monitor reads one thing after another, and the world does not wait for it. `Watch W ε α` is
such a program: a tree of reads of a `W`, which returns an `α` or fails with an `ε`.

`Ends h i p a j` says what it does along a history `h`: it starts at instant `i`, each read
takes the next instant, and it returns `a` at instant `j`. A history may be any sequence, so a
theorem about all histories is one about all changes of the world between two reads.
`ends_bind` takes a program apart at a sequencing. `run` computes it.

`loop` is the loop of a monitor that looks again until it has seen enough. It has no bound of
its own and takes the number of rounds to follow. `ends_loop` says that enough rounds give
the result of the first round that has one.

Where the world stands still, a program is a computation on one `W`, which `eval` makes.
-/

set_option autoImplicit false

/-- A program that reads a `W` now and then. -/
inductive Watch (W ε α : Type) : Type
  | done (a : α)
  | fail (e : ε)
  | read (k : W → Watch W ε α)

namespace Watch

variable {W ε α β σ : Type}

/-- Sequencing. -/
def bind : Watch W ε α → (α → Watch W ε β) → Watch W ε β
  | .done a, f => f a
  | .fail e, _ => .fail e
  | .read k, f => .read fun w => (k w).bind f

instance : Monad (Watch W ε) where
  pure := .done
  bind := Watch.bind

/-- One read, which may fail. -/
def ask (f : W → Except ε α) : Watch W ε α :=
  .read fun w => match f w with
    | .ok a => .done a
    | .error e => .fail e

/-- One read of each item of a list. -/
def askAll (f : β → W → Except ε α) : List β → Watch W ε (List α)
  | [] => pure []
  | b :: bs => do
    let a ← ask (f b)
    let as ← askAll f bs
    pure (a :: as)

/-- Look until a round gives a result, in at most so many rounds. A round that gives none goes
on with a new state. -/
def loop (round : σ → Watch W ε (σ ⊕ α)) : Nat → σ → Watch W ε (Option α)
  | 0, _ => pure none
  | n + 1, s => do
    match ← round s with
    | .inl s' => loop round n s'
    | .inr a => pure (some a)

/-! ### Along a history -/

/-- Along `h` the program goes from instant `i` to instant `j` and returns `a`. -/
def Ends (h : Nat → W) : Nat → Watch W ε α → α → Nat → Prop
  | i, .done a, a', j => a = a' ∧ i = j
  | _, .fail _, _, _ => False
  | i, .read k, a', j => Ends h (i + 1) (k (h i)) a' j

/-- What the program returns along `h` from instant `i`, and when. -/
def run (h : Nat → W) : Nat → Watch W ε α → Except ε (α × Nat)
  | i, .done a => .ok (a, i)
  | _, .fail e => .error e
  | i, .read k => run h (i + 1) (k (h i))

/-- The program with the whole world standing still. -/
def eval (w : W) : Watch W ε α → Except ε α
  | .done a => .ok a
  | .fail e => .error e
  | .read k => (k w).eval w

section
variable {h : Nat → W} {i j : Nat} {a : α} {b : β}

/-- A finished watch has looked at nothing. -/
@[simp] theorem ends_pure {a' : α} :
    Ends h i (pure a : Watch W ε α) a' j ↔ a = a' ∧ i = j := Iff.rfl

/-- One watch after the other. -/
theorem ends_bind (f : α → Watch W ε β) : ∀ (p : Watch W ε α) (i : Nat),
    Ends h i (p >>= f) b j ↔ ∃ a k, Ends h i p a k ∧ Ends h k (f a) b j := by
  intro p
  induction p with
  | done a =>
      intro i
      constructor
      · intro hf
        exact ⟨a, i, ⟨rfl, rfl⟩, hf⟩
      · rintro ⟨_, _, ⟨rfl, rfl⟩, hf⟩
        exact hf
  | fail e =>
      intro i
      constructor
      · intro hf
        exact hf.elim
      · rintro ⟨_, _, hf, -⟩
        exact hf.elim
  | read k ih => exact fun i => ih (h i) (i + 1)

/-- A read ends with what the world shows, one moment later. -/
@[simp] theorem ends_ask {f : W → Except ε α} :
    Ends h i (ask f) a j ↔ f (h i) = .ok a ∧ j = i + 1 := by
  show Ends h (i + 1) (match f (h i) with | .ok a => .done a | .error e => .fail e) a j ↔ _
  cases f (h i) with
  | ok a' => simp [Ends, eq_comm]
  | error e => simp [Ends]

/-- `Ends` is what the run computes. -/
theorem ends_iff_run : ∀ (p : Watch W ε α) (i : Nat),
    Ends h i p a j ↔ run h i p = .ok (a, j) := by
  intro p
  induction p with
  | done x =>
      intro i
      simp [Ends, run]
  | fail e =>
      intro i
      simp [Ends, run]
  | read k ih => exact fun i => ih (h i) (i + 1)

/-- A program returns what `run` computes. -/
theorem exists_ends_of_run {q : α → Bool} {p : Watch W ε α}
    (hrun : (run h i p).toOption.any (fun x => q x.1) = true) :
    ∃ a j, Ends h i p a j ∧ q a = true := by
  cases hout : run h i p with
  | error e =>
      rw [hout] at hrun
      cases hrun
  | ok x =>
      rw [hout] at hrun
      exact ⟨x.1, x.2, (ends_iff_run p i).mpr hout, hrun⟩

/-- Time does not run backwards. -/
theorem le_of_ends : ∀ (p : Watch W ε α) (i : Nat), Ends h i p a j → i ≤ j := by
  intro p
  induction p with
  | done x =>
      rintro i ⟨-, rfl⟩
      exact Nat.le_refl _
  | fail e => exact fun i hp => hp.elim
  | read k ih =>
      intro i hp
      have := ih (h i) (i + 1) hp
      omega

/-- The reads of a list take one instant each. -/
theorem ends_askAll {f : β → W → Except ε α} {as : List α} : ∀ (bs : List β) (i : Nat),
    Ends h i (askAll f bs) as j ↔ j = i + bs.length ∧ as.length = bs.length ∧
      ∀ n b, bs[n]? = some b → ∃ a, as[n]? = some a ∧ f b (h (i + n)) = .ok a := by
  intro bs
  -- By induction on the list that is asked for.
  induction bs generalizing as j with
  | nil =>
      intro i
      simp only [askAll, ends_pure, List.length_nil, List.length_eq_zero_iff, Nat.add_zero]
      constructor
      · rintro ⟨rfl, rfl⟩
        simp
      · rintro ⟨rfl, rfl, -⟩
        exact ⟨rfl, rfl⟩
  | cons b bs ih =>
      intro i
      simp only [askAll, ends_bind, ends_ask, ends_pure]
      constructor
      -- The first answer, and then those of the rest, asked one instant later.
      · rintro ⟨a, _, ⟨ha, rfl⟩, as', k, hrest, rfl, rfl⟩
        obtain ⟨rfl, hlen, hall⟩ := (ih (i + 1)).mp hrest
        refine ⟨by simp; omega, by simp [hlen], fun n b' hb => ?_⟩
        cases n with
        | zero =>
            cases hb
            exact ⟨a, rfl, ha⟩
        | succ n =>
            obtain ⟨x, hx, hf⟩ := hall n b' hb
            exact ⟨x, hx, by rw [← hf]; congr 2; omega⟩
      -- Backwards, the first answer is the one at index zero.
      · rintro ⟨rfl, hlen, hall⟩
        obtain ⟨a, ha, hf⟩ := hall 0 b rfl
        cases as with
        | nil => cases ha
        | cons a' as =>
            cases ha
            refine ⟨a, i + 1, ⟨hf, rfl⟩, as, _, (ih (i + 1)).mpr ⟨rfl, ?_, ?_⟩, rfl, ?_⟩
            · simpa using hlen
            · intro n b' hb
              obtain ⟨x, hx, hfx⟩ := hall (n + 1) b' hb
              exact ⟨x, hx, by rw [← hfx]; congr 2; omega⟩
            · simp; omega

end

/-! ### The loop -/

/-- `n` rounds without a result take from instant `i` and state `s` to instant `j` and state
`s'`. -/
def Rounds (h : Nat → W) (round : σ → Watch W ε (σ ⊕ α)) : Nat → σ → Nat → Nat → σ → Prop
  | i, s, 0, j, s' => i = j ∧ s = s'
  | i, s, n + 1, j, s' => ∃ s₁ k, Ends h i (round s) (.inl s₁) k ∧ Rounds h round k s₁ n j s'

section
variable {h : Nat → W} {round : σ → Watch W ε (σ ⊕ α)} {a : α} {j : Nat} {s' : σ}

/-- The loop gives the result of the first round that has one, if there are rounds enough. -/
theorem ends_loop : ∀ (fuel i : Nat) (s : σ), Ends h i (loop round fuel s) (some a) j ↔
    ∃ n k s', n < fuel ∧ Rounds h round i s n k s' ∧ Ends h k (round s') (.inr a) j := by
  intro fuel
  induction fuel with
  | zero => simp [loop]
  | succ fuel ih =>
      intro i s
      simp only [loop, ends_bind]
      constructor
      · rintro ⟨x, k, hround, hrest⟩
        cases x with
        | inr b =>
            obtain ⟨heq, rfl⟩ := hrest
            cases heq
            exact ⟨0, i, s, Nat.succ_pos _, ⟨rfl, rfl⟩, hround⟩
        | inl s₁ =>
            obtain ⟨n, m, s', hn, hrounds, hlast⟩ := (ih k s₁).mp hrest
            exact ⟨n + 1, m, s', Nat.succ_lt_succ hn, ⟨s₁, k, hround, hrounds⟩, hlast⟩
      · rintro ⟨n, k, s', hn, hrounds, hlast⟩
        cases n with
        | zero =>
            obtain ⟨rfl, rfl⟩ := hrounds
            exact ⟨.inr a, j, hlast, rfl, rfl⟩
        | succ n =>
            obtain ⟨s₁, m, hround, hrounds⟩ := hrounds
            exact ⟨.inl s₁, m, hround, (ih m s₁).mpr ⟨n, k, s', by omega, hrounds, hlast⟩⟩

/-- What each round without a result keeps, all of them keep. -/
theorem Rounds.invariant {I : Nat → σ → Prop}
    (hround : ∀ i s s' k, I i s → Ends h i (round s) (.inl s') k → I k s') :
    ∀ (n i : Nat) (s : σ), I i s → Rounds h round i s n j s' → I j s' := by
  intro n
  induction n with
  | zero =>
      rintro i s hI ⟨rfl, rfl⟩
      exact hI
  | succ n ih =>
      rintro i s hI ⟨s₁, k, hfirst, hrest⟩
      exact ih k s₁ (hround i s s₁ k hI hfirst) hrest

/-- Rounds do not go back in time. -/
theorem le_of_rounds (n i : Nat) (s : σ) (hrounds : Rounds h round i s n j s') : i ≤ j :=
  Rounds.invariant (I := fun k _ => i ≤ k)
    (fun _ _ _ _ hle hround => Nat.le_trans hle (le_of_ends _ _ hround)) n i s (Nat.le_refl i)
    hrounds

/-- The rounds before the last one, with one more. -/
theorem rounds_succ {s₁ : σ} : ∀ (n i k : Nat) (s : σ), Rounds h round i s n k s₁ →
    Ends h k (round s₁) (.inl s') j → Rounds h round i s (n + 1) j s' := by
  intro n
  induction n with
  | zero =>
      rintro i k s ⟨rfl, rfl⟩ hlast
      exact ⟨s', j, hlast, rfl, rfl⟩
  | succ n ih =>
      rintro i k s ⟨s₂, m, hround, hrounds⟩ hlast
      exact ⟨s₂, m, hround, ih m k s₂ hrounds hlast⟩

end

/-! ### In a world that stands still -/

section
variable {w : W} {a : α}

/-- At a single moment, one watch after the other. -/
theorem eval_bind (f : α → Watch W ε β) (p : Watch W ε α) :
    (p >>= f).eval w = p.eval w >>= fun a => (f a).eval w := by
  induction p with
  | done a => rfl
  | fail e => rfl
  | read k ih => exact ih w

/-- At a single moment, a finished watch. -/
@[simp] theorem eval_pure : (pure a : Watch W ε α).eval w = .ok a := rfl

/-- At a single moment, a read. -/
@[simp] theorem eval_ask {f : W → Except ε α} : (ask f).eval w = f w := by
  show (match f w with | .ok a => Watch.done a | .error e => .fail e).eval w = f w
  cases f w <;> rfl

/-- While the world is `w`, a program returns what `eval` computes. -/
theorem ends_still {h : Nat → W} : ∀ (p : Watch W ε α) (i : Nat), (∀ k, i ≤ k → h k = w) →
    ((∃ j, Ends h i p a j) ↔ p.eval w = .ok a) := by
  intro p
  induction p with
  | done x =>
      intro i hstill
      constructor
      · rintro ⟨j, rfl, -⟩
        rfl
      · intro heq
        cases heq
        exact ⟨i, rfl, rfl⟩
  | fail e =>
      intro i hstill
      constructor
      · rintro ⟨j, hf⟩
        exact hf.elim
      · intro heq
        cases heq
  | read k ih =>
      intro i hstill
      show (∃ j, Ends h (i + 1) (k (h i)) a j) ↔ (k w).eval w = .ok a
      rw [hstill i (Nat.le_refl i)]
      exact ih w (i + 1) fun m hm => hstill m (by omega)

end

end Watch
