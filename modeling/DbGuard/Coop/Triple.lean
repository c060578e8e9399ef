import DbGuard.Coop.Contract

/-!
# `DbGuard.Coop.Triple`: triples for tasks that can raise

`ExceptT ε (Prog S)` is the syntax of a task that can raise an `ε`. `attempt` catches what a
part of it raises.

`Triple C t j P m Q E` is the rule of such a part under contract `C`: from `P` it leads to `Q a`
if it returns `a`, and to `E e` if it raises `e`. Assertions relate the world at the start of the
current segment to the current one, as the weakest precondition does. There is one rule for each
way to put parts together, and `Triple.madeOf` for a part that only has to keep an assertion.
-/

set_option autoImplicit false

namespace Coop

variable {S : Sig} {ε α β : Type}

/-- What holds of the start of the current segment and the current world. -/
abbrev Assertion (S : Sig) := World S → World S → Prop

/-- The result of a part, or what it raised. -/
def attempt (m : ExceptT ε (Prog S) α) : ExceptT ε (Prog S) (Except ε α) :=
  ExceptT.mk (m.run >>= fun r => pure (.ok r))

/-- What holds at the end of a part that can raise. -/
def Outcome (Q : α → Assertion S) (E : ε → Assertion S) : Except ε α → Assertion S
  | .ok a => Q a
  | .error e => E e

/-- From `P`, the part leads to `Q` if it returns and to `E` if it raises. -/
def Triple (C : Contract S) (t : Nat) (j : S.Job) (P : Assertion S)
    (m : ExceptT ε (Prog S) α) (Q : α → Assertion S) (E : ε → Assertion S) : Prop :=
  ∀ w₀ w, P w₀ w → m.run.wp C t j (Outcome Q E) w₀ w

namespace Triple

variable {C : Contract S} {t : Nat} {j : S.Job} {P P' : Assertion S} {E E' : ε → Assertion S}
  {Q Q' : α → Assertion S} {R : β → Assertion S}

/-- A weaker postcondition, from a stronger precondition. -/
theorem conseq {m : ExceptT ε (Prog S) α} (h : Triple C t j P m Q E)
    (hP : ∀ w₀ w, P' w₀ w → P w₀ w) (hQ : ∀ a w₀ w, Q a w₀ w → Q' a w₀ w)
    (hE : ∀ e w₀ w, E e w₀ w → E' e w₀ w) : Triple C t j P' m Q' E' := by
  intro w₀ w hpre
  refine Prog.wp_mono (fun r w₀ w hr => ?_) _ _ _ (h w₀ w (hP w₀ w hpre))
  cases r with
  | ok a => exact hQ a w₀ w hr
  | error e => exact hE e w₀ w hr

/-- From a stronger assertion. -/
theorem pre {m : ExceptT ε (Prog S) α} (h : Triple C t j P m Q E)
    (hP : ∀ w₀ w, P' w₀ w → P w₀ w) : Triple C t j P' m Q E :=
  h.conseq hP (fun _ _ _ h => h) fun _ _ _ h => h

/-- A part that does nothing. -/
theorem pure {a : α} (h : ∀ w₀ w, P w₀ w → Q a w₀ w) :
    Triple C t j P (Pure.pure a : ExceptT ε (Prog S) α) Q E :=
  fun w₀ w hP => h w₀ w hP

/-- A part that raises. -/
theorem throw {e : ε} (h : ∀ w₀ w, P w₀ w → E e w₀ w) :
    Triple C t j P (MonadExcept.throw e : ExceptT ε (Prog S) α) Q E :=
  fun w₀ w hP => h w₀ w hP

/-- One part after the other: what the first raises is raised, and the second follows its result. -/
theorem bind {m : ExceptT ε (Prog S) α} {f : α → ExceptT ε (Prog S) β}
    (hm : Triple C t j P m Q E) (hf : ∀ a, Triple C t j (Q a) (f a) R E) :
    Triple C t j P (m >>= f) R E := by
  intro w₀ w hP
  show (m.run >>= ExceptT.bindCont f).wp C t j (Outcome R E) w₀ w
  refine Prog.wp_seq (hm w₀ w hP) fun r w₀ w hr => ?_
  cases r with
  | ok a => exact hf a w₀ w hr
  | error e => exact hr

/-- A part that does not raise. -/
theorem lift {m : Prog S α} (h : ∀ w₀ w, P w₀ w → m.wp C t j Q w₀ w) :
    Triple C t j P (ExceptT.lift m : ExceptT ε (Prog S) α) Q E := by
  intro w₀ w hP
  show (Except.ok <$> m : Prog S (Except ε α)).wp C t j (Outcome Q E) w₀ w
  rw [map_eq_pure_bind]
  exact Prog.wp_seq (h w₀ w hP) fun a w₀ w hQ => hQ

/-- A look at the state. -/
theorem look {f : S.State → ExceptT ε (Prog S) β}
    (h : ∀ s, Triple C t j (fun w₀ w => P w₀ w ∧ w.state = s) (f s) R E) :
    Triple C t j P (ExceptT.lift Prog.get >>= f) R E :=
  bind (lift (Q := fun s w₀ w => P w₀ w ∧ w.state = s) fun _ _ hP => ⟨hP, rfl⟩) h

/-- A change of the state. -/
theorem update {u : S.Update} {Q : Unit → Assertion S}
    (h : ∀ w₀ w, P w₀ w → Q () w₀ (w.edit u)) :
    Triple C t j P (ExceptT.lift (Prog.update u) : ExceptT ε (Prog S) Unit) Q E :=
  lift fun w₀ w hP => h w₀ w hP

/-- What a part raises is caught. -/
theorem attempt {m : ExceptT ε (Prog S) α} {Q : Except ε α → Assertion S}
    (h : Triple C t j P m (fun a => Q (.ok a)) fun e => Q (.error e)) :
    Triple C t j P (attempt m) Q E := by
  intro w₀ w hP
  refine Prog.wp_seq (h w₀ w hP) fun r w₀ w hr => ?_
  cases r with
  | ok a => exact hr
  | error e => exact hr

/-- A part that keeps an assertion. -/
theorem madeOf {Leaf : (γ : Type) → Prog S γ → Prop} {K : Assertion S}
    (hleaf : ∀ γ (m : Prog S γ), Leaf γ m → ∀ w₀ w, K w₀ w →
      m.wp C t j (fun _ w₀ w => K w₀ w) w₀ w)
    {m : ExceptT ε (Prog S) α} (hm : Prog.MadeOf Leaf m.run) :
    Triple C t j K m (fun _ => K) fun _ => K := by
  intro w₀ w hK
  refine Prog.wp_mono (fun r w₀ w h => ?_) _ _ _ (Prog.wp_of_madeOf hleaf hm hK)
  cases r <;> exact h

end Triple

/-! ### The parts of a part that can raise -/

namespace Prog

variable {Leaf : (γ : Type) → Prog S γ → Prop}

/-- Raising is made of no leaf. -/
theorem madeOf_throw (e : ε) :
    MadeOf Leaf (MonadExcept.throw e : ExceptT ε (Prog S) α).run := .pure _

/-- Nor is returning. -/
theorem madeOf_pure (a : α) : MadeOf Leaf (Pure.pure a : ExceptT ε (Prog S) α).run := .pure _

/-- A sequence is made of the leaves of both parts. -/
theorem madeOf_bind {m : ExceptT ε (Prog S) α} {f : α → ExceptT ε (Prog S) β}
    (hm : MadeOf Leaf m.run) (hf : ∀ a, MadeOf Leaf (f a).run) :
    MadeOf Leaf (m >>= f).run := by
  show MadeOf Leaf (m.run >>= ExceptT.bindCont f)
  refine .bind hm fun r => ?_
  cases r with
  | ok a => exact hf a
  | error e => exact .pure _

/-- So is a program that raises nothing. -/
theorem madeOf_lift {m : Prog S α} (hm : MadeOf Leaf m) :
    MadeOf Leaf (ExceptT.lift m : ExceptT ε (Prog S) α).run := by
  show MadeOf Leaf (Except.ok <$> m : Prog S (Except ε α))
  rw [map_eq_pure_bind]
  exact .bind hm fun a => .pure _

/-- So is a part whose failure is caught. -/
theorem madeOf_attempt {m : ExceptT ε (Prog S) α} (hm : MadeOf Leaf m.run) :
    MadeOf Leaf (attempt m).run :=
  .bind hm fun _ => .pure _

end Prog

end Coop
