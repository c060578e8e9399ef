import DbGuard.Coop.Frame

/-!
# `DbGuard.Coop.Trace`: one task against any environment

A `Call` is a request with its answer and the state in which it was issued. `Prog.Ends` and
`Prog.Asks` say what a program does when the state changes to anything at each of its
suspensions: which calls it makes until it returns, and which request it issues after which
calls. `ends_bind` and `asks_bind` take a program apart at a sequencing, so a question about
what a task asks is answered by looking at that task alone.

`Reach.asks` connects this to runs. Every request that a task of a pool has issued is one
that its program asks, after just the calls that the log has of it.
-/

set_option autoImplicit false

namespace Coop

variable {S : Sig} {α β : Type}

/-- A request that was answered. -/
structure Call (S : Sig) where
  state : S.State
  req : S.Req
  answer : S.Resp req

namespace Prog

/-- From state `s` the program makes the calls `tr` and returns `a` in state `s'`. -/
def Ends : Prog S α → S.State → List (Call S) → α → S.State → Prop
  | .done a, s, tr, a', s' => tr = [] ∧ a = a' ∧ s = s'
  | .look k, s, tr, a', s' => (k s).Ends s tr a' s'
  | .edit u k, s, tr, a', s' => k.Ends (S.apply u s) tr a' s'
  | .spawn _ k, s, tr, a', s' => ∃ t, (k t).Ends s tr a' s'
  | .await r k, s, tr, a', s' => ∃ x s₁ tr', tr = ⟨s, r, x⟩ :: tr' ∧ (k x).Ends s₁ tr' a' s'
  | .block c k, _, tr, a', s' => ∃ s₁, c s₁ = true ∧ k.Ends s₁ tr a' s'

/-- From state `s` the program makes the calls `tr` and then issues `r` in state `s'`. -/
def Asks : Prog S α → S.State → List (Call S) → S.Req → S.State → Prop
  | .done _, _, _, _, _ => False
  | .look k, s, tr, r, s' => (k s).Asks s tr r s'
  | .edit u k, s, tr, r, s' => k.Asks (S.apply u s) tr r s'
  | .spawn _ k, s, tr, r, s' => ∃ t, (k t).Asks s tr r s'
  | .await q k, s, tr, r, s' =>
    (tr = [] ∧ q = r ∧ s = s') ∨
      ∃ x s₁ tr', tr = ⟨s, q, x⟩ :: tr' ∧ (k x).Asks s₁ tr' r s'
  | .block c k, _, tr, r, s' => ∃ s₁, c s₁ = true ∧ k.Asks s₁ tr r s'

section
variable {s s' : S.State} {tr : List (Call S)} {r : S.Req} {a : α} {b : β}

/-! ### The instructions -/

/-- A program that does nothing ends at once. -/
@[simp] theorem ends_pure {a' : α} :
    (pure a : Prog S α).Ends s tr a' s' ↔ tr = [] ∧ a = a' ∧ s = s' := Iff.rfl

/-- It asks nothing. -/
@[simp] theorem asks_pure : ¬ (pure a : Prog S α).Asks s tr r s' := id

/-- A look returns the state. -/
@[simp] theorem ends_get {s₁ : S.State} :
    (get : Prog S S.State).Ends s tr s₁ s' ↔ tr = [] ∧ s = s₁ ∧ s = s' := Iff.rfl

/-- It asks nothing. -/
@[simp] theorem asks_get : ¬ (get : Prog S S.State).Asks s tr r s' := id

/-- An update changes the state. -/
@[simp] theorem ends_update {u : S.Update} {x : Unit} :
    (update u).Ends s tr x s' ↔ tr = [] ∧ () = x ∧ S.apply u s = s' := Iff.rfl

/-- It asks nothing. -/
@[simp] theorem asks_update {u : S.Update} : ¬ (update u).Asks s tr r s' := id

/-- A creation ends with some number. -/
theorem ends_create {j : S.Job} {t : Nat} :
    (create j).Ends s tr t s' ↔ tr = [] ∧ s = s' := by
  constructor
  · rintro ⟨t', htr, -, hs⟩
    exact ⟨htr, hs⟩
  · rintro ⟨htr, hs⟩
    exact ⟨t, htr, rfl, hs⟩

/-- It asks nothing. -/
@[simp] theorem asks_create {j : S.Job} : ¬ (create j).Asks s tr r s' := fun ⟨_, h⟩ => h

/-- A request ends with its answer. -/
theorem ends_call {q : S.Req} {x : S.Resp q} :
    (call q).Ends s tr x s' ↔ tr = [⟨s, q, x⟩] := by
  constructor
  · rintro ⟨x', s₁, tr', rfl, rfl, rfl, rfl⟩
    rfl
  · rintro rfl
    exact ⟨x, s', [], rfl, rfl, rfl, rfl⟩

/-- It asks itself, before any other call. -/
theorem asks_call {q : S.Req} : (call q).Asks s tr r s' ↔ tr = [] ∧ q = r ∧ s = s' := by
  constructor
  · rintro (h | ⟨x, s₁, tr', -, hno⟩)
    · exact h
    · exact hno.elim
  · exact .inl

/-- A wait ends in a state with its condition. -/
theorem ends_blockUntil {c : S.State → Bool} {x : Unit} :
    (blockUntil c).Ends s tr x s' ↔ tr = [] ∧ c s' = true := by
  constructor
  · rintro ⟨s₁, hc, htr, -, rfl⟩
    exact ⟨htr, hc⟩
  · rintro ⟨htr, hc⟩
    exact ⟨s', hc, htr, rfl, rfl⟩

/-- It asks nothing. -/
@[simp] theorem asks_blockUntil {c : S.State → Bool} : ¬ (blockUntil c).Asks s tr r s' :=
  fun ⟨_, _, h⟩ => h

/-- A task that hangs never ends. -/
@[simp] theorem ends_hang {a' : α} : ¬ (hang a : Prog S α).Ends s tr a' s' :=
  fun ⟨_, h, _⟩ => Bool.noConfusion h

/-- It asks nothing. -/
@[simp] theorem asks_hang : ¬ (hang a : Prog S α).Asks s tr r s' :=
  fun ⟨_, h, _⟩ => Bool.noConfusion h

/-! ### Sequencing -/

/-- A sequence ends with its second part, after the calls of both. -/
theorem ends_bind (f : α → Prog S β) : ∀ (m : Prog S α) (s : S.State) (tr : List (Call S)),
    (m >>= f).Ends s tr b s' ↔ ∃ tr₁ tr₂ a s₁, tr = tr₁ ++ tr₂ ∧ m.Ends s tr₁ a s₁ ∧
      (f a).Ends s₁ tr₂ b s' := by
  intro m
  -- Over the program: each part before the end adds its own call in front.
  induction m with
  | done a =>
      intro s tr
      constructor
      · intro h
        exact ⟨[], tr, a, s, rfl, ⟨rfl, rfl, rfl⟩, h⟩
      · rintro ⟨_, tr₂, _, _, rfl, ⟨rfl, rfl, rfl⟩, h⟩
        exact h
  | look k ih => intro s tr; exact ih s s tr
  | edit u k ih => intro s tr; exact ih _ tr
  | spawn j k ih =>
      intro s tr
      constructor
      · rintro ⟨t, h⟩
        obtain ⟨tr₁, tr₂, a, s₁, heq, h₁, h₂⟩ := (ih t s tr).mp h
        exact ⟨tr₁, tr₂, a, s₁, heq, ⟨t, h₁⟩, h₂⟩
      · rintro ⟨tr₁, tr₂, a, s₁, heq, ⟨t, h₁⟩, h₂⟩
        exact ⟨t, (ih t s tr).mpr ⟨tr₁, tr₂, a, s₁, heq, h₁, h₂⟩⟩
  | await q k ih =>
      intro s tr
      constructor
      · rintro ⟨x, s₀, tr', rfl, h⟩
        obtain ⟨tr₁, tr₂, a, s₁, rfl, h₁, h₂⟩ := (ih x s₀ tr').mp h
        exact ⟨⟨s, q, x⟩ :: tr₁, tr₂, a, s₁, rfl, ⟨x, s₀, tr₁, rfl, h₁⟩, h₂⟩
      · rintro ⟨_, tr₂, a, s₁, rfl, ⟨x, s₀, tr₁, rfl, h₁⟩, h₂⟩
        exact ⟨x, s₀, tr₁ ++ tr₂, rfl, (ih x s₀ _).mpr ⟨tr₁, tr₂, a, s₁, rfl, h₁, h₂⟩⟩
  | block c k ih =>
      intro s tr
      constructor
      · rintro ⟨s₀, hc, h⟩
        obtain ⟨tr₁, tr₂, a, s₁, heq, h₁, h₂⟩ := (ih s₀ tr).mp h
        exact ⟨tr₁, tr₂, a, s₁, heq, ⟨s₀, hc, h₁⟩, h₂⟩
      · rintro ⟨tr₁, tr₂, a, s₁, heq, ⟨s₀, hc, h₁⟩, h₂⟩
        exact ⟨s₀, hc, (ih s₀ tr).mpr ⟨tr₁, tr₂, a, s₁, heq, h₁, h₂⟩⟩

/-- What a sequence asks is asked by its first part, or by the second after the first has ended. -/
theorem asks_bind (f : α → Prog S β) : ∀ (m : Prog S α) (s : S.State) (tr : List (Call S)),
    (m >>= f).Asks s tr r s' ↔ m.Asks s tr r s' ∨ ∃ tr₁ tr₂ a s₁, tr = tr₁ ++ tr₂ ∧
      m.Ends s tr₁ a s₁ ∧ (f a).Asks s₁ tr₂ r s' := by
  intro m
  -- By induction on the program: a silent step goes to the induction hypothesis as it stands.
  induction m with
  | done a =>
      intro s tr
      constructor
      -- A finished prefix asks nothing, so the request is one of the rest.
      · intro h
        exact .inr ⟨[], tr, a, s, rfl, ⟨rfl, rfl, rfl⟩, h⟩
      · rintro (h | ⟨_, tr₂, _, _, rfl, ⟨rfl, rfl, rfl⟩, h⟩)
        · exact h.elim
        · exact h
  | look k ih => intro s tr; exact ih s s tr
  | edit u k ih => intro s tr; exact ih _ tr
  | spawn j k ih =>
      intro s tr
      constructor
      -- The spawned task's number is chosen once, for either side.
      · rintro ⟨t, h⟩
        rcases (ih t s tr).mp h with h | ⟨tr₁, tr₂, a, s₁, heq, h₁, h₂⟩
        · exact .inl ⟨t, h⟩
        · exact .inr ⟨tr₁, tr₂, a, s₁, heq, ⟨t, h₁⟩, h₂⟩
      · rintro (⟨t, h⟩ | ⟨tr₁, tr₂, a, s₁, heq, ⟨t, h₁⟩, h₂⟩)
        · exact ⟨t, (ih t s tr).mpr (.inl h)⟩
        · exact ⟨t, (ih t s tr).mpr (.inr ⟨tr₁, tr₂, a, s₁, heq, h₁, h₂⟩)⟩
  | await q k ih =>
      intro s tr
      constructor
      -- Either this very call is the request, or its answer leads on.
      · rintro (h | ⟨x, s₀, tr', rfl, h⟩)
        · exact .inl (.inl h)
        · rcases (ih x s₀ tr').mp h with h | ⟨tr₁, tr₂, a, s₁, rfl, h₁, h₂⟩
          · exact .inl (.inr ⟨x, s₀, tr', rfl, h⟩)
          · exact .inr ⟨⟨s, q, x⟩ :: tr₁, tr₂, a, s₁, rfl, ⟨x, s₀, tr₁, rfl, h₁⟩, h₂⟩
      -- Backwards: the three places at which the request may stand.
      · rintro ((h | ⟨x, s₀, tr', rfl, h⟩) | ⟨_, tr₂, a, s₁, rfl, ⟨x, s₀, tr₁, rfl, h₁⟩, h₂⟩)
        · exact .inl h
        · exact .inr ⟨x, s₀, tr', rfl, (ih x s₀ tr').mpr (.inl h)⟩
        · refine .inr ⟨x, s₀, tr₁ ++ tr₂, rfl, (ih x s₀ _).mpr (.inr ?_)⟩
          exact ⟨tr₁, tr₂, a, s₁, rfl, h₁, h₂⟩
  | block c k ih =>
      intro s tr
      constructor
      -- The state in which the task wakes is the same on both sides.
      · rintro ⟨s₀, hc, h⟩
        rcases (ih s₀ tr).mp h with h | ⟨tr₁, tr₂, a, s₁, heq, h₁, h₂⟩
        · exact .inl ⟨s₀, hc, h⟩
        · exact .inr ⟨tr₁, tr₂, a, s₁, heq, ⟨s₀, hc, h₁⟩, h₂⟩
      · rintro (⟨s₀, hc, h⟩ | ⟨tr₁, tr₂, a, s₁, heq, ⟨s₀, hc, h₁⟩, h₂⟩)
        · exact ⟨s₀, hc, (ih s₀ tr).mpr (.inl h)⟩
        · exact ⟨s₀, hc, (ih s₀ tr).mpr (.inr ⟨tr₁, tr₂, a, s₁, heq, h₁, h₂⟩)⟩

/-- After a look at the state. -/
theorem ends_look {f : S.State → Prog S β} :
    ((get : Prog S S.State) >>= f).Ends s tr b s' ↔ (f s).Ends s tr b s' := Iff.rfl

/-- After a look the program goes on with the state. -/
theorem asks_look {f : S.State → Prog S β} :
    ((get : Prog S S.State) >>= f).Asks s tr r s' ↔ (f s).Asks s tr r s' := Iff.rfl

/-- After a call. -/
theorem ends_call_bind {q : S.Req} {f : S.Resp q → Prog S β} :
    (call q >>= f).Ends s tr b s' ↔
      ∃ x s₁ tr', tr = ⟨s, q, x⟩ :: tr' ∧ (f x).Ends s₁ tr' b s' := Iff.rfl

/-- A sequence that begins with a request asks it, or goes on with its answer. -/
theorem asks_call_bind {q : S.Req} {f : S.Resp q → Prog S β} :
    (call q >>= f).Asks s tr r s' ↔ (tr = [] ∧ q = r ∧ s = s') ∨
      ∃ x s₁ tr', tr = ⟨s, q, x⟩ :: tr' ∧ (f x).Asks s₁ tr' r s' := Iff.rfl

/-- Programs one after the other. -/
theorem ends_seq {m : Prog S α} {f : α → Prog S β} (tr tr' : List (Call S)) (s₁ : S.State)
    (h : m.Ends s tr a s₁) (h' : (f a).Ends s₁ tr' b s') :
    (m >>= f).Ends s (tr ++ tr') b s' :=
  (ends_bind f m s _).mpr ⟨tr, tr', a, s₁, rfl, h, h'⟩

/-- What the second part asks is asked after the calls of the first. -/
theorem asks_seq {m : Prog S α} {f : α → Prog S β} (tr tr' : List (Call S)) (s₁ : S.State)
    (h : m.Ends s tr a s₁) (h' : (f a).Asks s₁ tr' r s') :
    (m >>= f).Asks s (tr ++ tr') r s' :=
  (asks_bind f m s _).mpr (.inr ⟨tr, tr', a, s₁, rfl, h, h'⟩)

end

/-! ### The parts of a program -/

section
variable {Leaf : (γ : Type) → Prog S γ → Prop} {P : S.Req → Prop}

/-- A program makes only calls that its parts make. -/
theorem calls_of_madeOf
    (hleaf : ∀ γ (m : Prog S γ), Leaf γ m → ∀ s tr a s', m.Ends s tr a s' →
      ∀ c ∈ tr, P c.req) {m : Prog S α} (hm : MadeOf Leaf m) {s s' : S.State}
    {tr : List (Call S)} {a : α} (h : m.Ends s tr a s') : ∀ c ∈ tr, P c.req := by
  induction hm generalizing s s' tr with
  | leaf hl => exact hleaf _ _ hl s tr a s' h
  | pure a' =>
      rw [h.1]
      exact fun c hc => absurd hc List.not_mem_nil
  | bind _ _ ihm ihf =>
      obtain ⟨tr₁, tr₂, a₁, s₁, rfl, h₁, h₂⟩ := (ends_bind _ _ _ _).mp h
      intro c hc
      rcases List.mem_append.mp hc with hc | hc
      · exact ihm h₁ c hc
      · exact ihf a₁ h₂ c hc

/-- The same for the calls before a request. -/
theorem calls_of_asks_madeOf
    (hends : ∀ γ (m : Prog S γ), Leaf γ m → ∀ s tr a s', m.Ends s tr a s' →
      ∀ c ∈ tr, P c.req)
    (hasks : ∀ γ (m : Prog S γ), Leaf γ m → ∀ s tr r s', m.Asks s tr r s' →
      ∀ c ∈ tr, P c.req) {m : Prog S α} (hm : MadeOf Leaf m) {s s' : S.State}
    {tr : List (Call S)} {r : S.Req} (h : m.Asks s tr r s') : ∀ c ∈ tr, P c.req := by
  induction hm generalizing s s' tr with
  | leaf hl => exact hasks _ _ hl s tr r s' h
  | pure a' => exact absurd h asks_pure
  | bind hm _ ihm ihf =>
      rcases (asks_bind _ _ _ _).mp h with h | ⟨tr₁, tr₂, a₁, s₁, rfl, h₁, h₂⟩
      · exact ihm h
      · intro c hc
        rcases List.mem_append.mp hc with hc | hc
        · exact calls_of_madeOf hends hm h₁ c hc
        · exact ihf a₁ h₂ c hc

/-- A program asks only what its parts ask. -/
theorem asks_of_madeOf
    (hleaf : ∀ γ (m : Prog S γ), Leaf γ m → ∀ s tr r s', m.Asks s tr r s' → P r)
    {m : Prog S α} (hm : MadeOf Leaf m) {s s' : S.State} {tr : List (Call S)} {r : S.Req}
    (h : m.Asks s tr r s') : P r := by
  induction hm generalizing s s' tr with
  | leaf hl => exact hleaf _ _ hl s tr r s' h
  | pure a' => exact absurd h asks_pure
  | bind _ _ ihm ihf =>
      rcases (asks_bind _ _ _ _).mp h with h | ⟨tr₁, tr₂, a₁, s₁, -, -, h₂⟩
      · exact ihm h
      · exact ihf a₁ h₂

end

end Prog

/-! ### The calls of a task in a log -/

/-- Whether the event is a request of task `t` or an answer to it. -/
def Event.isCallOf (t : Nat) : Event S → Bool
  | .issued t' _ _ _ => t' = t
  | .answered t' _ _ => t' = t
  | _ => false

/-- The requests of task `t` and their answers, in a log. -/
def dialog (t : Nat) (log : List (Event S)) : List (Event S) := log.filter (·.isCallOf t)

/-- The steps that calls of task `t` with job `j` leave in a log. -/
def Call.steps (t : Nat) (j : S.Job) (tr : List (Call S)) : List (Event S) :=
  tr.flatMap fun c => [.issued t j c.req c.state, .answered t c.req c.answer]

section
variable {t : Nat} {j : S.Job} {w₀ w w' : World S}

/-- The steps of two lists of calls come one behind the other. -/
theorem Call.steps_append (tr tr' : List (Call S)) :
    Call.steps t j (tr ++ tr') = Call.steps t j tr ++ Call.steps t j tr' :=
  List.flatMap_append

/-- The dialog of a longer log is a longer dialog. -/
theorem dialog_append (l l' : List (Event S)) : dialog t (l ++ l') = dialog t l ++ dialog t l' :=
  List.filter_append l l'

/-- A step in the dialog of a task is a step in the log. -/
theorem split_of_dialog {l X Y : List (Event S)} {e : Event S}
    (h : dialog t l = X ++ e :: Y) :
    ∃ l₁ l₂, l = l₁ ++ e :: l₂ ∧ dialog t l₁ = X ∧ dialog t l₂ = Y := by
  obtain ⟨l₁, l₂, rfl, hX, hrest⟩ := List.filter_eq_append_iff.mp h
  obtain ⟨l₃, l₄, rfl, hnone, -, hY⟩ := List.filter_eq_cons_iff.mp hrest
  refine ⟨l₁ ++ l₃, l₄, (List.append_assoc _ _ _).symm, ?_, hY⟩
  have hempty : dialog t l₃ = [] := List.filter_eq_nil_iff.mpr hnone
  rw [dialog_append, hempty, List.append_nil]
  exact hX

/-- An answer of task `t` in the log is the answer of one of its calls. -/
theorem call_of_answered {l : List (Event S)} {tr : List (Call S)} {r : S.Req} {a : S.Resp r}
    (h : dialog t l = Call.steps t j tr) (ha : .answered t r a ∈ l) :
    ∃ c ∈ tr, c = ⟨c.state, r, a⟩ := by
  have hmem : .answered t r a ∈ dialog t l := List.mem_filter.mpr ⟨ha, by simp [Event.isCallOf]⟩
  rw [h] at hmem
  obtain ⟨c, hc, hin⟩ := List.mem_flatMap.mp hmem
  rcases List.mem_cons.mp hin with heq | hin
  · cases heq
  · cases List.mem_singleton.mp hin
    exact ⟨c, hc, rfl⟩

/-- A call of a task is a step of it. -/
theorem isBy_of_isCallOf {e : Event S} (h : e.isCallOf t = true) : e.isBy t = true := by
  cases e <;> simp_all [Event.isCallOf, Event.isBy]

/-- The calls of a task are among its steps. -/
theorem dialog_own (l : List (Event S)) : dialog t (own t l) = dialog t l := by
  unfold dialog own
  rw [List.filter_filter]
  refine List.filter_congr fun e _ => ?_
  cases h : e.isCallOf t with
  | false => rfl
  | true => simp [isBy_of_isCallOf h]

/-- The dialog is read off the task's own part of the log. -/
theorem dialog_of_own_eq {l l' : List (Event S)} (h : own t l' = own t l) :
    dialog t l' = dialog t l := by
  rw [← dialog_own l', h, dialog_own]

end

/-- A request in a log is one that the program of its task asks, after the calls that the
log before it has of this task. -/
def Traced (body : Nat → S.Job → Prog S Unit) (l : List (Event S)) : Event S → Prop
  | .issued t j r s =>
    ∃ s₀ tr, (body t j).Asks s₀ tr r s ∧ dialog t l = Call.steps t j tr
  | _ => True

/-- The contract that every request is traced. -/
def traced (body : Nat → S.Job → Prog S Unit) : Contract S where
  inv w := Checked (Traced body) w.log
  rely _ _ _ := True
  allowed _ _ _ := True
  answers _ _ _ _ := True
  may _ _ w := Checked (Traced body) w.log
  pre _ _ _ := True

section
variable {body : Nat → S.Job → Prog S Unit} {t : Nat} {j : S.Job}

/-- The rest `m` of a program after the calls `tr`. -/
theorem wp_traced : ∀ (m : Prog S Unit) (s₀ : S.State) (tr : List (Call S)) (w₀ w : World S),
    (∀ tr' r s', m.Asks w.state tr' r s' → (body t j).Asks s₀ (tr ++ tr') r s') →
      dialog t w.log = Call.steps t j tr → Checked (Traced body) w.log →
        m.wp ((frame S).upon (traced body)) t j
          (fun _ _ w => Checked (Traced body) w.log) w₀ w := by
  intro m
  -- The trace of the rest continues the trace so far, which is the dialogue in the log.
  induction m with
  | done a => intro s₀ tr w₀ w _ _ hchecked; exact hchecked
  | look k ih => intro s₀ tr w₀ w hrest; exact ih _ s₀ tr w₀ w hrest
  | edit u k ih => intro s₀ tr w₀ w hrest; exact ih s₀ tr w₀ (w.edit u) hrest
  | spawn j' k ih =>
      intro s₀ tr w₀ w hrest hdialog hchecked
      -- A spawn leaves an event that is no call.
      refine ih _ s₀ tr w₀ (w.spawn t j') (fun tr' r s' h => hrest tr' r s' ⟨_, h⟩) ?_
        (hchecked.concat trivial)
      show dialog t (w.log ++ [_]) = _
      rw [dialog_append, hdialog]
      exact List.append_nil _
  | await q k ih =>
      intro s₀ tr w₀ w hrest hdialog hchecked _
      -- The request is asked by the whole body, after the trace so far.
      have hasked : (body t j).Asks s₀ tr q w.state := by
        have := hrest [] q w.state (.inl ⟨rfl, rfl, rfl⟩)
        rwa [List.append_nil] at this
      have hissued : Checked (Traced body) (w.issue t j q).log :=
        hchecked.concat ⟨s₀, tr, hasked, hdialog⟩
      refine ⟨hissued, fun w' x hi hr _ => ?_⟩
      refine ih x s₀ (tr ++ [⟨w.state, q, x⟩]) w' (w'.answer t q x) ?_ ?_
        (hi.2.concat trivial)
      -- The answer extends the trace by this call.
      · intro tr' r s' h
        rw [List.append_assoc]
        exact hrest _ r s' (.inr ⟨x, w'.state, tr', rfl, h⟩)
      -- Its two events extend the dialogue by the same call.
      · show dialog t (w'.log ++ [_]) = _
        rw [dialog_append, dialog_of_own_eq hr.1.own, World.issue_log, dialog_append, hdialog,
          Call.steps_append]
        simp [dialog, Event.isCallOf, Call.steps]
  | block c k ih =>
      intro s₀ tr w₀ w hrest hdialog hchecked _
      refine ⟨hchecked, fun w' hi hr hc => ?_⟩
      refine ih s₀ tr w' w' (fun tr' r s' h => hrest tr' r s' ⟨w'.state, hc, h⟩) ?_ hi.2
      -- Others do not write this task's dialogue while it waits.
      rw [dialog_of_own_eq hr.1.own, hdialog]

/-- In every run, each request is one that its task's program asks. -/
theorem traced_sound (body : Nat → S.Job → Prog S Unit)
    (ok : Pool S → Move S → Pool S → Prop) : (frame S).SoundOver (traced body) body ok where
  rely_refl _ _ := trivial
  rely_trans _ _ _ _ _ _ := trivial
  rely_of_may _ _ _ _ _ _ _ _ _ := trivial
  rely_arrive _ _ _ _ _ _ := trivial
  rely_outside _ _ _ _ _ _ := trivial
  rely_land _ _ _ _ _ _ _ := trivial
  rely_resend _ _ _ _ _ _ _ := trivial
  inv_may _ _ _ _ _ _ h := h
  inv_arrive _ _ _ _ hi := hi
  inv_outside _ _ _ _ hi := hi
  inv_land _ _ _ _ _ hi := hi.concat trivial
  inv_resend _ _ _ _ _ hi := hi.concat trivial
  pre_rely _ _ _ _ _ _ _ := trivial
  pre_may _ _ _ _ _ _ _ _ _ _ _ := trivial
  pre_arrive _ _ _ _ _ := trivial
  allowed_start _ _ _ _ := trivial
  allowed_answer _ _ _ _ _ := trivial
  allowed_wake _ _ _ _ := trivial
  answers_ok _ _ _ _ _ _ _ _ := trivial
  body_wp t j w _ hi _ hpre _ := by
    -- A task that starts has no events of its own yet.
    have hnone : dialog t w.log = Call.steps t j [] := by
      rw [← dialog_own, hpre.2]
      rfl
    have hend : ∀ w : World S, Traced body w.log (.finished t w.state) := fun _ => trivial
    exact Prog.wp_mono (fun _ _ w h _ => h.concat (hend w)) _ _ _
      (wp_traced _ w.state [] w w (fun _ _ _ h => h) hnone hi)

/-- Every request in the log of a run is traced. -/
theorem Reach.asks {ok : Pool S → Move S → Pool S → Prop} {s : S.State} {p : Pool S}
    (hr : Reach body ok (Pool.init s []) p) : Checked (Traced body) p.world.log :=
  (((frame_sound body ok).both (traced_sound body ok)).holds_reach
    (Contract.holds_init ⟨by simp [frame, Pool.init], checked_nil⟩
      fun _ _ h => by cases h) hr).inv.2

end

end Coop
