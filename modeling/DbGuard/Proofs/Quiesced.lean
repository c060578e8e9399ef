import DbGuard.Proofs.Fake

/-!
# `DbGuard.Proofs.Quiesced`: a node that has stopped taking writes

A node that `Heads` its set follows no other, and has nothing left to apply or to commit. It
executes only what clients write to it, so once it is read-only its set is final. `heads_step`
says so of a step of time, part by part, and `spared_of_move` of every move that `Spares` the
old primary and the candidate.

`Headed` is the fleet while only the old primary can have commits acknowledged, and `Caught`
once the candidate has applied the final set. The moves that make the candidate the primary
keep `Caught` (`Caught.reassign`).
-/

set_option autoImplicit false

namespace DbGuard

/-- The node follows no other, and has nothing left to apply or to commit. If its set is
`final`, it takes no writes and has executed no more. -/
structure FakeNode.Heads (final : Option GtidSet) (a : FakeNode) : Prop where
  source : a.source = none
  pending : a.pending.isEmpty = true
  retrieved : a.retrieved ⊆ a.executed
  rests : ∀ g, final = some g → a.superReadOnly = true ∧ a.executed ⊆ g

/-- The node keeps its source, loses it, or follows `W`. It becomes a semi-sync source only if
it `may`. -/
structure FakeNode.Follows (W : Node) (may : Prop) (a b : FakeNode) : Prop where
  rs : b.rs = a.rs
  source : b.source = a.source ∨ b.source = none ∨ b.source = some W
  semisyncSource : b.semisyncSource = true → a.semisyncSource = true ∨ may

/-- A node follows for a wider reason, too. -/
theorem FakeNode.Follows.mono {W : Node} {may may' : Prop} {a b : FakeNode}
    (h : a.Follows W may b) (hle : may → may') : a.Follows W may' b :=
  ⟨h.rs, h.source, fun hs => (h.semisyncSource hs).imp_right hle⟩

namespace FakeFleet

variable {F F' : FakeFleet} {n m old W : Node} {rs : String} {final : Option GtidSet}
  {now : Time} {g : GtidSet}

/-! ### A step of time -/

/-- A change of one node keeps the set at the head of the others. -/
theorem heads_modify {f : FakeNode → FakeNode} (h : (F.node n).Heads final)
    (hf : n = m → (f (F.node n)).Heads final) : ((F.modify m f).node n).Heads final := by
  by_cases heq : n = m
  · subst heq
    rw [modify_node_self]
    exact hf rfl
  · rw [modify_node_of_ne f heq]
    exact h

/-- The old primary keeps it when a wait runs out. -/
theorem heads_flush (h : (F.node n).Heads final) : ((F.flush now m).node n).Heads final := by
  unfold flush
  dsimp only
  split
  · rename_i hpending
    -- A session that waits is not on `n`.
    refine heads_modify h fun heq => ?_
    subst heq
    simp [h.pending] at hpending
  · exact h

/-- And when a writer commits. -/
theorem heads_commit (h : (F.node n).Heads final) : ((F.commit now rs m).node n).Heads final := by
  have hbeat : ∀ F : FakeFleet, (F.node n).Heads final → ∀ b : Bool,
      ((if b then F else F.modify m fun p => { p with heartbeatTs := some now }).node
        n).Heads final := by
    intro F h b
    split
    · exact h
    · exact heads_modify h fun _ => ⟨h.source, h.pending, h.retrieved, h.rests⟩
  unfold commit
  dsimp only
  split
  · exact h
  · rename_i hwritable
    refine hbeat _ ?_ _
    have hexec : ∀ F' : FakeFleet, F'.node = F.node → ∀ x : GtidSet,
        ((F'.modify m fun p =>
          { p with nextGno := p.nextGno + 1, executed := p.executed ∪ x }).node n).Heads final := by
      intro F' hnode x
      refine heads_modify (hnode ▸ h) fun heq => ?_
      subst heq
      rw [hnode]
      -- The node takes writes, so its set is not final.
      have hready : (F.node n).superReadOnly = false := by
        simp only [FakeNode.writable, Bool.not_eq_true', Bool.not_eq_false,
          Bool.and_eq_true] at hwritable
        simpa using hwritable.1.2
      refine ⟨h.source, h.pending, GtidSet.Subset.trans h.retrieved (union_left _ _),
        fun g hg => ?_⟩
      have hro := (h.rests g hg).1
      rw [hready] at hro
      cases hro
    split
    · exact h
    · split
      · exact h
      · split
        · exact hexec _ rfl _
        · exact hexec _ rfl _

/-- And when a replica receives. -/
theorem heads_receiveFrom (h : (F.node n).Heads final) :
    ((F.receiveFrom m).node n).Heads final := by
  unfold receiveFrom
  dsimp only
  split
  · exact h
  · rename_i src hsource
    -- A head follows nobody, so it receives nothing.
    have hne : n ≠ m := by
      intro heq
      subst heq
      cases h.source.symm.trans hsource
    split
    · exact h
    · split
      · dsimp only
        exact heads_modify h fun heq => absurd heq hne
      · exact heads_modify h fun heq => absurd heq hne

/-- And when it applies. -/
theorem heads_applyRelay (h : (F.node n).Heads final) :
    ((F.applyRelay m).node n).Heads final := by
  unfold applyRelay
  dsimp only
  split
  · exact h
  · refine heads_modify h fun heq => ?_
    subst heq
    refine ⟨h.source, h.pending, GtidSet.Subset.trans h.retrieved (union_left _ _),
      fun g hg => ⟨(h.rests g hg).1, fun x hx => ?_⟩⟩
    rcases (GtidSet.mem_union _ _ x).mp hx with hx | hx
    · exact (h.rests g hg).2 x hx
    · -- all that it has received it has executed
      have htodo := GtidSet.takeFirst_subset _ _ x hx
      have hnew := ((GtidSet.mem_subtract _ _ x).mp htodo).1
      obtain ⟨hret, hexec⟩ := (GtidSet.mem_subtract _ _ x).mp hnew
      exact absurd (h.retrieved x hret) hexec

/-- And over a whole step of time. -/
theorem heads_step (h : (F.node n).Heads final) (now : Time) :
    ((F.step now).node n).Heads final := by
  have hfold : ∀ {ι : Type} (f : FakeFleet → ι → FakeFleet) (l : List ι) (F : FakeFleet),
      (∀ (F : FakeFleet) (i : ι), (F.node n).Heads final → ((f F i).node n).Heads final) →
        (F.node n).Heads final → ((l.foldl f F).node n).Heads final :=
    fun f l F hf h => List.foldlRecOn (motive := fun F => (F.node n).Heads final) l f h
      fun F hF i _ => hf F i hF
  unfold step
  dsimp only
  refine hfold _ _ _ (fun _ _ => heads_applyRelay) ?_
  refine hfold _ _ _ (fun _ _ => heads_receiveFrom) ?_
  refine hfold _ _ _ (fun _ _ h => hfold _ _ _ (fun _ _ => heads_commit) h) ?_
  exact hfold _ _ _ (fun _ _ => heads_flush) h

/-! ### Moves that spare the two ends of a handover -/

/-- A change by which `old` stays a head, `old` and `W` lose nothing that they have applied, and
no node becomes a semi-sync source or follows another node than before, but for `W`. -/
structure Spared (old W : Node) (F F' : FakeFleet) : Prop where
  safe : F.Safe ∅ F'
  node : ∀ n, (F.node n).Follows W False (F'.node n)
  executed : ∀ n, n = old ∨ n = W → (F.node n).executed ⊆ (F'.node n).executed
  heads : ∀ final, (F.node old).Heads final → (F'.node old).Heads final

/-- The moves by which nobody but `W` gets a role. `old` gets no transaction but from clients,
and neither end is cloned over. -/
def Move.Spares (old W : Node) : Move → Prop
  | .setup _ _ | .reroute _ _ | .promote _ => False
  | .repoint n source => n ≠ old ∧ source = some W
  | .rebuilt n _ => n ≠ old ∧ n ≠ W
  | .errant n _ | .wait n _ _ | .tear n _ => n ≠ old
  | _ => True

instance (old W : Node) : ∀ m : Move, Decidable (m.Spares old W)
  | .setup _ _ | .reroute _ _ | .promote _ => .isFalse id
  | .repoint n source => inferInstanceAs (Decidable (n ≠ old ∧ source = some W))
  | .rebuilt n _ => inferInstanceAs (Decidable (n ≠ old ∧ n ≠ W))
  | .errant n _ | .wait n _ _ | .tear n _ => inferInstanceAs (Decidable (n ≠ old))
  | .step _ | .write _ | .partition _ _ | .heal | .cutManager _ | .kill _ | .start _ | .hang _ _
  | .freeze _ _ | .mysqld _ _ | .receive _ _ | .applyPerStep _ _ | .sqlError _ _ | .hide _ _
  | .fence _ | .killed _ | .unfence _ | .rebuild _ _ | .stopIo _ => .isTrue trivial

/-- What passes with time spares both nodes. -/
theorem Stepped.spared (h : F.Stepped F')
    (hheads : ∀ final, (F.node old).Heads final → (F'.node old).Heads final) :
    F.Spared old W F' where
  safe := h.safe
  node n := ⟨(h.node n).rs, .inl (h.node n).source,
    fun hs => .inl ((h.node n).semisyncSource.symm.trans hs)⟩
  executed n _ := (h.node n).executed
  heads := hheads

/-- One node changes. -/
theorem Spared.update {b : FakeNode} (hsafe : F.Safe ∅ F')
    (hnode : F'.node = Function.update F.node n b) (hfollows : (F.node n).Follows W False b)
    (hexec : n = old ∨ n = W → (F.node n).executed ⊆ b.executed)
    (hheads : n = old → ∀ final, (F.node n).Heads final → b.Heads final) :
    F.Spared old W F' := by
  refine ⟨hsafe, fun m => ?_, fun m hm => ?_, fun final h => ?_⟩
  · rw [hnode]
    by_cases heq : m = n
    · subst heq
      rwa [Function.update_self]
    · rw [Function.update_of_ne heq]
      exact ⟨rfl, .inl rfl, .inl⟩
  · rw [hnode]
    by_cases heq : m = n
    · subst heq
      rw [Function.update_self]
      exact hexec hm
    · rw [Function.update_of_ne heq]
      exact GtidSet.Subset.refl _
  · rw [hnode]
    by_cases heq : old = n
    · subst heq
      rw [Function.update_self]
      exact hheads rfl final h
    · rw [Function.update_of_ne heq]
      exact h

/-- A fault that leaves the transactions and the role of a node. -/
theorem spared_of_fault {f : FakeNode → FakeNode} (h : F.fault n f = some F')
    (hf : (F.node n).Advances (f (F.node n)))
    (hheads : ∀ final, (F.node n).Heads final → (f (F.node n)).Heads final) :
    F.Spared old W F' := by
  refine (stepped_of_fault h hf).spared fun final hold => ?_
  obtain ⟨-, ⟨⟩⟩ := Option.ite_none_right_eq_some.mp h
  refine heads_modify hold fun heq => ?_
  subst heq
  exact hheads final hold

/-- So does a move that is neither's. -/
theorem spared_of_move {m : Move} (h : F.move m = some F') (hm : m.Spares old W) :
    F.Spared old W F' := by
  have hrefl := GtidSet.Subset.refl
  have hsafe : F.Safe ∅ F' := safe_of_move h fun n hn => hn.elim
  -- A move changes the role, the source or the data of one node at most, so the cases are about
  -- that node.
  cases m with
  -- These moves are what the condition leaves out.
  | setup _ _ | reroute _ _ | promote _ => exact hm.elim
  | step now =>
    cases h
    exact (stepped_step F now).spared fun _ hold => heads_step hold now
  -- These leave every node as it is.
  | write _ | partition _ _ | heal | cutManager _ =>
    cases h
    exact ⟨hsafe, fun n => ⟨rfl, .inl rfl, .inl⟩, fun n _ => hrefl _, fun _ hold => hold⟩
  -- A fault leaves what the node has executed and retrieved.
  | kill _ | hang _ _ | freeze _ _ | mysqld _ _ | receive _ _ | applyPerStep _ _ | sqlError _ _
  | hide _ _ =>
    exact spared_of_fault h ⟨rfl, rfl, rfl, rfl, rfl, rfl, hrefl _, hrefl _⟩ fun _ hold =>
      ⟨hold.source, hold.pending, hold.retrieved, hold.rests⟩
  | errant n x =>
    obtain ⟨-, ⟨⟩⟩ := Option.ite_none_right_eq_some.mp h
    exact .update hsafe rfl ⟨rfl, .inl rfl, .inl⟩ (fun _ => union_left _ _) fun heq =>
      absurd heq hm
  | wait n x till =>
    obtain ⟨-, ⟨⟩⟩ := Option.ite_none_right_eq_some.mp h
    exact .update hsafe rfl ⟨rfl, .inl rfl, .inl⟩ (fun _ => hrefl _) fun heq => absurd heq hm
  | tear n x =>
    obtain ⟨-, ⟨⟩⟩ := Option.ite_none_right_eq_some.mp h
    exact .update hsafe rfl ⟨rfl, .inl rfl, .inl⟩ (fun _ => hrefl _) fun heq => absurd heq hm
  -- A node that starts has lost its relay log, and the old primary has none.
  | start n =>
    obtain ⟨-, ⟨⟩⟩ := Option.ite_none_right_eq_some.mp h
    refine .update hsafe rfl ⟨rfl, .inl rfl, fun hs => by cases hs⟩ (fun _ => hrefl _) ?_
    exact fun _ _ hold => ⟨hold.source, hold.pending,
      fun x hx => absurd hx (GtidSet.not_mem_empty x), fun g hg => ⟨rfl, (hold.rests g hg).2⟩⟩
  | fence n =>
    obtain ⟨-, ⟨⟩⟩ := Option.ite_none_right_eq_some.mp h
    unfold fence at hsafe ⊢
    split at hsafe
    · rename_i hkill
      rw [if_pos hkill]
      exact .update hsafe rfl ⟨rfl, .inl rfl, .inl⟩ (fun _ => hrefl _) fun _ _ hold =>
        ⟨hold.source, hold.pending, hold.retrieved, hold.rests⟩
    · rename_i hkill
      rw [if_neg hkill]
      exact .update hsafe rfl ⟨rfl, .inl rfl, .inl⟩ (fun _ => hrefl _) fun _ _ hold =>
        ⟨hold.source, hold.pending, hold.retrieved, fun g hg => ⟨rfl, (hold.rests g hg).2⟩⟩
  | killed n =>
    obtain ⟨-, ⟨⟩⟩ := Option.ite_none_right_eq_some.mp h
    exact .update hsafe rfl ⟨rfl, .inl rfl, .inl⟩ (fun _ => hrefl _) fun _ _ hold =>
      ⟨hold.source, hold.pending, hold.retrieved, fun g hg => ⟨rfl, (hold.rests g hg).2⟩⟩
  | unfence n =>
    obtain ⟨-, ⟨⟩⟩ := Option.ite_none_right_eq_some.mp h
    exact .update hsafe rfl ⟨rfl, .inl rfl, .inl⟩ (fun _ => hrefl _) fun _ _ hold =>
      ⟨hold.source, hold.pending, hold.retrieved, hold.rests⟩
  -- Another node than the old primary gets a new source.
  | repoint n source =>
    obtain ⟨hne, rfl⟩ := hm
    obtain ⟨-, ⟨⟩⟩ := Option.ite_none_right_eq_some.mp h
    exact .update hsafe rfl ⟨rfl, .inr (.inr rfl), fun hs => by cases hs⟩ (fun _ => hrefl _)
      fun heq => absurd heq hne
  | rebuild n donor =>
    obtain ⟨-, ⟨⟩⟩ := Option.ite_none_right_eq_some.mp h
    exact .update hsafe rfl ⟨rfl, .inr (.inl rfl), .inl⟩ (fun _ => hrefl _) fun _ _ hold =>
      ⟨rfl, hold.pending, hold.retrieved, hold.rests⟩
  -- A node that was cloned has another's data, and it is neither of the two.
  | rebuilt n donor =>
    obtain ⟨-, ⟨⟩⟩ := Option.ite_none_right_eq_some.mp h
    exact .update hsafe rfl ⟨rfl, .inr (.inl rfl), .inl⟩
      (fun hend => absurd hend (not_or.mpr hm)) fun heq => absurd heq hm.1
  | stopIo n =>
    obtain ⟨-, ⟨⟩⟩ := Option.ite_none_right_eq_some.mp h
    exact .update hsafe rfl ⟨rfl, .inl rfl, .inl⟩ (fun _ => hrefl _) fun _ _ hold =>
      ⟨hold.source, hold.pending, hold.retrieved, hold.rests⟩

/-! ### Who can have commits acknowledged -/

/-- The replicas of set `rs` follow a semi-sync source only if it is in `S`, and so it is with
`W`. -/
structure Sole (rs : String) (W : Node) (S : Set Node) (F : FakeFleet) : Prop where
  semiSynced : F.SemiSynced
  sources : ∀ r ∈ F.order, (F.node r).rs = rs → ∀ src, (F.node r).source = some src →
    (F.node src).semisyncSource = true → src ∈ S
  candidate : (F.node W).semisyncSource = true → W ∈ S

section
variable {S : Set Node}

/-- `W` stays the only one that can acknowledge. -/
theorem Sole.follows (h : F.Sole rs W S) (hs : F.Safe ∅ F')
    (hnode : ∀ n, (F.node n).Follows W (n ∈ S) (F'.node n)) : F'.Sole rs W S where
  semiSynced := h.semiSynced.of_safe hs
  sources r hr hrs src hsource hsemi := by
    rcases (hnode src).semisyncSource hsemi with hsemi | hmem
    · rcases (hnode r).source with heq | heq | heq
      · exact h.sources r (hs.order ▸ hr) ((hnode r).rs ▸ hrs) src (heq ▸ hsource) hsemi
      · cases heq.symm.trans hsource
      · obtain rfl : W = src := Option.some.inj (heq.symm.trans hsource)
        exact h.candidate hsemi
    · exact hmem
  candidate hsemi := by
    rcases (hnode W).semisyncSource hsemi with hsemi | hmem
    · exact h.candidate hsemi
    · exact hmem

/-- What is newly acknowledged, a source of `S` has executed. -/
theorem Sole.acked {x : Gtid} (h : F'.Sole rs W S) (hs : F.Safe ∅ F') (hx : x ∈ F'.acked rs) :
    x ∈ F.acked rs ∨ ∃ src ∈ S, (F'.node src).semisyncSource = true ∧
      x ∈ (F'.node src).executed := by
  rcases hs.acked rs x hx with hx | ⟨r, hr, src, hrs, hsource, -, hsemi, hexec, -⟩ | ⟨p, hro, hno⟩
  · exact .inl hx
  · exact .inr ⟨src, h.sources r hr hrs src hsource hsemi, hsemi, hexec⟩
  · cases hno.symm.trans (h.semiSynced.writes p hro)

end

/-! ### The two ends of a handover -/

/-- Only `old` can have commits acknowledged, and it heads its set. -/
structure Headed (rs : String) (old W : Node) (final : Option GtidSet) (F : FakeFleet) : Prop where
  sole : F.Sole rs W {old}
  heads : (F.node old).Heads final
  acked : ∀ x ∈ F.acked rs, x ∈ (F.node old).executed

/-- Only `old` and `W` can have commits acknowledged. `W` has applied all of the final set `g`,
and `old` rests, or is no semi-sync source any more. -/
structure Caught (rs : String) (old W : Node) (g : GtidSet) (F : FakeFleet) : Prop where
  sole : F.Sole rs W {old, W}
  rests : (F.node old).semisyncSource = true → (F.node old).Heads (some g)
  acked : ∀ x ∈ F.acked rs, x ∈ (F.node W).executed
  final : g ⊆ (F.node W).executed

/-- The old primary keeps the final set. -/
theorem Headed.spared (h : F.Headed rs old W final) (hs : F.Spared old W F') :
    F'.Headed rs old W final := by
  have hsole := h.sole.follows hs.safe fun n => (hs.node n).mono False.elim
  refine ⟨hsole, hs.heads final h.heads, fun x hx => ?_⟩
  rcases hsole.acked hs.safe hx with hx | ⟨src, hsrc, -, hexec⟩
  · exact hs.executed old (.inl rfl) x (h.acked x hx)
  · obtain rfl : src = old := hsrc
    exact hexec

/-- Once the candidate has applied the final set, it has applied all that is acknowledged. -/
theorem Headed.caught (h : F.Headed rs old W (some g)) (hg : g ⊆ (F.node W).executed) :
    F.Caught rs old W g where
  sole :=
    { semiSynced := h.sole.semiSynced
      sources := fun r hr hrs src hsource hsemi => .inl (h.sole.sources r hr hrs src hsource hsemi)
      candidate := fun hsemi => .inl (h.sole.candidate hsemi) }
  rests _ := h.heads
  acked x hx := hg x ((h.heads.rests g rfl).2 x (h.acked x hx))
  final := hg

/-- What either end has acknowledged, the candidate has applied. -/
theorem Caught.follows (h : F.Caught rs old W g) (hsafe : F.Safe ∅ F')
    (hsole : F'.Sole rs W {old, W})
    (hrests : (F'.node old).semisyncSource = true → (F'.node old).Heads (some g))
    (hexec : (F.node W).executed ⊆ (F'.node W).executed) : F'.Caught rs old W g := by
  have hfinal := GtidSet.Subset.trans h.final hexec
  refine ⟨hsole, hrests, fun x hx => ?_, hfinal⟩
  rcases hsole.acked hsafe hx with hx | ⟨src, rfl | rfl, hsemi, hx⟩
  · exact hexec x (h.acked x hx)
  · -- `old` still acknowledges, so it rests, and all it has executed is in its final set
    exact hfinal x (((hrests hsemi).rests g rfl).2 x hx)
  · exact hx

/-- And `W` stays caught up with it. -/
theorem Caught.spared (h : F.Caught rs old W g) (hs : F.Spared old W F') :
    F'.Caught rs old W g := by
  refine h.follows hs.safe (h.sole.follows hs.safe fun n => (hs.node n).mono False.elim)
    (fun hsemi => ?_) (hs.executed W (.inr rfl))
  exact hs.heads _ (h.rests (((hs.node old).semisyncSource hsemi).resolve_right id))

/-- The candidate takes over, or a node comes to follow it. -/
theorem Caught.reassign {m : Move} (hne : W ≠ old) (h : F.Caught rs old W g)
    (hmove : F.move m = some F') (hm : m = .promote W ∨ ∃ n, m = .repoint n (some W)) :
    F'.Caught rs old W g := by
  have hsafe : F.Safe ∅ F' := safe_of_move hmove fun n hn => hn.elim
  -- Only the node of the move changes, and keeps what it has executed.
  have hnode : ∀ n, F'.node n = F.node n ∨
      (F'.node n).rs = (F.node n).rs ∧ (F'.node n).executed = (F.node n).executed ∧
        (((F'.node n).source = none ∧ n = W) ∨
          ((F'.node n).source = some W ∧ (F'.node n).semisyncSource = false)) := by
    intro n
    rcases hm with rfl | ⟨k, rfl⟩
    · obtain ⟨-, ⟨⟩⟩ := Option.ite_none_right_eq_some.mp hmove
      by_cases hn : n = W
      · subst hn
        unfold promote
        rw [modify_node_self]
        exact .inr ⟨rfl, rfl, .inl ⟨rfl, rfl⟩⟩
      · exact .inl (modify_node_of_ne _ hn)
    · obtain ⟨-, ⟨⟩⟩ := Option.ite_none_right_eq_some.mp hmove
      by_cases hn : n = k
      · subst hn
        unfold repoint
        rw [modify_node_self]
        exact .inr ⟨rfl, rfl, .inr ⟨rfl, rfl⟩⟩
      · exact .inl (modify_node_of_ne _ hn)
  have hsole : F'.Sole rs W {old, W} := by
    refine h.sole.follows hsafe fun n => ?_
    rcases hnode n with heq | ⟨hrs, -, ⟨hnone, rfl⟩ | ⟨hW, hsemi⟩⟩
    · rw [heq]
      exact ⟨rfl, .inl rfl, .inl⟩
    · exact ⟨hrs, .inr (.inl hnone), fun _ => .inr (.inr rfl)⟩
    · exact ⟨hrs, .inr (.inr hW), fun hs => by cases hsemi.symm.trans hs⟩
  refine h.follows hsafe hsole (fun hsemi => ?_) ?_
  · rcases hnode old with heq | ⟨-, -, ⟨-, heq⟩ | ⟨-, hno⟩⟩
    · rw [heq] at hsemi ⊢
      exact h.rests hsemi
    · exact absurd heq.symm hne
    · cases hno.symm.trans hsemi
  · rcases hnode W with heq | ⟨-, heq, -⟩
    · rw [heq]
      exact GtidSet.Subset.refl _
    · rw [heq]
      exact GtidSet.Subset.refl _

end FakeFleet

end DbGuard
